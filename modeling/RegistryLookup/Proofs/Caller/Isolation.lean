import RegistryLookup.Proofs.Breaker.Moves
import RegistryLookup.Proofs.Caller.Token
import RegistryLookup.Proofs.Caller.Wakeful

/-!
# Cancelled calls beside calls that are not

A call whose token does not fire is not cancelled, whatever happens to the calls with which it
shares a flight: the failure of a flight that is shared is that of an attempt after which no other
could follow, and a flight that was cancelled or dropped is handed over (`cancellation_isolated`).

* `Settled`: the result of a call is that of its last attempt.
* `Spared`: the invariant of a call whose token does not fire.
-/

namespace RegistryLookup.Caller

open Flight

variable {α : Type} {x : World α} {es : List (Event α)}

/-- A result is that of the last attempt that a call has made, and no other could follow. -/
def Settled (x : World α) (es : List (Event α)) (n l : Nat) (r : Except Failure α) : Prop :=
  ∃ i p q j o s, Attempt x es n l i p q j o s ∧ o.result = r ∧ x.state.policy.Settles j r ∧
    ∀ (k : Nat) (a : Retry.Entry α), q < k →
      (log (worldAt x es n).state)[k]? = some a → a.call ≠ l

/-- A call that has ended makes no entries in the log. -/
theorem call_ne_of_ended (h : x.state.Sound) {e : Event α} {l k : Nat} {E : Ending α}
    {a : Retry.Entry α} (hp : phase? x.state l = some (.ended E)) (hk : (log x.state).length ≤ k)
    (ha : (log (step x e).state)[k]? = some a) : a.call ≠ l := by
  rcases log_cases h e with hlog | ⟨c, call, answers, fired, loop, t, -, ht⟩
  · rw [hlog, List.getElem?_eq_none hk] at ha
    cases ha
  · obtain ⟨notice, -, rfl⟩ := ht.notice hk ha
    rintro rfl
    rcases ht.origin with hlead | ⟨hopen, -⟩
    · rw [hp] at hlead; cases hlead
    · exact hopen _ hp rfl

theorem Settled.succ (hx : x.state.Sound) {n l : Nat} {r : Except Failure α} {E : Ending α}
    (h : Settled x es n l r) (hp : phase? (worldAt x es n).state l = some (.ended E)) :
    Settled x es (n + 1) l r := by
  obtain ⟨i, p, q, j, o, s, hat, hr, hs, hlast⟩ := h
  refine ⟨i, p, q, j, o, s, hat.mono hx (Nat.le_succ n), hr, hs, fun k a hqk ha => ?_⟩
  rcases Nat.lt_or_ge k (mark x es n) with hk | hk
  · rw [getElem?_log_of_lt hx (Nat.le_succ n) hk] at ha
    exact hlast k a hqk ha
  · rcases worldAt_cases x es n with ⟨-, hsame⟩ | ⟨e, -, hstep⟩
    · rw [hsame] at ha
      exact absurd (lt_mark ha) (Nat.not_lt.2 hk)
    · rw [hstep] at ha
      exact call_ne_of_ended (worldAt_sound hx n) hp hk ha

/-- A loop that ends in an event with its last attempt. -/
theorem settled_of_tries (hx : x.state.Fresh) {n c : Nat} {e : Event α} {call : Call α}
    {answers : Answers α} {fired : Bool} {loop : Retry.Loop α} {t : Retry.Turn α}
    (he : es[n]? = some e) (ht : Tries (worldAt x es n) e c call answers fired loop t)
    {j : UInt32} {r : Except Failure α} (hlast : t.notices.getLast? = some (.ended j r))
    (hs : x.state.policy.Settles j r) : Settled x es (n + 1) c r := by
  have hat : t.notices[t.notices.length - 1]? = some (.ended j r) := by
    rw [← List.getLast?_eq_getElem?]
    exact hlast
  have hentry := ht.getElem?_notice hat
  rw [← worldAt_succ x he] at hentry
  obtain ⟨i, p, o, hattempt, hr⟩ := (logged hx (n + 1)).ended _ _ _ _ _ hentry
  refine ⟨i, p, _, j, o, _, hattempt, hr, hs, fun k a hk ha => ?_⟩
  -- nothing comes behind the last notice of the turn
  have hlt := lt_mark ha
  unfold mark at hlt
  rw [worldAt_succ x he, ht.logged, List.length_append, entries, List.length_map] at hlt
  omega

/-- Where a call that leads its flight comes to its end and publishes a failure, its loop was not cut
short. -/
theorem settled_of_leg (hx : x.state.Fresh) (hplaced : Placed x.state) {n l t : Nat} {e : Event α}
    {call : Call α} {f : Failure} (he : es[n]? = some e)
    (h : Leg (worldAt x es n) e l call (.ended ⟨.error f, .leader true, t⟩)) :
    Settled x es (n + 1) l (.error f) := by
  generalize hp : (Phase.ended ⟨.error f, .leader true, t⟩ : Phase (Load α) α) = p at h
  cases h with
  | tries answers fired loop t ht =>
    have hhalt := Retry.turn_halted answers (worldAt x es n).now fired
      (ht.within (worldAt_placed hplaced n))
    rw [← ht.turn] at hhalt
    cases hrest : t.rest with
    | inl loop' => rw [hrest] at hp; cases hp
    | inr r =>
      rw [hrest] at hp hhalt
      simp only [afterTurn, Phase.ended.injEq, Ending.mk.injEq, Role.leader.injEq] at hp
      obtain ⟨rfl, hpublished, -⟩ := hp
      cases hhalt with
      | cancelled hf => rw [hf] at hpublished; cases hpublished
      | settled j r hlast hs =>
        rw [policy_worldAt] at hs
        exact settled_of_tries hx he ht hlast hs
  | _ => cases hp

/-- **A failure that is published is that of a last attempt.** -/
theorem settled_of_published (hx : x.state.Fresh) (hplaced : Placed x.state) {n l t : Nat}
    {f : Failure}
    (hp : phase? (worldAt x es n).state l = some (.ended ⟨.error f, .leader true, t⟩)) :
    Settled x es n l (.error f) := by
  induction n with
  | zero =>
    rw [worldAt_zero] at hp
    obtain ⟨call, hc, -⟩ := hx.abreast.landed l _ hp
    rw [hx.calls] at hc; cases hc
  | succ n ih =>
    have hsound : (worldAt x es n).state.Sound := worldAt_sound hx.sound n
    by_cases hbefore : phase? (worldAt x es n).state l = some (.ended ⟨.error f, .leader true, t⟩)
    · exact (ih hbefore).succ hx.sound hbefore
    rcases worldAt_cases x es n with ⟨-, hsame⟩ | ⟨e, he, hstep⟩
    · rw [hsame] at hp
      exact absurd hp hbefore
    · rw [hstep] at hp
      obtain ⟨call, -, hleg⟩ := leg_of_ended hsound hbefore hp
      exact settled_of_leg hx hplaced he hleg

/-- A call ends in its own turn. -/
theorem ending?_before (h : Placed x.state) {e : Event α} {c t : Nat} {r : Except Failure α}
    (hr : (step x e).state.ending? c = some (r, t)) : x.state.ending? c = some (r, t) ∨
      ∃ answers, e = .turn c answers ∧ .call c ∈ x.ready := by
  obtain ⟨call, hc, hs⟩ := ending?_eq_some.1 hr
  have hnone : doing? (step x e).state c = none :=
    doing?_of_over hc (by unfold Call.isOpen; rw [hs])
  rcases calls_known x e hc with ⟨stage, hbefore⟩ | ⟨fired, rfl⟩
  swap
  · -- a call that comes in again changes nothing
    cases hknown : x.state.calls.get? c with
    | some call₀ => rw [step_of_known hknown] at hr; exact Or.inl hr
    | none =>
      simp only [step, hknown, Option.isSome_none, Bool.false_eq_true, if_false,
        Clock.World.state_wake, doing?_start] at hnone
      cases hnone
  cases ho : ({ call with stage := stage } : Call α).isOpen with
  | false =>
    have hsame := over_step x e hbefore ho
    rw [hc] at hsame
    exact Or.inl (ending?_eq_some.2 ⟨_, hbefore, by rw [← hs, Option.some.inj hsame]⟩)
  | true =>
    -- it goes on with what it does, unless it has a turn
    obtain ⟨d, hd⟩ := h.doing hbefore ho
    rcases turn_or_noTurn x e c with hturn | hidle
    · exact Or.inr hturn
    · by_cases hdrop : e = .abort c
      · obtain ⟨call₁, hc₁, hs₁⟩ : IsDropped (step x e).state c := by
          rw [hdrop]
          exact .of_doing hd
        rw [hc] at hc₁; cases hc₁
        rw [hs] at hs₁; cases hs₁
      · rw [doing?_after h.sound hidle hdrop hd] at hnone
        cases hnone

/-- A call that ended so has the result of a flight that was published. -/
def Shares (s : Caller α) (E : Ending α) : Prop :=
  E.role = .leader true ∨
    ∃ l t, E.role = .served l ∧ phase? s l = some (.ended ⟨E.result, .leader true, t⟩)

/-- A call whose token has not fired, or that is over, and then not because of its token. -/
structure Spared (s : Caller α) (c : Nat) : Prop where
  unfired : ∀ d, doing? s c = some d → fired? s c = false
  shares : ∀ E, phase? s c = some (.ended E) → Shares s E
  ended : ∀ r t, s.ending? c = some (r, t) → (∃ E, phase? s c = some (.ended E) ∧ E.result = r) ∨
    ∃ f, r = .error f ∧ f ≠ .cancelled

theorem Shares.step (h : x.state.Sound) (e : Event α) {E : Ending α}
    (hs : Shares x.state E) : Shares (step x e).state E := by
  rcases hs with hrole | ⟨l, t, hrole, hp⟩
  · exact Or.inl hrole
  · exact Or.inr ⟨l, t, hrole, ended_stays h e hp⟩

theorem landed_phase {s : Caller α} {l : Nat} {r : Except Failure α}
    (h : s.flights.fate l = .landed r) :
    ∃ t, phase? s l = some (.ended ⟨r, .leader true, t⟩) := by
  rw [fate_eq] at h
  cases hp : phase? s l with
  | none => rw [hp] at h; cases h
  | some p =>
    rw [hp] at h
    simp only [Option.elim_some] at h
    unfold Phase.fate at h
    split at h
    · cases h
    · rename_i t
      cases h
      exact ⟨t, rfl⟩
    · cases h

/-- How a call ends among the flights whose token has not fired. -/
theorem Sailed.shares {c : Nat} {answers : Answers α} {call : Call α}
    {ns : List (Retry.Notice α)} {E : Ending α}
    (h : Sailed x c answers call false ns (.ended E)) : Shares x.state E := by
  have hturn : ∀ {rest : Retry.Loop α ⊕ Except Failure α},
      afterTurn call false x.now rest = .ended E → Shares x.state E := by
    intro rest hrest
    cases rest with
    | inl loop => cases hrest
    | inr r => cases hrest; exact Or.inl rfl
  generalize hp : (Phase.ended E : Phase (Load α) α) = p at h
  generalize hf : false = fired at h
  cases h with
  | rests => cases hp
  | givesUp => cases hf
  | waits => cases hp
  | served l load r _ hl =>
    cases hp
    obtain ⟨t, ht⟩ := landed_phase hl
    exact Or.inr ⟨l, t, rfl, ht⟩
  | found => cases hp; exact Or.inl rfl
  | begins => exact hturn hp.symm
  | goesOn fired => subst hf; exact hturn hp.symm

theorem Spared.unfired_step (hplaced : Placed x.state) {c : Nat} (h : Spared x.state c)
    {e : Event α} (he : e.fires c = false) {d : Doing α}
    (hd : doing? (step x e).state c = some d) : fired? (step x e).state c = false := by
  rw [fired?_step hplaced he hd]
  cases hc : x.state.calls.get? c with
  | none => exact fired?_of_unknown hc
  | some call =>
    cases ho : call.isOpen with
    | true =>
      obtain ⟨d', hd'⟩ := hplaced.doing hc ho
      exact h.unfired d' hd'
    | false =>
      rw [doing?_of_over (over_step x e hc ho) ho] at hd
      cases hd

theorem Spared.shares_step (hplaced : Placed x.state) {c : Nat} (h : Spared x.state c)
    (e : Event α) {E : Ending α} (hE : phase? (step x e).state c = some (.ended E)) :
    Shares (step x e).state E := by
  by_cases hbefore : phase? x.state c = some (.ended E)
  · exact (h.shares E hbefore).step hplaced.sound e
  obtain ⟨-, answers, rfl⟩ := ended_at hplaced.sound hbefore hE
  rcases quiet_or_flies hplaced c answers with hflights | ⟨call, ns, p, ⟨d, hd⟩, -, hflies⟩
  · -- nothing has changed among the flights
    unfold phase? at hE hbefore
    rw [hflights] at hE
    exact absurd hE hbefore
  · rw [h.unfired d hd] at hflies
    rw [phase?_eq hflies.there] at hE; cases hE
    exact hflies.sailed.shares.step hplaced.sound _

theorem Spared.ended_step (hplaced : Placed x.state) {c : Nat} (h : Spared x.state c)
    (e : Event α) {r : Except Failure α} {t : Nat}
    (hr : (step x e).state.ending? c = some (r, t)) :
    (∃ E, phase? (step x e).state c = some (.ended E) ∧ E.result = r) ∨
      ∃ f, r = .error f ∧ f ≠ .cancelled := by
  rcases ending?_before hplaced hr with hbefore | ⟨answers, rfl, hready⟩
  · refine (h.ended r t hbefore).imp_left ?_
    rintro ⟨E, hE, hresult⟩
    exact ⟨E, ended_stays hplaced.sound e hE, hresult⟩
  obtain ⟨call', hc', hs'⟩ := ending?_eq_some.1 hr
  cases took hplaced answers hready with
  | rests hsame =>
    rw [hsame] at hr ⊢
    exact h.ended r t hr
  | turnedAway call f _ _ hf _ hafter =>
    rw [hafter] at hc'; cases hc'; cases hs'
    exact Or.inr ⟨f, rfl, hf⟩
  | cancelled call _ hd hf =>
    -- its token would have fired
    rcases hd with hd | hd
    · rw [h.unfired _ hd] at hf; cases hf
    · rw [h.unfired _ hd] at hf; cases hf
  | queues _ _ _ _ _ _ hafter => rw [hafter] at hc'; cases hc'; cases hs'
  | flies call fired ns p _ _ _ _ hflies hafter =>
    rw [hafter] at hc'; cases hc'
    cases p with
    | ended E => cases hs'; exact Or.inl ⟨E, phase?_eq hflies.there, rfl⟩
    | _ => cases hs'

theorem spared (hx : x.state.Fresh) (hplaced : Placed x.state) {c : Nat}
    (hes : ∀ e ∈ es, e.fires c = false) (n : Nat) : Spared (worldAt x es n).state c := by
  have hboth : Placed (worldAt x es n).state ∧ Spared (worldAt x es n).state c := by
    refine Trace.after_invariant (P := fun (y : World α) => Placed y.state ∧ Spared y.state c)
      ⟨hplaced, ?_, ?_, ?_⟩ ?_ n
    · intro d hd
      obtain ⟨call, hc, -⟩ := open_of_doing hd
      rw [hx.calls] at hc; cases hc
    · intro E hE
      obtain ⟨call, hc⟩ := hx.sound.known hE
      rw [hx.calls] at hc; cases hc
    · intro r t hr
      obtain ⟨call, hc, -⟩ := ending?_eq_some.1 hr
      rw [hx.calls] at hc; cases hc
    · rintro y e he ⟨hy, hs⟩
      exact ⟨placed_step hy e, fun d => hs.unfired_step hy (hes e he), fun E => hs.shares_step hy e,
        fun r t => hs.ended_step hy e⟩
  exact hboth.2

/-- What a call has, or waits for, whose token does not fire. -/
structure Isolated (x : World α) (es : List (Event α)) (n c : Nat) : Prop where
  uncancelled : ∀ t, (worldAt x es n).state.ending? c ≠ some (.error .cancelled, t)
  /-- A result that it has from a flight is a value, or that of the last attempt of the call that
  led the flight. -/
  result : ∀ E, phase? (worldAt x es n).state c = some (.ended E) → (∃ v, E.result = .ok v) ∨
    ∃ l, Settled x es n l E.result ∧
      (∃ t, phase? (worldAt x es n).state l = some (.ended ⟨E.result, .leader true, t⟩)) ∧
      ((l = c ∧ E.role = .leader true) ∨ E.role = .served l)
  /-- When it waits for a flight, that is under way, or the call is about to have its turn. -/
  waiting : ∀ l, doing? (worldAt x es n).state c = some (.waiting l) →
    .call c ∈ (worldAt x es n).ready ∨
      ∃ key, HasKey (worldAt x es n).state c key ∧ (worldAt x es n).state.flights.Leads key l

/-- Whether an attempt has come to a cancellation. -/
def endsCancelled (a : Retry.Entry α) : Bool :=
  match a.notice with
  | .ended _ r => isCancelled r
  | _ => false

/-- What a call has from a flight is a value, or the failure of a last attempt. -/
theorem Shares.settled (hx : x.state.Fresh) (hplaced : Placed x.state) {n c : Nat} {E : Ending α}
    (h : Shares (worldAt x es n).state E) (hE : phase? (worldAt x es n).state c = some (.ended E)) :
    (∃ v, E.result = .ok v) ∨ ∃ l, Settled x es n l E.result ∧
      (∃ t, phase? (worldAt x es n).state l = some (.ended ⟨E.result, .leader true, t⟩)) ∧
      ((l = c ∧ E.role = .leader true) ∨ E.role = .served l) := by
  obtain ⟨r, role, t⟩ := E
  cases r with
  | ok v => exact Or.inl ⟨v, rfl⟩
  | error f =>
    right
    rcases h with hrole | ⟨l, s, hrole, hp⟩
    · obtain rfl : role = .leader true := hrole
      exact ⟨c, settled_of_published hx hplaced hE, ⟨t, hE⟩, Or.inl ⟨rfl, rfl⟩⟩
    · exact ⟨l, settled_of_published hx hplaced hp, ⟨s, hp⟩, Or.inr hrole⟩

/-- Whoever waits for a flight under way waits for a flight for its key. -/
theorem leads_of_waiting {s : Caller α} (h : s.Sound) {c l : Nat}
    (hd : doing? s c = some (.waiting l)) (hl : s.flights.fate l = .flying) :
    ∃ key, HasKey s c key ∧ s.flights.Leads key l := by
  obtain ⟨load, hp⟩ := phase_of_waiting hd
  obtain ⟨call, hc⟩ := h.known hp
  obtain ⟨key, fired, task, hlead⟩ := (Flights.fate_flying_iff _ _).1 hl
  obtain ⟨lcall, hlc, hkey⟩ := (h.waits hp).2 call.key ⟨call, hc, rfl⟩
  have hcarries : key = lcall.key := (h.carries hlc hlead).sameKey
  exact ⟨call.key, ⟨call, hc, rfl⟩, fired, task, by rw [← hkey, ← hcarries]; exact hlead⟩

/-- **Cancellation is isolated.** Where no attempt comes to a cancellation, a call whose token does
not fire is not cancelled, has no failure from a flight that was cut short, and waits for no flight
that is over. -/
theorem cancellation_isolated (name : String) (settings : Config.Settings) (now : Nat)
    (es : List (Event α)) (n c : Nat) (hc : ∀ e ∈ es, e.fires c = false)
    (hes : ∀ a ∈ log (worldAt (dawn name settings now) es n).state, endsCancelled a = false) :
    Isolated (dawn name settings now) es n c := by
  have hx : (dawn name settings now : World α).state.Fresh := make_fresh name settings now
  have hplaced : Placed (dawn name settings now : World α).state := make_placed name settings now
  have hwakeful : Wakeful (worldAt (dawn name settings now) es n) :=
    worldAt_wakeful (dawn_wakeful name settings now) n
  have hspared := spared hx hplaced hc n
  refine ⟨fun t ht => ?_, fun E hE => (hspared.shares E hE).settled hx hplaced hE, fun l hl => ?_⟩
  · rcases hspared.ended _ _ ht with ⟨E, hE, hresult⟩ | ⟨f, hf, hne⟩
    · rcases (hspared.shares E hE).settled hx hplaced hE with ⟨v, hv⟩ | ⟨l, hsettled, -, -⟩
      · rw [hv] at hresult; cases hresult
      · -- the last attempt of the flight would have come to a cancellation
        obtain ⟨i, p, q, j, o, s, hat, ho, -, -⟩ := hsettled
        have hno := hes _ (List.mem_of_getElem? hat.entry)
        rw [ho, hresult] at hno
        cases hno
    · cases hf
      exact hne rfl
  · refine (hwakeful.woken c _ hl).imp_right fun hwait => ?_
    cases hwait with
    | waiting l _ hfly => exact leads_of_waiting hwakeful.placed.sound hl hfly

/-- Two attempts for each call. -/
def twoAttempts : Config.Settings where
  retries := { maxAttempts := 2 }

/-- A call leads a flight for which two others wait. It is cancelled in the rest after its first
attempt, and the next leader is dropped. -/
def leadersGone : List (Event Nat) :=
  [.call 0 "k" 60 false,
    .turn 0 (fun _ => { takes := some 5, result := .error (.serverError 503 "down") }),
    .call 1 "k" 60 false, .turn 1 silence, .call 2 "k" 60 false, .turn 2 silence, .pass 5,
    .turn 0 silence, .fire 0, .turn 0 silence, .turn 1 silence, .turn 2 silence, .abort 1,
    .turn 2 (fun _ => { result := .error (.notFound "k") })]

/-- The third call has the answer to its own attempt. -/
theorem leadersGone_isolated :
    (∀ e ∈ leadersGone, e.fires 2 = false) ∧
    (∀ a ∈ log (worldAt (dawn "r" twoAttempts 0) leadersGone 14).state, endsCancelled a = false) ∧
    (worldAt (dawn "r" twoAttempts 0) leadersGone 14).state.ending? 2 =
      some (.error (.notFound "k"), 5) ∧
    Isolated (dawn "r" twoAttempts 0) leadersGone 14 2 :=
  ⟨by decide, by decide, rfl,
    cancellation_isolated "r" twoAttempts 0 leadersGone 14 2 (by decide) (by decide)⟩

end RegistryLookup.Caller
