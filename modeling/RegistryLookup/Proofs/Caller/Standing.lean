import RegistryLookup.Proofs.Caller.Reports
import RegistryLookup.Proofs.Caller.Sailing

/-!
# What a turn comes to

The turn of a call turns it away, cancels it, puts it into the queue for permits, or takes place
among the flights (`took`). After every event a call with a permit is doing something among the
flights, and its loop stays within the limit of attempts (`Placed`).

* `Took`: what the turn of a ready call comes to.
* `quiet_or_flies`: what a turn does among the flights.
* `worldAt_placed`: the invariant holds at every point of a run.
-/

namespace RegistryLookup.Caller

open Flight

variable {α : Type} {x : World α} {es : List (Event α)}

/-- Whoever has a permit is doing something among the flights. -/
structure Placed (s : Caller α) : Prop where
  sound : s.Sound
  room : 0 < s.policy.maxAttempts
  seaworthy : ∀ c load loop, phase? s c = some (.leading load) → load.stage = .trying loop →
    Seaworthy s loop
  aboard : ∀ c call, s.calls.get? c = some call → call.stage = .admitted →
    ∃ p d, phase? s c = some p ∧ phaseDoing p = some d

/-- A call with a permit is ready for a turn among the flights. -/
theorem Placed.ready (h : Placed x.state) {c : Nat} {call : Call α}
    (hc : x.state.calls.get? c = some call) (hs : call.stage = .admitted) :
    ∃ fcall, x.state.flights.calls.get? c = some fcall ∧ Ready x fcall := by
  obtain ⟨p, d, hp, hd⟩ := h.aboard c call hc hs
  obtain ⟨⟨key, fired, phase⟩, hf, rfl⟩ := Option.map_eq_some_iff.1 hp
  refine ⟨_, hf, ?_⟩
  cases phase with
  | arriving => cases hd
  | waiting l load => exact .waits key fired l load
  | leading load => exact .leads key fired load fun loop hloop => h.seaworthy c load loop hp hloop
  | ended => cases hd
  | dropped => cases hd

/-- The stage in which a turn among the flights leaves a call. -/
def afterwards (now : Nat) : Phase (Load α) α → Stage α
  | .ended E => .ended E.result now
  | _ => .admitted

/-- What the turn of a ready call comes to. -/
inductive Took (x : World α) (c : Nat) (answers : Answers α) : Prop
  /-- The call is not under way, or still waits for a permit. -/
  | rests (hsame : (step x (.turn c answers)).state = x.state)
      (h : doing? x.state c = none ∨
        (doing? x.state c = some .queued ∧ fired? x.state c = false))
  /-- The caller is closed, or the breaker refuses the call. -/
  | turnedAway (call : Call α) (e : Failure) (hc : x.state.calls.get? c = some call)
      (hd : doing? x.state c = some .arriving ∨
        (doing? x.state c = some .queued ∧ fired? x.state c = false))
      (he : e ≠ .cancelled)
      (hflights : (step x (.turn c answers)).state.flights = x.state.flights)
      (hafter : (step x (.turn c answers)).state.calls.get? c =
        some { call with stage := .ended (.error e) x.now })
  /-- Its token has fired before it got a permit. -/
  | cancelled (call : Call α) (hc : x.state.calls.get? c = some call)
      (hd : doing? x.state c = some .arriving ∨ doing? x.state c = some .queued)
      (hf : fired? x.state c = true)
      (hflights : (step x (.turn c answers)).state.flights = x.state.flights)
      (hafter : (step x (.turn c answers)).state.calls.get? c =
        some { call with stage := .ended (.error .cancelled) x.now })
  /-- The breaker admits it, and it has to wait for a permit. -/
  | queues (call : Call α) (hc : x.state.calls.get? c = some call)
      (hd : doing? x.state c = some .arriving) (hf : fired? x.state c = false)
      (ha : admittedBy x (.turn c answers) = some c)
      (hflights : (step x (.turn c answers)).state.flights = x.state.flights)
      (hafter : (step x (.turn c answers)).state.calls.get? c =
        some { call with stage := .queued false })
  /-- It has a permit, or is given one, and takes its turn among the flights. -/
  | flies (call : Call α) (fired : Bool) (ns : List (Retry.Notice α)) (p : Phase (Load α) α)
      (hc : x.state.calls.get? c = some call) (hd : ∃ d, doing? x.state c = some d)
      (hf : fired? x.state c = fired)
      (ha : doing? x.state c = some .arriving → admittedBy x (.turn c answers) = some c)
      (h : Flies x c answers call fired ns p)
      (hafter : (step x (.turn c answers)).state.calls.get? c =
        some { call with stage := afterwards x.now p })

section Turn

variable {c : Nat} {answers : Answers α} {call : Call α}

/-- What a call is doing after its turn among the flights. -/
theorem Flies.doing_eq {fired : Bool} {ns : List (Retry.Notice α)} {p : Phase (Load α) α}
    (h : Flies x c answers call fired ns p)
    (hafter : (step x (.turn c answers)).state.calls.get? c =
      some { call with stage := afterwards x.now p }) :
    doing? (step x (.turn c answers)).state c = phaseDoing p := by
  cases p with
  | ended E => rw [doing?_of_over hafter rfl]; rfl
  | _ => rw [doing?_of_admitted hafter rfl, phase?_eq h.there]; rfl

/-- A call goes on among the flights, or it ends there. -/
theorem took_of_proceed (h : Placed x.state) {s : Caller α}
    (hx : (step x (.turn c answers)).state = s.proceed answers x.now c call)
    (hpolicy : s.policy = x.state.policy) (hname : s.name = x.state.name)
    (hc : x.state.calls.get? c = some call)
    (hstage : s.calls.get? c = some { call with stage := .admitted })
    (hb : Boarding x.state c call s.flights) {fcall : Flight.Call (Load α) α}
    (hfc : s.flights.calls.get? c = some fcall) (hready : Ready x fcall)
    (hd : ∃ d, doing? x.state c = some d) (hf : fired? x.state c = fcall.fired)
    (ha : doing? x.state c = some .arriving → admittedBy x (.turn c answers) = some c) :
    Took x c answers := by
  obtain ⟨fcall', hfc', hcar⟩ := hb.carries h.sound hc
  rw [hfc] at hfc'; cases hfc'
  have hflights : (step x (.turn c answers)).state.flights =
      s.flights.turn (loadWork x.state.policy x.state.name) answers x.now c := by
    rw [hx, flights_proceed, hpolicy, hname]
  have haboard : Aboard x c answers call s.flights fcall :=
    ⟨h.sound, hc, hb, hfc, hcar, hflights⟩
  obtain ⟨ns, p, hflies⟩ := haboard.flies hready
  refine .flies call fcall.fired ns p hc hd hf ha hflies ?_
  -- the phase says whether the call has ended
  have hending : ∀ E, (s.flights.turn (loadWork s.policy s.name) answers x.now c).ending? c = some E ↔
      p = .ended E := by
    intro E
    rw [hpolicy, hname, ← hflights, ending?_eq_some_iff, phase?_eq hflies.there, Option.some_inj]
  rcases proceed_cases answers x.now c call s with ⟨hnone, hp⟩ | ⟨E, hE, hp⟩
  · rw [hx, hp]
    cases p with
    | ended E => rw [(hending E).2 rfl] at hnone; cases hnone
    | _ => exact hstage
  · obtain rfl := (hending E).1 hE
    rw [hx, hp]
    exact Table.get?_put_self _ _ _

/-- A call that has just got its permit. -/
theorem took_of_board (h : Placed x.state) {s : Caller α}
    (hx : (step x (.turn c answers)).state = board answers x.now c call false s)
    (hflights : s.flights = x.state.flights) (hpolicy : s.policy = x.state.policy)
    (hname : s.name = x.state.name) (hc : x.state.calls.get? c = some call)
    (hs : call.stage.isAshore = true) (hd : ∃ d, doing? x.state c = some d)
    (hf : fired? x.state c = false)
    (ha : doing? x.state c = some .arriving → admittedBy x (.turn c answers) = some c) :
    Took x c answers := by
  have hboards : Boarding x.state c call
      (s.flights.start c call.key false { key := call.key, ttl := call.ttl }) := by
    rw [hflights]
    exact .comes (h.sound.ashore c call hc hs)
  have hthere : (s.flights.start c call.key false { key := call.key, ttl := call.ttl }).calls.get? c =
      some ⟨call.key, false, .arriving { key := call.key, ttl := call.ttl }⟩ :=
    Table.get?_put_self _ _ _
  exact took_of_proceed h hx hpolicy hname hc (Table.get?_put_self _ _ _) hboards hthere
    (.comes _ _) hd hf ha

/-- The turn of a call among the flights that had its permit before. -/
theorem took_admitted (h : Placed x.state) (hr : .call c ∈ x.ready)
    (hc : x.state.calls.get? c = some call) (hs : call.stage = .admitted) : Took x c answers := by
  have hx : (step x (.turn c answers)).state = x.state.proceed answers x.now c call := by
    rw [state_turn hr]
    unfold turn
    simp only [hc, hs]
  have hdoing := doing?_of_admitted hc hs
  obtain ⟨p, d, hp, hd⟩ := h.aboard c call hc hs
  rw [hp, Option.bind_some, hd] at hdoing
  obtain ⟨fcall, hfc, hready⟩ := h.ready hc hs
  refine took_of_proceed h hx rfl rfl hc ?_ (.there fcall hfc) hfc hready ⟨d, hdoing⟩
    (fired?_of_admitted hc hs hfc) (fun harr => ?_)
  · obtain ⟨key, ttl, stage⟩ := call
    cases hs
    exact hc
  · -- nobody arrives among the flights
    rw [hdoing] at harr; cases harr
    exact absurd rfl (ne_of_phaseDoing hd).1

/-- The first turn of a call. -/
theorem took_arriving (h : Placed x.state) (hr : .call c ∈ x.ready) {fired : Bool}
    (hc : x.state.calls.get? c = some call) (hs : call.stage = .arriving fired) :
    Took x c answers := by
  have hx : (step x (.turn c answers)).state = x.state.turn answers x.now c := state_turn hr answers
  have hd := doing?_of_arriving hc hs
  have hf := fired?_of_arriving hc hs
  cases turn_cases answers x.now c x.state with
  | rest _ hno => exact absurd hs (hno call fired hc)
  | turnedAway call₁ fired₁ p hc₁ _ _ _ ht =>
    rw [hc] at hc₁; cases hc₁
    exact .turnedAway call (closedFailure x.state.name) hc (Or.inl hd) (fun h => by cases h)
      (by rw [hx, ht]; rfl) (by rw [hx, ht]; exact Table.get?_put_self _ _ _)
  | refused call₁ fired₁ hc₁ _ _ _ ht =>
    rw [hc] at hc₁; cases hc₁
    refine .turnedAway call (.circuitOpen x.state.breaker.circuit x.state.breaker.failures
      (x.state.breaker.retryAfter x.now)) hc (Or.inl hd) (fun h => by cases h)
      (by rw [hx, ht]; rfl) (by rw [hx, ht]; exact Table.get?_put_self _ _ _)
  | cancelled call₁ hc₁ hs₁ _ _ ht =>
    rw [hc] at hc₁; cases hc₁
    rw [hs] at hs₁; cases hs₁
    exact .cancelled call hc (Or.inl hd) hf (by rw [hx, ht]; rfl)
      (by rw [hx, ht]; exact Table.get?_put_self _ _ _)
  | queues call₁ hc₁ hs₁ hclosed hb ht =>
    rw [hc] at hc₁; cases hc₁
    rw [hs] at hs₁; cases hs₁
    exact .queues call hc hd hf (admittedBy_of_arriving hr hc hs hclosed hb) (by rw [hx, ht]; rfl)
      (by rw [hx, ht]; exact Table.get?_put_self _ _ _)
  | boards call₁ hc₁ hs₁ hclosed hb ht =>
    rw [hc] at hc₁; cases hc₁
    rw [hs] at hs₁; cases hs₁
    exact took_of_board h (hx.trans ht) rfl rfl rfl hc (by rw [hs]; rfl) ⟨_, hd⟩ hf
      (fun _ => admittedBy_of_arriving hr hc hs hclosed hb)
  | leaves call₁ hc₁ hs₁ => rw [hc] at hc₁; cases hc₁; rw [hs] at hs₁; cases hs₁
  | claims call₁ hc₁ hs₁ => rw [hc] at hc₁; cases hc₁; rw [hs] at hs₁; cases hs₁
  | proceeds call₁ hc₁ hs₁ => rw [hc] at hc₁; cases hc₁; rw [hs] at hs₁; cases hs₁

/-- A turn of a call in the queue for permits. -/
theorem took_queued (h : Placed x.state) (hr : .call c ∈ x.ready) {fired : Bool}
    (hc : x.state.calls.get? c = some call) (hs : call.stage = .queued fired) :
    Took x c answers := by
  have hx : (step x (.turn c answers)).state = x.state.await answers x.now c call fired := by
    rw [state_turn hr]
    unfold turn
    simp only [hc, hs]
  have hd := doing?_of_queued hc hs
  have hf := fired?_of_queued hc hs
  unfold await at hx
  -- the token is looked at first
  cases fired with
  | true =>
    simp only [if_true] at hx
    exact .cancelled call hc (Or.inr hd) hf (by rw [hx]; rfl)
      (by rw [hx]; exact Table.get?_put_self _ _ _)
  | false =>
    simp only [Bool.false_eq_true, if_false] at hx
    split at hx
    · exact .turnedAway call (closedFailure x.state.name) hc (Or.inr ⟨hd, hf⟩)
        (fun h => by cases h) (by rw [hx]; rfl) (by rw [hx]; exact Table.get?_put_self _ _ _)
    · split at hx
      · exact took_of_board h hx rfl rfl rfl hc (by rw [hs]; rfl) ⟨_, hd⟩ hf
          (fun harr => by rw [hd] at harr; cases harr)
      · exact .rests hx (Or.inr ⟨hd, hf⟩)

/-- **What the turn of a ready call comes to.** -/
theorem took (h : Placed x.state) (answers : Answers α) (hr : .call c ∈ x.ready) :
    Took x c answers := by
  have hidle : x.state.turn answers x.now c = x.state → doing? x.state c = none →
      Took x c answers := by
    intro ht hd
    exact .rests ((state_turn hr answers).trans ht) (Or.inl hd)
  cases hc : x.state.calls.get? c with
  | none => exact hidle (by unfold turn; simp only [hc]) (by unfold doing?; simp only [hc])
  | some call =>
    cases hs : call.stage with
    | arriving fired => exact took_arriving h hr hc hs
    | queued fired => exact took_queued h hr hc hs
    | admitted => exact took_admitted h hr hc hs
    | ended r t =>
      exact hidle (by unfold turn; simp only [hc, hs])
        (doing?_of_over hc (by unfold Call.isOpen; rw [hs]))
    | dropped =>
      exact hidle (by unfold turn; simp only [hc, hs])
        (doing?_of_over hc (by unfold Call.isOpen; rw [hs]))

/-- A turn changes nothing among the flights, unless it takes place there. -/
theorem quiet_or_flies (h : Placed x.state) (c : Nat) (answers : Answers α) :
    (step x (.turn c answers)).state.flights = x.state.flights ∨
      ∃ call ns p, (∃ d, doing? x.state c = some d) ∧
        (doing? x.state c = some .arriving → admittedBy x (.turn c answers) = some c) ∧
        Flies x c answers call (fired? x.state c) ns p := by
  by_cases hr : .call c ∈ x.ready
  swap
  · exact Or.inl (by rw [step_of_idle hr])
  cases took h answers hr with
  | rests hsame => exact Or.inl (by rw [hsame])
  | turnedAway _ _ _ _ _ hflights => exact Or.inl hflights
  | cancelled _ _ _ _ hflights => exact Or.inl hflights
  | queues _ _ _ _ _ hflights => exact Or.inl hflights
  | flies call fired ns p _ hd hf ha hflies =>
    rw [← hf] at hflies
    exact Or.inr ⟨call, ns, p, hd, ha, hflies⟩

end Turn

/-- The loop of a call that makes attempts is within the limit. -/
theorem Tries.within {e : Event α} {c : Nat} {call : Call α} {answers : Answers α} {fired : Bool}
    {loop : Retry.Loop α} {t : Retry.Turn α} (ht : Tries x e c call answers fired loop t)
    (h : Placed x.state) : loop.Within x.state.policy := by
  rcases ht.origin with hp | ⟨-, -, rfl, -⟩
  · exact (h.seaworthy c _ loop hp rfl).1
  · exact within_new h.room

theorem seaworthy_step (h : Placed x.state) (e : Event α) {c : Nat} {load : Load α}
    {loop : Retry.Loop α} (hp : phase? (step x e).state c = some (.leading load))
    (hs : load.stage = .trying loop) : Seaworthy (step x e).state loop := by
  unfold Seaworthy
  rw [policy_step]
  cases voyage h.sound e with
  | calm _ hphase => exact h.seaworthy c load loop (by rw [← hphase c]; exact hp) hs
  | moved d call p _ hself hothers hleg =>
    by_cases hcd : c = d
    swap
    · exact h.seaworthy c load loop (by rw [← hothers c hcd]; exact hp) hs
    subst hcd
    rw [hself] at hp; cases hp
    -- only a call that makes attempts leads a flight afterwards
    generalize hq : (Phase.leading load : Phase (Load α) α) = q at hleg
    cases hleg with
    | tries answers fired loop₀ t ht =>
      have hleft := left_of_turn c call answers fired (ht.within h)
      rw [← ht.turn, ← hq] at hleft
      cases hleft with
      | leads key ttl loop' hl hw => cases hs; exact ⟨hl, hw.begun⟩
    | _ => cases hq

theorem aboard_step (h : Placed x.state) (e : Event α) {c : Nat} {call : Call α}
    (hc : (step x e).state.calls.get? c = some call) (hs : call.stage = .admitted) :
    ∃ p d, phase? (step x e).state c = some p ∧ phaseDoing p = some d := by
  by_cases hd : e.call? = some c
  swap
  · -- the events of other calls do not matter
    obtain ⟨hcalls, hflights⟩ := frame h.sound hd
    rw [hcalls] at hc
    unfold phase?
    rw [hflights]
    exact h.aboard c call hc hs
  cases e with
  | call d key ttl fired =>
    cases hd
    cases hold : x.state.calls.get? c with
    | some call₀ =>
      rw [step_of_known hold] at hc ⊢
      exact h.aboard c call hc hs
    | none =>
      rcases calls_known x _ hc with ⟨stage, hknown⟩ | ⟨fired', he⟩
      · rw [hold] at hknown; cases hknown
      · simp only [step, hold, Option.isSome_none, Bool.false_eq_true, if_false,
          Clock.World.state_wake] at hc
        rw [show (x.state.start c key ttl fired).calls.get? c = some ⟨key, ttl, .arriving fired⟩
          from Table.get?_put_self _ _ _] at hc
        cases hc; cases hs
  | turn d answers =>
    cases hd
    by_cases hr : .call c ∈ x.ready
    swap
    · rw [step_of_idle hr] at hc ⊢
      exact h.aboard c call hc hs
    cases took h answers hr with
    | rests hsame =>
      rw [hsame] at hc ⊢
      exact h.aboard c call hc hs
    | turnedAway _ _ _ _ _ _ hafter => rw [hafter] at hc; cases hc; cases hs
    | cancelled _ _ _ _ _ hafter => rw [hafter] at hc; cases hc; cases hs
    | queues _ _ _ _ _ _ hafter => rw [hafter] at hc; cases hc; cases hs
    | flies call₀ fired ns p _ _ _ _ hflies hafter =>
      rw [hafter] at hc; cases hc
      obtain ⟨d, hd⟩ := (hflies.sailed.left h.room).doing fun E hE => by rw [hE] at hs; cases hs
      exact ⟨p, d, phase?_eq hflies.there, hd⟩
  | fire d =>
    cases hd
    have hx : (step x (.fire c)).state = x.state.fire c := rfl
    rcases fire_cases x.state c with hf | ⟨call₀, fired, hc₀, ⟨-, hf⟩ | ⟨-, hf⟩⟩ |
      ⟨call₀, hc₀, hs₀, hf⟩
    · rw [hx, hf] at hc ⊢
      exact h.aboard c call hc hs
    · rw [hx, hf, calls_become, Table.get?_put_self] at hc; cases hc; cases hs
    · rw [hx, hf, calls_become, Table.get?_put_self] at hc; cases hc; cases hs
    · rw [hx, hf] at hc ⊢
      rw [phase?_fire]
      exact h.aboard c call hc hs
  | abort d =>
    cases hd
    have hx : (step x (.abort c)).state = x.state.drop c := rfl
    rcases drop_cases x.state c with hf | ⟨call₀, hc₀, ⟨fired, p, -, -, hf⟩ | ⟨-, hf⟩⟩
    · rw [hx, hf] at hc ⊢
      exact h.aboard c call hc hs
    · rw [hx, hf, calls_become, Table.get?_put_self] at hc; cases hc; cases hs
    · rw [hx, hf, calls_become, Table.get?_put_self] at hc; cases hc; cases hs
  | _ => cases hd

/-- **Every event leaves whoever has a permit doing something.** -/
theorem placed_step (h : Placed x.state) (e : Event α) : Placed (step x e).state where
  sound := step_sound h.sound e
  room := by rw [policy_step]; exact h.room
  seaworthy := fun _ _ _ hp hs => seaworthy_step h e hp hs
  aboard := fun _ _ hc hs => aboard_step h e hc hs

theorem worldAt_placed (h : Placed x.state) (n : Nat) : Placed (worldAt x es n).state :=
  Trace.after_invariant (P := fun (y : World α) => Placed y.state) h
    (fun _ e _ hy => placed_step hy e) n

theorem make_placed (name : String) (settings : Config.Settings) (now : Nat) :
    (make name settings now : Caller α).Placed where
  sound := make_sound name settings now
  room := by
    show 0 < if 1 ≤ settings.retries.maxAttempts then settings.retries.maxAttempts else 1
    split
    · rename_i hle
      exact UInt32.lt_of_lt_of_le (by decide) hle
    · decide
  seaworthy := fun c load loop hp => by cases hp
  aboard := fun c call hc => by cases hc

end RegistryLookup.Caller
