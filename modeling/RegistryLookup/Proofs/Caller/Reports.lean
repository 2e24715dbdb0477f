import RegistryLookup.Proofs.Caller.HalfOpen
import RegistryLookup.Proofs.Caller.Provenance

/-!
# What an event tells the breaker

An event leaves the breaker as it is, or asks it for admission, or reports to it how a call ended
(`told`). A call that ends with a value has ended so among the flights, at the same instant
(`Abreast`), so its value has a source (`value_source`).
-/

namespace RegistryLookup.Caller

open Flight

variable {α : Type} {x : World α} {es : List (Event α)}

theorem ending?_eq_some_iff (s : Caller α) (c : Nat) (E : Ending α) :
    s.flights.ending? c = some E ↔ phase? s c = some (.ended E) := by
  unfold Flights.ending? phase?
  cases hf : s.flights.calls.get? c with
  | none => simp
  | some fcall =>
    obtain ⟨key, fired, phase⟩ := fcall
    cases phase <;> simp

/-- A call that is over stays as it is. -/
theorem over_step (x : World α) (e : Event α) {c : Nat} {call : Call α}
    (hc : x.state.calls.get? c = some call) (ho : call.isOpen = false) :
    (step x e).state.calls.get? c = some call := by
  -- whoever changes its stage was open before
  have hput : ∀ {d : Nat} {dcall : Call α} {stage : Stage α} {s : Caller α},
      (step x e).state = s → x.state.calls.get? d = some dcall → dcall.isOpen = true →
      s.calls = x.state.calls.put d { dcall with stage := stage } →
      (step x e).state.calls.get? c = some call := by
    intro d dcall stage s hx hd hopen hs
    have hne : c ≠ d := by
      rintro rfl
      rw [hc] at hd; cases hd
      rw [ho] at hopen; cases hopen
    rw [hx, hs, Table.get?_put_of_ne _ _ hne, hc]
  have hopen : ∀ {dcall : Call α}, (∃ fired, dcall.stage = .arriving fired ∨
      dcall.stage = .queued fired) ∨ dcall.stage = .admitted → dcall.isOpen = true := by
    rintro ⟨key, ttl, stage⟩ (⟨fired, h | h⟩ | h) <;> cases h <;> rfl
  cases step_cases x e with
  | same hx => rw [hx]; exact hc
  | began d key ttl fired _ hd hx =>
    have hne : c ≠ d := fun h => by rw [h, hd] at hc; cases hc
    rw [hx]
    exact (Table.get?_put_of_ne _ _ hne).trans hc
  | turn d answers _ _ hx =>
    obtain ⟨hother, hself⟩ := calls_turn answers x.now d x.state
    rw [hx]
    by_cases hcd : c = d
    · subst hcd
      obtain ⟨stage, hs, hsame⟩ := hself call hc
      rw [hs, hsame ho]
    · rw [hother c hcd, hc]
  | chore _ _ _ _ hx => rw [hx]; exact hc
  | fire d _ hx =>
    rcases fire_cases x.state d with h | ⟨dcall, fired, hd, ⟨hst, h⟩ | ⟨hst, h⟩⟩ | ⟨dcall, -, -, h⟩
    · rw [hx, h]; exact hc
    · exact hput (hx.trans h) hd (hopen (Or.inl ⟨_, Or.inl hst⟩)) rfl
    · exact hput (hx.trans h) hd (hopen (Or.inl ⟨_, Or.inr hst⟩)) rfl
    · rw [hx, h]; exact hc
  | drop d _ hx =>
    rcases drop_cases x.state d with h | ⟨dcall, hd, ⟨fired, p, hst, -, h⟩ | ⟨hst, h⟩⟩
    · rw [hx, h]; exact hc
    · exact hput (hx.trans h) hd (hopen (Or.inl ⟨_, hst⟩)) rfl
    · exact hput (hx.trans h) hd (hopen (Or.inr hst)) rfl
  | close _ hx => rw [hx]; exact hc
  | delete _ _ hx => rw [hx]; exact hc
  | deleteStartingWith _ _ hx => rw [hx]; exact hc

/-- A call that has ended among the flights has not moved in the event. -/
theorem Leg.not_ended {e : Event α} {c : Nat} {call : Call α} {p : Phase (Load α) α}
    (h : Leg x e c call p) (E : Ending α) : phase? x.state c ≠ some (.ended E) := by
  cases h with
  | dropped _ hopen => exact hopen E
  | waits _ _ _ _ hopen => exact fun hE => hopen _ hE rfl
  | givesUp _ _ hopen => exact fun hE => hopen _ hE rfl
  | served _ _ _ _ _ hwait => rw [hwait]; exact fun hE => by cases hE
  | found _ _ _ hopen => exact fun hE => hopen _ hE rfl
  | tries _ _ _ _ ht =>
    rcases ht.origin with hlead | ⟨hopen, -⟩
    · rw [hlead]; exact fun hE => by cases hE
    · exact fun hE => hopen _ hE rfl

/-- It ends in its own turn, at the instant of the event. -/
theorem Leg.ended {e : Event α} {c : Nat} {call : Call α} {E : Ending α}
    (h : Leg x e c call (.ended E)) : E.instant = x.now ∧ ∃ answers, e = .turn c answers := by
  generalize hp : (Phase.ended E : Phase (Load α) α) = p at h
  cases h with
  | dropped => cases hp
  | waits => cases hp
  | givesUp answers he => cases hp; exact ⟨rfl, answers, he⟩
  | served answers l load r he => cases hp; exact ⟨rfl, answers, he⟩
  | found answers v he => cases hp; exact ⟨rfl, answers, he⟩
  | tries answers fired loop t ht =>
    cases hrest : t.rest with
    | inl loop' => rw [hrest] at hp; cases hp
    | inr r => rw [hrest] at hp; cases hp; exact ⟨rfl, answers, ht.event⟩

theorem ended_stays (h : x.state.Sound) (e : Event α) {c : Nat} {E : Ending α}
    (hp : phase? x.state c = some (.ended E)) : phase? (step x e).state c = some (.ended E) := by
  cases voyage h e with
  | calm _ hphase => rw [hphase c]; exact hp
  | moved d call p _ _ hothers hleg =>
    rw [hothers c (fun hcd => by subst hcd; exact hleg.not_ended E hp)]
    exact hp

/-- Only the call whose turn it is moves among the flights. -/
theorem phase?_turn_of_ne (h : x.state.Sound) {c d : Nat} (answers : Answers α) (hd : d ≠ c) :
    phase? (step x (.turn c answers)).state d = phase? x.state d := by
  cases voyage h (.turn c answers) with
  | calm _ hphase => exact hphase d
  | moved c' call p _ _ hsame hleg =>
    refine hsame d (fun hdc => hd ?_)
    subst hdc
    cases hleg with
    | dropped he => cases he
    | waits _ _ _ he => cases he; rfl
    | givesUp _ he => cases he; rfl
    | served _ _ _ _ he => cases he; rfl
    | found _ _ he => cases he; rfl
    | tries _ _ _ _ ht => cases ht.event; rfl

/-- A call that ends in an event does so in its own turn, at the instant of the event. -/
theorem ended_at (h : x.state.Sound) {e : Event α} {c : Nat} {E : Ending α}
    (hbefore : phase? x.state c ≠ some (.ended E))
    (hafter : phase? (step x e).state c = some (.ended E)) :
    E.instant = x.now ∧ ∃ answers, e = .turn c answers := by
  cases voyage h e with
  | calm _ hsame => rw [hsame c] at hafter; exact absurd hafter hbefore
  | moved d call p _ hself hothers hleg =>
    by_cases hcd : c = d
    · subst hcd
      rw [hself] at hafter; cases hafter
      exact hleg.ended
    · rw [hothers c hcd] at hafter; exact absurd hafter hbefore

/-- How a call came to its end that ends in an event. -/
theorem leg_of_ended (h : x.state.Sound) {e : Event α} {c : Nat} {E : Ending α}
    (hbefore : phase? x.state c ≠ some (.ended E))
    (hafter : phase? (step x e).state c = some (.ended E)) :
    ∃ call, x.state.calls.get? c = some call ∧ Leg x e c call (.ended E) := by
  cases voyage h e with
  | calm _ hphase => rw [hphase c] at hafter; exact absurd hafter hbefore
  | moved d call p hd hself hothers hleg =>
    by_cases hcd : c = d
    · subst hcd
      rw [hself] at hafter; cases hafter
      exact ⟨call, hd, hleg⟩
    · rw [hothers c hcd] at hafter; exact absurd hafter hbefore

/-- No call ends among the flights, and none ends with a value. -/
structure NoEnding (x : World α) (e : Event α) : Prop where
  phases : ∀ c E, phase? (step x e).state c = some (.ended E) → phase? x.state c = some (.ended E)
  values : ∀ c call v t, (step x e).state.calls.get? c = some call →
    call.stage = .ended (.ok v) t → x.state.calls.get? c = some call

/-- The call is about to ask the breaker for admission. -/
def IsArriving (s : Caller α) (c : Nat) : Prop :=
  ∃ call fired, s.calls.get? c = some call ∧ call.stage = .arriving fired

/-- A call reports in an event how it ended; `b` is the breaker to which it reports. -/
structure Reports (x : World α) (e : Event α) (c : Nat) (b : Breaker) (E : Ending α) : Prop where
  event : ∃ answers, e = .turn c answers
  before : ∀ E, phase? x.state c ≠ some (.ended E)
  after : phase? (step x e).state c = some (.ended E)
  instant : E.instant = x.now
  call : ∃ call, x.state.calls.get? c = some call ∧
    (step x e).state.calls.get? c = some { call with stage := .ended E.result x.now }
  /-- The breaker has just admitted the call, or has done so before. -/
  admitted : b = x.state.breaker ∨
    (IsArriving x.state c ∧ (x.state.breaker.allow x.now).1 = true ∧
      b = (x.state.breaker.allow x.now).2)
  breaker : (step x e).state.breaker = settleReport b x.now E
  others : ∀ d, d ≠ c → phase? (step x e).state d = phase? x.state d ∧
    (step x e).state.calls.get? d = x.state.calls.get? d

/-- What an event tells the breaker. -/
inductive Told (x : World α) (e : Event α) : Prop
  | silent (hb : (step x e).state.breaker = x.state.breaker) (hends : NoEnding x e)
  | admits (c : Nat) (answers : Answers α) (he : e = .turn c answers)
      (hc : IsArriving x.state c) (ha : (x.state.breaker.allow x.now).1 = true)
      (hb : (step x e).state.breaker = (x.state.breaker.allow x.now).2) (hends : NoEnding x e)
  | reports (c : Nat) (b : Breaker) (E : Ending α) (h : Reports x e c b E)

/-- A call has ended among the flights just when it is over, if it ends with a value. -/
structure Abreast (s : Caller α) : Prop where
  landed : ∀ c E, phase? s c = some (.ended E) →
    ∃ call, s.calls.get? c = some call ∧ call.stage = .ended E.result E.instant
  value : ∀ c call v t, s.calls.get? c = some call → call.stage = .ended (.ok v) t →
    ∃ role, phase? s c = some (.ended ⟨.ok v, role, t⟩)

/-- Where one call changes, and does not end with a value, no call does. -/
theorem values_of_put {e : Event α} {c : Nat} {call : Call α}
    (hcalls : (step x e).state.calls = x.state.calls.put c call)
    (hstage : ∀ v t, call.stage ≠ .ended (.ok v) t) (d : Nat) (dcall : Call α) (v : α) (t : Nat)
    (hd : (step x e).state.calls.get? d = some dcall) (hs : dcall.stage = .ended (.ok v) t) :
    x.state.calls.get? d = some dcall := by
  rw [hcalls] at hd
  by_cases hdc : d = c
  · subst hdc
    rw [Table.get?_put_self] at hd; cases hd
    exact absurd hs (hstage v t)
  · rw [Table.get?_put_of_ne _ _ hdc] at hd
    exact hd

/-- One call changes its stage, and does not end with a value. -/
theorem NoEnding.of_put {e : Event α} {c : Nat} {call : Call α} {stage : Stage α}
    (hcalls : (step x e).state.calls = x.state.calls.put c { call with stage := stage })
    (hstage : ∀ v t, stage ≠ .ended (.ok v) t)
    (hphase : ∀ d, phase? (step x e).state d = phase? x.state d) : NoEnding x e :=
  ⟨fun d E hE => by rw [← hphase d]; exact hE, values_of_put hcalls hstage⟩

theorem NoEnding.of_same {e : Event α} (hcalls : (step x e).state.calls = x.state.calls)
    (hphase : ∀ d, phase? (step x e).state d = phase? x.state d) : NoEnding x e :=
  ⟨fun d E hE => by rw [← hphase d]; exact hE, fun d dcall v t hd _ => by rw [← hcalls]; exact hd⟩

section Proceed

variable {c : Nat} {answers : Answers α} {call : Call α} {s : Caller α}

theorem phase?_of_proceed
    (hx : (step x (.turn c answers)).state = s.proceed answers x.now c call) (E : Ending α) :
    phase? (step x (.turn c answers)).state c = some (.ended E) ↔
      (s.flights.turn (loadWork s.policy s.name) answers x.now c).ending? c = some E := by
  rw [← ending?_eq_some_iff, hx, flights_proceed]

/-- A call that goes on among the flights. -/
theorem NoEnding.of_proceed (h : x.state.Sound)
    (hx : (step x (.turn c answers)).state = s.proceed answers x.now c call)
    (hcalls : s.calls = x.state.calls ∨
      s.calls = x.state.calls.put c { call with stage := .admitted })
    (hnone : (s.flights.turn (loadWork s.policy s.name) answers x.now c).ending? c = none)
    (hp : (s.proceed answers x.now c call).calls = s.calls) : NoEnding x (.turn c answers) := by
  refine ⟨fun d E hE => ?_, ?_⟩
  · by_cases hdc : d = c
    · subst hdc
      rw [phase?_of_proceed hx, hnone] at hE
      cases hE
    · rw [← phase?_turn_of_ne h answers hdc]; exact hE
  · rcases hcalls with hs | hs
    · intro d dcall v t hd _
      rw [hx, hp, hs] at hd
      exact hd
    · exact values_of_put (by rw [hx, hp, hs]) (fun v t hn => by cases hn)

/-- The turn of a call among the flights: it goes on, or it reports. -/
theorem told_of_proceed (h : x.state.Sound) (hc : x.state.calls.get? c = some call)
    (hx : (step x (.turn c answers)).state = s.proceed answers x.now c call)
    (hcalls : s.calls = x.state.calls ∨
      s.calls = x.state.calls.put c { call with stage := .admitted })
    (hbefore : ∀ E, phase? x.state c ≠ some (.ended E))
    (hadmitted : s.breaker = x.state.breaker ∨
      (IsArriving x.state c ∧ (x.state.breaker.allow x.now).1 = true ∧
        s.breaker = (x.state.breaker.allow x.now).2)) : Told x (.turn c answers) := by
  rcases proceed_cases answers x.now c call s with ⟨hnone, hp⟩ | ⟨E, hE, hp⟩
  · -- the call goes on
    have hends : NoEnding x (.turn c answers) := .of_proceed h hx hcalls hnone (by rw [hp])
    rcases hadmitted with hb | ⟨harr, ha, hb⟩
    · exact .silent (by rw [hx, hp]; exact hb) hends
    · exact .admits c answers rfl harr ha (by rw [hx, hp]; exact hb) hends
  · have hafter := (phase?_of_proceed hx E).2 hE
    refine .reports c s.breaker E ⟨⟨answers, rfl⟩, hbefore, hafter,
      (ended_at h (hbefore E) hafter).1, ⟨call, hc, ?_⟩, hadmitted, by rw [hx, hp]; rfl,
      fun d hd => ⟨phase?_turn_of_ne h answers hd, ?_⟩⟩
    · rw [hx, hp]; exact Table.get?_put_self _ _ _
    · rw [hx, hp]
      refine (Table.get?_put_of_ne _ _ hd).trans ?_
      rcases hcalls with hs | hs
      · rw [hs]
      · rw [hs, Table.get?_put_of_ne _ _ hd]

end Proceed

theorem told_turn (h : x.state.Sound) (ha : x.state.Abreast) {c : Nat} {answers : Answers α}
    (hx : (step x (.turn c answers)).state = x.state.turn answers x.now c) :
    Told x (.turn c answers) := by
  -- a call without a permit has not ended among the flights
  have hashore : ∀ {call : Call α}, x.state.calls.get? c = some call →
      call.stage.isAshore = true → ∀ E, phase? x.state c ≠ some (.ended E) := by
    intro call hc hs E hE
    unfold phase? at hE
    rw [h.ashore c call hc hs] at hE
    cases hE
  have hends : ∀ {s : Caller α} {call : Call α} {stage : Stage α},
      x.state.turn answers x.now c = s.become c call stage → s.calls = x.state.calls →
      s.flights = x.state.flights → (∀ v t, stage ≠ .ended (.ok v) t) →
      NoEnding x (.turn c answers) := by
    intro s call stage hs hcalls hflights hstage
    have hput : (step x (.turn c answers)).state.calls =
        x.state.calls.put c { call with stage := stage } := by rw [hx, hs, calls_become, hcalls]
    refine .of_put hput hstage (fun d => ?_)
    unfold phase?
    rw [hx, hs]
    exact congrArg (fun F => (F.calls.get? d).map (·.phase)) hflights
  cases turn_cases answers x.now c x.state with
  | rest hs =>
    exact .silent (by rw [hx, hs]) (.of_same (by rw [hx, hs]) (fun d => by rw [hx, hs]))
  | turnedAway call fired p _ _ _ _ hs =>
    exact .silent (by rw [hx, hs]; rfl) (hends hs rfl rfl (fun v t hn => by cases hn))
  | refused call fired _ _ _ _ hs =>
    exact .silent (by rw [hx, hs]; rfl) (hends hs rfl rfl (fun v t hn => by cases hn))
  | cancelled call hc hs' _ hb hs =>
    exact .admits c answers rfl ⟨call, true, hc, hs'⟩ hb (by rw [hx, hs]; rfl)
      (hends hs rfl rfl (fun v t hn => by cases hn))
  | queues call hc hs' _ hb hs =>
    exact .admits c answers rfl ⟨call, false, hc, hs'⟩ hb (by rw [hx, hs]; rfl)
      (hends hs rfl rfl (fun v t hn => by cases hn))
  | boards call hc hs' _ hb hs =>
    exact told_of_proceed h hc (hx.trans hs) (Or.inr rfl) (hashore hc (by rw [hs']; rfl))
      (Or.inr ⟨⟨call, false, hc, hs'⟩, hb, rfl⟩)
  | leaves call _ _ hs =>
    exact .silent (by rw [hx, hs]; rfl) (hends hs rfl rfl (fun v t hn => by cases hn))
  | claims call hc hs' _ hs =>
    exact told_of_proceed h hc (hx.trans hs) (Or.inr rfl) (hashore hc (by rw [hs']; rfl))
      (Or.inl rfl)
  | proceeds call hc hs' hs =>
    refine told_of_proceed h hc (hx.trans hs) (Or.inl rfl) (fun E hE => ?_) (Or.inl rfl)
    obtain ⟨call', hc', hover⟩ := ha.landed c E hE
    rw [hc] at hc'; cases hc'
    rw [hs'] at hover; cases hover

/-- **What an event tells the breaker.** -/
theorem told (h : x.state.Sound) (ha : x.state.Abreast) (e : Event α) : Told x e := by
  -- nobody ends in an event that is not a turn
  have hphases : (∀ c answers, e ≠ .turn c answers) → ∀ c E,
      phase? (step x e).state c = some (.ended E) → phase? x.state c = some (.ended E) := by
    intro hno c E hE
    by_cases hbefore : phase? x.state c = some (.ended E)
    · exact hbefore
    · obtain ⟨-, answers, he⟩ := ended_at h hbefore hE
      exact absurd he (hno c answers)
  have hsame : (∀ c answers, e ≠ .turn c answers) →
      (step x e).state.calls = x.state.calls → Told x e := fun hno hcalls =>
    .silent (breaker_step hno) ⟨hphases hno, fun c call v t hc _ => by rw [← hcalls]; exact hc⟩
  have hput : ∀ {c : Nat} {call : Call α}, (∀ c answers, e ≠ .turn c answers) →
      (step x e).state.calls = x.state.calls.put c call →
      (∀ v t, call.stage ≠ .ended (.ok v) t) → Told x e := fun hno hcalls hstage =>
    .silent (breaker_step hno) ⟨hphases hno, values_of_put hcalls hstage⟩
  cases step_cases x e with
  | same hx =>
    exact .silent (by rw [hx]) (.of_same (by rw [hx]) (fun d => by rw [hx]))
  | began c key ttl fired he _ hx =>
    subst he
    exact hput (fun _ _ hn => by cases hn) (by rw [hx]; rfl) (fun v t hn => by cases hn)
  | turn c answers he hr hx => subst he; exact told_turn h ha hx
  | chore chore _ he _ hx => subst he; exact hsame (fun _ _ hn => by cases hn) (by rw [hx]; rfl)
  | fire c he hx =>
    subst he
    rcases fire_cases x.state c with hs | ⟨call, fired, -, ⟨-, hs⟩ | ⟨-, hs⟩⟩ | ⟨call, -, -, hs⟩
    · exact hsame (fun _ _ hn => by cases hn) (by rw [hx, hs])
    · exact hput (fun _ _ hn => by cases hn) (by rw [hx, hs]; rfl) (fun v t hn => by cases hn)
    · exact hput (fun _ _ hn => by cases hn) (by rw [hx, hs]; rfl) (fun v t hn => by cases hn)
    · exact hsame (fun _ _ hn => by cases hn) (by rw [hx, hs])
  | drop c he hx =>
    subst he
    rcases drop_cases x.state c with hs | ⟨call, -, ⟨fired, p, -, -, hs⟩ | ⟨-, hs⟩⟩
    · exact hsame (fun _ _ hn => by cases hn) (by rw [hx, hs])
    · exact hput (fun _ _ hn => by cases hn) (by rw [hx, hs]; rfl) (fun v t hn => by cases hn)
    · exact hput (fun _ _ hn => by cases hn) (by rw [hx, hs]; rfl) (fun v t hn => by cases hn)
  | close he hx => subst he; exact hsame (fun _ _ hn => by cases hn) (by rw [hx]; rfl)
  | delete key he hx => subst he; exact hsame (fun _ _ hn => by cases hn) (by rw [hx]; rfl)
  | deleteStartingWith start he hx =>
    subst he; exact hsame (fun _ _ hn => by cases hn) (by rw [hx]; rfl)

theorem Abreast.of_noEnding (h : x.state.Sound) (ha : x.state.Abreast) {e : Event α}
    (hends : NoEnding x e) : (step x e).state.Abreast := by
  refine ⟨fun c E hE => ?_, fun c call v t hc hs => ?_⟩
  · obtain ⟨call, hc, hs⟩ := ha.landed c E (hends.phases c E hE)
    exact ⟨call, over_step x e hc (by unfold Call.isOpen; rw [hs]), hs⟩
  · obtain ⟨role, hp⟩ := ha.value c call v t (hends.values c call v t hc hs) hs
    exact ⟨role, ended_stays h e hp⟩

theorem abreast_step (h : x.state.Sound) (ha : x.state.Abreast) (e : Event α) :
    (step x e).state.Abreast := by
  cases told h ha e with
  | silent _ hends => exact .of_noEnding h ha hends
  | admits _ _ _ _ _ _ hends => exact .of_noEnding h ha hends
  | reports c b E hr =>
    obtain ⟨call, -, hc⟩ := hr.call
    refine ⟨fun d E' hE => ?_, fun d dcall v t hd hs => ?_⟩
    · by_cases hdc : d = c
      · subst hdc
        rw [hr.after] at hE; cases hE
        exact ⟨_, hc, by rw [hr.instant]⟩
      · obtain ⟨hphase, hcalls⟩ := hr.others d hdc
        obtain ⟨dcall, hd, hs⟩ := ha.landed d E' (by rw [← hphase]; exact hE)
        exact ⟨dcall, by rw [hcalls]; exact hd, hs⟩
    · by_cases hdc : d = c
      · subst hdc
        rw [hc] at hd; cases hd
        obtain ⟨r, role, instant⟩ := E
        have hinstant := hr.instant
        simp only [Stage.ended.injEq] at hs hinstant
        obtain ⟨rfl, rfl⟩ := hs
        exact ⟨role, by rw [hr.after, hinstant]⟩
      · obtain ⟨hphase, hcalls⟩ := hr.others d hdc
        obtain ⟨role, hp⟩ := ha.value d dcall v t (by rw [← hcalls]; exact hd) hs
        exact ⟨role, by rw [hphase]; exact hp⟩

theorem Fresh.abreast {s : Caller α} (h : s.Fresh) : s.Abreast where
  landed := fun c E hE => by
    obtain ⟨call, hc⟩ := h.sound.known hE
    rw [h.calls] at hc; cases hc
  value := fun c call v t hc => by rw [h.calls] at hc; cases hc

theorem worldAt_abreast (hx : x.state.Fresh) (n : Nat) : (worldAt x es n).state.Abreast := by
  induction n with
  | zero => rw [worldAt_zero]; exact hx.abreast
  | succ n ih =>
    rcases worldAt_cases x es n with ⟨-, h⟩ | ⟨e, he, h⟩
    · rw [h]; exact ih
    · rw [h]; exact abreast_step (worldAt_sound hx.sound n) ih e

theorem ending?_eq_some {s : Caller α} {c t : Nat} {r : Except Failure α} :
    s.ending? c = some (r, t) ↔ ∃ call, s.calls.get? c = some call ∧ call.stage = .ended r t := by
  unfold ending?
  constructor
  · intro h
    split at h
    · rename_i key ttl r' t' hc
      cases h
      exact ⟨_, hc, rfl⟩
    · cases h
  · rintro ⟨⟨key, ttl, stage⟩, hc, rfl⟩
    rw [hc]

/-- The result of a call stays. -/
theorem ending?_mono {m n c t : Nat} {r : Except Failure α} (hmn : m ≤ n)
    (h : (worldAt x es m).state.ending? c = some (r, t)) :
    (worldAt x es n).state.ending? c = some (r, t) := by
  obtain ⟨call, hc, hs⟩ := ending?_eq_some.1 h
  refine ending?_eq_some.2 ⟨call, ?_, hs⟩
  refine Trace.after_since (P := fun (y : World α) => y.state.calls.get? c = some call) hmn hc ?_
  rintro i - e - hi
  exact over_step _ e hi (by unfold Call.isOpen; rw [hs])

/-- **A value that a call returns has its source.** -/
theorem value_source (hx : x.state.Untouched) {n c t : Nat} {v : α} {key : String}
    (hv : (worldAt x es n).state.ending? c = some (.ok v, t))
    (hk : HasKey (worldAt x es n).state c key) :
    ∃ role, Source x es n c key ⟨.ok v, role, t⟩ := by
  obtain ⟨call, hc, hs⟩ := ending?_eq_some.1 hv
  obtain ⟨role, hp⟩ := (worldAt_abreast hx.toFresh n).value c call v t hc hs
  rcases source hx hp hk with hcancel | hsrc
  · cases hcancel
  · exact ⟨role, hsrc⟩

end RegistryLookup.Caller
