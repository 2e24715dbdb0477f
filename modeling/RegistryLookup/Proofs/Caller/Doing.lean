import RegistryLookup.Proofs.Caller.Voyage

/-!
# What a call is doing

A call that is under way has not had its first turn, queues for a permit, waits for the flight of
another call, makes an attempt, or rests between two attempts (`doing?`).

* `frame`: the events of other calls leave a call as it is.
* `doing?_before`, `doing?_after`: a call goes on with what it does until its next turn.
* `settings_step`: the name and the policy of a caller never change.
-/

namespace RegistryLookup.Caller

open Flight

variable {α : Type} {x : World α}

/-- What a call does that is under way. -/
inductive Doing (α : Type)
  /-- It has not had its first turn. -/
  | arriving
  /-- It waits for a permit. -/
  | queued
  /-- It waits for the flight of another call. -/
  | waiting (leader : Nat)
  /-- It makes an attempt that began at an instant. -/
  | attempting (number : UInt32) (since : Nat) (outcome : Retry.Outcome α)
  /-- It waits for an instant before its next attempt. -/
  | resting (wakesAt : Nat)

/-- What a call does with its loop. -/
def loopDoing (loop : Retry.Loop α) : Option (Doing α) :=
  match loop.phase with
  | .ready => none
  | .attempting since o => some (.attempting loop.tries since o)
  | .resting wakesAt => some (.resting wakesAt)

/-- What a call does among the flights. -/
def phaseDoing : Phase (Load α) α → Option (Doing α)
  | .waiting l _ => some (.waiting l)
  | .leading ⟨_, _, .trying loop⟩ => loopDoing loop
  | _ => none

theorem loopDoing_eq {loop : Retry.Loop α} {d : Doing α} (h : loopDoing loop = some d) :
    (∃ since o, loop.phase = .attempting since o ∧ d = .attempting loop.tries since o) ∨
      ∃ wakesAt, loop.phase = .resting wakesAt ∧ d = .resting wakesAt := by
  unfold loopDoing at h
  split at h
  · cases h
  · rename_i since o hp
    cases h
    exact Or.inl ⟨since, o, hp, rfl⟩
  · rename_i wakesAt hp
    cases h
    exact Or.inr ⟨wakesAt, hp, rfl⟩

/-- Whoever is among the flights has had its first turn, and has its permit. -/
theorem ne_of_phaseDoing {p : Phase (Load α) α} {d : Doing α} (h : phaseDoing p = some d) :
    d ≠ .arriving ∧ d ≠ .queued := by
  unfold phaseDoing at h
  split at h
  · cases h; exact ⟨nofun, nofun⟩
  · rcases loopDoing_eq h with ⟨since, o, -, rfl⟩ | ⟨wakesAt, -, rfl⟩
    · exact ⟨nofun, nofun⟩
    · exact ⟨nofun, nofun⟩
  · cases h

/-- What a call is doing, if it is under way. -/
def doing? (s : Caller α) (c : Nat) : Option (Doing α) :=
  match s.calls.get? c with
  | none => none
  | some call =>
    match call.stage with
    | .arriving _ => some .arriving
    | .queued _ => some .queued
    | .admitted => (phase? s c).bind phaseDoing
    | _ => none

/-- Whether the token of a call has fired, or the call is over. -/
def fired? (s : Caller α) (c : Nat) : Bool :=
  ((s.calls.get? c).map (s.hasFired c)).getD false

section Reading

variable {s : Caller α} {c : Nat} {call : Call α}

theorem doing?_of_arriving {fired : Bool} (hc : s.calls.get? c = some call)
    (hs : call.stage = .arriving fired) : doing? s c = some .arriving := by
  unfold doing?
  simp only [hc, hs]

theorem doing?_of_queued {fired : Bool} (hc : s.calls.get? c = some call)
    (hs : call.stage = .queued fired) : doing? s c = some .queued := by
  unfold doing?
  simp only [hc, hs]

theorem doing?_of_admitted (hc : s.calls.get? c = some call) (hs : call.stage = .admitted) :
    doing? s c = (phase? s c).bind phaseDoing := by
  unfold doing?
  simp only [hc, hs]

theorem doing?_of_over (hc : s.calls.get? c = some call) (ho : call.isOpen = false) :
    doing? s c = none := by
  obtain ⟨key, ttl, stage⟩ := call
  unfold doing?
  simp only [hc]
  cases stage <;> first | rfl | cases ho

theorem fired?_of_get? (hc : s.calls.get? c = some call) : fired? s c = s.hasFired c call := by
  unfold fired?
  rw [hc]
  rfl

theorem fired?_of_arriving {fired : Bool} (hc : s.calls.get? c = some call)
    (hs : call.stage = .arriving fired) : fired? s c = fired := by
  rw [fired?_of_get? hc]
  unfold hasFired
  simp only [hs]

theorem fired?_of_queued {fired : Bool} (hc : s.calls.get? c = some call)
    (hs : call.stage = .queued fired) : fired? s c = fired := by
  rw [fired?_of_get? hc]
  unfold hasFired
  simp only [hs]

theorem fired?_of_admitted (hc : s.calls.get? c = some call) (hs : call.stage = .admitted)
    {fcall : Flight.Call (Load α) α} (hf : s.flights.calls.get? c = some fcall) :
    fired? s c = fcall.fired := by
  rw [fired?_of_get? hc]
  unfold hasFired
  simp only [hs, hf]
  rfl

theorem fired?_of_over (hc : s.calls.get? c = some call) (ho : call.isOpen = false) :
    fired? s c = true := by
  obtain ⟨key, ttl, stage⟩ := call
  rw [fired?_of_get? hc]
  unfold hasFired
  cases stage <;> first | rfl | cases ho

/-- What a call does and whether its token has fired is read off its two entries. -/
theorem doing?_congr {s' : Caller α} (hcalls : s'.calls.get? c = s.calls.get? c)
    (hflights : s'.flights.calls.get? c = s.flights.calls.get? c) :
    doing? s' c = doing? s c ∧ fired? s' c = fired? s c := by
  constructor
  · unfold doing? phase?
    rw [hcalls, hflights]
  · unfold fired?
    rw [hcalls]
    cases s.calls.get? c with
    | none => rfl
    | some call =>
      simp only [Option.map_some, Option.getD_some]
      unfold hasFired
      rw [hflights]

end Reading

section Doing

variable {s : Caller α} {c : Nat}

/-- A call that does something has come in, and is under way. -/
theorem open_of_doing {d : Doing α} (h : doing? s c = some d) :
    ∃ call, s.calls.get? c = some call ∧ call.isOpen = true := by
  cases hc : s.calls.get? c with
  | none =>
    unfold doing? at h
    simp only [hc] at h
    cases h
  | some call =>
    refine ⟨call, rfl, ?_⟩
    cases ho : call.isOpen with
    | true => rfl
    | false => rw [doing?_of_over hc ho] at h; cases h

/-- What a call does with its permit. -/
theorem phase_of_doing {d : Doing α} (h : doing? s c = some d) (ha : d ≠ .arriving)
    (hq : d ≠ .queued) : ∃ p, phase? s c = some p ∧ phaseDoing p = some d := by
  unfold doing? at h
  split at h
  · cases h
  · split at h
    · cases h; exact absurd rfl ha
    · cases h; exact absurd rfl hq
    · exact Option.bind_eq_some_iff.1 h
    · cases h

/-- Whoever is among the flights does what its phase says. -/
theorem phaseDoing_of_doing (h : s.Sound) {d : Doing α} (hd : doing? s c = some d)
    {p : Phase (Load α) α} (hp : phase? s c = some p) : phaseDoing p = some d := by
  have hashore : ∀ {call : Call α}, s.calls.get? c = some call →
      call.stage.isAshore = true → phase? s c = none := by
    intro call hc hs
    unfold phase?
    rw [h.ashore c call hc hs]
    rfl
  unfold doing? at hd
  split at hd
  · cases hd
  · rename_i call hc
    split at hd
    · rename_i hs
      rw [hashore hc (by rw [hs]; rfl)] at hp; cases hp
    · rename_i hs
      rw [hashore hc (by rw [hs]; rfl)] at hp; cases hp
    · rw [hp] at hd
      exact hd
    · cases hd

theorem phase_of_waiting {l : Nat} (h : doing? s c = some (.waiting l)) :
    ∃ load, phase? s c = some (.waiting l load) := by
  obtain ⟨p, hp, hd⟩ := phase_of_doing h (fun h => by cases h) (fun h => by cases h)
  unfold phaseDoing at hd
  split at hd
  · cases hd; exact ⟨_, hp⟩
  · rcases loopDoing_eq hd with ⟨since, o, -, hno⟩ | ⟨wakesAt, -, hno⟩
    · cases hno
    · cases hno
  · cases hd

/-- The loop of a call that makes attempts. -/
theorem loop_of_doing {d : Doing α} (h : doing? s c = some d) (ha : d ≠ .arriving)
    (hq : d ≠ .queued) (hw : ∀ l, d ≠ .waiting l) :
    ∃ key ttl loop, phase? s c = some (.leading ⟨key, ttl, .trying loop⟩) ∧
      loopDoing loop = some d := by
  obtain ⟨p, hp, hd⟩ := phase_of_doing h ha hq
  unfold phaseDoing at hd
  split at hd
  · cases hd; exact absurd rfl (hw _)
  · exact ⟨_, _, _, hp, hd⟩
  · cases hd

end Doing

/-- A dropped call does nothing. -/
theorem doing?_drop (s : Caller α) (c : Nat) : doing? (s.drop c) c = none := by
  cases hc : s.calls.get? c with
  | none => unfold drop; simp only [hc]; unfold doing?; simp only [hc]
  | some call =>
    unfold drop
    simp only [hc]
    cases hs : call.stage with
    | ended => exact doing?_of_over hc (by unfold Call.isOpen; rw [hs])
    | dropped => exact doing?_of_over hc (by unfold Call.isOpen; rw [hs])
    | _ => exact doing?_of_over (Table.get?_put_self _ _ _) rfl

/-- A call was dropped before it ended. -/
def IsDropped (s : Caller α) (c : Nat) : Prop :=
  ∃ call, s.calls.get? c = some call ∧ call.stage = .dropped

/-- A call that does something when it is dropped does not end. -/
theorem IsDropped.of_doing {s : Caller α} {c : Nat} {d : Doing α} (hd : doing? s c = some d) :
    IsDropped (s.drop c) c := by
  rcases drop_cases s c with hs | ⟨call, -, ⟨fired, p, -, -, hs⟩ | ⟨-, hs⟩⟩
  · have hnone := doing?_drop s c
    rw [hs, hd] at hnone; cases hnone
  · exact ⟨_, by rw [hs]; exact Table.get?_put_self _ _ _, rfl⟩
  · exact ⟨_, by rw [hs]; exact Table.get?_put_self _ _ _, rfl⟩

/-- A token that fires changes nothing in what its call is doing. -/
theorem doing?_fire (s : Caller α) (c : Nat) : doing? (s.fire c) c = doing? s c := by
  rcases fire_cases s c with hs | ⟨call, fired, hc, ⟨hst, hs⟩ | ⟨hst, hs⟩⟩ | ⟨call, hc, hst, hs⟩
  · rw [hs]
  · rw [hs, doing?_of_arriving hc hst]
    exact doing?_of_arriving (Table.get?_put_self _ _ _) rfl
  · rw [hs, doing?_of_queued hc hst]
    exact doing?_of_queued (Table.get?_put_self _ _ _) rfl
  · have hc' : (s.fire c).calls.get? c = some call := by rw [hs]; exact hc
    rw [doing?_of_admitted hc hst, doing?_of_admitted hc' hst, hs, phase?_fire]

/-- A call that comes in has not had its first turn. -/
theorem doing?_start (s : Caller α) (c : Nat) (key : String) (ttl : Nat) (fired : Bool) :
    doing? (s.start c key ttl fired) c = some .arriving :=
  doing?_of_arriving (Table.get?_put_self _ _ _) rfl

theorem step_of_known {c : Nat} {call : Call α} (hc : x.state.calls.get? c = some call)
    (key : String) (ttl : Nat) (fired : Bool) : step x (.call c key ttl fired) = x := by
  simp only [step, hc, Option.isSome_some, if_true]

theorem step_of_idle {c : Nat} (hr : .call c ∉ x.ready) (answers : Answers α) :
    step x (.turn c answers) = x := by
  simp only [step, if_neg hr]

/-- The call whose entries an event may change. -/
def Event.call? : Event α → Option Nat
  | .call c _ _ _ => some c
  | .turn c _ => some c
  | .fire c => some c
  | .abort c => some c
  | _ => none

theorem flights_turn_of_ne (h : x.state.Sound) (answers : Answers α) {c d : Nat} (hd : d ≠ c) :
    (x.state.turn answers x.now c).flights.calls.get? d = x.state.flights.calls.get? d := by
  rcases flights_turn h answers x.now c with ⟨hsame, -⟩ | ⟨call, F, -, hb, hF, -⟩
  · rw [hsame]
  · rw [hF, Flights.turn_of_ne _ _ _ _ hd, hb.of_ne hd]

/-- **An event leaves the entries of every call but its own.** -/
theorem frame (h : x.state.Sound) {e : Event α} {d : Nat} (hd : e.call? ≠ some d) :
    (step x e).state.calls.get? d = x.state.calls.get? d ∧
      (step x e).state.flights.calls.get? d = x.state.flights.calls.get? d := by
  have hne : ∀ {c : Nat}, e.call? = some c → d ≠ c := fun hc hdc => hd (by rw [hc, hdc])
  cases step_cases x e with
  | same hx => rw [hx]; exact ⟨rfl, rfl⟩
  | began c key ttl fired he _ hx =>
    rw [hx]
    exact ⟨Table.get?_put_of_ne _ _ (hne (by rw [he]; rfl)), rfl⟩
  | turn c answers he _ hx =>
    have hdc := hne (c := c) (by rw [he]; rfl)
    rw [hx]
    exact ⟨(calls_turn answers x.now c x.state).1 d hdc, flights_turn_of_ne h answers hdc⟩
  | chore _ _ _ _ hx => rw [hx]; exact ⟨rfl, rfl⟩
  | fire c he hx =>
    have hdc := hne (c := c) (by rw [he]; rfl)
    rw [hx]
    rcases fire_cases x.state c with hs | ⟨call, fired, -, ⟨-, hs⟩ | ⟨-, hs⟩⟩ | ⟨call, -, -, hs⟩
    · rw [hs]; exact ⟨rfl, rfl⟩
    · rw [hs]; exact ⟨Table.get?_put_of_ne _ _ hdc, rfl⟩
    · rw [hs]; exact ⟨Table.get?_put_of_ne _ _ hdc, rfl⟩
    · rw [hs]; exact ⟨rfl, Flights.fire_of_ne _ hdc⟩
  | drop c he hx =>
    have hdc := hne (c := c) (by rw [he]; rfl)
    rw [hx]
    rcases drop_cases x.state c with hs | ⟨call, -, ⟨fired, p, -, -, hs⟩ | ⟨-, hs⟩⟩
    · rw [hs]; exact ⟨rfl, rfl⟩
    · rw [hs]; exact ⟨Table.get?_put_of_ne _ _ hdc, rfl⟩
    · rw [hs]; exact ⟨Table.get?_put_of_ne _ _ hdc, Flights.drop_of_ne _ hdc⟩
  | close _ hx => rw [hx]; exact ⟨rfl, rfl⟩
  | delete _ _ hx => rw [hx]; exact ⟨rfl, rfl⟩
  | deleteStartingWith _ _ hx => rw [hx]; exact ⟨rfl, rfl⟩

theorem doing?_frame (h : x.state.Sound) {e : Event α} {d : Nat} (hd : e.call? ≠ some d) :
    doing? (step x e).state d = doing? x.state d ∧
      fired? (step x e).state d = fired? x.state d :=
  doing?_congr (frame h hd).1 (frame h hd).2

/-- An event gives a call no turn. -/
def NoTurn (x : World α) (e : Event α) (c : Nat) : Prop :=
  ∀ answers, e = .turn c answers → .call c ∉ x.ready

theorem turn_or_noTurn (x : World α) (e : Event α) (c : Nat) :
    (∃ answers, e = .turn c answers ∧ .call c ∈ x.ready) ∨ NoTurn x e c := by
  by_cases h : ∃ answers, e = .turn c answers ∧ .call c ∈ x.ready
  · exact Or.inl h
  · exact Or.inr fun answers he hr => h ⟨answers, he, hr⟩

/-- Whatever a call does it did before, unless it has had a turn or has just come in. -/
theorem doing?_before (h : x.state.Sound) {e : Event α} {c : Nat} (he : NoTurn x e c)
    {d : Doing α} (hd : doing? (step x e).state c = some d) :
    doing? x.state c = some d ∨ (d = .arriving ∧ x.state.calls.get? c = none) := by
  by_cases hcall : e.call? = some c
  swap
  · exact Or.inl (by rw [← (doing?_frame h hcall).1]; exact hd)
  cases e with
  | call c' key ttl fired =>
    cases hcall
    cases hc : x.state.calls.get? c with
    | some call => rw [step_of_known hc] at hd; exact Or.inl hd
    | none =>
      simp only [step, hc, Option.isSome_none, Bool.false_eq_true, if_false,
        Clock.World.state_wake, doing?_start] at hd
      cases hd
      exact Or.inr ⟨rfl, rfl⟩
  | turn c' answers => cases hcall; rw [step_of_idle (he answers rfl)] at hd; exact Or.inl hd
  | fire c' =>
    cases hcall
    exact Or.inl (by rw [← doing?_fire]; exact hd)
  | abort c' =>
    cases hcall
    rw [show (step x (.abort c)).state = x.state.drop c from rfl, doing?_drop] at hd
    cases hd
  | _ => cases hcall

/-- A call goes on with what it does, unless it has a turn or is dropped. -/
theorem doing?_after (h : x.state.Sound) {e : Event α} {c : Nat}
    (he : NoTurn x e c) (hdrop : e ≠ .abort c) {d : Doing α}
    (hd : doing? x.state c = some d) : doing? (step x e).state c = some d := by
  by_cases hcall : e.call? = some c
  swap
  · rw [(doing?_frame h hcall).1]; exact hd
  cases e with
  | call c' key ttl fired =>
    cases hcall
    obtain ⟨call, hc, -⟩ := open_of_doing hd
    rw [step_of_known hc]
    exact hd
  | turn c' answers => cases hcall; rw [step_of_idle (he answers rfl)]; exact hd
  | fire c' =>
    cases hcall
    exact (doing?_fire x.state c).trans hd
  | abort c' => cases hcall; exact absurd rfl hdrop
  | _ => cases hcall

theorem settings_proceed (answers : Answers α) (now c : Nat) (call : Call α) (s : Caller α) :
    (s.proceed answers now c call).name = s.name ∧
      (s.proceed answers now c call).policy = s.policy := by
  rcases proceed_cases answers now c call s with ⟨-, h⟩ | ⟨e, -, h⟩
  · rw [h]; exact ⟨rfl, rfl⟩
  · rw [h]; exact ⟨rfl, rfl⟩

/-- The name and the policy of a caller never change. -/
theorem settings_step (x : World α) (e : Event α) :
    (step x e).state.name = x.state.name ∧ (step x e).state.policy = x.state.policy := by
  cases step_cases x e with
  | same hx => rw [hx]; exact ⟨rfl, rfl⟩
  | began _ _ _ _ _ _ hx => rw [hx]; exact ⟨rfl, rfl⟩
  | turn c answers _ _ hx =>
    rw [hx]
    cases turn_cases answers x.now c x.state with
    | rest hs => rw [hs]; exact ⟨rfl, rfl⟩
    | turnedAway _ _ _ _ _ _ _ hs => rw [hs]; exact ⟨rfl, rfl⟩
    | refused _ _ _ _ _ _ hs => rw [hs]; exact ⟨rfl, rfl⟩
    | cancelled _ _ _ _ _ hs => rw [hs]; exact ⟨rfl, rfl⟩
    | queues _ _ _ _ _ hs => rw [hs]; exact ⟨rfl, rfl⟩
    | boards _ _ _ _ _ hs => rw [hs]; exact settings_proceed _ _ _ _ _
    | leaves _ _ _ hs => rw [hs]; exact ⟨rfl, rfl⟩
    | claims _ _ _ _ hs => rw [hs]; exact settings_proceed _ _ _ _ _
    | proceeds _ _ _ hs => rw [hs]; exact settings_proceed _ _ _ _ _
  | chore _ _ _ _ hx => rw [hx]; exact ⟨rfl, rfl⟩
  | fire c _ hx =>
    rw [hx]
    rcases fire_cases x.state c with hs | ⟨call, fired, -, ⟨-, hs⟩ | ⟨-, hs⟩⟩ | ⟨call, -, -, hs⟩ <;>
      rw [hs] <;> exact ⟨rfl, rfl⟩
  | drop c _ hx =>
    rw [hx]
    rcases drop_cases x.state c with hs | ⟨call, -, ⟨fired, p, -, -, hs⟩ | ⟨-, hs⟩⟩ <;>
      rw [hs] <;> exact ⟨rfl, rfl⟩
  | close _ hx => rw [hx]; exact ⟨rfl, rfl⟩
  | delete _ _ hx => rw [hx]; exact ⟨rfl, rfl⟩
  | deleteStartingWith _ _ hx => rw [hx]; exact ⟨rfl, rfl⟩

theorem policy_step (x : World α) (e : Event α) : (step x e).state.policy = x.state.policy :=
  (settings_step x e).2

theorem settings_worldAt (x : World α) (es : List (Event α)) (n : Nat) :
    (worldAt x es n).state.name = x.state.name ∧ (worldAt x es n).state.policy = x.state.policy :=
  Trace.after_invariant
    (P := fun (y : World α) => y.state.name = x.state.name ∧ y.state.policy = x.state.policy)
    ⟨rfl, rfl⟩
    (fun y e _ hy => ⟨(settings_step y e).1.trans hy.1, (settings_step y e).2.trans hy.2⟩) n

theorem policy_worldAt (x : World α) (es : List (Event α)) (n : Nat) :
    (worldAt x es n).state.policy = x.state.policy := (settings_worldAt x es n).2

end RegistryLookup.Caller
