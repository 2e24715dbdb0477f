import RegistryLookup.Proofs.Caller.Run
import RegistryLookup.Proofs.Caller.Turn
import RegistryLookup.Proofs.Clock

/-!
# What an event does to a caller

* `step_cases`: what an event makes of the caller; the instant aside, nothing else matters.
* `calls_turn`: a turn leaves the other calls as they are.
* `callStepped`, `calls_step`, `calls_known`: a call that has come in is never forgotten, and keeps
  its key and the time for which its value is kept.
-/

namespace RegistryLookup.Caller

variable {α : Type}

/-- What an event makes of a caller. -/
inductive Stepped (x : World α) (e : Event α) : Prop
  | same (h : (step x e).state = x.state)
  | began (c : Nat) (key : String) (ttl : Nat) (fired : Bool) (he : e = .call c key ttl fired)
      (hc : x.state.calls.get? c = none) (h : (step x e).state = x.state.start c key ttl fired)
  | turn (c : Nat) (answers : Answers α) (he : e = .turn c answers) (hr : .call c ∈ x.ready)
      (h : (step x e).state = x.state.turn answers x.now c)
  | chore (chore : Tended.Chore) (timerFirst : Bool) (he : e = .chore chore timerFirst)
      (hr : .chore chore ∈ x.ready)
      (h : (step x e).state = x.state.perform x.now timerFirst chore)
  | fire (c : Nat) (he : e = .fire c) (h : (step x e).state = x.state.fire c)
  | drop (c : Nat) (he : e = .abort c) (h : (step x e).state = x.state.drop c)
  | close (he : e = .close) (h : (step x e).state = x.state.close)
  | delete (key : String) (he : e = .delete key)
      (h : (step x e).state = x.state.withCache (x.state.cache.delete key).2)
  | deleteStartingWith (start : String) (he : e = .deleteStartingWith start)
      (h : (step x e).state = x.state.withCache (x.state.cache.deleteStartingWith start).2)

theorem state_runTask (x : World α) (task : Task) (answers : Answers α) :
    (runTask x task answers).state = (x.state.run (fun _ => answers) x.now task).1 := rfl

theorem state_turn {x : World α} {c : Nat} (hr : .call c ∈ x.ready) (answers : Answers α) :
    (step x (.turn c answers)).state = x.state.turn answers x.now c := by
  simp only [step, if_pos hr, state_runTask]
  rfl

theorem step_cases (x : World α) (e : Event α) : Stepped x e := by
  cases e with
  | call c key ttl fired =>
    cases hc : x.state.calls.get? c with
    | some call => exact .same (by simp only [step, hc, Option.isSome_some, if_true])
    | none =>
      refine .began c key ttl fired rfl hc ?_
      simp only [step, hc, Option.isSome_none, Bool.false_eq_true, if_false,
        Clock.World.state_wake]
  | turn c answers =>
    by_cases hr : .call c ∈ x.ready
    · exact .turn c answers rfl hr (state_turn hr answers)
    · exact .same (by simp only [step, if_neg hr])
  | chore chore timerFirst =>
    by_cases hr : .chore chore ∈ x.ready
    · exact .chore chore timerFirst rfl hr (by simp only [step, if_pos hr, tend])
    · exact .same (by simp only [step, if_neg hr])
  | wake c => exact .same rfl
  | fire c => exact .fire c rfl rfl
  | abort c => exact .drop c rfl rfl
  | close => exact .close rfl rfl
  | delete key => exact .delete key rfl rfl
  | deleteStartingWith start => exact .deleteStartingWith start rfl rfl
  | pass limit =>
    refine .same ?_
    simp only [step]
    split <;> rfl

@[simp] theorem calls_become (s : Caller α) (c : Nat) (call : Call α) (stage : Stage α) :
    (s.become c call stage).calls = s.calls.put c { call with stage := stage } := rfl

theorem calls_proceed_of_ne (answers : Answers α) (now : Nat) {c d : Nat} (hd : d ≠ c)
    (call : Call α) (s : Caller α) :
    (s.proceed answers now c call).calls.get? d = s.calls.get? d := by
  rcases proceed_cases answers now c call s with ⟨-, h⟩ | ⟨e, -, h⟩
  · rw [h]
  · rw [h]; exact Table.get?_put_of_ne _ _ hd

theorem calls_board (answers : Answers α) (now : Nat) {c : Nat} (call : Call α) (fired : Bool)
    (s : Caller α) :
    (∀ d, d ≠ c → (s.board answers now c call fired).calls.get? d = s.calls.get? d) ∧
      ∃ stage, (s.board answers now c call fired).calls.get? c =
        some { call with stage := stage } := by
  unfold board
  constructor
  · intro d hd
    rw [calls_proceed_of_ne answers now hd]
    exact Table.get?_put_of_ne _ _ hd
  · rcases proceed_cases answers now c call (Caller.become { s with
      flights := s.flights.start c call.key fired { key := call.key, ttl := call.ttl } }
        c call .admitted) with ⟨-, h⟩ | ⟨e, -, h⟩
    · exact ⟨.admitted, by rw [h]; exact Table.get?_put_self _ _ _⟩
    · exact ⟨.ended e.result now, by rw [h]; exact Table.get?_put_self _ _ _⟩

/-- A turn leaves the other calls as they are, and of its own call the key and the time for which
its value is kept. -/
theorem calls_turn (answers : Answers α) (now c : Nat) (s : Caller α) :
    (∀ d, d ≠ c → (s.turn answers now c).calls.get? d = s.calls.get? d) ∧
    ∀ call, s.calls.get? c = some call → ∃ stage,
      (s.turn answers now c).calls.get? c = some { call with stage := stage } ∧
      (call.isOpen = false → stage = call.stage) := by
  have hput : ∀ {s' : Caller α} {call : Call α} {stage : Stage α}, s.calls.get? c = some call →
      call.isOpen = true → s'.calls = s.calls.put c { call with stage := stage } →
      (∀ d, d ≠ c → s'.calls.get? d = s.calls.get? d) ∧
      ∀ call, s.calls.get? c = some call → ∃ stage,
        s'.calls.get? c = some { call with stage := stage } ∧
        (call.isOpen = false → stage = call.stage) := by
    intro s' call stage hc ho hs
    rw [hs]
    refine ⟨fun d hd => Table.get?_put_of_ne _ _ hd, fun call' hc' => ?_⟩
    rw [hc] at hc'; cases hc'
    exact ⟨stage, Table.get?_put_self _ _ _, fun h => by rw [ho] at h; cases h⟩
  have hboard : ∀ {s₁ : Caller α} {call : Call α}, s.calls.get? c = some call →
      call.isOpen = true → s₁.calls = s.calls →
      (∀ d, d ≠ c → (board answers now c call false s₁).calls.get? d = s.calls.get? d) ∧
      ∀ call', s.calls.get? c = some call' → ∃ stage,
        (board answers now c call false s₁).calls.get? c = some { call' with stage := stage } ∧
        (call'.isOpen = false → stage = call'.stage) := by
    intro s₁ call hc ho hs
    obtain ⟨hne, stage, hself⟩ := calls_board answers now (c := c) call false s₁
    refine ⟨fun d hd => by rw [hne d hd, hs], fun call' hc' => ?_⟩
    rw [hc] at hc'; cases hc'
    exact ⟨stage, hself, fun h => by rw [ho] at h; cases h⟩
  -- the stages from which a turn goes on are open
  have hopen : ∀ {call : Call α},
      (∃ fired, call.stage = .arriving fired ∨ call.stage = .queued fired) ∨
        call.stage = .admitted → call.isOpen = true := by
    rintro ⟨key, ttl, stage⟩ (⟨fired, h | h⟩ | h) <;> cases h <;> rfl
  cases turn_cases answers now c s with
  | rest h => rw [h]; exact ⟨fun _ _ => rfl, fun call hc => ⟨call.stage, hc, fun _ => rfl⟩⟩
  | turnedAway call fired p hc hs _ _ h =>
    exact hput hc (hopen (Or.inl ⟨fired, hs⟩)) (by rw [h]; rfl)
  | refused call fired hc hs _ _ h =>
    exact hput hc (hopen (Or.inl ⟨fired, Or.inl hs⟩)) (by rw [h]; rfl)
  | cancelled call hc hs _ _ h => exact hput hc (hopen (Or.inl ⟨_, Or.inl hs⟩)) (by rw [h]; rfl)
  | queues call hc hs _ _ h => exact hput hc (hopen (Or.inl ⟨_, Or.inl hs⟩)) (by rw [h]; rfl)
  | boards call hc hs _ _ h => rw [h]; exact hboard hc (hopen (Or.inl ⟨_, Or.inl hs⟩)) rfl
  | leaves call hc hs h => exact hput hc (hopen (Or.inl ⟨_, Or.inr hs⟩)) (by rw [h]; rfl)
  | claims call hc hs _ h => rw [h]; exact hboard hc (hopen (Or.inl ⟨_, Or.inr hs⟩)) rfl
  | proceeds call hc hs h =>
    rw [h]
    rcases proceed_cases answers now c call s with ⟨-, h⟩ | ⟨e, -, h⟩
    · rw [h]; exact ⟨fun _ _ => rfl, fun call hc => ⟨call.stage, hc, fun _ => rfl⟩⟩
    · exact hput hc (hopen (Or.inr hs)) (by rw [h]; rfl)

/-- What an event makes of the entry of one call. -/
inductive CallStepped (x : World α) (e : Event α) (c : Nat) : Prop
  | unknown (h : x.state.calls.get? c = none) (h' : (step x e).state.calls.get? c = none)
  | known (call : Call α) (stage : Stage α) (h : x.state.calls.get? c = some call)
      (h' : (step x e).state.calls.get? c = some { call with stage := stage })
  | comes (key : String) (ttl : Nat) (fired : Bool) (he : e = .call c key ttl fired)
      (h' : (step x e).state.calls.get? c = some ⟨key, ttl, .arriving fired⟩)

theorem callStepped (x : World α) (e : Event α) (c : Nat) : CallStepped x e c := by
  have hsame : ∀ {s : Caller α}, (step x e).state = s →
      s.calls.get? c = x.state.calls.get? c → CallStepped x e c := by
    intro s hx hs
    rw [← hx] at hs
    cases hc : x.state.calls.get? c with
    | none => exact .unknown hc (hs.trans hc)
    | some call => exact .known call call.stage hc (hs.trans hc)
  have hput : ∀ {s : Caller α} {d : Nat} {call : Call α} {stage : Stage α},
      (step x e).state = s → x.state.calls.get? d = some call →
      s.calls = x.state.calls.put d { call with stage := stage } → CallStepped x e c := by
    intro s d call stage hx hd hs
    by_cases hcd : c = d
    · subst hcd
      exact .known call stage hd (by rw [hx, hs]; exact Table.get?_put_self _ _ _)
    · exact hsame hx (by rw [hs]; exact Table.get?_put_of_ne _ _ hcd)
  cases step_cases x e with
  | same hx => exact hsame hx rfl
  | began d key ttl fired he _ hx =>
    by_cases hcd : c = d
    · subst hcd
      exact .comes key ttl fired he (by rw [hx]; exact Table.get?_put_self _ _ _)
    · exact hsame hx (Table.get?_put_of_ne _ _ hcd)
  | turn d answers _ _ hx =>
    obtain ⟨hother, hself⟩ := calls_turn answers x.now d x.state
    by_cases hcd : c = d
    · subst hcd
      cases hc : x.state.calls.get? c with
      | none => exact hsame hx (by unfold turn; simp only [hc])
      | some call =>
        obtain ⟨stage, hs, -⟩ := hself call hc
        exact .known call stage hc (by rw [hx]; exact hs)
    · exact hsame hx (hother c hcd)
  | chore _ _ _ _ hx => exact hsame hx rfl
  | fire d _ hx =>
    rcases fire_cases x.state d with h | ⟨call, fired, hd, ⟨-, h⟩ | ⟨-, h⟩⟩ | ⟨call, -, -, h⟩
    · exact hsame hx (by rw [h])
    · exact hput (hx.trans h) hd rfl
    · exact hput (hx.trans h) hd rfl
    · exact hsame (hx.trans h) rfl
  | drop d _ hx =>
    rcases drop_cases x.state d with h | ⟨call, hd, ⟨fired, p, -, -, h⟩ | ⟨-, h⟩⟩
    · exact hsame hx (by rw [h])
    · exact hput (hx.trans h) hd rfl
    · exact hput (hx.trans h) hd rfl
  | close _ hx => exact hsame hx rfl
  | delete _ _ hx => exact hsame hx rfl
  | deleteStartingWith _ _ hx => exact hsame hx rfl

/-- A call keeps its key and the time for which its value is kept. -/
theorem calls_step (x : World α) (e : Event α) {c : Nat} {call : Call α}
    (hc : x.state.calls.get? c = some call) :
    ∃ stage, (step x e).state.calls.get? c = some { call with stage := stage } := by
  cases callStepped x e c with
  | unknown h _ => rw [hc] at h; cases h
  | known call₁ stage h h' =>
    rw [hc] at h; cases h
    exact ⟨stage, h'⟩
  | comes key ttl fired he h' =>
    -- a call that has come in already does not come in again
    subst he
    refine ⟨call.stage, ?_⟩
    simp only [step, hc, Option.isSome_some, if_true]

/-- A call that is known was known before, or has just come in. -/
theorem calls_known (x : World α) (e : Event α) {c : Nat} {call : Call α}
    (hc : (step x e).state.calls.get? c = some call) :
    (∃ stage, x.state.calls.get? c = some { call with stage := stage }) ∨
      ∃ fired, e = .call c call.key call.ttl fired := by
  cases callStepped x e c with
  | unknown _ h' => rw [hc] at h'; cases h'
  | known call₀ stage h h' =>
    rw [hc] at h'; cases h'
    exact Or.inl ⟨call₀.stage, h⟩
  | comes key ttl fired he h' =>
    rw [hc] at h'; cases h'
    exact Or.inr ⟨fired, he⟩

theorem now_step (x : World α) (e : Event α) : x.now ≤ (step x e).now := by
  cases e with
  | pass limit =>
    simp only [step]
    split
    · exact Nat.le_max_left _ _
    · rename_i t ht
      exact Nat.le_of_lt (Clock.World.nextTimer_bounds ht).1
  | call c key ttl fired => simp only [step]; split <;> exact Nat.le_refl _
  | turn c answers => simp only [step]; split <;> exact Nat.le_refl _
  | chore chore timerFirst => simp only [step]; split <;> exact Nat.le_refl _
  | wake c => exact Nat.le_refl _
  | fire c => exact Nat.le_refl _
  | abort c => exact Nat.le_refl _
  | close => exact Nat.le_refl _
  | delete key => exact Nat.le_refl _
  | deleteStartingWith start => exact Nat.le_refl _

end RegistryLookup.Caller
