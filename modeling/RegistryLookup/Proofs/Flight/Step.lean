import RegistryLookup.Proofs.Clock
import RegistryLookup.Proofs.Flight.Forward
import RegistryLookup.Proofs.Flight.Run

/-!
# What an event does to a call

An event leaves every call but its own as it is (`step_of_ne`). A call comes in by its start
(`new_of_step`) and is then moved by its own turns, its token and its drop only (`moved`), always
to a later stage (`worldAt_forward`).
-/

namespace RegistryLookup

namespace Flight

variable {ω ι α : Type}

/-- The call that an event is about. -/
def Event.call? : Event ω ι → Option Nat
  | .start c _ _ _ => some c
  | .turn c _ => some c
  | .wake c => some c
  | .fire c => some c
  | .drop c => some c
  | .pass _ => none

/-- A call that takes no more turns. -/
def Call.IsOver (call : Call ω α) : Prop := (∃ e, call.phase = .ended e) ∨ call.phase = .dropped

theorem Call.Before.isOver {a b : Call ω α} (h : a.Before b) (ha : a.IsOver) : b.IsOver := by
  rcases ha with ⟨e, he⟩ | hd
  · exact Or.inl ⟨e, h.ended e he⟩
  · exact Or.inr (h.gone hd)

end Flight

namespace Flight

open Flights

variable {σ ω ι α : Type} {w : Work σ ω ι α}

theorem step_of_ne (x : World σ ω α) (e : Event ω ι) {d : Nat} (hd : e.call? ≠ some d) :
    (step w x e).state.calls.get? d = x.state.calls.get? d := by
  cases e with
  | start c key fired work =>
    have hdc : d ≠ c := fun h => hd (by rw [h]; rfl)
    simp only [step]
    split
    · rfl
    · exact Table.get?_put_of_ne _ _ hdc
  | turn c i =>
    have hdc : d ≠ c := fun h => hd (by rw [h]; rfl)
    simp only [step]
    split
    · exact turn_of_ne w.watched i x.now x.state hdc
    · rfl
  | wake c => rfl
  | fire c => exact fire_of_ne x.state (fun h => hd (by rw [h]; rfl))
  | drop c => exact drop_of_ne x.state (fun h => hd (by rw [h]; rfl))
  | pass t => simp only [step]; split <;> rfl

/-- Only a start brings a call in. -/
theorem new_of_step {x : World σ ω α} {e : Event ω ι} {c : Nat} {call : Call ω α}
    (hn : x.state.calls.get? c = none) (hc : (step w x e).state.calls.get? c = some call) :
    ∃ key fired work, e = .start c key fired work ∧ call = ⟨key, fired, .arriving work⟩ := by
  -- the event must be about the call itself
  have hd : e.call? = some c := by
    by_contra hd
    rw [step_of_ne x e hd, hn] at hc
    cases hc
  cases e with
  | start d key fired work =>
    cases hd
    have hself : (x.state.start c key fired work).calls.get? c =
        some ⟨key, fired, .arriving work⟩ := Table.get?_put_self _ _ _
    simp only [step, hn, Option.isSome_none, Bool.false_eq_true, if_false,
      Clock.World.state_wake] at hc
    rw [hself] at hc
    exact ⟨key, fired, work, rfl, (Option.some.inj hc).symm⟩
  | turn d i =>
    cases hd
    simp only [step] at hc
    split at hc
    · rcases calls_turn w.watched i x.now c x.state with hs | ⟨call₁, p, hc₁, -⟩
      · rw [Clock.World.state_wake, hs, hn] at hc; cases hc
      · rw [hn] at hc₁; cases hc₁
    · rw [hn] at hc; cases hc
  | wake d =>
    simp only [step, Clock.World.state_wake] at hc
    rw [hn] at hc; cases hc
  | fire d =>
    cases hd
    rcases fire_cases x.state c with ⟨hs, -⟩ | ⟨call₁, hc₁, -⟩
    · simp only [step, Clock.World.state_wake, hs] at hc
      rw [hn] at hc; cases hc
    · rw [hn] at hc₁; cases hc₁
  | drop d =>
    cases hd
    rcases drop_cases x.state c with hs | ⟨call₁, hc₁, -⟩
    · simp only [step, Clock.World.state_wake, hs] at hc
      rw [hn] at hc; cases hc
    · rw [hn] at hc₁; cases hc₁
  | pass t => cases hd

theorem step_forward (x : World σ ω α) (e : Event ω ι) : x.state.Forward (step w x e).state := by
  cases e with
  | start c key fired work =>
    simp only [step]
    split
    · exact .refl _
    · rename_i hc
      exact start_forward (by simpa using hc) key fired work
  | turn c i =>
    simp only [step]
    split
    · exact turn_forward w.watched i x.now c x.state
    · exact .refl _
  | wake c => exact .refl _
  | fire c => exact fire_forward x.state c
  | drop c => exact drop_forward x.state c
  | pass t => simp only [step]; split <;> exact .refl _

theorem worldAt_forward (x : World σ ω α) (es : List (Event ω ι)) {m n : Nat} (hmn : m ≤ n) :
    (worldAt w x es m).state.Forward (worldAt w x es n).state :=
  Trace.after_since (P := fun (y : World σ ω α) => (worldAt w x es m).state.Forward y.state) hmn
    (.refl _) (fun _ _ e _ h => h.trans (step_forward _ e))

/-- What an event makes of a call that is there. -/
inductive Moved (w : Work σ ω ι α) (x : World σ ω α) (e : Event ω ι) (c : Nat)
    (call : Call ω α) : Prop
  | same (hc : (step w x e).state.calls.get? c = some call)
  | turn (i : ι) (he : e = .turn c i) (hr : c ∈ x.ready)
    (hs : (step w x e).state = x.state.turn w.watched i x.now c)
  | fire (he : e = .fire c)
    (hc : (step w x e).state.calls.get? c = some { call with fired := true })
  | drop (he : e = .drop c) (ho : ∀ e, call.phase ≠ .ended e)
    (hc : (step w x e).state.calls.get? c = some { call with phase := .dropped })

theorem moved {x : World σ ω α} (e : Event ω ι) {c : Nat} {call : Call ω α}
    (hc : x.state.calls.get? c = some call) : Moved w x e c call := by
  -- an event about another call leaves it as it is
  by_cases hd : e.call? = some c
  swap
  · exact .same (by rw [step_of_ne x e hd]; exact hc)
  cases e with
  | start d key fired work =>
    cases hd
    refine .same ?_
    simp only [step, hc, Option.isSome_some, if_true]
  | turn d i =>
    cases hd
    by_cases hr : c ∈ x.ready
    · exact .turn i rfl hr (by simp only [step, if_pos hr, Clock.World.state_wake])
    · exact .same (by simp only [step, if_neg hr]; exact hc)
  | wake d => exact .same hc
  | fire d =>
    cases hd
    refine .fire rfl ?_
    simp only [step, Clock.World.state_wake]
    rcases fire_cases x.state c with ⟨-, hn⟩ | ⟨call₁, hc₁, hs⟩
    · rw [hc] at hn; cases hn
    · rw [hc] at hc₁; cases hc₁
      rw [hs]; exact Table.get?_put_self _ _ _
  | drop d =>
    cases hd
    rcases drop_cases x.state c with hs | ⟨call₁, hc₁, ho, hs⟩
    · refine .same ?_
      simp only [step, Clock.World.state_wake, hs]
      exact hc
    · rw [hc] at hc₁; cases hc₁
      refine .drop rfl ho ?_
      simp only [step, Clock.World.state_wake, hs, calls_land]
      exact Table.get?_put_self _ _ _
  | pass t => cases hd

end Flight

end RegistryLookup
