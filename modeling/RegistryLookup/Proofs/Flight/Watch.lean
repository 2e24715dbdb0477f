import RegistryLookup.Proofs.Clock
import RegistryLookup.Proofs.Flight.Forward
import RegistryLookup.Proofs.Flight.Mapped
import RegistryLookup.Proofs.Flight.Run

/-!
# What the record says

Watching changes nothing else (`turn_watched`). A turn of work is recorded when a call leads its
flight or has just been given it, and its progress is the phase in which the call is left
(`turn_record`).
-/

namespace RegistryLookup.Flight

open Flights

variable {σ ω ι α : Type}

/-- **Watching changes nothing else.** -/
theorem turn_watched (w : Work σ ω ι α) (i : ι) (now c : Nat) (s : Watched σ ω α) :
    forget (s.turn w.watched i now c) = (forget s).turn w i now c := by
  have hseen : w.watched.Along Prod.fst w := fun _ _ _ _ _ _ => rfl
  exact mapStore_turn hseen i now c s

/-- What the work of a call does to the record. -/
theorem work_record (w : Work σ ω ι α) (i : ι) (now c : Nat) (call : Call ω α) (task : ω)
    (s : Watched σ ω α) : ∃ p,
      (s.work w.watched i now c call task).store.2 = ⟨c, now, call.fired, task, p⟩ :: s.store.2 ∧
      (s.work w.watched i now c call task).calls =
        s.calls.put c { call with phase := p.phase call.fired now } := by
  refine ⟨(w.turn i now c call.fired task s.store.1).1, ?_, ?_⟩
  · rw [store_work]; rfl
  · rw [calls_work]; rfl

/-- What a turn does to the record. -/
theorem turn_record (w : Work σ ω ι α) (i : ι) (now c : Nat) (s : Watched σ ω α) :
    (s.turn w.watched i now c).store.2 = s.store.2 ∨ ∃ call task p, s.calls.get? c = some call ∧
      (call.phase = .leading task ∨
        call.phase.task? = some task ∧ s.inFlight.get? call.key = none) ∧
      (s.turn w.watched i now c).store.2 = ⟨c, now, call.fired, task, p⟩ :: s.store.2 ∧
      (s.turn w.watched i now c).calls =
        s.calls.put c { call with phase := p.phase call.fired now } := by
  cases turn_cases w.watched i now c s with
  | rest hs => left; rw [hs]
  | giveUp call task hc ht _ hs => left; rw [hs]; rfl
  | wait call task l hc ht _ _ _ hs => left; rw [hs]; rfl
  | serve call task l r hc hp _ _ hs => left; rw [hs]; rfl
  | work call task s₁ hc hl hs =>
    right
    obtain ⟨p, hstore, hcalls⟩ := work_record w i now c call task s₁
    -- it led its flight before, or it has just been given it
    rcases hl with ⟨hp, rfl⟩ | ⟨ht, hn, rfl⟩
    · exact ⟨call, task, p, hc, Or.inl hp, by rw [hs]; exact hstore, by rw [hs]; exact hcalls⟩
    · exact ⟨call, task, p, hc, Or.inr ⟨ht, hn⟩, by rw [hs]; exact hstore, by rw [hs]; exact hcalls⟩

/-- Work is recorded in a turn of its call only. -/
theorem step_record (w : Work σ ω ι α) (x : World σ ω α) (e : Event ω ι) :
    (step w x e).state.store.2 = x.state.store.2 ∨ ∃ c i call task p, e = .turn c i ∧
      x.state.calls.get? c = some call ∧ (call.phase = .leading task ∨
        call.phase.task? = some task ∧ x.state.inFlight.get? call.key = none) ∧
      (step w x e).state.store.2 = ⟨c, x.now, call.fired, task, p⟩ :: x.state.store.2 := by
  cases e with
  | start c key fired work =>
    left; simp only [step]; split <;> rfl
  | turn c i =>
    by_cases hr : c ∈ x.ready
    swap
    · left; simp only [step, if_neg hr]
    simp only [step, if_pos hr, Clock.World.state_wake]
    rcases turn_record w i x.now c x.state with h | ⟨call, task, p, hc, hl, h, -⟩
    · exact Or.inl h
    · exact Or.inr ⟨c, i, call, task, p, rfl, hc, hl, h⟩
  | wake c => exact Or.inl rfl
  | fire c =>
    left
    rcases fire_cases x.state c with ⟨h, -⟩ | ⟨call, -, h⟩ <;>
      simp only [step, Clock.World.state_wake, h]
  | drop c =>
    left
    rcases drop_cases x.state c with h | ⟨call, -, -, h⟩
    · simp only [step, Clock.World.state_wake, h]
    · simp only [step, Clock.World.state_wake, h, store_land]
      rfl
  | pass t => left; simp only [step]; split <;> rfl

end RegistryLookup.Flight
