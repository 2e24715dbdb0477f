import RegistryLookup.Proofs.Flight.Sound

/-!
# Calls only move forward

A call keeps its key. Once it has led a flight it never waits again, and once it is over it
stays as it ended. An operation on one call leaves the other calls as they are.
-/

namespace RegistryLookup

namespace Flight

variable {ω α : Type}

/-- A later stage of the same call. -/
structure Call.Before (a b : Call ω α) : Prop where
  key : b.key = a.key
  fired : a.fired = true → b.fired = true
  past : a.phase.task? = none → b.phase.task? = none
  ended : ∀ e, a.phase = .ended e → b.phase = .ended e
  gone : a.phase = .dropped → b.phase = .dropped

theorem Call.Before.refl (a : Call ω α) : a.Before a :=
  ⟨rfl, fun h => h, fun h => h, fun _ h => h, fun h => h⟩

theorem Call.Before.trans {a b c : Call ω α} (h : a.Before b) (h' : b.Before c) : a.Before c :=
  ⟨h'.key.trans h.key, fun x => h'.fired (h.fired x), fun x => h'.past (h.past x),
    fun e x => h'.ended e (h.ended e x), fun x => h'.gone (h.gone x)⟩

end Flight

namespace Flights

open Flight

variable {σ ω ι α : Type}

/-- Every call of `s` is there in `s'`, at the same stage or a later one. -/
def Forward (s s' : Flights σ ω α) : Prop :=
  ∀ c call, s.calls.get? c = some call → ∃ call', s'.calls.get? c = some call' ∧ call.Before call'

theorem Forward.refl (s : Flights σ ω α) : s.Forward s :=
  fun _ call h => ⟨call, h, .refl call⟩

theorem Forward.trans {s t u : Flights σ ω α} (h : s.Forward t) (h' : t.Forward u) :
    s.Forward u := by
  intro c call hc
  obtain ⟨call₁, h1, hb⟩ := h c call hc
  obtain ⟨call₂, h2, hb'⟩ := h' c call₁ h1
  exact ⟨call₂, h2, hb.trans hb'⟩

/-- A call moves forward when it is written in a later stage, and the others stay where they are. -/
theorem forward_of_put {s s' : Flights σ ω α} {c : Nat} {call call' : Call ω α}
    (hc : s.calls.get? c = some call) (hcalls : s'.calls = s.calls.put c call')
    (hb : call.Before call') : s.Forward s' := by
  intro d dcall hd
  by_cases hdc : d = c
  · subst hdc
    rw [hc] at hd; cases hd
    exact ⟨call', by rw [hcalls]; exact Table.get?_put_self _ _ _, hb⟩
  · exact ⟨dcall, by rw [hcalls, Table.get?_put_of_ne _ _ hdc]; exact hd, .refl dcall⟩

/-- What a turn leaves of the table of calls: all of it, or one call in a new phase, and this
call had not ended before. -/
theorem calls_turn (w : Work σ ω ι α) (i : ι) (now c : Nat) (s : Flights σ ω α) :
    (s.turn w i now c).calls = s.calls ∨ ∃ call p, s.calls.get? c = some call ∧
      (s.turn w i now c).calls = s.calls.put c { call with phase := p } ∧
      (call.phase.task? = none → p.task? = none) ∧ (∀ e, call.phase ≠ .ended e) ∧
      call.phase ≠ .dropped := by
  have hopen : ∀ {call : Call ω α} {task : ω}, call.phase.task? = some task →
      (∀ e, call.phase ≠ .ended e) ∧ call.phase ≠ .dropped := by
    intro call task ht
    constructor
    · intro e he; rw [he] at ht; cases ht
    · intro he; rw [he] at ht; cases ht
  cases turn_cases w i now c s with
  | rest hs => left; rw [hs]
  | giveUp call task hc ht _ hs =>
    exact Or.inr ⟨call, _, hc, by rw [hs]; rfl, fun _ => rfl, hopen ht⟩
  | wait call task l hc ht _ _ _ hs =>
    exact Or.inr ⟨call, _, hc, by rw [hs]; rfl, fun h => (by rw [ht] at h; cases h), hopen ht⟩
  | serve call task l r hc hp _ _ hs =>
    have ht : call.phase.task? = some task := by rw [hp]; rfl
    exact Or.inr ⟨call, _, hc, by rw [hs]; rfl, fun _ => rfl, hopen ht⟩
  | work call task s₁ hc hl hs =>
    have hcalls : s₁.calls = s.calls := by rcases hl with ⟨-, rfl⟩ | ⟨-, -, rfl⟩ <;> rfl
    -- a call at work, or about to be, has neither ended nor been dropped
    have hno : (∀ e, call.phase ≠ .ended e) ∧ call.phase ≠ .dropped := by
      rcases hl with ⟨hp, -⟩ | ⟨ht, -⟩
      · constructor
        · intro e he; rw [hp] at he; cases he
        · intro he; rw [hp] at he; cases he
      · exact hopen ht
    rcases work_cases w i now c call task s₁ with ⟨task', -, hw⟩ | ⟨r, -, hw⟩
    · exact Or.inr ⟨call, _, hc, by rw [hs, hw, ← hcalls]; rfl, fun _ => rfl, hno⟩
    · exact Or.inr ⟨call, _, hc, by rw [hs, hw, calls_land, ← hcalls]; rfl, fun _ => rfl, hno⟩

/-- **A turn moves calls forward.** -/
theorem turn_forward (w : Work σ ω ι α) (i : ι) (now c : Nat) (s : Flights σ ω α) :
    s.Forward (s.turn w i now c) := by
  rcases calls_turn w i now c s with h | ⟨call, p, hc, hcalls, hpast, hend, hdrop⟩
  · intro d call hd; exact ⟨call, by rw [h]; exact hd, .refl call⟩
  · exact forward_of_put hc hcalls
      ⟨rfl, fun h => h, hpast, fun e h => absurd h (hend e), fun h => absurd h hdrop⟩

/-- A turn of one call leaves the others alone. -/
theorem turn_of_ne (w : Work σ ω ι α) (i : ι) (now : Nat) (s : Flights σ ω α) {c d : Nat}
    (hd : d ≠ c) : (s.turn w i now c).calls.get? d = s.calls.get? d := by
  rcases calls_turn w i now c s with h | ⟨call, p, -, hcalls, -⟩
  · rw [h]
  · rw [hcalls]; exact Table.get?_put_of_ne _ _ hd

theorem start_forward {s : Flights σ ω α} {c : Nat} (hc : s.calls.get? c = none) (key : String)
    (fired : Bool) (work : ω) : s.Forward (s.start c key fired work) := by
  intro d call hd
  have hdc : d ≠ c := fun h => by rw [h, hc] at hd; cases hd
  exact ⟨call, (Table.get?_put_of_ne _ _ hdc).trans hd, .refl call⟩

/-- Firing a token is noted in its call, if there is one. -/
theorem fire_cases (s : Flights σ ω α) (c : Nat) : (s.fire c = s ∧ s.calls.get? c = none) ∨
    ∃ call, s.calls.get? c = some call ∧
      s.fire c = { s with calls := s.calls.put c { call with fired := true } } := by
  unfold fire
  cases hc : s.calls.get? c with
  | none => exact Or.inl ⟨rfl, rfl⟩
  | some call => exact Or.inr ⟨call, rfl, rfl⟩

theorem fire_forward (s : Flights σ ω α) (c : Nat) : s.Forward (s.fire c) := by
  rcases fire_cases s c with ⟨h, -⟩ | ⟨call, hc, h⟩
  · rw [h]; exact .refl s
  · rw [h]
    exact forward_of_put hc rfl ⟨rfl, fun _ => rfl, fun h => h, fun _ h => h, fun h => h⟩

theorem fire_of_ne (s : Flights σ ω α) {c d : Nat} (hd : d ≠ c) :
    (s.fire c).calls.get? d = s.calls.get? d := by
  rcases fire_cases s c with ⟨h, -⟩ | ⟨call, -, h⟩
  · rw [h]
  · rw [h]; exact Table.get?_put_of_ne _ _ hd

theorem store_fire (s : Flights σ ω α) (c : Nat) : (s.fire c).store = s.store := by
  rcases fire_cases s c with ⟨h, -⟩ | ⟨call, -, h⟩ <;> rw [h]

/-- A call that is over is not dropped any more: it stays as it ended. -/
theorem drop_forward (s : Flights σ ω α) (c : Nat) : s.Forward (s.drop c) := by
  rcases drop_cases s c with h | ⟨call, hc, hend, h⟩
  · rw [h]; exact .refl s
  · rw [h]
    exact forward_of_put hc (calls_land _ _ _)
      ⟨rfl, fun h => h, fun _ => rfl, fun e h => absurd h (hend e), fun _ => rfl⟩

theorem drop_of_ne (s : Flights σ ω α) {c d : Nat} (hd : d ≠ c) :
    (s.drop c).calls.get? d = s.calls.get? d := by
  rcases drop_cases s c with h | ⟨call, -, -, h⟩
  · rw [h]
  · rw [h, calls_land]; exact Table.get?_put_of_ne _ _ hd

/-- Dropping a call leaves alone what the works share. -/
theorem store_drop (s : Flights σ ω α) (c : Nat) : (s.drop c).store = s.store := by
  rcases drop_cases s c with h | ⟨call, -, -, h⟩
  · rw [h]
  · rw [h, store_land]; rfl

end Flights

end RegistryLookup
