import RegistryLookup.Caller.Basic
import RegistryLookup.Wait

/-!
# The waits of a call

A call waits for a permit, for the flight of another call, and between two attempts. Each time it
takes a turn it looks at its wait in the same way, its token first.

* `Caller.await_eq`, `Flights.turn_of_waiting`, `Retry.move_of_resting`: what it does then.
* `Wait.race_first`: a wait ends when there is first something to see.
* `Retry.rest_raced`: so the rest of a loop ends as a race between the token and the time does.
-/

namespace RegistryLookup

namespace Caller

variable {α : Type}

/-- What a call in the queue has been given: a permit, or the answer that the caller is closed. -/
def answerTo (s : Caller α) (c : Nat) : Option (Except Failure Unit) :=
  if s.permits.closed then some (.error (closedFailure s.name))
  else if c ∈ s.permits.granted then some (.ok ())
  else none

/-- **A turn in the queue for permits.** -/
theorem await_eq (answers : Answers α) (now c : Nat) (call : Call α) (fired : Bool)
    (s : Caller α) : await answers now c call fired s =
      match Wait.look fired (s.answerTo c) with
      | none => s
      | some (.error e) | some (.ok (.error e)) =>
        { s with permits := s.permits.leave c }.become c call (.ended (.error e) now)
      | some (.ok (.ok ())) =>
        board answers now c call fired { s with permits := s.permits.claim c } := by
  unfold await Wait.look answerTo
  cases fired with
  | true => rfl
  | false =>
    by_cases hclosed : s.permits.closed = true
    · simp [hclosed]
    · by_cases hgranted : c ∈ s.permits.granted <;> simp [hclosed, hgranted]

end Caller

/-- What a flight leaves to those who wait for it when it is over: its result, if there is one to
share. -/
def Flight.Fate.outcome? {α : Type} : Flight.Fate α → Option (Option (Except Failure α))
  | .flying => none
  | .landed r => some (some r)
  | .lost => some none

/-- **A turn of a call that waits for the flight of another.** -/
theorem Flights.turn_of_waiting {σ ω ι α : Type} (w : Flight.Work σ ω ι α) (i : ι) (now : Nat)
    {c leader : Nat} {s : Flights σ ω α} {call : Flight.Call ω α} {task : ω}
    (hc : s.calls.get? c = some call) (hp : call.phase = .waiting leader task) :
    s.turn w i now c =
      match Wait.look call.fired (s.fate leader).outcome? with
      | none => s
      | some (.error e) => s.become c call (.ended ⟨.error e, .gaveUp, now⟩)
      | some (.ok (some r)) =>
        { s.become c call (.ended ⟨r, .served leader, now⟩) with
          journal := .shared s.name :: s.journal }
      | some (.ok none) => s.join w i now c call task := by
  unfold turn Wait.look
  simp only [hc, hp]
  cases call.fired with
  | true => rfl
  | false => cases s.fate leader <;> rfl

namespace Wait

variable {delay : Nat} {token : Token}

/-- **A wait ends when there is first something to see.** -/
theorem race_first (delay : Nat) (token : Token) :
    (∀ t < (race delay token).2,
      look (token.hasFired delay t) (if t < delay then none else some ()) = none) ∧
    look (token.hasFired delay (race delay token).2)
        (if (race delay token).2 < delay then none else some ()) =
      some (race delay token).1 := by
  cases token with
  | never => simp [race, look, Token.hasFired]
  | fired => simp [race, look, Token.hasFired]
  | firesAt f =>
    by_cases hf : f < delay
    · rw [show race delay (.firesAt f) = (.error .cancelled, f) from if_pos hf]
      refine ⟨fun t ht => ?_, by simp [look, Token.hasFired, hf]⟩
      have hlate : ¬ f ≤ t := Nat.not_le.2 ht
      simp [look, Token.hasFired, hlate, Nat.lt_trans ht hf]
    · rw [show race delay (.firesAt f) = (.ok (), delay) from if_neg hf]
      refine ⟨fun t ht => ?_, by simp [look, Token.hasFired, hf]⟩
      have htime : t < delay := ht
      simp [look, Token.hasFired, hf, htime]

end Wait

namespace Retry

variable {α : Type} {p : Policy} {answers : UInt32 → Outcome α} {l : Loop α}

/-- **A turn of a loop that rests.** -/
theorem move_of_resting {wakesAt : Nat} (hp : l.phase = .resting wakesAt) (now : Nat)
    (fired : Bool) : l.move p answers now fired =
      match Wait.look fired (if now < wakesAt then none else some ()) with
      | none => .wait
      | some (.error e) => .finish [] (.error e)
      | some (.ok ()) => .step [] ⟨l.tries, .ready⟩ := by
  unfold Loop.move Wait.look
  simp only [hp]
  cases fired with
  | true => rfl
  | false => by_cases hlt : now < wakesAt <;> simp [hlt]

/-- **A rest ends as a race says.** Until then the loop waits, and then it goes on or is over. -/
theorem rest_raced {now delay : Nat} (hp : l.phase = .resting (now + delay))
    (token : Wait.Token) :
    (∀ t < (Wait.race delay token).2,
      l.move p answers (now + t) (token.hasFired delay t) = .wait) ∧
    l.move p answers (now + (Wait.race delay token).2)
        (token.hasFired delay (Wait.race delay token).2) =
      match (Wait.race delay token).1 with
      | .error e => .finish [] (.error e)
      | .ok () => .step [] ⟨l.tries, .ready⟩ := by
  obtain ⟨hbefore, hend⟩ := Wait.race_first delay token
  constructor
  · intro t ht
    rw [move_of_resting hp]
    simp only [Nat.add_lt_add_iff_left, hbefore t ht]
  · rw [move_of_resting hp]
    simp only [Nat.add_lt_add_iff_left, hend]
    cases (Wait.race delay token).1 <;> rfl

end Retry

end RegistryLookup
