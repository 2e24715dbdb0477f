/-!
# Permits

A fixed number of permits is handed out to calls, first come, first served. A permit that is
given back goes straight to the call that has waited longest. Closing sends all waiting calls
away; permits that are out can still be given back.

* `total_request`, `total_claim`, `total_release`, `total_leave`: a permit is free, on its way to
  a call, or held by one, and no operation loses or makes any.
-/

namespace RegistryLookup

/-- The permits of a caller. -/
structure Permits where
  /-- How many there are. -/
  limit : Nat
  /-- How many nobody has. -/
  free : Nat
  /-- The calls that wait for one, longest first. -/
  queue : List Nat := []
  /-- The calls that were given one while they waited, and have not noticed. -/
  granted : List Nat := []
  closed : Bool := false

namespace Permits

/-- All permits free; at least one. -/
def make (limit : Nat) : Permits where
  limit := max 1 limit
  free := max 1 limit

/-- Ask for a permit: take a free one, or queue up. -/
def request (p : Permits) (c : Nat) : Bool × Permits :=
  if 0 < p.free then (true, { p with free := p.free - 1 })
  else (false, { p with queue := p.queue ++ [c] })

/-- A waiting call notices that it was given a permit. -/
def claim (p : Permits) (c : Nat) : Permits := { p with granted := p.granted.erase c }

/-- Give a permit back. -/
def release (p : Permits) : Permits :=
  match p.queue with
  | [] => { p with free := p.free + 1 }
  | c :: rest => { p with queue := rest, granted := p.granted ++ [c] }

/-- A waiting call goes away; a permit that it was given and did not notice is given back. -/
def leave (p : Permits) (c : Nat) : Permits :=
  if c ∈ p.granted then (p.claim c).release else { p with queue := p.queue.erase c }

/-- Send all waiting calls away, and hand out no permit any more. -/
def close (p : Permits) : Permits := { p with closed := true, queue := [] }

/-- The permits that no call holds. -/
def total (p : Permits) : Nat := p.free + p.granted.length

theorem total_release (p : Permits) : p.release.total = p.total + 1 := by
  unfold release total
  split <;> simp <;> omega

theorem total_claim {p : Permits} {c : Nat} (h : c ∈ p.granted) :
    (p.claim c).total + 1 = p.total := by
  have hl := List.length_erase_of_mem h
  have hp := List.length_pos_of_mem h
  simp only [claim, total, hl]
  omega

theorem total_leave (p : Permits) (c : Nat) : (p.leave c).total = p.total := by
  unfold leave
  split
  · rename_i h
    rw [total_release, total_claim h]
  · rfl

theorem total_request (p : Permits) (c : Nat) :
    (p.request c).2.total + (if (p.request c).1 then 1 else 0) = p.total := by
  unfold request total
  split
  · simp; omega
  · simp

end Permits

end RegistryLookup
