import RegistryLookup.Breaker.Basic

/-!
# A session with a breaker

A breaker that is driven by hand: operations one after another, with a clock that only moves
when it is told to.
-/

namespace RegistryLookup.Breaker

/-- What can be done with a breaker. -/
inductive Operation
  | allow
  | success
  | failure
  | state
  | name
  | advance (duration : Nat)

/-- What an operation gives back. -/
inductive Answer
  | nothing
  | admitted (b : Bool)
  | word (s : String)

/-- A breaker and the time. -/
structure Session where
  breaker : Breaker
  now : Nat := 0

/-- Do an operation. -/
def Session.perform (s : Session) : Operation → Answer × Session
  | .allow =>
    let (admitted, b) := s.breaker.allow s.now
    (.admitted admitted, { s with breaker := b })
  | .success => (.nothing, { s with breaker := s.breaker.recordSuccess })
  | .failure => (.nothing, { s with breaker := s.breaker.recordFailure s.now })
  | .state => (.word s.breaker.circuit.label, s)
  | .name => (.word s.breaker.name, s)
  | .advance d => (.nothing, { s with now := s.now + d })

/-- Do an operation a number of times; the last answer counts. -/
def Session.repeatedly (s : Session) (op : Operation) : Nat → Answer × Session
  | 0 => (.nothing, s)
  | n + 1 => (s.repeatedly op n).2.perform op

/-- Do operations one after another, and give each answer with the session after it. -/
def Session.steps (s : Session) : List (Operation × Nat) → List (Answer × Session)
  | [] => []
  | (op, times) :: rest =>
    let r := s.repeatedly op times
    r :: r.2.steps rest

end RegistryLookup.Breaker
