import RegistryLookup.Clock
import RegistryLookup.Retry.Trial

/-!
# A retry loop on the clock

One loop on its own, with a token that may fire at an instant.
-/

namespace RegistryLookup.Retry

variable {α : Type}

/-- A loop on its own. -/
structure Session (α : Type) where
  policy : Policy
  label : String
  answers : UInt32 → Outcome α
  /-- When the token fires. -/
  cancelAt : Option Nat
  fired : Bool
  loop : Loop α := {}
  /-- The result and when it came. -/
  result : Option (Except Failure α × Nat) := none
  record : List (Entry α) := []
  journal : List Sample := []

/-- What happens on the clock. -/
inductive Session.Task
  | go
  | fire
  deriving DecidableEq

namespace Session

/-- Let the loop take a turn. -/
def go (s : Session α) (now : Nat) : Session α :=
  match s.result with
  | some _ => s
  | none =>
    let t := s.loop.turn s.policy s.answers now s.fired
    let s := { s with
      record := enter 0 now t.notices s.record
      journal := samples s.label t.notices ++ s.journal }
    match t.rest with
    | .inl l => { s with loop := l }
    | .inr r => { s with result := some (r, now) }

/-- The loop and its token as tasks on the clock. -/
def system : Clock.System (Session α) Session.Task where
  run now task s := match task with
    | .go => (s.go now, [])
    | .fire => ({ s with fired := true }, [.go])
  timers s :=
    (s.loop.timer.toList.map (·, Session.Task.go)) ++
      (if s.fired then [] else s.cancelAt.toList.map (·, Session.Task.fire))
  turns _ := 4

/-- An instant after everything. -/
def endOfTime : Nat := Nat.pow 2 128

/-- Run a loop to its end, if that comes until an instant. -/
def runUntil (s : Session α) (limit : Nat) : Session α :=
  let w : Clock.World (Session α) Session.Task := { state := s, ready := [.go] }
  ((w.settle system).advanceUntil system (·.result.isSome) limit).state

/-- Run a loop to its end. -/
def run (s : Session α) : Session α := s.runUntil endOfTime

end Session

end RegistryLookup.Retry
