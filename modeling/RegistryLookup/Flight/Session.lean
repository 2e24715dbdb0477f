import RegistryLookup.Clock
import RegistryLookup.Flight.Job

/-!
# Flights on the clock

Calls for jobs come in at given instants; a token may fire, or a call be dropped, at an instant
of its own. After the last event the clock runs until every call has ended, for some time.
-/

namespace RegistryLookup.Flight

variable {α : Type}

/-- What is planned for a call besides its job. -/
structure Plan where
  /-- When its token fires. -/
  cancelAt : Option Nat := none
  /-- When it is dropped. -/
  abortAt : Option Nat := none

/-- The flights and the plans of their calls. -/
structure Session (α : Type) where
  flights : Flights (List Run) (Job α) α
  plans : Table Nat Plan := []

/-- What happens on the clock. -/
inductive Session.Task
  | call (c : Nat)
  | fire (c : Nat)
  | abort (c : Nat)
  deriving DecidableEq

/-- Whether a call is still under way. -/
def Call.isOpen {ω : Type} (call : Call ω α) : Bool :=
  match call.phase with
  | .ended _ => false
  | .dropped => false
  | _ => true

/-- The timer of the work of a leading call. -/
def Call.timer (call : Call (Job α) α) : Option Nat :=
  match call.phase with
  | .leading job => job.timer
  | _ => none

namespace Session

/-- Let something happen; gives the tasks that are woken. -/
def run (now : Nat) (task : Task) (s : Session α) : Session α × List Task :=
  match task with
  | .call c =>
    let flights := s.flights.turn jobWork () now c
    ({ s with flights := flights }, (flights.freedBy c).map .call)
  | .fire c => ({ s with flights := s.flights.fire c }, [.call c])
  | .abort c =>
    let flights := s.flights.drop c
    ({ s with flights := flights }, (flights.freedBy c).map .call)

/-- The timers of the calls under way. -/
def timers (s : Session α) : List (Nat × Task) :=
  s.flights.calls.flatMap (fun (c, call) =>
    if call.isOpen then
      let plan := (s.plans.get? c).getD {}
      (call.timer.toList.map (·, .call c)) ++
        (if call.fired then [] else plan.cancelAt.toList.map (·, .fire c)) ++
        (plan.abortAt.toList.map (·, .abort c))
    else [])

/-- The calls and their tokens as tasks on the clock. A call takes a turn when it arrives, when
its token fires, when its timer fires, and for every flight that it waited for. -/
def system : Clock.System (Session α) Task where
  run := run
  timers := timers
  turns s := (s.flights.calls.length + 3) * (s.flights.calls.length + 3)

/-- Whether every call has ended. -/
def isDone (s : Session α) : Bool := s.flights.calls.all (fun p => !p.2.isOpen)

/-- What can happen from outside. -/
inductive Event (α : Type)
  | call (key : String) (fired : Bool) (plan : Plan) (job : Job α)
  | inFlight

/-- Let an event happen; `c` is its number. Says how many flights are under way. -/
def perform (c : Nat) (w : Clock.World (Session α) Task) : Event α →
    Option Nat × Clock.World (Session α) Task
  | .call key fired plan job =>
    let flights := w.state.flights.start c key fired job
    let state : Session α := ⟨flights, w.state.plans.put c plan⟩
    (none, { w with state := state }.wake [.call c])
  | .inFlight => (some w.state.flights.inFlight.length, w)

/-- Let events happen at their instants, and whatever can run run before and after each. -/
def play (c : Nat) (w : Clock.World (Session α) Task) :
    List (Nat × Event α) → List (Option Nat) × Clock.World (Session α) Task
  | [] => ([], w)
  | (instant, event) :: rest =>
    let w := (w.settle system).advance system instant
    let (seen, w) := perform c w event
    let (others, w) := play (c + 1) (w.settle system) rest
    (seen :: others, w)

/-- How long the clock runs after the last event. -/
def patience : Nat := Duration.ofMillis 10000000

/-- Play events and wait for all calls. -/
def runAll (name : String) (events : List (Nat × Event α)) :
    List (Option Nat) × Clock.World (Session α) Task :=
  let (seen, w) := play 0 { state := ⟨{ name := name, store := [] }, []⟩ } events
  (seen, w.advanceUntil system isDone (w.now + patience))

end Session

end RegistryLookup.Flight
