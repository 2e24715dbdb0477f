import RegistryLookup.Cache.Session
import RegistryLookup.Caller.Task

/-!
# A caller on the clock

Calls and other events come in at given instants. What the attempts of a call come to is known
beforehand. After the last event the clock runs until every call has ended, for some time.
-/

namespace RegistryLookup.Caller

/-- A caller, and what is planned for its calls. -/
structure Session where
  caller : Caller Json
  plans : Table Nat Plan := []
  answers : Table Nat (Answers Json) := []

namespace Session

/-- What attempts come to that nothing is known of. -/
def noAnswer : Answers Json := fun _ => { takes := none, result := .ok .null }

/-- The answers for a call. -/
def answersFor (s : Session) (c : Nat) : Answers Json := (s.answers.get? c).getD noAnswer

/-- A caller as tasks on the clock. -/
def system : Clock.System Session Task where
  run now task s :=
    let (caller, woken) := s.caller.run s.answersFor now task
    ({ s with caller := caller }, woken)
  timers s := s.caller.timers s.plans
  turns s := s.caller.turns

/-- What can happen from outside. -/
inductive Event
  | call (key : String) (ttl : Nat) (fired : Bool) (plan : Plan) (answers : Answers Json)
  | health
  | close
  | name
  | allow
  | success
  | failure
  | onCache (operation : Cache.Operation)

/-- What an event gives back at once. -/
inductive Answer
  | nothing
  /-- The call with this number was started. -/
  | started (c : Nat)
  | health (h : Health)
  | word (s : String)
  | admitted (b : Bool)
  | cache (answer : Cache.Answer)

abbrev World := Clock.World Session Task

/-- Change the caller, and wake tasks. -/
def update (w : World) (caller : Caller Json) (tasks : List Task) : World :=
  { w with state := { w.state with caller := caller } }.wake tasks

/-- Let an event happen; `c` is its number. -/
def perform (c : Nat) (w : World) : Event → Answer × World
  | .call key ttl fired plan answers =>
    let s := w.state
    let s : Session :=
      ⟨s.caller.start c key ttl fired, s.plans.put c plan, s.answers.put c answers⟩
    (.started c, { w with state := s }.wake [.call c])
  | .health => (.health (w.state.caller.health w.now), w)
  | .close =>
    let (caller, tasks) := w.state.caller.closeAndWake
    (.nothing, update w caller tasks)
  | .name => (.word w.state.caller.name, w)
  | .allow =>
    let (b, breaker) := w.state.caller.breaker.allow w.now
    (.admitted b, update w { w.state.caller with breaker := breaker } [])
  | .success =>
    let caller := w.state.caller
    (.nothing, update w { caller with breaker := caller.breaker.recordSuccess } [])
  | .failure =>
    let caller := w.state.caller
    (.nothing, update w { caller with breaker := caller.breaker.recordFailure w.now } [])
  | .onCache op =>
    let before := w.state.caller.cache
    let (answer, after) := before.perform Cache.set w.now op
    (.cache answer,
      update w (w.state.caller.withCache after) ((Tended.called before after).map .chore))

/-- Let events happen at their instants, and whatever can run run before and after each. -/
def play (c : Nat) (w : World) : List (Nat × Event) → List Answer × World
  | [] => ([], w)
  | (instant, event) :: rest =>
    let w := (w.settle system).advance system instant
    let (answer, w) := perform c w event
    let (others, w) := play (c + 1) (w.settle system) rest
    (answer :: others, w)

/-- How long the clock runs after the last event. -/
def patience : Nat := Duration.ofMillis 10000000

/-- Play events and wait for all calls. -/
def runAll (caller : Caller Json) (events : List (Nat × Event)) : List Answer × World :=
  let (answers, w) := play 0 { state := { caller := caller } } events
  (answers, w.advanceUntil system (·.caller.isDone) (w.now + patience))

end Session

end RegistryLookup.Caller
