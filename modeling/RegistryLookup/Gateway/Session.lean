import RegistryLookup.Gateway.Traffic

/-!
# A gateway on the clock

Operations are performed step by step. The operations of one step begin at the same instant, in
their order, and the step is over when all of them have ended.
-/

namespace RegistryLookup.Gateway

/-- What can be asked of a gateway. -/
inductive Operation
  /-- A lookup, whose token has `fired` or will fire after a time. -/
  | lookup (registry : String) (what : Lookup) (fired : Bool) (cancelAfter : Option Nat)
  | forgetCompany (registry id : String)
  | forgetSearches (registry : String)
  | clientHealth (registry : String)
  | clientName (registry : String)
  | clientClose (registry : String)
  | names
  | health
  | close
  /-- Let time pass. -/
  | rest (duration : Nat)

/-- What an operation gives. -/
inductive Answer
  | nothing
  /-- The operation failed at once. -/
  | refused (failure : Failure)
  /-- A registry is being asked. -/
  | asking (registry : String)
  /-- A lookup has ended. -/
  | result (r : Except Failure Json)
  /-- The operation ends at an instant. -/
  | resting (wakesAt : Nat)
  | removed (b : Bool)
  | count (n : Nat)
  | word (s : String)
  | words (list : List String)
  | health (h : Caller.Health)
  | healths (list : List Caller.Health)

/-- A gateway, and the operations that were asked of it, by their numbers. -/
structure Session where
  traffic : Traffic
  operations : Table Nat Operation := []
  answers : Table Nat Answer := []

namespace Session

/-- What happens on the clock. -/
inductive Task
  | operation (k : Nat)
  | client (registry : String) (task : Caller.Task)
  deriving DecidableEq

/-- Change the gateway. -/
def withGateway (s : Session) (g : Gateway) : Session :=
  { s with traffic := { s.traffic with gateway := g } }

/-- Let an operation act on the client of a registry. -/
def onClient (s : Session) (registry : String)
    (act : Client → Answer × Client × List Caller.Task) : Answer × Session × List Task :=
  match s.traffic.gateway.client? registry with
  | none => (.refused (unknownRegistry registry), s, [])
  | some client =>
    let (answer, client, tasks) := act client
    (answer, s.withGateway (s.traffic.gateway.modify registry (fun _ => client)),
      tasks.map (.client registry))

/-- Begin a lookup: it becomes a call of the client, which has its first turn at once. -/
def look (s : Session) (now k : Nat) (registry : String) (what : Lookup) (fired : Bool)
    (cancelAfter : Option Nat) : Answer × Session × List Task :=
  match s.traffic.gateway.client? registry with
  | none => (.refused (unknownRegistry registry), s, [])
  | some client =>
    match what.resolve client.registry with
    | .error e => (.refused e, s, [])
    | .ok url =>
      let caller := client.caller.start k what.key (client.ttl what) fired
      let traffic : Traffic := { s.traffic with
        gateway := s.traffic.gateway.modify registry (·.withCaller caller)
        asks := s.traffic.asks.put k ⟨client.request url, what.subject⟩
        plans := s.traffic.plans.put k { cancelAt := cancelAfter.map (now + ·) } }
      let (traffic, woken) := traffic.run now registry (.call k)
      let fires : List Caller.Task := if cancelAfter = some 0 then [.fire k] else []
      (.asking registry, { s with traffic := traffic }, (woken ++ fires).map (.client registry))

/-- Close all clients. -/
def closeAll (s : Session) : Session × List Task :=
  let g := s.traffic.gateway
  (s.withGateway { g with clients := g.clients.map (fun c => c.withCaller c.caller.close) },
    g.clients.flatMap (fun c => c.caller.closeAndWake.2.map (.client c.name)))

/-- Begin an operation. -/
def begin (s : Session) (now k : Nat) : Operation → Answer × Session × List Task
  | .lookup registry what fired cancelAfter => s.look now k registry what fired cancelAfter
  | .forgetCompany registry id => s.onClient registry (fun c =>
    let (b, c) := c.forgetCompany id
    (.removed b, c, []))
  | .forgetSearches registry => s.onClient registry (fun c =>
    let (n, c) := c.forgetSearches
    (.count n, c, []))
  | .clientHealth registry => s.onClient registry (fun c => (.health (c.caller.health now), c, []))
  | .clientName registry => s.onClient registry (fun c => (.word c.name, c, []))
  | .clientClose registry => s.onClient registry (fun c =>
    let (caller, tasks) := c.caller.closeAndWake
    (.nothing, c.withCaller caller, tasks))
  | .names => (.words s.traffic.gateway.names, s, [])
  | .health => (.healths (s.traffic.gateway.health now), s, [])
  | .close =>
    let (s, tasks) := s.closeAll
    (.nothing, s, tasks)
  | .rest duration => (if duration = 0 then .nothing else .resting (now + duration), s, [])

/-- Let something happen. An operation that rests has rested when its turn comes again. -/
def run (now : Nat) (task : Task) (s : Session) : Session × List Task :=
  match task with
  | .client registry task =>
    let (traffic, woken) := s.traffic.run now registry task
    ({ s with traffic := traffic }, woken.map (.client registry))
  | .operation k =>
    match s.answers.get? k, s.operations.get? k with
    | none, some op =>
      let (answer, s, tasks) := s.begin now k op
      ({ s with answers := s.answers.put k answer }, tasks)
    | some (.resting _), _ => ({ s with answers := s.answers.put k .nothing }, [])
    | _, _ => (s, [])

/-- The instants at which resting operations end. -/
def restTimers (s : Session) : List (Nat × Task) :=
  s.answers.filterMap (fun (k, a) => match a with
    | .resting t => some (t, .operation k)
    | _ => none)

/-- A session as tasks on the clock. -/
def system : Clock.System Session Task where
  run := run
  timers s :=
    s.restTimers ++ s.traffic.timers.map (fun (t, registry, task) => (t, .client registry task))
  turns s := s.traffic.turns + (s.operations.length + 4) * (s.operations.length + 4)

/-- Whether every operation has ended. -/
def isDone (s : Session) : Bool := s.restTimers.isEmpty && s.traffic.isDone

/-- The answer to an operation; a lookup is answered with its result. -/
def answer (s : Session) (k : Nat) : Answer :=
  match s.answers.get? k with
  | some (.asking registry) =>
    match (s.traffic.gateway.client? registry).bind (·.caller.ending? k) with
    | some (r, _) => .result r
    | none => .asking registry
  | some a => a
  | none => .nothing

abbrev World := Clock.World Session Task

/-- What a step of operations gives. -/
structure Step where
  answers : List Answer
  /-- The requests that reached a host meanwhile, first one first. -/
  arrivals : List Http.Request
  /-- When all operations had ended. -/
  finish : Nat

/-- How long a step may take. No lookup takes as long. -/
def patience : Nat := Nat.pow 2 200

/-- Perform the operations of one step. -/
def step (w : World) (operations : List Operation) : Step × World :=
  let first := w.state.operations.length
  let arrived := w.state.traffic.arrivals.length
  let numbers := (List.range operations.length).map (first + ·)
  let s := { w.state with operations := w.state.operations ++ numbers.zip operations }
  let w := ({ w with state := s }.wake (numbers.map .operation)).settle system
  let w := w.advanceUntil system isDone (w.now + patience)
  let arrivals := w.state.traffic.arrivals
  ({ answers := numbers.map w.state.answer
     arrivals := (arrivals.take (arrivals.length - arrived)).reverse
     finish := w.now }, w)

/-- Perform steps one after another. -/
def steps (w : World) : List (List Operation) → List Step × World
  | [] => ([], w)
  | operations :: rest =>
    let (first, w) := step w operations
    let (others, w) := steps w rest
    (first :: others, w)

/-- A gateway before its first operation. -/
def ofGateway (g : Gateway) (network : Http.Network) : World :=
  { state := { traffic := { gateway := g, network := network } } }

end Session

end RegistryLookup.Gateway
