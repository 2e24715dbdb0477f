import RegistryLookup.Gateway.Basic

/-!
# The traffic of a gateway

What the lookups of a gateway send over the network. Each attempt of a lookup is one request;
a request that reaches a host gets the next number, over all registries. What a reply leads to is
not counted as a request of its own.

* `run_asks`: what a client does leaves the lookups of the gateway as they are.
-/

namespace RegistryLookup

namespace Client

/-- How many attempts a call has begun. -/
def attemptsBegun (c : Client) (call : Nat) : Nat :=
  c.caller.flights.store.record.countP (fun e => match e.notice with
    | .began _ => e.call = call
    | _ => false)

end Client

namespace Gateway

/-- What a lookup asks for. -/
structure Ask where
  request : Http.Request
  subject : String

/-- A gateway at work. -/
structure Traffic where
  gateway : Gateway
  network : Http.Network
  /-- The lookups that clients were given, by the number of their call. -/
  asks : Table Nat Ask := []
  plans : Table Nat Caller.Plan := []
  /-- The requests that reached a host, newest first. -/
  arrivals : List Http.Request := []

namespace Traffic

/-- What attempts come to that belong to no lookup. -/
def noAnswer : Retry.Outcome Json := { takes := none, result := .ok .null }

/-- What the attempts come to that a call begins now. -/
def answersFor (t : Traffic) (client : Client) (call : Nat) : Caller.Answers Json := fun n =>
  match t.asks.get? call with
  | none => noAnswer
  | some ask =>
    t.network.fetch client.patience ask.request ask.subject
      (t.arrivals.length + (n.toNat - 1 - client.attemptsBegun call))

/-- The requests that a task of a client has sent to a host. -/
def sent (t : Traffic) (before after : Client) : Caller.Task → List Http.Request
  | .call c =>
    match t.asks.get? c with
    | none => []
    | some ask =>
      if t.network.carries ask.request.url then
        List.replicate (after.attemptsBegun c - before.attemptsBegun c) ask.request
      else []
  | _ => []

/-- Let a task of a client run; gives the tasks that it woke. -/
def run (now : Nat) (registry : String) (task : Caller.Task) (t : Traffic) :
    Traffic × List Caller.Task :=
  match t.gateway.client? registry with
  | none => (t, [])
  | some client =>
    let (caller, woken) := client.caller.run (t.answersFor client) now task
    let after := client.withCaller caller
    ({ t with
      gateway := t.gateway.modify registry (fun _ => after)
      arrivals := t.sent client after task ++ t.arrivals }, woken)

theorem run_asks (now : Nat) (registry : String) (task : Caller.Task) (t : Traffic) :
    (t.run now registry task).1.asks = t.asks := by
  unfold run
  split <;> rfl

/-- The timers of all clients. -/
def timers (t : Traffic) : List (Nat × String × Caller.Task) :=
  t.gateway.clients.flatMap (fun c =>
    (c.caller.timers t.plans).map (fun p => (p.1, c.name, p.2)))

/-- A bound on the turns that clients take at one instant. -/
def turns (t : Traffic) : Nat := (t.gateway.clients.map (fun c => c.caller.turns)).foldr (· + ·) 0

/-- Whether every lookup has ended. -/
def isDone (t : Traffic) : Bool := t.gateway.clients.all (fun c => c.caller.isDone)

end Traffic

end Gateway

end RegistryLookup
