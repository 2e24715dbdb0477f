import RegistryLookup.Breaker.Basic
import RegistryLookup.Caller.Load
import RegistryLookup.Permits

/-!
# A resilient caller

Every call to a registry passes the breaker, then waits for a permit, then shares a flight with
the other calls for its key, and at last reports to the breaker. A flight is one report: its
leader reports it, and a call that was served only does so while the circuit is half open. A
call that ends cancelled reports nothing.
-/

namespace RegistryLookup

/-- Where a call stands. -/
inductive Caller.Stage (α : Type)
  /-- It has not had its first turn; whether its token has fired. -/
  | arriving (fired : Bool)
  /-- It waits for a permit. -/
  | queued (fired : Bool)
  /-- It has a permit; the flights know the rest. -/
  | admitted
  | ended (result : Except Failure α) (instant : Nat)
  /-- It was dropped before it ended. -/
  | dropped

/-- A call for a key. -/
structure Caller.Call (α : Type) where
  key : String
  /-- How long its value is kept. -/
  ttl : Nat
  stage : Caller.Stage α

/-- A breaker, permits, flights, a cache and a retry loop around one registry. -/
structure Caller (α : Type) where
  name : String
  policy : Retry.Policy
  breaker : Breaker
  permits : Permits
  flights : Flights (Caller.Store α) (Caller.Load α) α
  calls : Table Nat (Caller.Call α) := []

namespace Caller

variable {α : Type}

/-- A new caller. -/
def make (name : String) (settings : Config.Settings) (now : Nat) : Caller α :=
  let (capacity, interval) := Cache.settingsOf settings.cache
  { name := name
    policy := .ofSettings settings.retries
    breaker := .make name settings.breaker
    permits := .make settings.concurrency.maxConcurrentRequests.toNat
    flights := {
      name := name
      store := { tended := .make name capacity interval Tended.wordReach now } } }

/-- The cache of a caller. -/
def cache (s : Caller α) : Cache α := s.flights.store.tended.cache

/-- Change the cache of a caller. -/
def withCache (s : Caller α) (c : Cache α) : Caller α :=
  { s with flights := { s.flights with store := s.flights.store.withCache c } }

/-- Why a closed caller refuses a call. -/
def closedFailure (name : String) : Failure :=
  .configuration ("client '" ++ name ++ "' is closed")

/-- Take in a new call; `fired` says whether its token has fired already. -/
def start (s : Caller α) (c : Nat) (key : String) (ttl : Nat) (fired : Bool) : Caller α :=
  { s with calls := s.calls.put c ⟨key, ttl, .arriving fired⟩ }

/-- Put a call into a stage. -/
def become (s : Caller α) (c : Nat) (call : Call α) (stage : Stage α) : Caller α :=
  { s with calls := s.calls.put c { call with stage := stage } }

/-- What a result says to the breaker. -/
def report (b : Breaker) (now : Nat) : Except Failure α → Breaker
  | .ok _ => b.recordSuccess
  | .error .cancelled => b
  | .error e => if e.countsAsFailure then b.recordFailure now else b.recordSuccess

/-- The breaker after a call ended. -/
def settleReport (b : Breaker) (now : Nat) (e : Flight.Ending α) : Breaker :=
  if e.shared && b.circuit != .halfOpen then b else report b now e.result

/-- Let an admitted call take a turn among the flights. When it ends there, it reports and gives
its permit back. -/
def proceed (answers : Answers α) (now c : Nat) (call : Call α) (s : Caller α) : Caller α :=
  let flights := s.flights.turn (loadWork s.policy s.name) answers now c
  let s := { s with flights := flights }
  match flights.ending? c with
  | none => s
  | some e =>
    { s with
      breaker := settleReport s.breaker now e
      permits := s.permits.release }.become c call (.ended e.result now)

/-- A call that has got its permit goes on to the flights. -/
def board (answers : Answers α) (now c : Nat) (call : Call α) (fired : Bool) (s : Caller α) :
    Caller α :=
  let load : Load α := { key := call.key, ttl := call.ttl }
  let s := { s with flights := s.flights.start c call.key fired load }
  proceed answers now c call (s.become c call .admitted)

/-- The first turn of a call: a closed caller and an open breaker turn it away, and then its
token is looked at before a permit is asked for. -/
def arrive (answers : Answers α) (now c : Nat) (call : Call α) (fired : Bool) (s : Caller α) :
    Caller α :=
  if s.permits.closed then s.become c call (.ended (.error (closedFailure s.name)) now)
  else
    let (admitted, breaker) := s.breaker.allow now
    let s := { s with breaker := breaker }
    if !admitted then
      let refusal := .circuitOpen breaker.circuit breaker.failures (breaker.retryAfter now)
      s.become c call (.ended (.error refusal) now)
    else if fired then s.become c call (.ended (.error .cancelled) now)
    else
      let (granted, permits) := s.permits.request c
      let s := { s with permits := permits }
      if granted then board answers now c call fired s else s.become c call (.queued fired)

/-- A turn of a call in the queue for permits. -/
def await (answers : Answers α) (now c : Nat) (call : Call α) (fired : Bool) (s : Caller α) :
    Caller α :=
  if fired then
    { s with permits := s.permits.leave c }.become c call (.ended (.error .cancelled) now)
  else if s.permits.closed then
    { s with permits := s.permits.leave c }.become c call
      (.ended (.error (closedFailure s.name)) now)
  else if c ∈ s.permits.granted then
    board answers now c call fired { s with permits := s.permits.claim c }
  else s

/-- Let a call take a turn. -/
def turn (answers : Answers α) (now c : Nat) (s : Caller α) : Caller α :=
  match s.calls.get? c with
  | none => s
  | some call =>
    match call.stage with
    | .arriving fired => arrive answers now c call fired s
    | .queued fired => await answers now c call fired s
    | .admitted => proceed answers now c call s
    | .ended _ _ => s
    | .dropped => s

/-- Let the token of a call fire. -/
def fire (s : Caller α) (c : Nat) : Caller α :=
  match s.calls.get? c with
  | none => s
  | some call =>
    match call.stage with
    | .arriving _ => s.become c call (.arriving true)
    | .queued _ => s.become c call (.queued true)
    | .admitted => { s with flights := s.flights.fire c }
    | .ended _ _ => s
    | .dropped => s

/-- Drop a call that has not ended; it gives back what it has. -/
def drop (s : Caller α) (c : Nat) : Caller α :=
  match s.calls.get? c with
  | none => s
  | some call =>
    match call.stage with
    | .arriving _ => s.become c call .dropped
    | .queued _ => { s with permits := s.permits.leave c }.become c call .dropped
    | .admitted =>
      { s with
        flights := s.flights.drop c
        permits := s.permits.release }.become c call .dropped
    | .ended _ _ => s
    | .dropped => s

/-- Refuse new calls, send away the calls that wait for a permit, and stop the background work of
the cache. -/
def close (s : Caller α) : Caller α :=
  let s := { s with permits := s.permits.close }
  s.withCache s.cache.close

/-- Do background work of the cache. -/
def perform (s : Caller α) (now : Nat) (timerFirst : Bool) (chore : Tended.Chore) : Caller α :=
  let tended := s.flights.store.tended.perform now timerFirst chore
  { s with flights := { s.flights with store := { s.flights.store with tended := tended } } }

/-- A call's result and when it came, if the call has ended. -/
def ending? (s : Caller α) (c : Nat) : Option (Except Failure α × Nat) :=
  match s.calls.get? c with
  | some ⟨_, _, .ended r t⟩ => some (r, t)
  | _ => none

/-- Whether a call is under way. -/
def Call.isOpen (call : Call α) : Bool :=
  match call.stage with
  | .ended _ _ => false
  | .dropped => false
  | _ => true

/-- Everything that was noted. -/
def journal (s : Caller α) : List Sample :=
  s.breaker.journal ++ s.cache.journal ++ s.flights.journal ++ s.flights.store.journal

/-- What a caller tells about itself. -/
structure Health where
  name : String
  circuit : Circuit
  failures : Nat
  retryAfterMillis : Nat
  cache : Cache.Stats
  inFlight : Nat
  available : Nat
  limit : Nat
  deriving DecidableEq

/-- The health of a caller at an instant. -/
def health (s : Caller α) (now : Nat) : Health where
  name := s.name
  circuit := s.breaker.circuit
  failures := s.breaker.failures
  retryAfterMillis := Duration.wholeMillis (s.breaker.retryAfter now) % UInt64.size
  cache := s.cache.stats
  inFlight := s.flights.inFlight.length
  available := s.permits.free
  limit := s.permits.limit

end Caller

end RegistryLookup
