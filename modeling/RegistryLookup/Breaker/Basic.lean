import RegistryLookup.Config.Schema
import RegistryLookup.Duration
import RegistryLookup.Metrics

/-!
# The circuit breaker

A closed breaker admits every call and counts consecutive failures; at the threshold it opens.
An open breaker refuses every call until more than the reset time has passed since the last
failure; the call that finds it so makes it half open. A half-open breaker admits as many
probes again as its limit says. Any reported success closes it, any reported failure opens it.
-/

namespace RegistryLookup

/-- A circuit breaker. Instants are those of the caller's clock. -/
structure Breaker where
  name : String
  /-- Consecutive failures that open the circuit. -/
  threshold : Nat
  /-- How long the circuit stays open. -/
  resetTimeout : Nat
  /-- Probes that a half-open circuit admits. -/
  probeLimit : Nat
  circuit : Circuit := .closed
  /-- Failures reported since the last success. -/
  failures : Nat := 0
  /-- When the last failure was reported. -/
  lastFailure : Option Nat := none
  /-- Probes admitted since the circuit became half open. -/
  probes : Nat := 0
  /-- What was noted, newest first. -/
  journal : List Sample := []

namespace Breaker

/-- Where the count of failures stops. -/
def mostFailures : Nat := UInt32.size - 1

/-- A closed breaker. A threshold or a limit of zero counts as one. -/
def make (name : String) (settings : Config.BreakerSettings) : Breaker where
  name := name
  threshold := max 1 settings.failureThreshold.toNat
  resetTimeout := Duration.ofMillis settings.resetTimeoutMs.toNat
  probeLimit := max 1 settings.halfOpenMax.toNat
  journal := [.circuit name .closed]

/-- Move the circuit and note the transition and the new position. -/
def moveTo (b : Breaker) (target : Circuit) : Breaker :=
  { b with
    circuit := target
    journal := .circuit b.name target :: .circuitTransition b.name b.circuit target :: b.journal }

/-- Whether more than the reset time has passed since the last failure. -/
def cooledDown (b : Breaker) (now : Nat) : Bool :=
  match b.lastFailure with
  | none => true
  | some t => b.resetTimeout < now - t

/-- Ask for admission. -/
def allow (b : Breaker) (now : Nat) : Bool × Breaker :=
  match b.circuit with
  | .closed => (true, b)
  | .opened =>
    if b.cooledDown now then (true, { b.moveTo .halfOpen with probes := 0 }) else (false, b)
  | .halfOpen =>
    if b.probes < b.probeLimit then (true, { b with probes := b.probes + 1 }) else (false, b)

/-- Report a call that found the registry well. -/
def recordSuccess (b : Breaker) : Breaker :=
  let b := { b with failures := 0 }
  match b.circuit with
  | .halfOpen => { b with probes := 0 }.moveTo .closed
  | _ => b

/-- Report a call that failed because of the registry. -/
def recordFailure (b : Breaker) (now : Nat) : Breaker :=
  let b := { b with failures := min (b.failures + 1) mostFailures, lastFailure := some now }
  match b.circuit with
  | .closed => if b.threshold ≤ b.failures then b.moveTo .opened else b
  | .halfOpen => b.moveTo .opened
  | .opened => b

/-- The time until an open breaker lets a probe through. -/
def retryAfter (b : Breaker) (now : Nat) : Nat :=
  match b.circuit, b.lastFailure with
  | .closed, _ => 0
  | _, none => 0
  | _, some t => b.resetTimeout - (now - t)

/-- The time since the last failure. -/
def sinceFailure (b : Breaker) (now : Nat) : Option Nat := b.lastFailure.map (now - ·)

end Breaker

end RegistryLookup
