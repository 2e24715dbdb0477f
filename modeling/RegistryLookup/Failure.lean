import RegistryLookup.Duration
import RegistryLookup.Breaker.Circuit

/-!
# Failures of a lookup

One type holds every way in which a lookup can fail. Two questions are asked of a failure:
whether another attempt may succeed (`isRetryable`), and whether it says that the registry is
unwell (`countsAsFailure`).

* `countsAsFailure_of_isRetryable`: what is worth another attempt also counts against the
  registry.
-/

namespace RegistryLookup

/-- Why a lookup did not give an answer. -/
inductive Failure
  /-- The breaker refused the call before anything was sent. -/
  | circuitOpen (circuit : Circuit) (failures : Nat) (retryAfter : Nat)
  /-- The caller's token fired while the call waited. -/
  | cancelled
  /-- The registry could not be reached, or did not answer in time. -/
  | transport (detail : String)
  /-- The registry answered with a server error. -/
  | serverError (status : Nat) (detail : String)
  /-- The registry answered that requests come too fast, perhaps saying when to come back. -/
  | rateLimited (retryAfter : Option Nat)
  /-- The registry refused the request for another reason. -/
  | clientError (status : Nat) (detail : String)
  /-- The registry has nothing under the requested identifier. -/
  | notFound (subject : String)
  /-- The body of the answer could not be read. -/
  | invalidResponse (detail : String)
  /-- The request was refused here, before anything was sent. -/
  | invalidRequest (detail : String)
  /-- The configuration has no such thing. -/
  | configuration (detail : String)
  deriving DecidableEq

namespace Failure

/-- The name of the kind of a failure. -/
def kind : Failure → String
  | circuitOpen .. => "CircuitOpen"
  | cancelled => "Cancelled"
  | transport _ => "Transport"
  | serverError .. => "Upstream"
  | rateLimited _ => "RateLimited"
  | clientError .. => "Client"
  | notFound _ => "NotFound"
  | invalidResponse _ => "InvalidResponse"
  | invalidRequest _ => "InvalidRequest"
  | configuration _ => "Configuration"

/-- A waiting time that may be absent. -/
def optionalWait : Option Nat → String
  | none => "None"
  | some d => "Some(" ++ Duration.text d ++ ")"

/-- The text of a failure for its reader. -/
def message : Failure → String
  | circuitOpen circuit failures retryAfter =>
    "circuit " ++ circuit.label ++ " after " ++ toString failures ++
      " consecutive failures, retry in " ++ Duration.text retryAfter
  | cancelled => "operation cancelled"
  | transport detail => "transport error: " ++ detail
  | serverError status detail => "upstream error: status " ++ toString status ++ ": " ++ detail
  | rateLimited retryAfter =>
    "rate limited by upstream (retry after " ++ optionalWait retryAfter ++ ")"
  | clientError status detail => "client error: status " ++ toString status ++ ": " ++ detail
  | notFound subject => "not found: " ++ subject
  | invalidResponse detail => "invalid response: " ++ detail
  | invalidRequest detail => "invalid request: " ++ detail
  | configuration detail => "configuration error: " ++ detail

/-- Whether another attempt may succeed. A rate limit is tried again only when the registry
said when to come back. -/
def isRetryable : Failure → Bool
  | transport _ => true
  | serverError .. => true
  | rateLimited retryAfter => retryAfter.isSome
  | _ => false

/-- Whether a failure says that the registry is unwell. A refused request and a missing
entity are sound answers of a working registry. -/
def countsAsFailure : Failure → Bool
  | transport _ => true
  | serverError .. => true
  | rateLimited _ => true
  | invalidResponse _ => true
  | _ => false

theorem countsAsFailure_of_isRetryable {e : Failure} (h : e.isRetryable = true) :
    e.countsAsFailure = true := by
  cases e <;> first | rfl | cases h

end Failure

end RegistryLookup
