import RegistryLookup.Config.Schema
import RegistryLookup.Failure
import RegistryLookup.Retry.Backoff

/-!
# How often and how patiently a call is attempted
-/

namespace RegistryLookup.Retry

/-- The limits of a retry loop. -/
structure Policy where
  /-- All attempts of a call, at least one. -/
  maxAttempts : UInt32
  /-- The unit of the backoff in milliseconds. -/
  baseDelayMs : UInt64
  /-- The longest backoff in milliseconds. -/
  maxDelayMs : UInt64
  /-- The longest wait that a registry may ask for. -/
  maxRetryAfter : Nat
  deriving DecidableEq

namespace Policy

/-- The policy of a configuration. No attempts at all count as one. -/
def ofSettings (s : Config.RetrySettings) : Policy where
  maxAttempts := max 1 s.maxAttempts
  baseDelayMs := s.baseDelayMs
  maxDelayMs := s.maxDelayMs
  maxRetryAfter := Duration.ofSecs s.maxRetryAfterSecs.toNat

/-- The delay before retry number `retry` after a failure: what the registry asked for, or the
backoff. -/
def delayFor (p : Policy) (retry : UInt32) : Failure → Nat
  | .rateLimited (some after) => min after p.maxRetryAfter
  | _ => Backoff.delay retry p.baseDelayMs p.maxDelayMs

end Policy

/-- The word under which a retry is noted. -/
def reason : Failure → String
  | .transport _ => "transport"
  | .serverError .. => "upstream"
  | .rateLimited _ => "rate_limited"
  | _ => "other"

end RegistryLookup.Retry
