import RegistryLookup.Caller.Basic
import RegistryLookup.Json.Value

/-!
# The report of a caller's health
-/

namespace RegistryLookup

/-- The counts of a cache as an object. -/
def Cache.Stats.toJson (s : Cache.Stats) : Json :=
  .ofFields [("entries", .ofNat s.entries), ("hits", .ofNat s.hits), ("misses", .ofNat s.misses),
    ("evictions", .ofNat s.evictions), ("expirations", .ofNat s.expirations)]

/-- The health of a caller as an object. -/
def Caller.Health.toJson (h : Caller.Health) : Json :=
  .ofFields [("name", .string h.name), ("circuit", .string h.circuit.label),
    ("consecutive_failures", .ofNat h.failures),
    ("retry_after_ms", .ofNat h.retryAfterMillis), ("cache", h.cache.toJson),
    ("in_flight", .ofNat h.inFlight), ("available_permits", .ofNat h.available),
    ("max_concurrent", .ofNat h.limit)]

end RegistryLookup
