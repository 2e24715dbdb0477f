/-!
# The configuration of a gateway

Every section and every field of a section has a default; of a registry only the name and the
base address have to be given. Numbers are words of 32 or 64 bits.
-/

namespace RegistryLookup.Config

/-- How the answers of a registry are cached. -/
structure CacheSettings where
  /-- The number of entries to keep, zero standing for 10000. -/
  maxEntries : UInt64 := 10000
  /-- Seconds between two sweeps. -/
  cleanupIntervalSecs : UInt64 := 300
  deriving DecidableEq

/-- When a circuit opens, and how it closes again. -/
structure BreakerSettings where
  /-- Consecutive failures that open the circuit. -/
  failureThreshold : UInt32 := 5
  /-- Milliseconds for which it stays open. -/
  resetTimeoutMs : UInt64 := 30000
  /-- Probes that a half-open circuit admits. -/
  halfOpenMax : UInt32 := 2
  deriving DecidableEq

/-- How often, and how patiently, a request is repeated. -/
structure RetrySettings where
  /-- All attempts of a call, the first one included. -/
  maxAttempts : UInt32 := 3
  /-- The unit of the backoff in milliseconds. -/
  baseDelayMs : UInt64 := 100
  /-- The longest backoff in milliseconds. -/
  maxDelayMs : UInt64 := 5000
  /-- The longest wait that a registry may ask for, in seconds. -/
  maxRetryAfterSecs : UInt64 := 60
  deriving DecidableEq

/-- How many calls a client makes at once. -/
structure ConcurrencySettings where
  maxConcurrentRequests : UInt64 := 5
  deriving DecidableEq

/-- How long a request may take. -/
structure TimeoutSettings where
  /-- Seconds to reach the registry. -/
  connectSecs : UInt64 := 5
  /-- Seconds for a request and its answer. -/
  requestSecs : UInt64 := 30
  deriving DecidableEq

/-- The form of the log. -/
inductive LogFormat
  | pretty
  | json
  deriving DecidableEq

/-- Log and metrics. -/
structure ObservabilitySettings where
  logLevel : String := "info"
  logFormat : LogFormat := .pretty
  /-- Whether metrics are served. -/
  metricsEnabled : Bool := false
  /-- Where metrics are served. -/
  metricsAddress : String := "0.0.0.0:9090"
  deriving DecidableEq

/-- The path of an entity when nothing else is said. -/
def Registry.defaultCompanyPath : String := "/companies/\x7bid\x7d"

/-- The path of a search when nothing else is said. -/
def Registry.defaultSearchPath : String := "/companies?name=\x7bquery\x7d"

/-- Seconds for which an entity is cached when nothing else is said. -/
def Registry.defaultCompanyTtlSecs : UInt64 := 3600

/-- Seconds for which a search is cached when nothing else is said. -/
def Registry.defaultSearchTtlSecs : UInt64 := 300

/-- One registry. -/
structure Registry where
  /-- The name under which it is asked for. -/
  name : String
  /-- Where it lives. -/
  baseUrl : String
  /-- The path of an entity, with a place for its identifier. -/
  companyPath : String := Registry.defaultCompanyPath
  /-- The path of a search, with a place for the text. -/
  searchPath : String := Registry.defaultSearchPath
  /-- Seconds for which an entity is cached. -/
  companyTtlSecs : UInt64 := Registry.defaultCompanyTtlSecs
  /-- Seconds for which a search is cached. -/
  searchTtlSecs : UInt64 := Registry.defaultSearchTtlSecs
  /-- How the client names itself to the registry. -/
  userAgent : Option String := none
  /-- Whether a proxy of the environment is used. -/
  systemProxy : Bool := true
  deriving DecidableEq

/-- A registry of which only the name and the address are said. -/
def Registry.new (name baseUrl : String) : Registry where
  name := name
  baseUrl := baseUrl
  companyPath := defaultCompanyPath
  searchPath := defaultSearchPath
  companyTtlSecs := defaultCompanyTtlSecs
  searchTtlSecs := defaultSearchTtlSecs
  userAgent := none
  systemProxy := true

/-- The whole configuration. -/
structure Settings where
  cache : CacheSettings := {}
  breaker : BreakerSettings := {}
  retries : RetrySettings := {}
  concurrency : ConcurrencySettings := {}
  timeouts : TimeoutSettings := {}
  observability : ObservabilitySettings := {}
  registries : List Registry := []
  deriving DecidableEq

/-- The place of an identifier in the path of an entity. -/
def idPlaceholder : String := "\x7bid\x7d"

/-- The place of the text in the path of a search. -/
def queryPlaceholder : String := "\x7bquery\x7d"

end RegistryLookup.Config
