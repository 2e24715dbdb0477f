import RegistryLookup.Config.Schema
import RegistryLookup.Json.Value

/-!
# Writing a configuration

A configuration is written as a JSON object with all its fields, defaults included.
-/

namespace RegistryLookup.Config

/-- A word of 32 bits. -/
def writeUInt32 (n : UInt32) : Json := .int n.toNat

/-- A word of 64 bits. -/
def writeUInt64 (n : UInt64) : Json := .int n.toNat

def CacheSettings.toJson (c : CacheSettings) : Json :=
  .ofFields [("max_entries", writeUInt64 c.maxEntries),
    ("cleanup_interval_secs", writeUInt64 c.cleanupIntervalSecs)]

def BreakerSettings.toJson (c : BreakerSettings) : Json :=
  .ofFields [("failure_threshold", writeUInt32 c.failureThreshold),
    ("reset_timeout_ms", writeUInt64 c.resetTimeoutMs),
    ("half_open_max", writeUInt32 c.halfOpenMax)]

def RetrySettings.toJson (c : RetrySettings) : Json :=
  .ofFields [("max_attempts", writeUInt32 c.maxAttempts),
    ("base_delay_ms", writeUInt64 c.baseDelayMs),
    ("max_delay_ms", writeUInt64 c.maxDelayMs),
    ("max_retry_after_secs", writeUInt64 c.maxRetryAfterSecs)]

def ConcurrencySettings.toJson (c : ConcurrencySettings) : Json :=
  .ofFields [("max_concurrent_requests", writeUInt64 c.maxConcurrentRequests)]

def TimeoutSettings.toJson (c : TimeoutSettings) : Json :=
  .ofFields [("connect_secs", writeUInt64 c.connectSecs),
    ("request_secs", writeUInt64 c.requestSecs)]

/-- The word for a log format. -/
def LogFormat.word : LogFormat → String
  | pretty => "pretty"
  | json => "json"

def ObservabilitySettings.toJson (c : ObservabilitySettings) : Json :=
  .ofFields [("log_level", .string c.logLevel),
    ("log_format", .string c.logFormat.word),
    ("metrics_enabled", .bool c.metricsEnabled),
    ("metrics_address", .string c.metricsAddress)]

/-- A text that may be absent. -/
def writeOptionalText : Option String → Json
  | none => .null
  | some s => .string s

def Registry.toJson (r : Registry) : Json :=
  .ofFields [("name", .string r.name),
    ("base_url", .string r.baseUrl),
    ("company_path", .string r.companyPath),
    ("search_path", .string r.searchPath),
    ("company_ttl_secs", writeUInt64 r.companyTtlSecs),
    ("search_ttl_secs", writeUInt64 r.searchTtlSecs),
    ("user_agent", writeOptionalText r.userAgent),
    ("system_proxy", .bool r.systemProxy)]

/-- The whole configuration. -/
def Settings.toJson (c : Settings) : Json :=
  .ofFields [("cache", c.cache.toJson),
    ("circuit_breaker", c.breaker.toJson),
    ("retries", c.retries.toJson),
    ("concurrency", c.concurrency.toJson),
    ("timeouts", c.timeouts.toJson),
    ("observability", c.observability.toJson),
    ("registries", .array (c.registries.map Registry.toJson))]

end RegistryLookup.Config
