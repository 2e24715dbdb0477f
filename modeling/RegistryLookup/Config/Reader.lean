import RegistryLookup.Config.Datum
import RegistryLookup.Config.Schema
import RegistryLookup.Table

/-!
# Reading a configuration

A field that is missing takes its default, a field of another name is passed over, and a field
of the wrong type or out of range spoils the whole. Nothing is converted: a number with a
fraction is never an integer, not even a whole one.
-/

namespace RegistryLookup.Config

/-- The fields of a structure by name, from a table or by position from a list. -/
def Datum.fields? (dialect : Dialect) (names : List String) : Datum → Option (Table String Datum)
  | .table fields => some fields
  | .list items =>
    if dialect.exactLists ∧ names.length < items.length then none else some (names.zip items)
  | _ => none

/-- A field that has to be there. -/
def required {α : Type} (fields : Table String Datum) (name : String)
    (read : Datum → Option α) : Option α :=
  (fields.get? name).bind read

/-- A field that has a default. -/
def optional {α : Type} (fields : Table String Datum) (name : String) (fallback : α)
    (read : Datum → Option α) : Option α :=
  match fields.get? name with
  | none => some fallback
  | some d => read d

/-- A word of 32 bits. -/
def readUInt32 : Datum → Option UInt32
  | .int n => if 0 ≤ n ∧ n < UInt32.size then some (UInt32.ofNat n.toNat) else none
  | _ => none

/-- A word of 64 bits. -/
def readUInt64 : Datum → Option UInt64
  | .int n => if 0 ≤ n ∧ n < UInt64.size then some (UInt64.ofNat n.toNat) else none
  | _ => none

/-- A truth value. -/
def readBool : Datum → Option Bool
  | .bool b => some b
  | _ => none

/-- A text. -/
def readText : Datum → Option String
  | .text s => some s
  | _ => none

/-- A text that may be absent. -/
def readOptionalText : Datum → Option (Option String)
  | .null => some none
  | .text s => some (some s)
  | _ => none

/-- The log format of a word. -/
def LogFormat.ofWord? : String → Option LogFormat
  | "pretty" => some .pretty
  | "json" => some .json
  | _ => none

/-- A log format: its word, or a table of one field of that name. -/
def readLogFormat (dialect : Dialect) : Datum → Option LogFormat
  | .text s => LogFormat.ofWord? s
  | .table [(s, d)] => if dialect.isUnit d then LogFormat.ofWord? s else none
  | _ => none

/-- Every item of a list. -/
def readAll {α : Type} (read : Datum → Option α) : List Datum → Option (List α)
  | [] => some []
  | d :: rest =>
    match read d, readAll read rest with
    | some a, some as => some (a :: as)
    | _, _ => none

variable (dialect : Dialect)

def CacheSettings.names : List String := ["max_entries", "cleanup_interval_secs"]

def readCache (d : Datum) : Option CacheSettings := do
  let fields ← d.fields? dialect CacheSettings.names
  let base : CacheSettings := {}
  let maxEntries ← optional fields "max_entries" base.maxEntries readUInt64
  let interval ← optional fields "cleanup_interval_secs" base.cleanupIntervalSecs readUInt64
  return ⟨maxEntries, interval⟩

def BreakerSettings.names : List String :=
  ["failure_threshold", "reset_timeout_ms", "half_open_max"]

def readBreaker (d : Datum) : Option BreakerSettings := do
  let fields ← d.fields? dialect BreakerSettings.names
  let base : BreakerSettings := {}
  let threshold ← optional fields "failure_threshold" base.failureThreshold readUInt32
  let reset ← optional fields "reset_timeout_ms" base.resetTimeoutMs readUInt64
  let probes ← optional fields "half_open_max" base.halfOpenMax readUInt32
  return ⟨threshold, reset, probes⟩

def RetrySettings.names : List String :=
  ["max_attempts", "base_delay_ms", "max_delay_ms", "max_retry_after_secs"]

def readRetries (d : Datum) : Option RetrySettings := do
  let fields ← d.fields? dialect RetrySettings.names
  let base : RetrySettings := {}
  let attempts ← optional fields "max_attempts" base.maxAttempts readUInt32
  let delay ← optional fields "base_delay_ms" base.baseDelayMs readUInt64
  let cap ← optional fields "max_delay_ms" base.maxDelayMs readUInt64
  let after ← optional fields "max_retry_after_secs" base.maxRetryAfterSecs readUInt64
  return ⟨attempts, delay, cap, after⟩

def ConcurrencySettings.names : List String := ["max_concurrent_requests"]

def readConcurrency (d : Datum) : Option ConcurrencySettings := do
  let fields ← d.fields? dialect ConcurrencySettings.names
  let base : ConcurrencySettings := {}
  let limit ← optional fields "max_concurrent_requests" base.maxConcurrentRequests readUInt64
  return ⟨limit⟩

def TimeoutSettings.names : List String := ["connect_secs", "request_secs"]

def readTimeouts (d : Datum) : Option TimeoutSettings := do
  let fields ← d.fields? dialect TimeoutSettings.names
  let base : TimeoutSettings := {}
  let connect ← optional fields "connect_secs" base.connectSecs readUInt64
  let request ← optional fields "request_secs" base.requestSecs readUInt64
  return ⟨connect, request⟩

def ObservabilitySettings.names : List String :=
  ["log_level", "log_format", "metrics_enabled", "metrics_address"]

def readObservability (d : Datum) : Option ObservabilitySettings := do
  let fields ← d.fields? dialect ObservabilitySettings.names
  let base : ObservabilitySettings := {}
  let level ← optional fields "log_level" base.logLevel readText
  let format ← optional fields "log_format" base.logFormat (readLogFormat dialect)
  let enabled ← optional fields "metrics_enabled" base.metricsEnabled readBool
  let address ← optional fields "metrics_address" base.metricsAddress readText
  return ⟨level, format, enabled, address⟩

def Registry.names : List String :=
  ["name", "base_url", "company_path", "search_path", "company_ttl_secs", "search_ttl_secs",
    "user_agent", "system_proxy"]

def readRegistry (d : Datum) : Option Registry := do
  let fields ← d.fields? dialect Registry.names
  let name ← required fields "name" readText
  let baseUrl ← required fields "base_url" readText
  let companyPath ← optional fields "company_path" Registry.defaultCompanyPath readText
  let searchPath ← optional fields "search_path" Registry.defaultSearchPath readText
  let companyTtl ← optional fields "company_ttl_secs" Registry.defaultCompanyTtlSecs readUInt64
  let searchTtl ← optional fields "search_ttl_secs" Registry.defaultSearchTtlSecs readUInt64
  let userAgent ← optional fields "user_agent" none readOptionalText
  let systemProxy ← optional fields "system_proxy" true readBool
  return ⟨name, baseUrl, companyPath, searchPath, companyTtl, searchTtl, userAgent, systemProxy⟩

def readRegistries : Datum → Option (List Registry)
  | .list items => readAll (readRegistry dialect) items
  | _ => none

def Settings.names : List String :=
  ["cache", "circuit_breaker", "retries", "concurrency", "timeouts", "observability",
    "registries"]

/-- The configuration that a document holds. -/
def readSettings (d : Datum) : Option Settings := do
  let fields ← d.fields? dialect Settings.names
  let cache ← optional fields "cache" {} (readCache dialect)
  let breaker ← optional fields "circuit_breaker" {} (readBreaker dialect)
  let retries ← optional fields "retries" {} (readRetries dialect)
  let concurrency ← optional fields "concurrency" {} (readConcurrency dialect)
  let timeouts ← optional fields "timeouts" {} (readTimeouts dialect)
  let observability ← optional fields "observability" {} (readObservability dialect)
  let registries ← optional fields "registries" [] (readRegistries dialect)
  return ⟨cache, breaker, retries, concurrency, timeouts, observability, registries⟩

end RegistryLookup.Config
