import RegistryLookup.Address.Socket
import RegistryLookup.Config.Schema
import RegistryLookup.Text.Blank
import RegistryLookup.Url.Parser

/-!
# What a sound configuration has to meet

Limits are not zero, names are given once, addresses can be read, and paths have their
placeholders. All problems are found, in the order of the configuration.
-/

namespace RegistryLookup.Config

/-- Something that is wrong with a configuration. -/
inductive Problem
  | zeroValue (field : String)
  | emptyRegistryName
  | duplicateRegistry (name : String)
  | invalidBaseUrl (registry : String) (fault : Url.Fault)
  | missingPlaceholder (registry field placeholder : String)
  | invalidMetricsAddress (address : String)
  deriving DecidableEq

namespace Problem

/-- The name of the kind of a problem. -/
def kind : Problem → String
  | zeroValue _ => "ZeroValue"
  | emptyRegistryName => "EmptyRegistryName"
  | duplicateRegistry _ => "DuplicateRegistry"
  | invalidBaseUrl .. => "InvalidBaseUrl"
  | missingPlaceholder .. => "MissingPlaceholder"
  | invalidMetricsAddress _ => "InvalidMetricsAddress"

/-- The text of a problem. -/
def message : Problem → String
  | zeroValue field => field ++ " must be greater than zero"
  | emptyRegistryName => "registry name must not be empty"
  | duplicateRegistry name => "registry '" ++ name ++ "' is defined more than once"
  | invalidBaseUrl registry fault =>
    "registry '" ++ registry ++ "': invalid base_url: " ++ fault.message
  | missingPlaceholder registry field placeholder =>
    "registry '" ++ registry ++ "': " ++ field ++ " must contain " ++ placeholder
  | invalidMetricsAddress address => "invalid metrics_address '" ++ address ++ "'"

end Problem

/-- Whether a text occurs in another. -/
def occursIn (part : List Char) : List Char → Bool
  | [] => part.isEmpty
  | c :: rest => part.isPrefixOf (c :: rest) || occursIn part rest

/-- A limit that must not be zero. -/
def checkLimit (field : String) (value : Nat) : List Problem :=
  if value = 0 then [.zeroValue field] else []

/-- The limits of a configuration. -/
def limits (s : Settings) : List (String × Nat) :=
  [("circuit_breaker.failure_threshold", s.breaker.failureThreshold.toNat),
    ("circuit_breaker.reset_timeout_ms", s.breaker.resetTimeoutMs.toNat),
    ("circuit_breaker.half_open_max", s.breaker.halfOpenMax.toNat),
    ("retries.max_attempts", s.retries.maxAttempts.toNat),
    ("concurrency.max_concurrent_requests", s.concurrency.maxConcurrentRequests.toNat),
    ("cache.cleanup_interval_secs", s.cache.cleanupIntervalSecs.toNat),
    ("timeouts.connect_secs", s.timeouts.connectSecs.toNat),
    ("timeouts.request_secs", s.timeouts.requestSecs.toNat)]

/-- The address for metrics, which only matters when they are served. -/
def checkAddress (o : ObservabilitySettings) : List Problem :=
  if o.metricsEnabled && (Address.Socket.ofText? o.metricsAddress).isNone then
    [.invalidMetricsAddress o.metricsAddress]
  else []

/-- The name of a registry, after the names before it. -/
def checkName (seen : List String) (name : String) : List Problem :=
  if name = "" then [.emptyRegistryName]
  else if name ∈ seen then [.duplicateRegistry name]
  else []

/-- Where a registry lives. -/
def checkBaseUrl (r : Registry) : List Problem :=
  match Url.parse r.baseUrl with
  | .ok _ => []
  | .error fault => [.invalidBaseUrl r.name fault]

/-- A path has to hold its placeholder. -/
def checkPath (registry field placeholder path : String) : List Problem :=
  if occursIn placeholder.toList path.toList then []
  else [.missingPlaceholder registry field placeholder]

/-- Everything about a registry but its name. -/
def checkRest (r : Registry) : List Problem :=
  checkBaseUrl r ++
    checkPath r.name "company_path" idPlaceholder r.companyPath ++
    checkPath r.name "search_path" queryPlaceholder r.searchPath ++
    checkLimit ("registries." ++ Text.trim r.name ++ ".company_ttl_secs") r.companyTtlSecs.toNat ++
    checkLimit ("registries." ++ Text.trim r.name ++ ".search_ttl_secs") r.searchTtlSecs.toNat

/-- All registries, after those whose names are `seen`. -/
def checkRegistries (seen : List String) : List Registry → List Problem
  | [] => []
  | r :: rest =>
    let name := Text.trim r.name
    checkName seen name ++ checkRest r ++
      checkRegistries (if name = "" then seen else name :: seen) rest

/-- Everything that is wrong with a configuration. -/
def problems (s : Settings) : List Problem :=
  (limits s).flatMap (fun l => checkLimit l.1 l.2) ++ checkAddress s.observability ++
    checkRegistries [] s.registries

/-- Whether a configuration is sound. -/
def isValid (s : Settings) : Bool := (problems s).isEmpty

end RegistryLookup.Config
