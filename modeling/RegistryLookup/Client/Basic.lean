import RegistryLookup.Caller.Task
import RegistryLookup.Client.Lookup
import RegistryLookup.Http.Network

/-!
# The client of a registry

A client has the settings of its registry and a caller of its own: every lookup is cached,
shared, repeated and guarded by a breaker apart from all other registries.

* `make_registry`: a client is a client of the registry that it was made for.
-/

namespace RegistryLookup

/-- The client of one registry. -/
structure Client where
  registry : Config.Registry
  /-- How it names itself. -/
  userAgent : String
  /-- How long it waits for a reply. -/
  patience : Nat
  caller : Caller Json

namespace Client

/-- The name of its registry. -/
def name (c : Client) : String := c.registry.name

/-- How a client names itself when nothing else is said. -/
def defaultUserAgent : String := "registry-gateway/0.1.0"

/-- A client of a registry. The base address has to be a URL, and the name that the client gives
itself has to be one that can be sent. -/
def make (settings : Config.Settings) (now : Nat) (r : Config.Registry) : Except Failure Client :=
  match Url.parse r.baseUrl with
  | .error fault =>
    .error (.configuration
      ("registry '" ++ r.name ++ "': invalid base_url: " ++ fault.message))
  | .ok _ =>
    let userAgent := r.userAgent.getD defaultUserAgent
    if Http.isHeaderText userAgent then
      .ok {
        registry := r
        userAgent := userAgent
        patience := Duration.ofSecs (max settings.timeouts.requestSecs.toNat 1)
        caller := .make r.name settings now }
    else .error (.configuration ("registry '" ++ r.name ++ "': builder error"))

theorem make_registry {settings : Config.Settings} {now : Nat} {r : Config.Registry} {c : Client}
    (h : make settings now r = .ok c) : c.registry = r := by
  unfold make at h
  split at h
  · cases h
  · dsimp only at h
    split at h <;> cases h
    rfl

/-- Give a client another caller. -/
def withCaller (c : Client) (caller : Caller Json) : Client := { c with caller := caller }

/-- The request for a URL. -/
def request (c : Client) (url : Url) : Http.Request := { url := url, userAgent := c.userAgent }

/-- How long the answer to a lookup is kept. -/
def ttl (c : Client) (l : Lookup) : Nat := Duration.ofSecs (l.ttlSecs c.registry)

/-- Forget the entity with an identifier; tells whether it was there. -/
def forgetCompany (c : Client) (id : String) : Bool × Client :=
  let (found, cache) := c.caller.cache.delete (Lookup.company id).key
  (found, c.withCaller (c.caller.withCache cache))

/-- Forget the answers of all searches; tells how many there were. -/
def forgetSearches (c : Client) : Nat × Client :=
  let (count, cache) := c.caller.cache.deleteStartingWith Lookup.searchPrefix
  (count, c.withCaller (c.caller.withCache cache))

/-- What was noted about the requests that have ended, newest first. -/
def requestSamples (c : Client) : List Sample :=
  c.caller.flights.store.record.filterMap (fun e => match e.notice with
    | .ended _ r => some (.request c.name (Http.outcomeLabel r))
    | _ => none)

/-- Everything that was noted. -/
def journal (c : Client) : List Sample := c.caller.journal ++ c.requestSamples

end Client

end RegistryLookup
