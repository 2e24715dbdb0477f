import RegistryLookup.Proofs.Gateway.Idle
import RegistryLookup.Proofs.Gateway.Provenance
import RegistryLookup.Proofs.Gateway.Startup

/-!
# Rate limits from end to end

A registry that gets too many requests refuses some of them, and may say for how long it wants to be
left alone. What that comes to depends on the header in which it says so, on the status, on what is
worth another attempt, on the longest wait that is accepted, on the attempts that are left, and on
what counts against the registry (`refused_for_rate`).
-/

namespace RegistryLookup.Gateway

open Retry (Policy Script Trial)

section Attempt

variable {α : Type} {s : Script α} {m k i n : Nat} {wait : Option Nat}

end Attempt

variable {settings : Config.Settings} {g : Gateway} {w : World} {client : Client} {what : Lookup}
  {url : Url}

/-- The client of the only registry of `single`. -/
def singleClient : Client where
  registry := someRegistry
  userAgent := Client.defaultUserAgent
  patience := Duration.ofSecs 30
  caller := .make "r" single 0

/-- The first request is refused for two seconds, and every other one for good. -/
def refusing : Http.Network where
  reaches _ := true
  exchange n _ _ := .answered 5
    { status := 429, headers := if n = 0 then [("Retry-After", [43, 50])] else [] }
  locate _ _ := none
  decode _ := Text.Utf8.decodeLossy

/-- The lookup of an entity at that registry. -/
abbrev refused : Session.Step × World :=
  Session.step (Session.ofGateway ⟨[singleClient]⟩ refusing)
    [.lookup singleClient.name (.company "1") false none]

end RegistryLookup.Gateway
