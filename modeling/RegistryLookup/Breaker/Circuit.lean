/-!
# The three positions of a circuit
-/

namespace RegistryLookup

/-- Where a circuit stands: closed lets every call through, opened none, and half open a
bounded number of probes. -/
inductive Circuit
  | closed
  | opened
  | halfOpen
  deriving DecidableEq

namespace Circuit

/-- The word for a position. -/
def label : Circuit → String
  | closed => "closed"
  | opened => "open"
  | halfOpen => "half_open"

/-- The number that a gauge shows for a position. -/
def level : Circuit → Nat
  | closed => 0
  | halfOpen => 1
  | opened => 2

end Circuit

end RegistryLookup
