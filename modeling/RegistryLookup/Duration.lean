/-!
# Durations

Time is counted in nanoseconds from the start of the clock. An instant and a duration are
both natural numbers, so a difference of instants stops at zero: nothing has lasted for a
negative time.

* `wholeSecs_subsecNanos`: the seconds and the nanoseconds past them make up the duration.
-/

namespace RegistryLookup.Duration

/-- A number of milliseconds. -/
def ofMillis (n : Nat) : Nat := n * 1000000

/-- A number of seconds. -/
def ofSecs (n : Nat) : Nat := n * 1000000000

/-- The whole milliseconds of a duration. -/
def wholeMillis (d : Nat) : Nat := d / 1000000

/-- The whole seconds of a duration. -/
def wholeSecs (d : Nat) : Nat := d / 1000000000

/-- The nanoseconds of a duration past its whole seconds. -/
def subsecNanos (d : Nat) : Nat := d % 1000000000

/-- The longest duration: `2^64 - 1` seconds and one nanosecond less than another second. -/
def longest : Nat := ofSecs (UInt64.size - 1) + 999999999

/-- The decimal digits of `n`, with zeros in front up to `places` digits. -/
def padded (places n : Nat) : List Char :=
  let digits := (toString n).toList
  List.replicate (places - digits.length) '0' ++ digits

/-- `d` counted in units of `10^places` nanoseconds: the whole units, then the decimal
fraction without trailing zeros. -/
def inUnits (places : Nat) (d : Nat) : String :=
  let whole := toString (d / Nat.pow 10 places)
  match ((padded places (d % Nat.pow 10 places)).reverse.dropWhile (· == '0')).reverse with
  | [] => whole
  | fraction => if places = 0 then whole else whole ++ "." ++ String.ofList fraction

/-- The text of a duration, in the largest of `s`, `ms`, `µs` and `ns` of which it holds at
least one. -/
def text (d : Nat) : String :=
  if Nat.pow 10 9 ≤ d then inUnits 9 d ++ "s"
  else if Nat.pow 10 6 ≤ d then inUnits 6 d ++ "ms"
  else if Nat.pow 10 3 ≤ d then inUnits 3 d ++ "µs"
  else inUnits 0 d ++ "ns"

theorem wholeSecs_subsecNanos (d : Nat) : ofSecs (wholeSecs d) + subsecNanos d = d := by
  simp only [ofSecs, wholeSecs, subsecNanos]; omega

end RegistryLookup.Duration
