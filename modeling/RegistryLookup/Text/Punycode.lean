/-!
# Punycode

A text beyond ASCII is written in ASCII: its ASCII characters, a hyphen, and numbers that say
which other characters go where. Reading a text back puts in one character after another.
-/

namespace RegistryLookup.Text.Punycode

/-- The value of a digit: letters first, then decimal digits. -/
def digit? (c : Char) : Option Nat :=
  if 'a' ≤ c ∧ c ≤ 'z' then some (c.toNat - 97)
  else if 'A' ≤ c ∧ c ≤ 'Z' then some (c.toNat - 65)
  else if '0' ≤ c ∧ c ≤ '9' then some (c.toNat - 22)
  else none

/-- Count how often 35 goes into a number before it is at most 455, in steps of 36. -/
def scale : Nat → Nat → Nat → Nat
  | 0, delta, k => k + 36 * delta / (delta + 38)
  | fuel + 1, delta, k =>
    if 455 < delta then scale fuel (delta / 35) (k + 36) else k + 36 * delta / (delta + 38)

/-- The bias for the number that follows `delta`, once there are `count` characters. -/
def adapt (delta count : Nat) (first : Bool) : Nat :=
  let delta := if first then delta / 700 else delta / 2
  scale 64 (delta + delta / count) 0

/-- A number of variable length below `2^32`, and what follows it. -/
def number (bias : Nat) : Nat → Nat → Nat → List Char → Option (Nat × List Char)
  | _, _, _, [] => none
  | value, weight, k, c :: rest =>
    match digit? c with
    | none => none
    | some d =>
      let t := if k ≤ bias then 1 else if bias + 26 ≤ k then 26 else k - bias
      let value := value + d * weight
      if UInt32.size ≤ value then none
      else if d < t then some (value, rest)
      else number bias value (weight * (36 - t)) (k + 36) rest

/-- Put in the characters that the numbers tell. `n` is the last character and `i` the place
behind it. -/
def insertAll : Nat → Nat → Nat → Nat → List Char → List Char → Option (List Char)
  | 0, _, _, _, _, _ => none
  | fuel + 1, n, i, bias, out, cs =>
    if cs.isEmpty then some out
    else
      match number bias 0 1 36 cs with
      | none => none
      | some (delta, rest) =>
        let count := out.length + 1
        let code := n + (i + delta) / count
        let place := (i + delta) % count
        if h : code.isValidChar then
          insertAll fuel code (place + 1) (adapt delta count (i = 0))
            (out.take place ++ Char.ofNatAux code h :: out.drop place) rest
        else none

/-- The text of a written form. The last hyphen ends the ASCII characters. -/
def decode? (cs : List Char) : Option (List Char) :=
  let numbers := (cs.reverse.takeWhile (· != '-')).reverse
  let plain := cs.take (cs.length - numbers.length - 1)
  if plain.all (fun c => c.toNat < 128) then insertAll (cs.length + 1) 128 0 72 plain numbers
  else none

end RegistryLookup.Text.Punycode
