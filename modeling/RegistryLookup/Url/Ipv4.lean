import RegistryLookup.Text.Form

/-!
# IPv4 addresses in URLs

A host whose last part is a number is an address of up to four parts, each decimal, octal
after a zero, or hexadecimal after `0x`; the last part fills what is left of the 32 bits.
-/

namespace RegistryLookup.Url.Ipv4

/-- The value of a digit up to `f`. -/
def digit? (c : Char) : Option Nat := Text.Percent.hexValue? c

/-- The number of some digits in a base, if all are digits of it. -/
def number? (base : Nat) : List Char → Option Nat
  | cs => cs.foldl (fun acc c =>
      match acc, digit? c with
      | some n, some d => if d < base then some (n * base + d) else none
      | _, _ => none) (some 0)

/-- The number that a part stands for. -/
def part? : List Char → Option Nat
  | [] => none
  | '0' :: 'x' :: rest => number? 16 rest
  | '0' :: 'X' :: rest => number? 16 rest
  | '0' :: c :: rest => number? 8 (c :: rest)
  | cs => number? 10 cs

/-- The parts of a host name, without an empty one at the end. -/
def partsOf (host : List Char) : List (List Char) :=
  let parts := host.splitOn '.'
  match parts.reverse with
  | [] :: rest => rest.reverse
  | _ => parts

/-- Whether the last part of a host name, before a dot at its end, is a number. -/
def endsInNumber (host : List Char) : Bool :=
  match (host.splitOn '.').reverse with
  | [] :: [] => false
  | [] :: last :: _ => isNumber last
  | last :: _ => isNumber last
  | [] => false
where
  /-- Whether a part is meant as a number. -/
  isNumber (last : List Char) : Bool :=
    (!last.isEmpty && last.all Char.isDigit) || (part? last).isSome

/-- The parts put together: all but the last are below 256 and take eight bits each from the
top. -/
def combine : Nat → List Nat → Option Nat
  | _, [] => none
  | bits, [last] => if last < Nat.pow 2 bits then some last else none
  | bits, n :: rest =>
    if n < 256 then (combine (bits - 8) rest).map (n * Nat.pow 2 (bits - 8) + ·) else none

/-- Every number of a list, if all are there. -/
def allSome : List (Option Nat) → Option (List Nat)
  | [] => some []
  | some n :: rest => (allSome rest).map (n :: ·)
  | none :: _ => none

/-- The address of a host name. -/
def parse? (host : List Char) : Option Nat :=
  let parts := partsOf host
  if 4 < parts.length then none else (allSome (parts.map part?)).bind (combine 32)

end RegistryLookup.Url.Ipv4
