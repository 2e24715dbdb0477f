import RegistryLookup.Json.Value

/-!
# Numbers in JSON text

A number without fraction and exponent is an integer if it fits into 64 bits, with or without
a sign; minus zero and all other numbers are doubles. The double of a long number is formed
from its leading digits, as many as fit into a 64-bit word, and one multiplication or division
by a power of ten, so that it can miss the nearest double in the last place.
-/

namespace RegistryLookup.Json

/-- A decimal that is being read: the digits kept so far as a word, how many powers of ten
stand behind them, and whether digits are no longer kept. -/
structure Significand where
  word : Nat := 0
  exponent : Int := 0
  full : Bool := false

/-- Digits before the point: those that no longer fit count as powers of ten. -/
def Significand.addWhole (s : Significand) (d : Nat) : Significand :=
  if s.full ∨ UInt64.size ≤ s.word * 10 + d then { s with exponent := s.exponent + 1, full := true }
  else { s with word := s.word * 10 + d }

/-- Digits behind the point: those that no longer fit are dropped. -/
def Significand.addFraction (s : Significand) (d : Nat) : Significand :=
  if s.full ∨ UInt64.size ≤ s.word * 10 + d then { s with full := true }
  else { s with word := s.word * 10 + d, exponent := s.exponent - 1 }

/-- The value of a decimal digit. -/
def digitValue (c : Char) : Nat := c.toNat - 48

/-- Divide by `10^308` while the exponent is below `-308`, then divide or multiply once more.
Nothing if the number is too large. -/
def scaleByPower (fuel : Nat) (x : Binary64) (exponent : Int) : Option Binary64 :=
  if exponent.natAbs ≤ 308 then
    match Binary64.powerOfTen exponent.natAbs with
    | none => none
    | some p => if 0 ≤ exponent then x.mul p else x.div p
  else if x.isZero then some x
  else if 0 ≤ exponent then none
  else match fuel, Binary64.powerOfTen 308 with
    | fuel + 1, some p =>
      match x.div p with
      | none => none
      | some y => scaleByPower fuel y (exponent + 308)
    | _, _ => none

/-- The double of a significand: its sign is put on last. -/
def Significand.toDouble (s : Significand) (negative : Bool) : Option Binary64 :=
  match Binary64.ofNat false s.word with
  | none => none
  | some x => (scaleByPower 40 x s.exponent).map (fun y => { y with negative := negative })

/-- The digits at the front of a text and what follows them. -/
def spanDigits (cs : List Char) : List Char × List Char :=
  (cs.takeWhile Char.isDigit, cs.dropWhile Char.isDigit)

/-- The number of an exponent part. Beyond 31 bits a positive exponent is too large for any
number but zero, and a negative one leaves nothing but zero. -/
def withExponent (s : Significand) (negative minus : Bool) (digits : List Char) :
    Option Binary64 :=
  let e := digits.foldl (fun n c => n * 10 + digitValue c) 0
  if Nat.pow 2 31 ≤ e then
    if s.word ≠ 0 ∧ !minus then none else some (Binary64.zero negative)
  else
    let e : Int := if minus then -(e : Int) else e
    { s with exponent := s.exponent + e }.toDouble negative

/-- The exponent part of a number, if it has one. -/
def readExponent (s : Significand) (negative : Bool) (cs : List Char) :
    Option (Binary64 × List Char) :=
  match cs with
  | 'e' :: rest | 'E' :: rest =>
    let (minus, rest) := match rest with
      | '+' :: r => (false, r)
      | '-' :: r => (true, r)
      | r => (false, r)
    match spanDigits rest with
    | ([], _) => none
    | (digits, rest) => (withExponent s negative minus digits).map (·, rest)
  | _ => (s.toDouble negative).map (·, cs)

/-- A number behind its sign. -/
def readUnsigned (negative : Bool) (cs : List Char) : Option (Json × List Char) :=
  match spanDigits cs with
  | ([], _) => none
  | ('0' :: _ :: _, _) => none
  | (digits, rest) =>
    let s := digits.foldl (fun s c => s.addWhole (digitValue c)) ({} : Significand)
    match rest with
    | '.' :: r =>
      match spanDigits r with
      | ([], _) => none
      | (fraction, r) =>
        let s := fraction.foldl (fun s c => s.addFraction (digitValue c)) s
        (readExponent s negative r).map (fun p => (.float p.1, p.2))
    | 'e' :: _ | 'E' :: _ => (readExponent s negative rest).map (fun p => (.float p.1, p.2))
    | _ =>
      if s.full ∨ (negative ∧ (s.word = 0 ∨ Nat.pow 2 63 < s.word)) then
        (s.toDouble negative).map (fun x => (.float x, rest))
      else some (.int (if negative then -(s.word : Int) else s.word), rest)

/-- A number and what follows it. -/
def readNumber : List Char → Option (Json × List Char)
  | '-' :: cs => readUnsigned true cs
  | cs => readUnsigned false cs

end RegistryLookup.Json
