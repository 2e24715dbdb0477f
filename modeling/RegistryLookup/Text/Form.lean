import RegistryLookup.Text.Percent

/-!
# Form encoding

The encoding of form data for a query: letters, digits and four marks stand for themselves, a
space is written as a plus sign, and every other byte is percent-encoded. Beside the writer
stands the reader of a query: pairs of a name and a value.
-/

namespace RegistryLookup.Text.Form

/-- Whether a byte stands for itself. -/
def isPlain (b : UInt8) : Bool :=
  (48 ≤ b && b ≤ 57) || (65 ≤ b && b ≤ 90) || (97 ≤ b && b ≤ 122) ||
    b = 42 || b = 45 || b = 46 || b = 95

/-- A byte in form encoding. -/
def encodeByte (b : UInt8) : List Char :=
  if isPlain b then [Char.ofNat b.toNat]
  else if b = 32 then ['+']
  else Percent.encodeByte b

/-- A text in form encoding. -/
def encode (cs : List Char) : List Char := (Utf8.encode cs).flatMap encodeByte

/-- A part of a query read back: plus signs are spaces, percent-encodings are undone, and what is
not well formed is replaced. -/
def decode (cs : List Char) : String :=
  Utf8.decodeLossy (Percent.decodeBytes (cs.map (fun c => if c = '+' then ' ' else c)))

/-- The pairs of a query. A part without an equals sign is a name with an empty value. -/
def pairs (query : List Char) : List (String × String) :=
  ((query.splitOn '&').filter (fun part => !part.isEmpty)).map (fun part =>
    (decode (part.takeWhile (· != '=')), decode ((part.dropWhile (· != '=')).drop 1)))

end RegistryLookup.Text.Form
