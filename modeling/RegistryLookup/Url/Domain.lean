import RegistryLookup.Text.Blank
import RegistryLookup.Text.Punycode
import RegistryLookup.Url.HostTable
import RegistryLookup.Url.Ipv4
import RegistryLookup.Url.LetterTable

/-!
# Host names

A host name is taken character by character: capitals are made small, some characters are
passed over, and some stand for ASCII characters; what is then left must not hold any character
that has a meaning in a URL. A label in its ASCII form has to be one of a text beyond ASCII, no
label starts with a mark, and in a name with letters that are written from right to left every
label keeps to one direction.

The standard goes on from there, and this does not. What is left beyond ASCII is neither replaced
by other characters beyond ASCII nor put into its ASCII form, so that a name is kept as it was
written. The characters U+200C and U+200D, which join letters or keep them apart, are refused
everywhere, also between the letters where the standard allows them.
-/

namespace RegistryLookup.Url.Domain

/-- The ASCII characters that no host name has. -/
def isForbidden (c : Char) : Bool :=
  c.toNat ≤ 32 || c.toNat = 127 || c = '#' || c = '%' || c = '/' || c = ':' || c = '<' ||
    c = '>' || c = '?' || c = '@' || c = '[' || c = '\\' || c = ']' || c = '^' || c = '|'

/-- A full stop of any script. -/
def isFullStop (c : Char) : Bool := c = '.' || c.toNat = 0x3002

/-- The ASCII text for which a character beyond ASCII stands, if there is one. -/
def asciiImage? (n : Nat) : Option (List Char) :=
  match HostTable.asciiRuns.find? (fun r => r.1 ≤ n && n ≤ r.2.1) with
  | some (first, _, image) => some [Char.ofNat (image + (n - first))]
  | none => (HostTable.asciiTexts.find? (fun p => p.1 = n)).map (·.2.toList)

/-- The characters for which a character of a host name stands; nothing if it is not allowed. -/
def image? (c : Char) : Option (List Char) :=
  let n := c.toNat
  if n < 128 then some [c.toLower]
  else if isFullStop c then some ['.']
  else if Text.inRanges HostTable.ignored n then some []
  else if Text.inRanges HostTable.disallowed n then none
  else some ((asciiImage? n).getD [c])

/-- All images in a row. -/
def images? : List Char → Option (List Char)
  | [] => some []
  | c :: rest =>
    match image? c, images? rest with
    | some a, some b => some (a ++ b)
    | _, _ => none

/-- Whether a character stands for others. -/
def isMapped (c : Char) : Bool := Text.inRanges LetterTable.mapped c.toNat

/-- The text of a label; nothing if it has none. A label that starts with `xn--` has to be the
ASCII form of a text that is not ASCII throughout and stands for itself. -/
def textOf? (label : List Char) : Option (List Char) :=
  match label with
  | 'x' :: 'n' :: '-' :: '-' :: rest =>
    match Text.Punycode.decode? rest with
    | none => none
    | some cs =>
      if cs.any (fun c => 128 ≤ c.toNat) && images? cs == some cs && !cs.any isMapped then some cs
      else none
  | label => some label

/-- Whether a label starts with something else than a mark. -/
def startsSound (label : List Char) : Bool :=
  match label with
  | [] => true
  | c :: _ => !Text.inRanges LetterTable.marks c.toNat

/-- How a character is written. -/
inductive Direction
  | leftward
  | rightward
  | arabicNumber
  | number
  /-- It takes the direction of the character before it. -/
  | spacing
  | neutral
  deriving DecidableEq

/-- The direction of a character. Letters are written from left to right unless said
otherwise. -/
def Direction.ofChar (c : Char) : Direction :=
  let n := c.toNat
  if n < 128 then if c.isDigit then .number else if c.isAlpha then .leftward else .neutral
  else if Text.inRanges LetterTable.rightward n then .rightward
  else if Text.inRanges LetterTable.arabicNumbers n then .arabicNumber
  else if Text.inRanges LetterTable.numbers n then .number
  else if Text.inRanges LetterTable.spacings n then .spacing
  else if Text.inRanges LetterTable.neutrals n then .neutral
  else .leftward

/-- Whether some character of a label is not written from left to right. -/
def hasRightward (label : List Char) : Bool :=
  label.any (fun c => Direction.ofChar c = .rightward || Direction.ofChar c = .arabicNumber)

/-- Whether a label keeps to one direction: it begins with a letter, ends with a letter or a
digit, and has no letter of the other direction. -/
def keepsDirection (label : List Char) : Bool :=
  let ds := label.map Direction.ofChar
  let last := (ds.reverse.dropWhile (· = .spacing)).head?
  match ds with
  | [] => true
  | .rightward :: _ =>
    !(.leftward ∈ ds) && !(.number ∈ ds && .arabicNumber ∈ ds) &&
      (last = some .rightward || last = some .number || last = some .arabicNumber)
  | .leftward :: _ =>
    !(.rightward ∈ ds) && !(.arabicNumber ∈ ds) &&
      (last = some .leftward || last = some .number)
  | _ => false

/-- Whether the texts of all labels make up a sound name. Directions only matter where not
everything is written from left to right. -/
def areSound (labels : List (List Char)) : Bool :=
  labels.all startsSound && (!labels.any hasRightward || labels.all keepsDirection)

/-- A host name as it is used; nothing if it is not one. -/
def parse? (host : List Char) : Option (List Char) :=
  match images? host with
  | none => none
  | some cs =>
    if cs.any isForbidden then none
    else
      match (cs.splitOn '.').mapM textOf? with
      | none => none
      | some labels => if areSound labels then some cs else none

end RegistryLookup.Url.Domain
