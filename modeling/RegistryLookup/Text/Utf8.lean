/-!
# UTF-8

Bytes are read one character at a time. A sequence that is not well formed is passed over up
to the first byte that cannot belong to it.
-/

namespace RegistryLookup.Text.Utf8

/-- The bytes of a text. -/
def encode (cs : List Char) : List UInt8 := cs.flatMap String.utf8EncodeChar

/-- How many bytes follow a leading byte, the bounds of the first of them, and the bits of the
leading byte itself. -/
def leading (b : UInt8) : Option (Nat × UInt8 × UInt8 × Nat) :=
  if 0xC2 ≤ b ∧ b ≤ 0xDF then some (1, 0x80, 0xBF, b.toNat - 0xC0)
  else if b = 0xE0 then some (2, 0xA0, 0xBF, 0)
  else if b = 0xED then some (2, 0x80, 0x9F, 0xD)
  else if 0xE1 ≤ b ∧ b ≤ 0xEF then some (2, 0x80, 0xBF, b.toNat - 0xE0)
  else if b = 0xF0 then some (3, 0x90, 0xBF, 0)
  else if 0xF1 ≤ b ∧ b ≤ 0xF3 then some (3, 0x80, 0xBF, b.toNat - 0xF0)
  else if b = 0xF4 then some (3, 0x80, 0x8F, 4)
  else none

/-- The rest of a character: `n` more bytes, the first one between two bounds. Gives nothing as
its first part when a byte is missing or out of bounds, and what was not used. -/
def continuation : Nat → UInt8 → UInt8 → Nat → List UInt8 → Option Nat × List UInt8
  | 0, _, _, acc, bytes => (some acc, bytes)
  | _ + 1, _, _, _, [] => (none, [])
  | n + 1, low, high, acc, b :: rest =>
    if low ≤ b ∧ b ≤ high then continuation n 0x80 0xBF (acc * 64 + (b.toNat - 0x80)) rest
    else (none, b :: rest)

theorem length_continuation (n : Nat) (low high : UInt8) (acc : Nat) (bytes : List UInt8) :
    (continuation n low high acc bytes).2.length ≤ bytes.length := by
  induction bytes generalizing n low high acc with
  | nil => cases n <;> simp [continuation]
  | cons b rest ih =>
    cases n with
    | zero => simp [continuation]
    | succ n =>
      unfold continuation
      split
      · exact Nat.le_succ_of_le (ih ..)
      · exact Nat.le_refl _

/-- The character at the front of some bytes, or nothing if they are not well formed there, and
the bytes behind it. -/
def next (b : UInt8) (rest : List UInt8) : Option Char × List UInt8 :=
  if b < 0x80 then (some (Char.ofNat b.toNat), rest)
  else
    match leading b with
    | none => (none, rest)
    | some (n, low, high, bits) =>
      let (code, rest) := continuation n low high bits rest
      (code.map Char.ofNat, rest)

theorem length_next (b : UInt8) (rest : List UInt8) : (next b rest).2.length ≤ rest.length := by
  unfold next
  split
  · exact Nat.le_refl _
  · split
    · exact Nat.le_refl _
    · exact length_continuation ..

/-- The characters of bytes, with nothing in the place of each piece that is not well formed. -/
def pieces (bytes : List UInt8) : List (Option Char) :=
  match bytes with
  | [] => []
  | b :: rest =>
    have : (next b rest).2.length < rest.length + 1 := Nat.lt_succ_of_le (length_next b rest)
    (next b rest).1 :: pieces (next b rest).2
  termination_by bytes.length

/-- All of a list of optional values, if all are there. -/
def allSome : List (Option Char) → Option (List Char)
  | [] => some []
  | none :: _ => none
  | some c :: rest => (allSome rest).map (c :: ·)

/-- The text of bytes that are well formed throughout. -/
def decode? (bytes : List UInt8) : Option String := (allSome (pieces bytes)).map String.ofList

/-- The character that stands for what cannot be read. -/
def replacement : Char := Char.ofNat 0xFFFD

/-- The text of bytes, with a replacement for each piece that is not well formed. -/
def decodeLossy (bytes : List UInt8) : String :=
  String.ofList ((pieces bytes).map (·.getD replacement))

end RegistryLookup.Text.Utf8
