/-!
# Excerpts

The start of a text, as much of it as fits into a number of bytes. A text that is too long is cut
at the last place up to there that does not lie within a character.

* `exists_boundaryUpTo?`: the search for this place never goes past the first byte.
* `isSome_excerpt?`: so every text has an excerpt.
-/

namespace RegistryLookup.Text

/-- Whether a place among the bytes of a text is its end or the start of a character. -/
def isBoundary (s : String) (place : Nat) : Bool := String.Pos.Raw.isValid s ⟨place⟩

/-- The last boundary up to a place, looked for byte by byte towards the start. There is none when
the search goes past the first byte. -/
def boundaryUpTo? (s : String) : Nat → Option Nat
  | 0 => if isBoundary s 0 then some 0 else none
  | place + 1 => if isBoundary s (place + 1) then some (place + 1) else boundaryUpTo? s place

/-- A text up to a place among its bytes; all of it if it ends before. It cannot be cut within a
character. -/
def cut? (s : String) (place : Nat) : Option String :=
  if s.utf8ByteSize < place then some s
  else if h : String.Pos.Raw.IsValid s ⟨place⟩ then some (s.extract s.startPos ⟨⟨place⟩, h⟩)
  else none

/-- The start of a text that fits into a number of bytes, if it can be cut out. -/
def excerpt? (room : Nat) (s : String) : Option String :=
  if room < s.utf8ByteSize then (boundaryUpTo? s room).bind (cut? s) else some s

theorem isBoundary_iff {s : String} {place : Nat} :
    isBoundary s place = true ↔ String.Pos.Raw.IsValid s ⟨place⟩ :=
  String.Pos.Raw.isValid_eq_true_iff

theorem isBoundary_zero (s : String) : isBoundary s 0 = true :=
  isBoundary_iff.2 String.Pos.Raw.isValid_zero

/-- What the search finds is the last boundary up to the place. -/
theorem exists_boundaryUpTo? (s : String) (place : Nat) :
    ∃ n, boundaryUpTo? s place = some n ∧ n ≤ place ∧ isBoundary s n = true ∧
      ∀ m, isBoundary s m = true → m ≤ place → m ≤ n := by
  induction place with
  | zero => exact ⟨0, if_pos (isBoundary_zero s), Nat.le_refl _, isBoundary_zero s, fun _ _ h => h⟩
  | succ place ih =>
    by_cases hplace : isBoundary s (place + 1) = true
    · exact ⟨place + 1, if_pos hplace, Nat.le_refl _, hplace, fun _ _ h => h⟩
    · obtain ⟨n, hn, hle, hboundary, hlast⟩ := ih
      refine ⟨n, (if_neg hplace).trans hn, Nat.le_succ_of_le hle, hboundary, ?_⟩
      intro m hm hmle
      have hne : m ≠ place + 1 := by
        rintro rfl
        exact hplace hm
      exact hlast m hm (by omega)

theorem cut?_of_isBoundary {s : String} {place : Nat} (h : String.Pos.Raw.IsValid s ⟨place⟩) :
    cut? s place = some (s.extract s.startPos ⟨⟨place⟩, h⟩) := by
  have hle : place ≤ s.utf8ByteSize := h.le_utf8ByteSize
  rw [cut?, if_neg (Nat.not_lt.2 hle), dif_pos h]

/-- **Every text has an excerpt.** -/
theorem isSome_excerpt? (room : Nat) (s : String) : (excerpt? room s).isSome = true := by
  unfold excerpt?
  split
  · obtain ⟨n, hn, -, hboundary, -⟩ := exists_boundaryUpTo? s room
    rw [hn, Option.bind_some, cut?_of_isBoundary (isBoundary_iff.1 hboundary), Option.isSome_some]
  · rfl

/-- The start of a text that fits into a number of bytes. -/
def excerpt (room : Nat) (s : String) : String := (excerpt? room s).get (isSome_excerpt? room s)

end RegistryLookup.Text
