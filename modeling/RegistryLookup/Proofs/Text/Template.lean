import Mathlib.Tactic.Common
import RegistryLookup.Text.Template

/-!
# What a template is filled to

A place that is divided from the rest of its template is filled, and what has no place stays as it
is.

* `fillFrom_append_cons`: a character that no place has divides a template.
* `fillFrom_place_append`: a place is filled.
* `fillFrom_append_of_not_mem`: what is before the first place begins with it stays.
* `fillFrom_of_not_infix`: a template without a place stays.
-/

namespace RegistryLookup.Text

variable {place value : List Char}

/-- The characters of a place that is filled are passed over. -/
theorem fillFrom_skip (place value : List Char) (xs ys : List Char) :
    fillFrom place value xs.length (xs ++ ys) = fillFrom place value 0 ys := by
  induction xs with
  | nil => rfl
  | cons x xs ih => exact ih

/-- **A place is filled.** -/
theorem fillFrom_place_append (hplace : place ≠ []) (value ys : List Char) :
    fillFrom place value 0 (place ++ ys) = value ++ fillFrom place value 0 ys := by
  obtain ⟨a, rest, rfl⟩ := List.exists_cons_of_ne_nil hplace
  have hprefix : (a :: rest).isPrefixOf (a :: (rest ++ ys)) = true :=
    List.isPrefixOf_iff_prefix.2 (List.prefix_append (a :: rest) ys)
  rw [List.cons_append, fillFrom, if_pos hprefix]
  exact congrArg (value ++ ·) (fillFrom_skip (a :: rest) value rest ys)

/-- A text that begins with a place before a character that no place has. -/
theorem isPrefixOf_append_cons {d : Char} (hd : d ∉ place) (xs ys : List Char) :
    place.isPrefixOf (xs ++ d :: ys) = place.isPrefixOf xs := by
  induction place generalizing xs with
  | nil => rfl
  | cons a place ih =>
    rw [List.mem_cons, not_or] at hd
    cases xs with
    | nil => simp [List.isPrefixOf, Ne.symm hd.1]
    | cons x xs => simp [List.isPrefixOf, ih hd.2]

/-- **A character that no place has divides a template.** -/
theorem fillFrom_append_cons {d : Char} (hd : d ∉ place) (hplace : place ≠ [])
    (value xs ys : List Char) : fillFrom place value 0 (xs ++ d :: ys) =
      fillFrom place value 0 xs ++ d :: fillFrom place value 0 ys := by
  -- a place that has begun ends in the first part
  suffices hskip : ∀ n, n ≤ xs.length → fillFrom place value n (xs ++ d :: ys) =
      fillFrom place value n xs ++ d :: fillFrom place value 0 ys from hskip 0 (Nat.zero_le _)
  induction xs with
  | nil =>
    intro n hn
    have hprefix : ¬ place.isPrefixOf (d :: ys) = true := by
      rw [← List.nil_append (d :: ys), isPrefixOf_append_cons hd]
      simpa [List.isPrefixOf_iff_prefix] using hplace
    rw [Nat.le_zero.1 hn, List.nil_append, fillFrom, fillFrom, if_neg hprefix, List.nil_append]
  | cons x xs ih =>
    intro n hn
    cases n with
    | succ n => exact ih n (Nat.le_of_succ_le_succ hn)
    | zero =>
      have hsame := isPrefixOf_append_cons hd (x :: xs) ys
      rw [List.cons_append] at hsame ⊢
      rw [fillFrom, fillFrom, hsame]
      by_cases hprefix : place.isPrefixOf (x :: xs) = true
      · have hlen := (List.isPrefixOf_iff_prefix.1 hprefix).length_le
        rw [List.length_cons] at hlen
        rw [if_pos hprefix, if_pos hprefix, ih _ (by omega), List.append_assoc]
      · rw [if_neg hprefix, if_neg hprefix, ih 0 (Nat.zero_le _), List.cons_append]

/-- What stands before the first character of a place stays as it is. -/
theorem fillFrom_append_of_not_mem {a : Char} {xs : List Char} (hxs : a ∉ xs)
    (place value ys : List Char) : fillFrom (a :: place) value 0 (xs ++ ys) =
      xs ++ fillFrom (a :: place) value 0 ys := by
  induction xs with
  | nil => rfl
  | cons x xs ih =>
    rw [List.mem_cons, not_or] at hxs
    have hprefix : ¬ (a :: place).isPrefixOf (x :: (xs ++ ys)) = true := by
      simp [List.isPrefixOf, hxs.1]
    rw [List.cons_append, fillFrom, if_neg hprefix, ih hxs.2, List.cons_append]

/-- **A template without a place stays as it is.** -/
theorem fillFrom_of_not_infix {cs : List Char} (h : ¬ place <:+: cs) (value : List Char) :
    fillFrom place value 0 cs = cs := by
  induction cs with
  | nil => rfl
  | cons c cs ih =>
    have hprefix : ¬ place.isPrefixOf (c :: cs) = true := fun hprefix =>
      h (List.isPrefixOf_iff_prefix.1 hprefix).isInfix
    rw [fillFrom, if_neg hprefix, ih fun hinfix => h (List.infix_cons hinfix)]

end RegistryLookup.Text
