import Mathlib.Data.List.DropRight
import RegistryLookup.Proofs.Url.Site

/-!
# Texts that are put together

A URL is often written as a text for a place with another text behind it. What is passed over in
reading (blanks and control characters at both ends, tabs and line ends anywhere) may depend on both
texts; the scheme and the authority of the first one stay as they are if it has them whole.

* `clean_append`: what is left of a text with another text behind it.
* `readScheme_append`, `readScheme_of_append`: the scheme is that of the first text.
* `siteText_append`: the authority is that of the first text if the second one ends it.
* `siteText_append_of_behind`: it is so too if the first text has something behind its authority.
-/

namespace RegistryLookup.Url

/-- A text without its tabs and line ends. -/
def solid (cs : List Char) : List Char := cs.filter (fun c => !isLineBreak c)

@[simp] theorem solid_append (xs ys : List Char) : solid (xs ++ ys) = solid xs ++ solid ys :=
  List.filter_append ..

theorem clean_eq (cs : List Char) :
    clean cs = solid ((cs.dropWhile isOuter).rdropWhile isOuter) := rfl

theorem isOuter_of_isLineBreak {c : Char} (h : isLineBreak c = true) : isOuter c = true := by
  simp only [isLineBreak, Bool.or_eq_true, decide_eq_true_eq] at h
  rcases h with (rfl | rfl) | rfl <;> decide

/-- A character that ends an authority is never passed over. -/
theorem not_isOuter_of_endsSite {c : Char} (h : endsSite c = true) : isOuter c = false := by
  simp only [endsSite, endsAuthority, Kind.hasBackslash, Bool.and_true, Bool.or_eq_true,
    decide_eq_true_eq] at h
  rcases h with ((rfl | rfl) | rfl) | rfl <;> decide

/-- Dropping from the end of two texts stops in the second one, or goes on in the first. -/
theorem rdropWhile_append {p : Char → Bool} (xs ys : List Char) :
    (xs ++ ys).rdropWhile p =
      if ys.all p then xs.rdropWhile p else xs ++ ys.rdropWhile p := by
  unfold List.rdropWhile
  rw [List.reverse_append, List.dropWhile_append]
  by_cases hall : ys.all p = true
  · have hnil : ys.reverse.dropWhile p = [] := by
      rw [List.dropWhile_eq_nil_iff]
      simpa using hall
    simp [hall, hnil]
  · have hne : ys.reverse.dropWhile p ≠ [] := by
      rw [Ne, List.dropWhile_eq_nil_iff]
      simpa using hall
    simp [hall, hne]

/-- **What is left of two texts.** The first one has something that is not passed over. -/
theorem clean_append {xs : List Char} (hxs : ∃ c ∈ xs, isOuter c = false) (ys : List Char) :
    clean (xs ++ ys) = if ys.all isOuter then clean xs
      else solid (xs.dropWhile isOuter) ++ solid (ys.rdropWhile isOuter) := by
  have hne : xs.dropWhile isOuter ≠ [] := by
    rw [Ne, List.dropWhile_eq_nil_iff]
    obtain ⟨c, hc, hout⟩ := hxs
    intro hall
    rw [hall c hc] at hout
    cases hout
  rw [clean_eq, List.dropWhile_append, if_neg (by simpa using hne), rdropWhile_append]
  split
  · rfl
  · rw [solid_append]

/-- What is passed over at the end of a text when nothing follows it. -/
def trail (cs : List Char) : List Char := solid ((cs.dropWhile isOuter).rtakeWhile isOuter)

theorem clean_append_trail (cs : List Char) :
    solid (cs.dropWhile isOuter) = clean cs ++ trail cs := by
  rw [clean_eq, trail, ← solid_append, List.rdropWhile_append_rtakeWhile]

theorem isOuter_of_mem_trail {cs : List Char} {c : Char} (h : c ∈ trail cs) : isOuter c = true :=
  List.mem_rtakeWhile_imp (List.mem_of_mem_filter h)

/-- A text behind another one adds to what is left of it. -/
theorem exists_clean_append {xs : List Char} (hxs : ∃ c ∈ xs, isOuter c = false) (ys : List Char) :
    ∃ zs, clean (xs ++ ys) = clean xs ++ zs := by
  rw [clean_append hxs]
  split
  · exact ⟨[], (List.append_nil _).symm⟩
  · refine ⟨trail xs ++ solid (ys.rdropWhile isOuter), ?_⟩
    rw [clean_append_trail, List.append_assoc]

/-- A text behind another one does not touch its scheme. -/
theorem readScheme_append {xs rest : List Char} {scheme : String}
    (h : readScheme xs = some (scheme, rest)) (ys : List Char) :
    readScheme (xs ++ ys) = some (scheme, rest ++ ys) := by
  obtain ⟨c, name, rfl, halpha, hchars, rfl⟩ := readScheme_eq_some_iff.1 h
  exact readScheme_eq_some_iff.2 ⟨c, name, by simp, halpha, hchars, rfl⟩

/-- A text without a colon makes no scheme. -/
theorem readScheme_of_append {xs ys rest : List Char} {scheme : String} (hys : ':' ∉ ys)
    (h : readScheme (xs ++ ys) = some (scheme, rest)) :
    ∃ behind, readScheme xs = some (scheme, behind) ∧ rest = behind ++ ys := by
  obtain ⟨c, name, heq, halpha, hchars, rfl⟩ := readScheme_eq_some_iff.1 h
  rcases List.append_eq_append_iff.1 heq with ⟨as, hname, hys'⟩ | ⟨as, rfl, hrest⟩
  · -- the colon would stand in the second text
    rw [hys'] at hys
    simp at hys
  · cases as with
    | nil => rw [List.nil_append] at hrest; rw [← hrest] at hys; simp at hys
    | cons d behind =>
      obtain ⟨rfl, rfl⟩ := List.cons.inj hrest
      exact ⟨behind, readScheme_eq_some_iff.2 ⟨c, name, rfl, halpha, hchars, rfl⟩, rfl⟩

/-- An authority that has begun goes on up to what ends it. -/
theorem siteText_append {rest : List Char} (hrest : ∃ c ∈ rest, isSlash c = false)
    {ys : List Char} (hys : ∀ c ∈ ys.head?, endsSite c = true) :
    siteText (rest ++ ys) = siteText rest := by
  have hne : rest.dropWhile isSlash ≠ [] := by
    rw [Ne, List.dropWhile_eq_nil_iff]
    obtain ⟨c, hc, hslash⟩ := hrest
    intro hall
    rw [hall c hc] at hslash
    cases hslash
  have hnil : ys.takeWhile (fun c => !endsSite c) = [] := by
    cases ys with
    | nil => rfl
    | cons c ys => simp [hys c rfl]
  unfold siteText
  rw [List.dropWhile_append, if_neg (by simpa using hne), List.takeWhile_append, hnil,
    List.append_nil]
  split
  · rename_i hlen
    exact (List.takeWhile_prefix _).eq_of_length hlen |>.symm
  · rfl

/-- Nothing changes an authority that has something behind it. -/
theorem siteText_append_of_behind {rest : List Char} (hrest : behindSite rest ≠ [])
    (ys : List Char) : siteText (rest ++ ys) = siteText rest := by
  unfold behindSite at hrest
  have hne : rest.dropWhile isSlash ≠ [] := by
    intro hnil
    rw [hnil] at hrest
    exact hrest rfl
  unfold siteText
  rw [List.dropWhile_append, if_neg (by simpa using hne), List.takeWhile_append]
  split
  · rename_i hlen
    -- the authority would be all there is
    have hall : (rest.dropWhile isSlash).takeWhile (fun c => !endsSite c) =
        rest.dropWhile isSlash := (List.takeWhile_prefix _).eq_of_length hlen
    have hsplit := List.takeWhile_append_dropWhile (p := fun c => !endsSite c)
      (l := rest.dropWhile isSlash)
    rw [hall] at hsplit
    exact absurd (List.append_right_eq_self.1 hsplit) hrest
  · rfl

end RegistryLookup.Url
