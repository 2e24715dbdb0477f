import RegistryLookup.Proofs.Client.Endpoint
import RegistryLookup.Proofs.Url.Behind

/-!
# What a lookup asks for

A path that leaves the authority of the base address alone is read behind whatever the base address
has behind its authority. So the path and the query of an address are told by the two texts apart.

* `tail`: what a base address has behind its authority.
* `Based.endpoint_eq`: the address of a lookup is its path behind this tail.
* `Based.not_endsPath_tail`: the tail is a path if the base address has no query and no fragment.
* `Based.exists_path_eq`: the segments of the base address.
* `solid_rdropWhile_of_plain`: which characters of a path are passed over.
-/

namespace RegistryLookup

open Url

namespace Lookup

variable {r : Config.Registry} {u : Url} {behind rest : List Char}

/-- Whether a path can be put behind a base address: it has something behind its authority, or it
does not end in what is passed over at the end of a text. Tabs and line ends do not count. -/
def isFirm (r : Config.Registry) : Bool :=
  !(behindBase r).isEmpty || (solid r.baseUrl.toList).getLast?.all (fun c => !isOuter c)

theorem isAnchored_of_isFirm {template : String} (h : isFirm r = true)
    (hhead : (solid template.toList).head?.any endsSite = true) :
    isAnchored r template = true := by
  unfold isAnchored
  rw [hhead, Bool.and_true]
  exact h

/-- What a base address without slashes at its end has behind its authority when something follows
it. What would be passed over at its end counts then. -/
def tail (r : Config.Registry) : List Char :=
  match readScheme (solid ((base r).toList.dropWhile isOuter)) with
  | none => []
  | some (_, rest) => behindSite rest

theorem Based.readScheme_solid (h : Based r u behind rest) :
    readScheme (solid ((base r).toList.dropWhile isOuter)) =
      some (u.scheme, behind ++ trail (base r).toList) := by
  rw [clean_append_trail]
  exact readScheme_append h.scheme _

theorem Based.tail_eq (h : Based r u behind rest) :
    tail r = behindSite (behind ++ trail (base r).toList) := by
  rw [tail, h.readScheme_solid]

/-- With an anchored path the authority of the base address stays as it is. -/
theorem Based.siteText_trail (h : Based r u behind rest) {template : String}
    (hanchored : isAnchored r template = true) :
    siteText (behind ++ trail (base r).toList) = siteText rest := by
  rcases Bool.or_eq_true_iff.1 hanchored with hclosed | hopen
  · exact h.siteText_of_behind (by simpa [behindBase, h.scheme] using hclosed) _
  · exact h.siteText_base (Bool.and_eq_true_iff.1 hopen).1

/-- **The address of a lookup is its path behind the tail of the base address.** -/
theorem Based.endpoint_eq (h : Based r u behind rest) {l : Lookup}
    (hanchored : isAnchored r (l.template r) = true)
    (hpath : ¬ (l.path r).toList.all isOuter = true) :
    ∃ site : Url, site.SameSite u ∧ l.endpoint r =
      .ok (withBehind (tail r ++ solid ((l.path r).toList.rdropWhile isOuter)) site) := by
  obtain ⟨rest', hrest', hsame⟩ := h.endpoint_of_isAnchored hanchored
  have hclean : clean (base r ++ l.path r).toList = solid ((base r).toList.dropWhile isOuter) ++
      solid ((l.path r).toList.rdropWhile isOuter) := by
    rw [String.toList_append, clean_append h.begun, if_neg hpath]
  have hread := hrest'
  rw [hclean, readScheme_append h.readScheme_solid] at hread
  obtain ⟨-, rfl⟩ := Prod.mk.inj (Option.some.inj hread)
  obtain ⟨site, hsite, hsiteSame⟩ := h.site
  refine ⟨site, hsiteSame, ?_⟩
  rw [endpoint, parse_special hrest' h.kind, hsame, hsite, h.tail_eq]
  rw [behindSite_append h.exists_not_slash (hsame.trans (h.siteText_trail hanchored).symm)]
  rfl

/-- What a base address asks for: its tail, with what is passed over at its end or the slashes that
are cut off. -/
theorem Based.behindSite_rest (h : Based r u behind rest) {template : String}
    (hanchored : isAnchored r template = true) :
    (slashes r = [] ∧ tail r = behindSite rest ++ trail (base r).toList) ∨
      behindSite rest = tail r ++ slashes r := by
  have hsame := h.siteText_trail hanchored
  rw [h.tail_eq]
  by_cases hnone : slashes r = []
  · refine Or.inl ⟨hnone, ?_⟩
    have hrest : rest = behind := by rw [h.glued, if_pos hnone]
    rw [← hrest] at hsame ⊢
    refine behindSite_append ?_ hsame
    -- the authority has begun, for it leads somewhere
    obtain ⟨site, hsite, -⟩ := h.site
    cases htext : siteText rest with
    | nil =>
      rw [htext, readSite_nil] at hsite
      cases hsite
    | cons c text =>
      have hc : c ∈ siteText rest := by
        rw [htext]
        exact List.mem_cons_self
      refine ⟨c, List.dropWhile_subset _ (List.takeWhile_subset _ hc), ?_⟩
      by_contra hslash
      have hends := endsSite_of_isSlash (by simpa using hslash)
      have hnot := List.mem_takeWhile_imp hc
      rw [hends] at hnot
      cases hnot
  · refine Or.inr ?_
    have hrest : rest = (behind ++ trail (base r).toList) ++ slashes r := by
      rw [h.glued, if_neg hnone, List.append_assoc]
    rw [hrest] at hsame ⊢
    exact behindSite_append h.exists_not_slash hsame.symm

section Plain

variable (h : Based r u behind rest) {template : String}
  (hanchored : isAnchored r template = true) (hquery : u.query = none)
  (hfragment : u.fragment = none)

include h hquery hfragment

theorem Based.not_endsPath : ∀ c ∈ behindSite rest, endsPath c = false := by
  obtain ⟨site, hsite, -⟩ := h.site
  have hleads := h.leads
  rw [hsite] at hleads
  have hu := Except.ok.inj hleads
  rw [← hu] at hquery hfragment
  exact not_endsPath_of_none hquery hfragment

include hanchored

/-- **The tail of a base address without query and fragment is a path.** -/
theorem Based.not_endsPath_tail : ∀ c ∈ tail r, endsPath c = false := by
  have hplain := h.not_endsPath hquery hfragment
  intro c hc
  rcases h.behindSite_rest hanchored with ⟨-, htail⟩ | htail
  · rw [htail] at hc
    rcases List.mem_append.1 hc with hc | hc
    · exact hplain c hc
    · have hout := isOuter_of_mem_trail hc
      by_contra hends
      have hends : endsSite c = true := by
        simp only [endsPath, Bool.not_eq_false, Bool.or_eq_true, decide_eq_true_eq] at hends
        rcases hends with rfl | rfl <;> decide
      rw [not_isOuter_of_endsSite hends] at hout
      cases hout
  · exact hplain c (by rw [htail]; exact List.mem_append_left _ hc)

theorem Based.isSlash_head_tail : ∀ c ∈ (tail r).head?, isSlash c = true := by
  intro c hc
  have hpath := h.not_endsPath_tail hanchored hquery hfragment c (List.mem_of_mem_head? hc)
  rw [h.tail_eq] at hc
  have hends := endsSite_of_head_behindSite c hc
  simp only [endsSite, endsAuthority, Kind.hasBackslash, Bool.and_true, Bool.or_eq_true,
    decide_eq_true_eq] at hends
  rcases hends with ((rfl | rfl) | rfl) | rfl
  · rfl
  · exact absurd hpath (by decide)
  · exact absurd hpath (by decide)
  · rfl

/-- **The segments of a base address** that does not end in what is passed over. The slashes at its
end may stand for empty segments. -/
theorem Based.exists_path_eq
    (hlast : (solid r.baseUrl.toList).getLast?.all (fun c => !isOuter c) = true) :
    ∃ n, u.path = .segments (stem (tail r) ++ List.replicate n "") := by
  have hrest : behindSite rest = tail r ++ slashes r := by
    rcases h.behindSite_rest hanchored with ⟨hnone, htail⟩ | htail
    · have hwhole : (base r).toList = r.baseUrl.toList := by
        rw [← base_append_slashes r, hnone, List.append_nil]
      rw [htail, hnone, hwhole, trail_eq_nil hlast, List.append_nil, List.append_nil]
    · exact htail
  have hslashes : slashes r = List.replicate (slashes r).length '/' :=
    List.eq_replicate_iff.2 ⟨rfl, fun c hc => eq_slash_of_mem hc⟩
  obtain ⟨site, hsite, -⟩ := h.site
  have hleads := h.leads
  rw [hsite] at hleads
  have hu := Except.ok.inj hleads
  obtain ⟨n, hn⟩ := exists_readPath_append_replicate
    (h.isSlash_head_tail hanchored hquery hfragment) (slashes r).length
  refine ⟨n, ?_⟩
  rw [← hu, (path_withBehind (h.not_endsPath hquery hfragment) site).1, hrest, hslashes,
    hn]

end Plain

/-- A letter or a digit, or a character beyond ASCII. -/
def isWordChar (c : Char) : Bool := c.isAlphanum || 127 < c.toNat

theorem ne_of_isWordChar {c d : Char} (hc : isWordChar c = true) (hd : isWordChar d = false) :
    c ≠ d := by
  rintro rfl
  rw [hc] at hd
  cases hd

theorem not_isOuter_of_isFormChar {c : Char} (h : Text.Form.isFormChar c = true) :
    isOuter c = false := by
  have hbounds := Text.Form.bounds_of_isFormChar h
  simp only [isOuter, decide_eq_false_iff_not]
  omega

theorem not_isOuter_of_isWordChar {c : Char} (h : isWordChar c = true) : isOuter c = false := by
  rcases Bool.or_eq_true_iff.1 h with h | h
  · exact not_isOuter_of_isFormChar (by simp [Text.Form.isFormChar, h])
  · simp only [decide_eq_true_eq] at h
    simp only [isOuter, decide_eq_false_iff_not]
    omega

/-- Only a character that is passed over at the end of a text is passed over inside of it. -/
theorem solid_of_not_isOuter {cs : List Char} (h : ∀ c ∈ cs, isOuter c = false) :
    solid cs = cs := by
  refine List.filter_eq_self.2 fun c hc => ?_
  cases hbreak : isLineBreak c with
  | false => rfl
  | true =>
    have hout := isOuter_of_isLineBreak hbreak
    rw [h c hc] at hout
    cases hout

/-- What is passed over of a path that has `value` in it: something before and behind it only. -/
theorem solid_rdropWhile_of_plain {value : List Char} (hvalue : ∀ c ∈ value, isOuter c = false)
    (hne : value ≠ []) (xs ys : List Char) :
    solid ((xs ++ (value ++ ys)).rdropWhile isOuter) =
      solid xs ++ (value ++ solid (ys.rdropWhile isOuter)) := by
  have hkeep : value.rdropWhile isOuter = value := by
    rw [List.rdropWhile_eq_self_iff]
    intro hne hout
    rw [hvalue _ (List.getLast_mem hne)] at hout
    cases hout
  have hsome : ¬ (value ++ ys).all isOuter = true := by
    intro hall
    obtain ⟨c, hc⟩ := List.exists_mem_of_ne_nil _ hne
    have hout := List.all_eq_true.1 hall c (List.mem_append_left _ hc)
    rw [hvalue c hc] at hout
    cases hout
  have hcut : (value ++ ys).rdropWhile isOuter = value ++ ys.rdropWhile isOuter := by
    rw [rdropWhile_append]
    split
    · rename_i hall
      have hnil : ys.rdropWhile isOuter = [] :=
        List.rdropWhile_eq_nil_iff.2 fun c hc => List.all_eq_true.1 hall c hc
      rw [hkeep, hnil, List.append_nil]
    · rfl
  rw [rdropWhile_append, if_neg hsome, hcut, solid_append, solid_append,
    solid_of_not_isOuter hvalue]

end Lookup

end RegistryLookup
