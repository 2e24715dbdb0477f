import RegistryLookup.Proofs.Client.Address
import RegistryLookup.Proofs.Text.Template

/-!
# The parameters of a search

A search puts its text into a query, as the value of a parameter. Whatever the text is, the registry
reads this parameter with this value and the other parameters as they stand in the template.

* `SearchForm`: a template with a path, the parameter of the text and other parameters.
* `SearchForm.solid_path`: what is read of such a path.
* `SearchForm.pairs_query`: the pairs of its query.
* `search_parameters`: the parameters of every search.
* `spaced_fails_tabbed_loses`: a base address that ends in a space, and a parameter with a tab.
-/

namespace RegistryLookup

open Url

namespace Lookup

variable {r : Config.Registry} {p k rest : String}

/-- A search goes to a path with a query, in which its text is the value of the first parameter. -/
structure SearchForm (r : Config.Registry) (p k rest : String) : Prop where
  template : r.searchPath = p ++ "?" ++ k ++ "=" ++ Config.queryPlaceholder ++ rest
  rooted : ∀ c ∈ p.toList.head?, c = '/'
  path_plain : ∀ c ∈ p.toList, endsPath c = false
  path_bare : ¬ Config.queryPlaceholder.toList <:+: p.toList
  word : ∀ c ∈ k.toList, isWordChar c = true
  others : ∀ c ∈ rest.toList.head?, c = '&'
  others_plain : '#' ∉ rest.toList
  others_bare : ¬ Config.queryPlaceholder.toList <:+: rest.toList

/-- The part of a query that holds the text of a search. -/
def parameter (k : String) (l : Lookup) : List Char :=
  k.toList ++ '=' :: Text.Form.encode l.subject.toList

/-- The parameters behind the one of the text, as they are read. -/
def otherParameters (rest : String) : List Char := solid (rest.toList.rdropWhile isOuter)

section SearchForm

variable (h : SearchForm r p k rest)

include h

/-- The path of a search: the text stands in its place. -/
theorem SearchForm.toList_path (text : String) : ((search text).path r).toList =
    (p.toList ++ '?' :: k.toList) ++
      ('=' :: Text.Form.encode (search text).subject.toList ++ rest.toList) := by
  have hplace : Config.queryPlaceholder.toList = ['\x7b', 'q', 'u', 'e', 'r', 'y', '\x7d'] := by
    decide
  have hk : ('\x7b' : Char) ∉ k.toList := fun hc => absurd (h.word _ hc) (by decide)
  have hbare := h.path_bare
  have hothers := h.others_bare
  have htext : (search text).template r =
      p ++ "?" ++ k ++ "=" ++ Config.queryPlaceholder ++ rest := h.template
  have hchars : ((search text).template r).toList = p.toList ++ '?' :: (k.toList ++
      '=' :: (Config.queryPlaceholder.toList ++ rest.toList)) := by
    rw [htext]
    simp [String.toList_append]
  rw [Lookup.path, Text.fill, String.toList_ofList, String.toList_ofList, hchars, place]
  rw [hplace] at hbare hothers ⊢
  rw [Text.fillFrom_append_cons (by decide) (by simp), Text.fillFrom_of_not_infix hbare,
    Text.fillFrom_append_cons (by decide) (by simp), Text.fill_of_not_mem hk,
    Text.fillFrom_place_append (by simp), Text.fillFrom_of_not_infix hothers]
  simp

/-- **What is read of the path of a search.** -/
theorem SearchForm.solid_path (text : String) :
    solid (((search text).path r).toList.rdropWhile isOuter) =
      solid p.toList ++ '?' :: (parameter k (search text) ++ otherParameters rest) := by
  have hvalue : ∀ c ∈ '=' :: Text.Form.encode (search text).subject.toList, isOuter c = false := by
    intro c hc
    rcases List.mem_cons.1 hc with rfl | hc
    · decide
    · exact not_isOuter_of_isFormChar (Text.Form.isFormChar_of_mem_encode hc)
  have hmark : solid ('?' :: k.toList) = '?' :: k.toList := by
    refine solid_of_not_isOuter fun c hc => ?_
    rcases List.mem_cons.1 hc with rfl | hc
    · decide
    · exact not_isOuter_of_isWordChar (h.word c hc)
  rw [h.toList_path, solid_rdropWhile_of_plain hvalue (List.cons_ne_nil _ _), solid_append, hmark,
    parameter, otherParameters]
  simp

/-- The other parameters are divided from that of the text. -/
theorem SearchForm.otherParameters_cases :
    otherParameters rest = [] ∨ ∃ more, otherParameters rest = '&' :: more := by
  unfold otherParameters
  cases hrest : rest.toList with
  | nil => exact Or.inl rfl
  | cons c more =>
    have hc : c = '&' := h.others c (by rw [hrest]; rfl)
    have hand : ∀ d ∈ [c], isOuter d = false := by
      intro d hd
      rw [List.mem_singleton.1 hd, hc]
      decide
    have hkeep := solid_rdropWhile_of_plain hand (List.cons_ne_nil _ _) [] more
    rw [hc] at hkeep ⊢
    exact Or.inr ⟨_, hkeep⟩

/-- **The pairs of the query of a search.** -/
theorem SearchForm.pairs_query (text : String) :
    Text.Form.pairs (parameter k (search text) ++ otherParameters rest) =
      (k, (search text).subject) :: Text.Form.pairs (otherParameters rest) := by
  have hform : ∀ {d : Char}, Text.Form.isFormChar d = false →
      d ∉ Text.Form.encode (search text).subject.toList := fun hd hmem =>
    Text.Form.ne_of_isFormChar (Text.Form.isFormChar_of_mem_encode hmem) hd rfl
  have hword : ∀ {d : Char}, isWordChar d = false → ∀ c ∈ k.toList, c ≠ d := fun hd c hc =>
    ne_of_isWordChar (h.word c hc) hd
  have hand : '&' ∉ parameter k (search text) := by
    intro hmem
    rcases List.mem_append.1 hmem with hmem | hmem
    · exact hword (by decide) _ hmem rfl
    · rcases List.mem_cons.1 hmem with hmem | hmem
      · exact absurd hmem (by decide)
      · exact hform (by decide) hmem
  have hname : Text.Form.decode k.toList = k := by
    rw [Text.Form.decode_of_plain fun c hc => ⟨hword (by decide) c hc, hword (by decide) c hc⟩,
      String.ofList_toList]
  have hpair : Text.Form.pairs (parameter k (search text)) = [(k, (search text).subject)] := by
    rw [Text.Form.pairs_of_part hand (by simp [parameter]), parameter,
      Text.Form.pairOf_append_cons fun hmem => hword (by decide) _ hmem rfl, hname,
      Text.Form.decode_encode, String.ofList_toList]
  rcases h.otherParameters_cases with hnone | ⟨more, hmore⟩
  · rw [hnone, List.append_nil, hpair]
    rfl
  · have hskip : Text.Form.pairs ('&' :: more) = Text.Form.pairs more :=
      Text.Form.pairs_append_cons [] more
    rw [hmore, Text.Form.pairs_append_cons, hpair, hskip]
    rfl

/-- The path of a search ends an authority. -/
theorem SearchForm.head_template : (solid r.searchPath.toList).head?.any endsSite = true := by
  have htemplate : r.searchPath.toList = p.toList ++ '?' :: (k.toList ++
      '=' :: (Config.queryPlaceholder.toList ++ rest.toList)) := by
    rw [h.template]
    simp [String.toList_append]
  rw [htemplate]
  cases hp : p.toList with
  | nil => rfl
  | cons c more =>
    rw [h.rooted c (by rw [hp]; rfl)]
    rfl

theorem SearchForm.mark_not_mem (text : String) :
    '#' ∉ parameter k (search text) ++ otherParameters rest := by
  intro hmem
  rcases List.mem_append.1 hmem with hmem | hmem
  · rcases List.mem_append.1 hmem with hmem | hmem
    · exact absurd (h.word _ hmem) (by decide)
    · rcases List.mem_cons.1 hmem with hmem | hmem
      · exact absurd hmem (by decide)
      · exact absurd (Text.Form.isFormChar_of_mem_encode hmem) (by decide)
  · exact h.others_plain ((List.rdropWhile_prefix _ _).subset (List.mem_of_mem_filter hmem))

end SearchForm

/-- **The text of a search is the value of its parameter, and changes no other one**, whatever
characters it has. The base address is one of the web without query and fragment that a path can be
put behind. -/
theorem search_parameters {r : Config.Registry} {u : Url} {p k rest : String}
    (hurl : Url.parse r.baseUrl = .ok u) (hweb : u.scheme = "http" ∨ u.scheme = "https")
    (hquery : u.query = none) (hfragment : u.fragment = none)
    (hfirm : isFirm r = true) (hform : SearchForm r p k rest) (text : String)
    (hsubject : (search text).subject ≠ "") :
    ∃ url query, (search text).endpoint r = .ok url ∧ (search text).resolve r = .ok url ∧
      url.SameSite u ∧ url.fragment = none ∧ url.query = some query ∧
      Text.Form.pairs query.toList =
        (k, (search text).subject) :: Text.Form.pairs (otherParameters rest) := by
  have hkind : Kind.ofScheme u.scheme = .special := by
    rcases hweb with h | h <;> rw [h] <;> decide
  obtain ⟨behind, rest', hbased⟩ := exists_based hurl hkind
  have hpath : ¬ ((search text).path r).toList.all isOuter = true := by
    intro hall
    have hmark := List.all_eq_true.1 hall '?' (by rw [hform.toList_path]; simp)
    exact absurd hmark (by decide)
  have hanchored := isAnchored_of_isFirm hfirm hform.head_template
  obtain ⟨site, hsite, hendpoint⟩ := hbased.endpoint_eq (l := search text) hanchored hpath
  rw [hform.solid_path, ← List.append_assoc] at hendpoint
  have hplain : ∀ c ∈ tail r ++ solid p.toList, endsPath c = false := by
    intro c hc
    rcases List.mem_append.1 hc with hc | hc
    · exact hbased.not_endsPath_tail hanchored hquery hfragment c hc
    · exact hform.path_plain c (List.mem_of_mem_filter hc)
  obtain ⟨hq, hf⟩ := query_withBehind hplain (hform.mark_not_mem text) site
  refine ⟨_, _, hendpoint, ?_, (sameSite_withBehind _ _).trans hsite, hf, hq, ?_⟩
  · rw [resolve, if_neg hsubject, hendpoint]
  · rw [String.toList_ofList, pairs_querySet, hform.pairs_query]

/-- A registry whose searches have a parameter behind their text. -/
def pagedRegistry : Config.Registry where
  name := "paged"
  baseUrl := "https://127.0.0.1:1/api/"
  searchPath := "/find?name=\x7bquery\x7d&size=5"

theorem paged_form : SearchForm pagedRegistry "/find" "name" "&size=5" :=
  ⟨by decide, by simp, by simp [endsPath], by decide +kernel, by simp [isWordChar], by simp,
    by decide, by decide +kernel⟩

/-- A text that looks like parameters, an escape and a fragment is one value. -/
theorem lookalike_parameters :
    ∃ u, Url.parse pagedRegistry.baseUrl = .ok u ∧ (u.scheme = "http" ∨ u.scheme = "https") ∧
      u.query = none ∧ u.fragment = none ∧ isFirm pagedRegistry = true ∧
      SearchForm pagedRegistry "/find" "name" "&size=5" ∧
      (search " a&size=9+%41#\x7bquery\x7dø").subject ≠ "" ∧
      ∃ url query, (search " a&size=9+%41#\x7bquery\x7dø").endpoint pagedRegistry = .ok url ∧
        (search " a&size=9+%41#\x7bquery\x7dø").resolve pagedRegistry = .ok url ∧
        url.SameSite u ∧ url.fragment = none ∧ url.query = some query ∧
        Text.Form.pairs query.toList =
          [("name", "a&size=9+%41#\x7bquery\x7dø"), ("size", "5")] := by
  have hurl : Url.parse pagedRegistry.baseUrl = .ok {
      scheme := "https", host := some (.ipv4 2130706433), port := some 1,
      path := .segments ["api", ""] } := by
    decide +kernel
  have hfirm : isFirm pagedRegistry = true := by decide +kernel
  have hsubject : (search " a&size=9+%41#\x7bquery\x7dø").subject =
      "a&size=9+%41#\x7bquery\x7dø" := by decide +kernel
  have hne : (search " a&size=9+%41#\x7bquery\x7dø").subject ≠ "" := by
    rw [hsubject]
    decide
  have hothers : Text.Form.pairs (otherParameters "&size=5") = [("size", "5")] := by
    decide +kernel
  obtain ⟨url, query, hendpoint, hresolve, hsame, hfragment, hquery, hpairs⟩ :=
    search_parameters hurl (Or.inr rfl) rfl rfl hfirm paged_form
      " a&size=9+%41#\x7bquery\x7dø" hne
  rw [hsubject, hothers] at hpairs
  exact ⟨_, hurl, Or.inr rfl, rfl, rfl, hfirm, paged_form, hne, url, query, hendpoint, hresolve,
    hsame, hfragment, hquery, hpairs⟩

/-- A registry whose base address ends in a space. -/
def spacedRegistry : Config.Registry where
  name := "r"
  baseUrl := "http://127.0.0.1:1 "
  searchPath := "/search?q=\x7bquery\x7d"

/-- A registry whose searches have a parameter with a tab. -/
def tabbedRegistry : Config.Registry where
  name := "r"
  baseUrl := "http://127.0.0.1:1"
  searchPath := "/search?q=\x7bquery\x7d&a=\tb"

/-- **A space at the end of a base address spoils its port when a path follows**, and a tab is lost
from the other parameters. -/
theorem spaced_fails_tabbed_loses :
    (∃ u, Url.parse spacedRegistry.baseUrl = .ok u ∧ u.scheme = "http" ∧ u.query = none ∧
      u.fragment = none ∧ SearchForm spacedRegistry "/search" "q" "" ∧
      (search "x").subject = "x" ∧ (search "x").endpoint spacedRegistry = .error (.configuration
        "registry 'r': invalid endpoint /search?q=x: invalid port number")) ∧
    ∃ u, Url.parse tabbedRegistry.baseUrl = .ok u ∧ u.scheme = "http" ∧ u.query = none ∧
      u.fragment = none ∧ SearchForm tabbedRegistry "/search" "q" "&a=\tb" ∧
      ∃ url, (search "x").endpoint tabbedRegistry = .ok url ∧ url.query = some "q=x&a=b" ∧
        Text.Form.pairs "q=x&a=b".toList = [("q", "x"), ("a", "b")] ∧
        Text.Form.pairs "&a=\tb".toList = [("a", "\tb")] := by
  have hspaced : SearchForm spacedRegistry "/search" "q" "" :=
    ⟨by decide, by simp, by simp [endsPath], by decide +kernel, by simp [isWordChar], by simp,
      by decide, by decide +kernel⟩
  have htabbed : SearchForm tabbedRegistry "/search" "q" "&a=\tb" :=
    ⟨by decide, by simp, by simp [endsPath], by decide +kernel, by simp [isWordChar], by simp,
      by decide, by decide +kernel⟩
  have hspacedUrl : Url.parse spacedRegistry.baseUrl = .ok {
      scheme := "http", host := some (.ipv4 2130706433), port := some 1,
      path := .segments [""] } := by
    decide +kernel
  have htabbedUrl : Url.parse tabbedRegistry.baseUrl = .ok {
      scheme := "http", host := some (.ipv4 2130706433), port := some 1,
      path := .segments [""] } := by
    decide +kernel
  have htabbedQuery : (search "x").endpoint tabbedRegistry = .ok {
      scheme := "http", host := some (.ipv4 2130706433), port := some 1,
      path := .segments ["search"], query := some "q=x&a=b" } := by
    decide +kernel
  exact ⟨⟨_, hspacedUrl, rfl, rfl, rfl, hspaced, by decide +kernel, by decide +kernel⟩,
    _, htabbedUrl, rfl, rfl, rfl, htabbed, _, htabbedQuery, rfl, by decide +kernel,
    by decide +kernel⟩

end Lookup

end RegistryLookup
