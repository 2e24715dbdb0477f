import RegistryLookup.Client.Lookup
import RegistryLookup.Proofs.Config.Registries
import RegistryLookup.Proofs.Url.Glue

/-!
# Where a lookup leads

The address of a request is the base address of its registry, without slashes at its end, with the
path behind it. The path may end the authority of the base address, or go on with it: then it says
something of the host or the port.

* `isAnchored`: whether a path leaves the authority as it is, which only depends on how its template
  begins.
* `isFixed`: whether the authority is over before the place of the subject.
* `Based.endpoint_of_isFixed`, `Based.endpoint_of_isAnchored`: the authority of the address of a
  lookup in either case.
* `endpoint_sameSite`: with an anchored template every lookup leads to the host of its registry, and
  with a fixed one all lookups lead to one host.
* `loose_strays`: with another template the subject may say where its request goes.
-/

namespace RegistryLookup

open Url

namespace Lookup

variable {r : Config.Registry} {l : Lookup}

/-- The slashes at the end of a base address. -/
def slashes (r : Config.Registry) : List Char := r.baseUrl.toList.rtakeWhile (· == '/')

theorem toList_base (r : Config.Registry) :
    (base r).toList = r.baseUrl.toList.rdropWhile (· == '/') := by
  unfold base
  rw [String.toList_ofList]
  rfl

theorem base_append_slashes (r : Config.Registry) :
    (base r).toList ++ slashes r = r.baseUrl.toList := by
  rw [toList_base, slashes, List.rdropWhile_append_rtakeWhile]

theorem eq_slash_of_mem {c : Char} (h : c ∈ slashes r) : c = '/' := by
  simpa using List.mem_rtakeWhile_imp h

/-- What stands behind the authority of the base address, without the slashes at its end. -/
def behindBase (r : Config.Registry) : List Char :=
  match readScheme (clean (base r).toList) with
  | none => []
  | some (_, rest) => behindSite rest

/-- Whether the path behind a base address leaves its authority as it is: the base address has
something behind the authority, or it ends with it and the path begins with what ends an
authority. Tabs and line ends do not count. -/
def isAnchored (r : Config.Registry) (template : String) : Bool :=
  !(behindBase r).isEmpty ||
    ((solid r.baseUrl.toList).getLast?.all (fun c => !isOuter c) &&
      (solid template.toList).head?.any endsSite)

theorem nonOuter_base {scheme : String} {rest : List Char}
    (h : readScheme (clean r.baseUrl.toList) = some (scheme, rest)) :
    ∃ c ∈ (base r).toList, isOuter c = false := by
  by_contra hno
  have hall : ∀ c ∈ (base r).toList, isOuter c = true := by
    intro c hc
    by_contra hout
    exact hno ⟨c, hc, by simpa using hout⟩
  obtain ⟨c, name, heq, halpha, -⟩ := readScheme_eq_some_iff.1 h
  -- only slashes would be left
  have hmem : c ∈ clean r.baseUrl.toList := by rw [heq]; simp
  have hmem : c ∈ r.baseUrl.toList.dropWhile isOuter :=
    (List.rdropWhile_prefix _ _).subset (List.mem_of_mem_filter hmem)
  rw [← base_append_slashes, List.dropWhile_append_of_pos hall] at hmem
  rw [eq_slash_of_mem ((List.dropWhile_subset _) hmem)] at halpha
  exact absurd halpha (by decide)

/-- The slashes that are cut off end what may still be passed over at the end. -/
theorem clean_baseUrl (hbase : ∃ c ∈ (base r).toList, isOuter c = false) :
    clean r.baseUrl.toList =
      if slashes r = [] then clean (base r).toList
      else clean (base r).toList ++ (trail (base r).toList ++ slashes r) := by
  have hslash : ∀ c ∈ slashes r, c = '/' := fun c hc => eq_slash_of_mem hc
  rw [← base_append_slashes, clean_append hbase]
  by_cases hnone : slashes r = []
  · simp [hnone]
  · have hall : ¬ (slashes r).all isOuter = true := by
      intro hall
      obtain ⟨c, hc⟩ := List.exists_mem_of_ne_nil _ hnone
      have hout := List.all_eq_true.1 hall c hc
      rw [hslash c hc] at hout
      exact absurd hout (by decide)
    have hkeep : (slashes r).rdropWhile isOuter = slashes r := by
      rw [List.rdropWhile_eq_self_iff]
      intro hne hout
      rw [hslash _ (List.getLast_mem hne)] at hout
      exact absurd hout (by decide)
    have hsolid : solid (slashes r) = slashes r := by
      refine List.filter_eq_self.2 fun c hc => ?_
      rw [hslash c hc]
      decide
    rw [if_neg hall, if_neg hnone, hkeep, hsolid, clean_append_trail, List.append_assoc]

/-- The scheme of a base address stands in what is left without the slashes at its end. -/
theorem readScheme_base {scheme : String} {rest : List Char}
    (h : readScheme (clean r.baseUrl.toList) = some (scheme, rest)) :
    ∃ behind, readScheme (clean (base r).toList) = some (scheme, behind) ∧
      rest = if slashes r = [] then behind else behind ++ (trail (base r).toList ++ slashes r) := by
  rw [clean_baseUrl (nonOuter_base h)] at h
  by_cases hnone : slashes r = []
  · rw [if_pos hnone] at h
    exact ⟨rest, h, by rw [if_pos hnone]⟩
  · rw [if_neg hnone] at h
    have hcolon : ':' ∉ trail (base r).toList ++ slashes r := by
      rw [List.mem_append]
      rintro (hmem | hmem)
      · exact absurd (isOuter_of_mem_trail hmem) (by decide)
      · exact absurd (eq_slash_of_mem hmem) (by decide)
    obtain ⟨behind, hbehind, hrest⟩ := readScheme_of_append hcolon h
    exact ⟨behind, hbehind, by rw [if_neg hnone]; exact hrest⟩

/-- Nothing is passed over at the end of a text whose last character counts. -/
theorem trail_eq_nil {cs : List Char}
    (h : (solid cs).getLast?.all (fun c => !isOuter c) = true) : trail cs = [] := by
  by_contra hne
  have hsolid : solid cs = solid (cs.takeWhile isOuter) ++ clean cs ++ trail cs := by
    rw [List.append_assoc, ← clean_append_trail, ← solid_append, List.takeWhile_append_dropWhile]
  have hlast : (solid cs).getLast? = some ((trail cs).getLast hne) := by
    rw [hsolid, List.getLast?_append, List.getLast?_eq_some_getLast hne, Option.some_or]
  rw [hlast] at h
  have hout := isOuter_of_mem_trail (List.getLast_mem hne)
  simp [hout] at h

/-- What stands before the first place in a template. -/
def lead (place : List Char) : List Char → List Char
  | [] => []
  | c :: rest => if place.isPrefixOf (c :: rest) then [] else c :: lead place rest

/-- A filled path begins as its template does, up to the first place. -/
theorem exists_fillFrom (place value cs : List Char) :
    ∃ more, Text.fillFrom place value 0 cs = lead place cs ++ more := by
  induction cs with
  | nil => exact ⟨[], rfl⟩
  | cons c rest ih =>
    rw [Text.fillFrom, lead]
    split
    · exact ⟨_, (List.nil_append _).symm⟩
    · obtain ⟨more, hmore⟩ := ih
      exact ⟨more, by rw [hmore]; rfl⟩

theorem head_lead {place cs : List Char} {c : Char} (hc : c ≠ '\x7b')
    (h : (solid cs).head? = some c) : (solid (lead ('\x7b' :: place) cs)).head? = some c := by
  induction cs with
  | nil => cases h
  | cons d rest ih =>
    have hlead : d ≠ '\x7b' →
        lead ('\x7b' :: place) (d :: rest) = d :: lead ('\x7b' :: place) rest := by
      intro hd
      have hplace : ('\x7b' :: place).isPrefixOf (d :: rest) = false := by
        simp [List.isPrefixOf, hd.symm]
      rw [lead, hplace, if_neg (by simp)]
    cases hbreak : isLineBreak d with
    | true =>
      have hd : d ≠ '\x7b' := by
        rintro rfl
        exact absurd hbreak (by decide)
      have hsolid : ∀ xs, solid (d :: xs) = solid xs := fun xs =>
        List.filter_cons_of_neg (by simp [hbreak])
      rw [hsolid] at h
      rw [hlead hd, hsolid]
      exact ih h
    | false =>
      have hsolid : ∀ xs, solid (d :: xs) = d :: solid xs := fun xs =>
        List.filter_cons_of_pos (by simp [hbreak])
      rw [hsolid, List.head?_cons, Option.some.injEq] at h
      subst h
      rw [hlead hc, hsolid]
      rfl

/-- What stands before the place of the subject in the path of a lookup. -/
def leadOf (r : Config.Registry) (l : Lookup) : List Char :=
  lead l.place.toList (l.template r).toList

theorem exists_path (r : Config.Registry) (l : Lookup) :
    ∃ more, (l.path r).toList = leadOf r l ++ more := by
  unfold path Text.fill
  rw [String.toList_ofList]
  exact exists_fillFrom ..

theorem head_leadOf (l : Lookup) {c : Char} (hc : c ≠ '\x7b')
    (h : (solid (l.template r).toList).head? = some c) : (solid (leadOf r l)).head? = some c := by
  have hplace : ∃ place, l.place.toList = '\x7b' :: place := by
    cases l with
    | company id => exact ⟨['i', 'd', '\x7d'], by simp only [Lookup.place]; decide⟩
    | search text => exact ⟨['q', 'u', 'e', 'r', 'y', '\x7d'], by simp only [Lookup.place]; decide⟩
  obtain ⟨place, hplace⟩ := hplace
  unfold leadOf
  rw [hplace]
  exact head_lead hc h

/-- The part of a path that may go on with the authority of the base address, if it ends before the
place of the subject. -/
def siteLead (r : Config.Registry) (l : Lookup) : List Char :=
  solid ((leadOf r l).takeWhile (fun c => !endsSite c))

/-- Whether the authority is over before the place of the subject. -/
def isFixed (r : Config.Registry) (l : Lookup) : Bool := (leadOf r l).any endsSite

/-- What is left of a path whose part of the authority ends before the place. -/
theorem exists_solid_path {l : Lookup} (h : isFixed r l = true) :
    ¬ (l.path r).toList.all isOuter = true ∧
    ∃ c more, endsSite c = true ∧
      solid ((l.path r).toList.rdropWhile isOuter) = siteLead r l ++ c :: more := by
  obtain ⟨c, hc, hends⟩ := List.any_eq_true.1 h
  obtain ⟨more, hpath⟩ := exists_path r l
  -- the first character that ends the authority
  obtain ⟨d, behind, hdrop⟩ : ∃ d behind,
      (leadOf r l).dropWhile (fun c => !endsSite c) = d :: behind := by
    cases hdrop : (leadOf r l).dropWhile (fun c => !endsSite c) with
    | nil =>
      have hnone := List.dropWhile_eq_nil_iff.1 hdrop c hc
      simp [hends] at hnone
    | cons d behind => exact ⟨d, behind, rfl⟩
  have hd : endsSite d = true := by
    have hne : (leadOf r l).dropWhile (fun c => !endsSite c) ≠ [] := by
      rw [hdrop]
      exact List.cons_ne_nil d behind
    have hhead := List.head_dropWhile_not _ hne
    simpa [hdrop] using hhead
  have hout : isOuter d = false := not_isOuter_of_endsSite hd
  have hbreak : isLineBreak d = false := by
    cases hbreak : isLineBreak d with
    | false => rfl
    | true => rw [isOuter_of_isLineBreak hbreak] at hout; cases hout
  have hsplit : (l.path r).toList =
      ((leadOf r l).takeWhile (fun c => !endsSite c) ++ [d]) ++ (behind ++ more) := by
    have hlead := List.takeWhile_append_dropWhile (p := fun c => !endsSite c) (l := leadOf r l)
    rw [hdrop] at hlead
    rw [List.append_assoc, List.cons_append, List.nil_append, ← List.cons_append,
      ← List.append_assoc, hlead, hpath]
  refine ⟨fun hall => ?_, d, ?_⟩
  · have hmem : d ∈ (l.path r).toList := by rw [hsplit]; simp
    rw [List.all_eq_true.1 hall d hmem] at hout
    cases hout
  · have hkeep : ((leadOf r l).takeWhile (fun c => !endsSite c) ++ [d]).rdropWhile isOuter =
        (leadOf r l).takeWhile (fun c => !endsSite c) ++ [d] :=
      List.rdropWhile_concat_neg _ _ _ (by simp [hout])
    have hsolid : solid ((leadOf r l).takeWhile (fun c => !endsSite c) ++ [d]) =
        siteLead r l ++ [d] := by
      rw [solid_append]
      simp [siteLead, solid, hbreak]
    rw [hsplit, rdropWhile_append]
    split
    · exact ⟨[], hd, by rw [hkeep, hsolid]⟩
    · refine ⟨solid ((behind ++ more).rdropWhile isOuter), hd, ?_⟩
      rw [solid_append, hsolid, List.append_assoc]
      rfl

/-- A path whose template begins with what ends an authority has no part in it. -/
theorem isFixed_of_head {l : Lookup} {c : Char} (hends : endsSite c = true)
    (h : (solid (l.template r).toList).head? = some c) :
    isFixed r l = true ∧ siteLead r l = [] := by
  have hplace : c ≠ '\x7b' := by
    rintro rfl
    exact absurd hends (by decide)
  have hhead : (solid (leadOf r l)).head? = some c := head_leadOf l hplace h
  refine ⟨List.any_eq_true.2 ⟨c, List.mem_of_mem_filter (List.mem_of_mem_head? hhead), hends⟩, ?_⟩
  unfold siteLead
  cases hlead : solid ((leadOf r l).takeWhile (fun c => !endsSite c)) with
  | nil => rfl
  | cons d rest =>
    have hsplit := List.takeWhile_append_dropWhile (p := fun c => !endsSite c) (l := leadOf r l)
    rw [← hsplit, solid_append, hlead, List.cons_append, List.head?_cons, Option.some.injEq]
      at hhead
    have hmem : d ∈ solid ((leadOf r l).takeWhile (fun c => !endsSite c)) := by
      rw [hlead]
      exact List.mem_cons_self
    have hnot := List.mem_takeWhile_imp (List.mem_of_mem_filter hmem)
    rw [hhead, hends] at hnot
    cases hnot

/-- The base address of a registry of the web leads to a URL. What is read of it behind its scheme
is `rest`, and `behind` without the slashes at its end. -/
structure Based (r : Config.Registry) (u : Url) (behind rest : List Char) : Prop where
  kind : Kind.ofScheme u.scheme = .special
  begun : ∃ c ∈ (base r).toList, isOuter c = false
  scheme : readScheme (clean (base r).toList) = some (u.scheme, behind)
  glued : rest = if slashes r = [] then behind else behind ++ (trail (base r).toList ++ slashes r)
  leads : (readSite u.scheme (siteText rest)).map (withBehind (behindSite rest)) = .ok u

theorem exists_based {u : Url} (h : Url.parse r.baseUrl = .ok u)
    (hkind : Kind.ofScheme u.scheme = .special) : ∃ behind rest, Based r u behind rest := by
  obtain ⟨rest, hrest⟩ := readScheme_of_parse h
  obtain ⟨behind, hbehind, hglued⟩ := readScheme_base hrest
  rw [parse_special hrest hkind] at h
  exact ⟨behind, rest, hkind, nonOuter_base hrest, hbehind, hglued, h⟩

section Based

variable {u : Url} {behind rest : List Char}

theorem Based.site (h : Based r u behind rest) :
    ∃ site, readSite u.scheme (siteText rest) = .ok site ∧ site.SameSite u := by
  have hleads := h.leads
  cases hread : readSite u.scheme (siteText rest) with
  | error fault =>
    rw [hread] at hleads
    cases hleads
  | ok site =>
    rw [hread] at hleads
    refine ⟨site, rfl, ?_⟩
    rw [← Except.ok.inj hleads]
    exact (sameSite_withBehind _ _).symm

/-- The authority of a base address has begun in front of the slashes at its end. -/
theorem Based.exists_not_slash (h : Based r u behind rest) :
    ∃ c ∈ behind ++ trail (base r).toList, isSlash c = false := by
  by_contra hno
  have hbare : ∀ c ∈ behind ++ trail (base r).toList, isSlash c = true := by
    intro c hc
    by_contra hslash
    exact hno ⟨c, hc, by simpa using hslash⟩
  have hall : ∀ c ∈ rest, isSlash c = true := by
    intro c hc
    rw [h.glued] at hc
    split at hc
    · exact hbare c (List.mem_append_left _ hc)
    · rw [← List.append_assoc] at hc
      rcases List.mem_append.1 hc with hc | hc
      · exact hbare c hc
      · rw [eq_slash_of_mem hc]
        rfl
  have hnil : siteText rest = [] := by
    unfold siteText
    rw [List.dropWhile_eq_nil_iff.2 hall]
    rfl
  obtain ⟨site, hread, -⟩ := h.site
  rw [hnil, readSite_nil] at hread
  cases hread

/-- What stands behind the authority of a base address keeps it apart from the path. -/
theorem Based.siteText_of_behind (h : Based r u behind rest) (hne : behindSite behind ≠ [])
    (more : List Char) : siteText (behind ++ more) = siteText rest := by
  rw [siteText_append_of_behind hne, h.glued]
  split
  · rfl
  · rw [siteText_append_of_behind hne]

/-- The slashes at the end of a base address end its authority. -/
theorem Based.siteText_base (h : Based r u behind rest)
    (hlast : (solid r.baseUrl.toList).getLast?.all (fun c => !isOuter c) = true) :
    siteText (behind ++ trail (base r).toList) = siteText rest := by
  by_cases hnone : slashes r = []
  · have hwhole : (base r).toList = r.baseUrl.toList := by
      rw [← base_append_slashes r, hnone, List.append_nil]
    rw [h.glued, if_pos hnone, hwhole, trail_eq_nil hlast, List.append_nil]
  · have hends : ∀ c ∈ (slashes r).head?, endsSite c = true := by
      intro c hc
      rw [eq_slash_of_mem (List.mem_of_mem_head? hc)]
      rfl
    rw [h.glued, if_neg hnone, ← List.append_assoc, siteText_append h.exists_not_slash hends]

/-- The authority of an address whose base address has something behind its own one. -/
theorem Based.endpoint_of_behind (h : Based r u behind rest) (hne : behindSite behind ≠ [])
    (l : Lookup) :
    ∃ rest', readScheme (clean (base r ++ l.path r).toList) = some (u.scheme, rest') ∧
      siteText rest' = siteText rest := by
  obtain ⟨more, hclean⟩ := exists_clean_append h.begun (l.path r).toList
  refine ⟨behind ++ more, ?_, h.siteText_of_behind hne more⟩
  rw [String.toList_append, hclean]
  exact readScheme_append h.scheme more

/-- **The authority of an address that is over before the place of the subject**: the path goes on
with that of the base address up to where it ends. -/
theorem Based.endpoint_of_isFixed (h : Based r u behind rest) {l : Lookup}
    (hfixed : isFixed r l = true) :
    ∃ rest', readScheme (clean (base r ++ l.path r).toList) = some (u.scheme, rest') ∧
      siteText rest' = siteText (behind ++ trail (base r).toList ++ siteLead r l) := by
  obtain ⟨hall, c, more, hends, hsolid⟩ := exists_solid_path hfixed
  obtain ⟨d, hd, hslash⟩ := h.exists_not_slash
  have hbegun : ∃ d ∈ behind ++ trail (base r).toList ++ siteLead r l, isSlash d = false :=
    ⟨d, List.mem_append_left _ hd, hslash⟩
  have hhead : ∀ d ∈ (c :: more).head?, endsSite d = true := by
    intro d hd
    cases hd
    exact hends
  refine ⟨behind ++ trail (base r).toList ++ siteLead r l ++ c :: more, ?_,
    siteText_append hbegun hhead⟩
  rw [String.toList_append, clean_append h.begun, if_neg hall, clean_append_trail, hsolid]
  simpa only [List.append_assoc] using
    readScheme_append h.scheme (trail (base r).toList ++ (siteLead r l ++ c :: more))

/-- **An anchored path leaves the authority of the base address as it is.** -/
theorem Based.endpoint_of_isAnchored (h : Based r u behind rest) {l : Lookup}
    (hanchored : isAnchored r (l.template r) = true) :
    ∃ rest', readScheme (clean (base r ++ l.path r).toList) = some (u.scheme, rest') ∧
      siteText rest' = siteText rest := by
  rcases Bool.or_eq_true_iff.1 hanchored with hclosed | hopen
  · exact h.endpoint_of_behind (by simpa [behindBase, h.scheme] using hclosed) l
  · rw [Bool.and_eq_true, Option.any_eq_true] at hopen
    obtain ⟨hlast, c, hc, hends⟩ := hopen
    obtain ⟨hfixed, hlead⟩ := isFixed_of_head hends hc
    obtain ⟨rest', hrest', hsame⟩ := h.endpoint_of_isFixed hfixed
    rw [hlead, List.append_nil, h.siteText_base hlast] at hsame
    exact ⟨rest', hrest', hsame⟩

end Based

theorem leadOf_congr {l l' : Lookup} (h : l'.place = l.place) : leadOf r l' = leadOf r l := by
  have hdiffer : Config.idPlaceholder ≠ Config.queryPlaceholder := by decide
  cases l with
  | company id =>
    cases l' with
    | company id' => rfl
    | search text => exact absurd h.symm hdiffer
  | search text =>
    cases l' with
    | company id => exact absurd h hdiffer
    | search text' => rfl

/-- The authority of an address says where the lookup leads, or that there is no such address. -/
theorem endpoint_cases {scheme : String} (hkind : Kind.ofScheme scheme = .special)
    {rest : List Char} (h : readScheme (clean (base r ++ l.path r).toList) = some (scheme, rest)) :
    (∀ site, readSite scheme (siteText rest) = .ok site →
      ∃ url, l.endpoint r = .ok url ∧ url.SameSite site) ∧
    ∀ url, l.endpoint r = .ok url →
      ∃ site, readSite scheme (siteText rest) = .ok site ∧ url.SameSite site := by
  have hparse := parse_special h hkind
  unfold endpoint
  cases hread : readSite scheme (siteText rest) with
  | error fault =>
    rw [hread] at hparse
    rw [hparse]
    exact ⟨fun site hsite => (by cases hsite), fun url hurl => by cases hurl⟩
  | ok site =>
    rw [hread] at hparse
    rw [hparse]
    refine ⟨fun site' hsite => ?_, fun url hurl => ?_⟩
    · cases hsite
      exact ⟨_, rfl, sameSite_withBehind _ _⟩
    · cases hurl
      exact ⟨site, rfl, sameSite_withBehind _ _⟩

/-- **A lookup goes to the scheme, host and port of its registry**, whatever its subject is, if the
base address is one of the web and the path leaves its authority as it is. If the path goes on with
the authority, but ends it before the place of the subject, then the subject still does not matter
to where the lookup goes. -/
theorem endpoint_sameSite (settings : Config.Settings) (r : Config.Registry)
    (hvalid : Config.isValid settings = true) (hr : r ∈ settings.registries) :
    ∃ u, Url.parse r.baseUrl = .ok u ∧ (u.scheme = "http" ∨ u.scheme = "https" → ∀ l : Lookup,
      (isAnchored r (l.template r) = true → ∃ url, l.endpoint r = .ok url ∧
        (l.subject ≠ "" → l.resolve r = .ok url) ∧ url.SameSite u) ∧
      (isFixed r l = true → ∀ l' : Lookup, l'.place = l.place → ∀ url, l.endpoint r = .ok url →
        ∃ url', l'.endpoint r = .ok url' ∧ url'.SameSite url)) := by
  obtain ⟨u, hu⟩ : ∃ u, Url.parse r.baseUrl = .ok u := Config.url_of_isValid hvalid hr
  refine ⟨u, hu, fun hweb l => ?_⟩
  have hkind : Kind.ofScheme u.scheme = .special := by
    rcases hweb with h | h <;> rw [h] <;> decide
  obtain ⟨behind, rest, hbased⟩ := exists_based hu hkind
  refine ⟨fun hanchored => ?_, fun hfixed l' hplace url hurl => ?_⟩
  · obtain ⟨rest', hrest', hsame⟩ := hbased.endpoint_of_isAnchored hanchored
    obtain ⟨site, hread, hsite⟩ := hbased.site
    rw [← hsame] at hread
    obtain ⟨url, hurl, hurlSite⟩ := (endpoint_cases hkind hrest').1 site hread
    refine ⟨url, hurl, fun hsubject => ?_, hurlSite.trans hsite⟩
    unfold resolve
    rw [if_neg hsubject, hurl]
  · have hlead : leadOf r l' = leadOf r l := leadOf_congr hplace
    have hfixed' : isFixed r l' = true := by
      unfold isFixed
      rw [hlead]
      exact hfixed
    obtain ⟨rest₁, hrest₁, hsame₁⟩ := hbased.endpoint_of_isFixed hfixed
    obtain ⟨rest₂, hrest₂, hsame₂⟩ := hbased.endpoint_of_isFixed hfixed'
    have hsame : siteText rest₂ = siteText rest₁ := by
      rw [hsame₁, hsame₂, siteLead, siteLead, hlead]
    obtain ⟨site, hread, hsite⟩ := (endpoint_cases hkind hrest₁).2 url hurl
    rw [← hsame] at hread
    obtain ⟨url', hurl', hsite'⟩ := (endpoint_cases hkind hrest₂).1 site hread
    exact ⟨url', hurl', hsite'.trans hsite.symm⟩

/-- A registry of the web with a slash too many and a search that has no path. -/
def webRegistry : Config.Registry where
  name := "web"
  baseUrl := "https://127.0.0.1:1/"
  searchPath := "?q=\x7bquery\x7d"

/-- A registry whose paths go on with the authority of its base address. -/
def looseRegistry : Config.Registry where
  name := "r"
  baseUrl := "http://127.0.0.1:1"
  companyPath := "\x7bid\x7d"
  searchPath := "@b/\x7bquery\x7d"

def bothRegistries : Config.Settings where
  registries := [webRegistry, looseRegistry]

/-- An identifier that looks like another host leads to the registry, and every search of the other
registry leads to one host. -/
theorem lookalike_sameSite :
    Config.isValid bothRegistries = true ∧
    (∃ u, Url.parse webRegistry.baseUrl = .ok u ∧ (u.scheme = "http" ∨ u.scheme = "https") ∧
      isAnchored webRegistry ((company "..\\@b:2/").template webRegistry) = true ∧
      (company "..\\@b:2/").subject ≠ "" ∧
      ∃ url, (company "..\\@b:2/").endpoint webRegistry = .ok url ∧
        (company "..\\@b:2/").resolve webRegistry = .ok url ∧ url.SameSite u) ∧
    isFixed looseRegistry (search "q") = true ∧
    ∃ url url', (search "q").endpoint looseRegistry = .ok url ∧
      (search "@c").endpoint looseRegistry = .ok url' ∧ url'.SameSite url := by
  have hvalid : Config.isValid bothRegistries = true := by decide +kernel
  obtain ⟨u, hu, hsame⟩ :=
    endpoint_sameSite bothRegistries webRegistry hvalid (by decide +kernel)
  obtain ⟨v, hv, hloose⟩ :=
    endpoint_sameSite bothRegistries looseRegistry hvalid (by decide +kernel)
  have hscheme : u.scheme = "https" := by
    have hread : (Url.parse webRegistry.baseUrl).toOption.map Url.scheme = some "https" := by
      decide +kernel
    rw [hu] at hread
    exact Option.some.inj hread
  have hscheme' : v.scheme = "http" := by
    have hread : (Url.parse looseRegistry.baseUrl).toOption.map Url.scheme = some "http" := by
      decide +kernel
    rw [hv] at hread
    exact Option.some.inj hread
  have hanchored : isAnchored webRegistry ((company "..\\@b:2/").template webRegistry) = true := by
    decide +kernel
  have hsubject : (company "..\\@b:2/").subject ≠ "" := by decide +kernel
  have hfixed : isFixed looseRegistry (search "q") = true := by decide +kernel
  have hurl : (search "q").endpoint looseRegistry = .ok {
      scheme := "http", username := "127.0.0.1", password := "1", host := some (.domain "b"),
      path := .segments ["q"] } := by
    decide +kernel
  obtain ⟨url, hendpoint, hresolve, hsite⟩ := (hsame (Or.inr hscheme) _).1 hanchored
  obtain ⟨url', hurl', hsite'⟩ :=
    (hloose (Or.inl hscheme') _).2 hfixed (search "@c") rfl _ hurl
  exact ⟨hvalid, ⟨u, hu, Or.inr hscheme, hanchored, hsubject, url, hendpoint, hresolve hsubject,
    hsite⟩, hfixed, _, url', hurl, hurl', hsite'⟩

def loose : Config.Settings where
  registries := [looseRegistry]

/-- **A sound configuration may let a subject say where its request goes**: one identifier fails,
another is the end of the port; and a path may lead its searches to another host. -/
theorem loose_strays :
    Config.isValid loose = true ∧ looseRegistry ∈ loose.registries ∧
    (Url.parse looseRegistry.baseUrl).toOption.map (fun u => (u.scheme, u.host, u.port)) =
      some ("http", some (.ipv4 2130706433), some 1) ∧
    (company "x").resolve looseRegistry =
      .error (.configuration "registry 'r': invalid endpoint x: invalid port number") ∧
    ((company "2").resolve looseRegistry).toOption.map Url.port = some (some 12) ∧
    ((search "q").resolve looseRegistry).toOption.map Url.host = some (some (.domain "b")) := by
  decide +kernel

end Lookup

end RegistryLookup
