import RegistryLookup.Proofs.Client.Address
import RegistryLookup.Proofs.Text.Template

/-!
# The entity that is asked for

An identifier is put into a path as its last segment. It is written as the value of a query is, and
so it stands for itself with few exceptions: a path does not take a plus sign for a space, and one
dot or two are no segment at all.

* `isSingleDot_encode_iff`, `isDoubleDot_encode_iff`: only dots are written as dots.
* `EntityForm`: a template of words that ends with the identifier.
* `EntityForm.readPath_eq`: the segments of such a path.
* `company_segments`: the segments of the address of every identifier.
* `spaced_dotted_stray`: identifiers that lead to another entity, and to what is above all entities.
-/

namespace RegistryLookup

open Url

namespace Lookup

/-- A character whose small letter is no letter is this character. -/
theorem eq_of_toLower {c d : Char} (h : c.toLower = d) (hd : d.toNat < 97) : c = d := by
  unfold Char.toLower at h
  split at h
  · rename_i hupper
    have hA : 'A'.val.toNat = 65 := rfl
    have hZ : 'Z'.val.toNat = 90 := rfl
    have hshift : ('a'.val - 'A'.val).toNat = 32 := rfl
    have hval := congrArg Char.toNat h
    simp only [Char.toNat, UInt32.toNat_add, hshift, ge_iff_le, UInt32.le_iff_toNat_le]
      at hval hupper hd
    omega
  · exact h

/-- Bytes that are written so that a dot comes first begin with the byte of the dot. -/
theorem exists_of_lower_dot {bs : List UInt8} {rest : List Char}
    (h : (bs.flatMap Text.Form.encodeByte).map Char.toLower = '.' :: rest) :
    ∃ bs', bs = 46 :: bs' ∧ (bs'.flatMap Text.Form.encodeByte).map Char.toLower = rest := by
  cases bs with
  | nil => cases h
  | cons b bs =>
    rw [List.flatMap_cons, List.map_append] at h
    generalize hw : Text.Form.encodeByte b = w at h
    have hwritten : Text.Form.Written b w := hw ▸ Text.Form.written_encodeByte b
    cases hwritten with
    | plain hc hascii _ _ _ =>
      obtain ⟨hdot, hrest⟩ := List.cons.inj h
      have hb : b.toNat = 46 := by
        rw [← hc, eq_of_toLower hdot (by decide)]
        rfl
      refine ⟨bs, ?_, hrest⟩
      rw [← UInt8.ofNat_toNat (x := b), hb]
      rfl
    | space _ => exact absurd (List.cons.inj h).1 (by decide)
    | escaped _ _ => exact absurd (List.cons.inj h).1 (by decide)

/-- No byte is written as an escaped dot, for a dot stands for itself. -/
theorem lower_ne_escapedDot (bs : List UInt8) (rest : List Char) :
    (bs.flatMap Text.Form.encodeByte).map Char.toLower ≠ '%' :: '2' :: 'e' :: rest := by
  have hdigits : ∀ b : UInt8, Text.Form.isPlain b = false →
      (Text.Percent.encodeByte b).map Char.toLower ≠ ['%', '2', 'e'] :=
    Text.Form.forall_byte (by decide +kernel)
  intro h
  cases bs with
  | nil => cases h
  | cons b bs =>
    rw [List.flatMap_cons, List.map_append] at h
    generalize hw : Text.Form.encodeByte b = w at h
    have hwritten : Text.Form.Written b w := hw ▸ Text.Form.written_encodeByte b
    cases hwritten with
    | plain _ _ _ _ hpercent =>
      exact hpercent (eq_of_toLower (List.cons.inj h).1 (by decide))
    | space _ => exact absurd (List.cons.inj h).1 (by decide)
    | escaped hplain _ =>
      refine hdigits b hplain ?_
      have htake := congrArg (List.take 3) h
      simpa [Text.Percent.encodeByte] using htake

theorem eq_of_map_toLower {cs ds : List Char} (hds : ∀ d ∈ ds, d.toNat < 97)
    (h : cs.map Char.toLower = ds) : cs = ds := by
  induction cs generalizing ds with
  | nil => exact h
  | cons c cs ih =>
    subst h
    rw [List.map_cons] at hds ⊢
    rw [← eq_of_toLower rfl (hds _ List.mem_cons_self),
      ← ih (fun d hd => hds d (List.mem_cons_of_mem _ hd)) rfl]

/-- A text that is written as some dots is as many dots. -/
theorem eq_of_lower_dots {s : String} {dots : List Char} (hdots : ∀ d ∈ dots, d = '.')
    (h : (Text.Form.encode s.toList).map Char.toLower = dots) : s = String.ofList dots := by
  have hsame : Text.Form.encode s.toList = dots :=
    eq_of_map_toLower (fun d hd => by rw [hdots d hd]; decide) h
  have hplain : ∀ d ∈ dots, d ≠ '+' ∧ d ≠ '%' := fun d hd => by rw [hdots d hd]; decide
  rw [← Text.Form.decode_of_plain hplain, ← hsame, Text.Form.decode_encode, String.ofList_toList]

/-- **Only one dot is written as one dot.** -/
theorem isSingleDot_encode_iff (s : String) :
    isSingleDot (Text.Form.encode s.toList) = true ↔ s = "." := by
  constructor
  · intro h
    simp only [isSingleDot, Bool.or_eq_true, decide_eq_true_eq] at h
    rcases h with h | h
    · exact eq_of_lower_dots (by simp) (String.ofList_injective h)
    · exact absurd (String.ofList_injective h) (lower_ne_escapedDot _ [])
  · rintro rfl
    decide

/-- **Only two dots are written as two dots.** -/
theorem isDoubleDot_encode_iff (s : String) :
    isDoubleDot (Text.Form.encode s.toList) = true ↔ s = ".." := by
  constructor
  · intro h
    simp only [isDoubleDot, Bool.or_eq_true, decide_eq_true_eq] at h
    rcases h with ((h | h) | h) | h
    · exact eq_of_lower_dots (by simp) (String.ofList_injective h)
    · obtain ⟨bs, -, hrest⟩ := exists_of_lower_dot (String.ofList_injective h)
      exact absurd hrest (lower_ne_escapedDot bs [])
    · exact absurd (String.ofList_injective h) (lower_ne_escapedDot _ ['.'])
    · exact absurd (String.ofList_injective h) (lower_ne_escapedDot _ ['%', '2', 'e'])
  · rintro rfl
    decide

/-- Words are no dots. -/
theorem not_dots_of_word {cs : List Char} (h : ∀ c ∈ cs, isWordChar c = true) :
    isSingleDot cs = false ∧ isDoubleDot cs = false := by
  cases cs with
  | nil => decide
  | cons c cs =>
    have hc : isWordChar c = true := h c List.mem_cons_self
    have hne : ∀ d rest, isWordChar d = false → d.toNat < 97 →
        (c :: cs).map Char.toLower ≠ d :: rest := by
      intro d rest hd hsmall heq
      exact ne_of_isWordChar hc hd (eq_of_toLower (List.cons.inj heq).1 hsmall)
    have hdot : ∀ rest, (c :: cs).map Char.toLower ≠ '.' :: rest :=
      fun rest => hne '.' rest (by decide) (by decide)
    have hpercent : ∀ rest, (c :: cs).map Char.toLower ≠ '%' :: rest :=
      fun rest => hne '%' rest (by decide) (by decide)
    simp only [isSingleDot, isDoubleDot, Bool.or_eq_false_iff, decide_eq_false_iff_not]
    exact ⟨⟨fun h => hdot _ (String.ofList_injective h),
      fun h => hpercent _ (String.ofList_injective h)⟩,
      ⟨⟨fun h => hdot _ (String.ofList_injective h),
        fun h => hdot _ (String.ofList_injective h)⟩,
        fun h => hpercent _ (String.ofList_injective h)⟩,
      fun h => hpercent _ (String.ofList_injective h)⟩

/-- The segment that a word makes. -/
def segmentOf (w : String) : String := String.ofList (Text.Percent.encode pathSet w.toList)

/-- Words with a slash behind each of them. -/
def slashed (names : List String) : List Char := names.flatMap (fun w => w.toList ++ ['/'])

theorem not_divides_of_word {c : Char} (h : isWordChar c = true) : divides .special c = false := by
  cases hd : divides .special c with
  | false => rfl
  | true =>
    simp only [divides, Kind.hasBackslash, Bool.and_true, Bool.or_eq_true, decide_eq_true_eq] at hd
    rcases hd with rfl | rfl <;> exact absurd h (by decide)

section Words

variable {names : List String} (hwords : ∀ w ∈ names, ∀ c ∈ w.toList, isWordChar c = true)

include hwords

theorem splitOnP_slashed (last : List Char) (hlast : ∀ c ∈ last, divides .special c = false) :
    (slashed names ++ last).splitOnP (divides .special) = names.map String.toList ++ [last] := by
  induction names with
  | nil => exact List.splitOnP_eq_singleton hlast
  | cons w names ih =>
    have hw : ∀ c ∈ w.toList, divides .special c = false := fun c hc =>
      not_divides_of_word (hwords w List.mem_cons_self c hc)
    have hsplit : slashed (w :: names) ++ last = w.toList ++ '/' :: (slashed names ++ last) := by
      simp [slashed]
    rw [hsplit, List.splitOnP_append_cons_of_forall_mem hw '/' (divides_slash .special),
      ih fun v hv => hwords v (List.mem_cons_of_mem w hv)]
    rfl

theorem foldl_pass_words (done : List String) :
    (names.map String.toList).foldl pass done = (names.map segmentOf).reverse ++ done := by
  induction names generalizing done with
  | nil => rfl
  | cons w names ih =>
    obtain ⟨hsingle, hdouble⟩ := not_dots_of_word (hwords w List.mem_cons_self)
    rw [List.map_cons, List.foldl_cons, ih fun v hv => hwords v (List.mem_cons_of_mem w hv),
      Url.pass, hsingle, hdouble, List.map_cons, List.reverse_cons, List.append_assoc]
    rfl

end Words

variable {r : Config.Registry} {names : List String}

/-- An entity has a path of words that ends with its identifier. -/
structure EntityForm (r : Config.Registry) (names : List String) : Prop where
  template : r.companyPath =
    "/" ++ String.join (names.map (· ++ "/")) ++ Config.idPlaceholder
  words : ∀ w ∈ names, ∀ c ∈ w.toList, isWordChar c = true

/-- What an identifier makes of the segments in front of it. -/
def segmentsOf (front : List String) (subject : String) : List String :=
  if subject = ".." then front.dropLast ++ [""]
  else if subject = "." then front ++ [""]
  else front ++ [String.ofList (Text.Form.encode subject.toList)]

/-- The segment of an identifier is written as it stands in the path. -/
theorem encode_pathSet_encode (cs : List Char) :
    Text.Percent.encode pathSet (Text.Form.encode cs) = Text.Form.encode cs := by
  have hall : ∀ n < 127, Text.Form.isFormChar (Char.ofNat n) = true →
      pathSet (Char.ofNat n) = false := by decide +kernel
  refine Text.Percent.encode_eq_self fun c hc => ?_
  have hform := Text.Form.isFormChar_of_mem_encode hc
  obtain ⟨-, hhigh⟩ := Text.Form.bounds_of_isFormChar hform
  have hset := hall c.toNat hhigh (by rwa [Char.ofNat_toNat])
  rw [Char.ofNat_toNat] at hset
  exact ⟨by omega, hset⟩

section EntityForm

variable (h : EntityForm r names)

include h

/-- The path of an entity: the identifier stands at its end. -/
theorem EntityForm.toList_path (id : String) : ((company id).path r).toList =
    ('/' :: slashed names) ++ Text.Form.encode (company id).subject.toList := by
  have hplace : Config.idPlaceholder.toList = ['\x7b', 'i', 'd', '\x7d'] := by decide
  have hchars : ((company id).template r).toList =
      ('/' :: slashed names) ++ (Config.idPlaceholder.toList ++ []) := by
    rw [show (company id).template r = r.companyPath from rfl, h.template]
    simp [String.toList_append, slashed, List.flatMap_map]
  have hbrace : ('\x7b' : Char) ∉ '/' :: slashed names := by
    intro hmem
    rcases List.mem_cons.1 hmem with hmem | hmem
    · exact absurd hmem (by decide)
    · obtain ⟨w, hw, hc⟩ := List.mem_flatMap.1 hmem
      rcases List.mem_append.1 hc with hc | hc
      · exact absurd (h.words w hw _ hc) (by decide)
      · exact absurd (List.mem_singleton.1 hc) (by decide)
  rw [Lookup.path, Text.fill, String.toList_ofList, String.toList_ofList, hchars, place, hplace,
    Text.fillFrom_append_of_not_mem hbrace, Text.fillFrom_place_append (by simp)]
  simp [Text.fillFrom]

theorem EntityForm.mem_path {id : String} {c : Char} (hc : c ∈ ((company id).path r).toList) :
    c = '/' ∨ isWordChar c = true ∨ Text.Form.isFormChar c = true := by
  rw [h.toList_path] at hc
  rcases List.mem_append.1 hc with hc | hc
  · rcases List.mem_cons.1 hc with hc | hc
    · exact Or.inl hc
    · obtain ⟨w, hw, hc⟩ := List.mem_flatMap.1 hc
      rcases List.mem_append.1 hc with hc | hc
      · exact Or.inr (Or.inl (h.words w hw c hc))
      · exact Or.inl (List.mem_singleton.1 hc)
  · exact Or.inr (Or.inr (Text.Form.isFormChar_of_mem_encode hc))

/-- Nothing of the path of an entity is passed over, and it is a path throughout. -/
theorem EntityForm.plain_path {id : String} {c : Char} (hc : c ∈ ((company id).path r).toList) :
    isOuter c = false ∧ endsPath c = false := by
  rcases h.mem_path hc with rfl | hword | hform
  · decide
  · refine ⟨not_isOuter_of_isWordChar hword, ?_⟩
    simp only [endsPath, Bool.or_eq_false_iff, decide_eq_false_iff_not]
    exact ⟨ne_of_isWordChar hword (by decide), ne_of_isWordChar hword (by decide)⟩
  · refine ⟨not_isOuter_of_isFormChar hform, ?_⟩
    simp only [endsPath, Bool.or_eq_false_iff, decide_eq_false_iff_not]
    exact ⟨Text.Form.ne_of_isFormChar hform (by decide),
      Text.Form.ne_of_isFormChar hform (by decide)⟩

theorem EntityForm.head_template : (solid r.companyPath.toList).head?.any endsSite = true := by
  have htemplate : r.companyPath.toList =
      '/' :: (slashed names ++ Config.idPlaceholder.toList) := by
    rw [h.template]
    simp [String.toList_append, slashed, List.flatMap_map]
  rw [htemplate]
  rfl

/-- What is read of the path of an entity: all of it. -/
theorem EntityForm.solid_path (id : String) :
    solid (((company id).path r).toList.rdropWhile isOuter) =
      '/' :: (slashed names ++ Text.Form.encode (company id).subject.toList) := by
  have hkeep := solid_rdropWhile_of_plain (fun c hc => (h.plain_path hc).1)
    (by rw [h.toList_path id]; simp) [] []
  rw [List.append_nil, List.nil_append] at hkeep
  rw [hkeep, h.toList_path]
  simp [solid]

/-- **The segments of the path of an entity** behind another path. -/
theorem EntityForm.readPath_eq {path : List Char} (hpath : ∀ c ∈ path.head?, isSlash c = true)
    (id : String) :
    readPath .special
        (path ++ '/' :: (slashed names ++ Text.Form.encode (company id).subject.toList)) =
      .segments (segmentsOf (stem path ++ names.map segmentOf) (company id).subject) := by
  have hlast : ∀ c ∈ Text.Form.encode (company id).subject.toList, divides .special c = false := by
    intro c hc
    have hform := Text.Form.isFormChar_of_mem_encode hc
    simp only [divides, Kind.hasBackslash, Bool.and_true, Bool.or_eq_false_iff,
      decide_eq_false_iff_not]
    exact ⟨Text.Form.ne_of_isFormChar hform (by decide),
      Text.Form.ne_of_isFormChar hform (by decide)⟩
  have hfront : (stem path ++ names.map segmentOf) =
      ((names.map segmentOf).reverse ++ passed path).reverse := by
    rw [List.reverse_append, List.reverse_reverse]
    rfl
  rw [readPath_append_cons hpath, splitOnP_slashed h.words _ hlast, collect_append,
    foldl_pass_words h.words, collect_singleton, encode_pathSet_encode, segmentsOf, hfront,
    List.dropLast_reverse, List.drop_one]
  simp only [isDoubleDot_encode_iff, isSingleDot_encode_iff]

end EntityForm

/-- **The segments of the address of an entity** are those of the base address, those of the
template, and one that stands for the identifier: a reader of queries reads it as the identifier,
and a reader of paths reads it so but for spaces, which it takes for plus signs. One dot asks for
what holds the entities, and two dots ask for what is above that. -/
theorem company_segments {r : Config.Registry} {u : Url} {names : List String}
    (hurl : Url.parse r.baseUrl = .ok u) (hweb : u.scheme = "http" ∨ u.scheme = "https")
    (hquery : u.query = none) (hfragment : u.fragment = none)
    (hlast : (solid r.baseUrl.toList).getLast?.all (fun c => !isOuter c) = true)
    (hform : EntityForm r names) :
    ∃ front n, u.path = .segments (front ++ List.replicate n "") ∧
      ∀ id, (company id).subject ≠ "" → ∃ url segments, (company id).resolve r = .ok url ∧
        url.SameSite u ∧ url.query = none ∧ url.fragment = none ∧ url.path = .segments segments ∧
        ((company id).subject ≠ "." → (company id).subject ≠ ".." →
          ∃ last, segments = front ++ names.map segmentOf ++ [last] ∧
            Text.Form.decode last.toList = (company id).subject ∧
            Text.Utf8.decode? (Text.Percent.decodeBytes last.toList) =
              some (String.ofList (Text.Form.spacesAsPlus (company id).subject.toList))) ∧
        ((company id).subject = "." → segments = front ++ names.map segmentOf ++ [""]) ∧
        ((company id).subject = ".." →
          segments = (front ++ names.map segmentOf).dropLast ++ [""]) := by
  have hkind : Kind.ofScheme u.scheme = .special := by
    rcases hweb with h | h <;> rw [h] <;> decide
  obtain ⟨behind, rest, hbased⟩ := exists_based hurl hkind
  have hfirm : isFirm r = true := by
    unfold isFirm
    rw [hlast, Bool.or_true]
  have hanchored := isAnchored_of_isFirm hfirm hform.head_template
  have hhead := hbased.isSlash_head_tail hanchored hquery hfragment
  obtain ⟨n, hn⟩ := hbased.exists_path_eq hanchored hquery hfragment hlast
  refine ⟨stem (tail r), n, hn, fun id hsubject => ?_⟩
  have hpath : ¬ ((company id).path r).toList.all isOuter = true := by
    intro hall
    have hslash := List.all_eq_true.1 hall '/' (by rw [hform.toList_path]; simp)
    exact absurd hslash (by decide)
  obtain ⟨site, hsite, hendpoint⟩ := hbased.endpoint_eq (l := company id) hanchored hpath
  have hplain : ∀ c ∈ tail r ++ solid (((company id).path r).toList.rdropWhile isOuter),
      endsPath c = false := by
    intro c hc
    rcases List.mem_append.1 hc with hc | hc
    · exact hbased.not_endsPath_tail hanchored hquery hfragment c hc
    · exact (hform.plain_path ((List.rdropWhile_prefix _ _).subset (List.mem_of_mem_filter hc))).2
  obtain ⟨hread, hq, hf⟩ := path_withBehind hplain site
  rw [hform.solid_path, hform.readPath_eq hhead] at hread
  refine ⟨_, _, by rw [resolve, if_neg hsubject, hendpoint], (sameSite_withBehind _ _).trans hsite,
    hq, hf, by rw [hform.solid_path]; exact hread, fun hdot hdots => ?_, fun hdot => ?_,
    fun hdots => ?_⟩
  · refine ⟨_, by rw [segmentsOf, if_neg hdots, if_neg hdot], ?_, ?_⟩
    · rw [String.toList_ofList, Text.Form.decode_encode, String.ofList_toList]
    · rw [String.toList_ofList, Text.Form.decodeBytes_encode, Text.Utf8.decode?_encode]
  · rw [segmentsOf, if_neg (by rw [hdot]; decide), if_pos hdot]
  · rw [segmentsOf, if_pos hdots]

/-- A registry whose entities stand below two words. -/
def nestedRegistry : Config.Registry where
  name := "nested"
  baseUrl := "https://127.0.0.1:1/api/"
  companyPath := "/v1/enheter/\x7bid\x7d"

theorem nested_form : EntityForm nestedRegistry ["v1", "enheter"] :=
  ⟨by decide +kernel, by simp [isWordChar]⟩

/-- An identifier that looks like other segments, a query and an escape is one segment. -/
theorem lookalike_segments :
    ∃ u, Url.parse nestedRegistry.baseUrl = .ok u ∧ (u.scheme = "http" ∨ u.scheme = "https") ∧
      u.query = none ∧ u.fragment = none ∧
      (solid nestedRegistry.baseUrl.toList).getLast?.all (fun c => !isOuter c) = true ∧
      EntityForm nestedRegistry ["v1", "enheter"] ∧
      (company " a/../b?c#%2e\x7bid\x7dø ").subject ≠ "" ∧
      ∃ front n url segments, u.path = .segments (front ++ List.replicate n "") ∧
        (company " a/../b?c#%2e\x7bid\x7dø ").resolve nestedRegistry = .ok url ∧
        url.SameSite u ∧ url.query = none ∧ url.fragment = none ∧ url.path = .segments segments ∧
        ∃ last, segments = front ++ ["v1", "enheter"] ++ [last] ∧
          Text.Utf8.decode? (Text.Percent.decodeBytes last.toList) =
            some "a/../b?c#%2e\x7bid\x7dø" := by
  have hurl : Url.parse nestedRegistry.baseUrl = .ok {
      scheme := "https", host := some (.ipv4 2130706433), port := some 1,
      path := .segments ["api", ""] } := by
    decide +kernel
  have hlast : (solid nestedRegistry.baseUrl.toList).getLast?.all (fun c => !isOuter c) = true := by
    decide +kernel
  have hsubject : (company " a/../b?c#%2e\x7bid\x7dø ").subject =
      "a/../b?c#%2e\x7bid\x7dø" := by decide +kernel
  have hne : (company " a/../b?c#%2e\x7bid\x7dø ").subject ≠ "" := by
    rw [hsubject]
    decide
  have hwords : ["v1", "enheter"].map segmentOf = ["v1", "enheter"] := by decide +kernel
  have hplain : Text.Form.spacesAsPlus "a/../b?c#%2e\x7bid\x7dø".toList =
      "a/../b?c#%2e\x7bid\x7dø".toList := by decide +kernel
  obtain ⟨front, n, hpath, hall⟩ :=
    company_segments hurl (Or.inr rfl) rfl rfl hlast nested_form
  obtain ⟨url, segments, hresolve, hsame, hquery, hfragment, hsegments, hother, -⟩ :=
    hall " a/../b?c#%2e\x7bid\x7dø " hne
  obtain ⟨last, hlastSegment, -, hread⟩ :=
    hother (by rw [hsubject]; decide) (by rw [hsubject]; decide)
  rw [hsubject, hplain, String.ofList_toList] at hread
  rw [hwords] at hlastSegment
  exact ⟨_, hurl, Or.inr rfl, rfl, rfl, hlast, nested_form, hne, front, n, url, segments, hpath,
    hresolve, hsame, hquery, hfragment, hsegments, last, hlastSegment, hread⟩

/-- A registry with the paths that nothing else is said of. -/
def plainRegistry : Config.Registry where
  name := "r"
  baseUrl := "http://127.0.0.1:1/api"

/-- **An identifier with a space is read as another one**, which has a plus sign and leads to the
same address but for its writing, **and two dots lead away from all entities.** -/
theorem spaced_dotted_stray :
    EntityForm plainRegistry ["companies"] ∧
    (Url.parse plainRegistry.baseUrl).toOption.map
        (fun u => (u.scheme, u.path, u.query, u.fragment)) =
      some ("http", .segments ["api"], none, none) ∧
    ((company "a b").resolve plainRegistry).toOption.map Url.path =
      some (.segments ["api", "companies", "a+b"]) ∧
    Text.Utf8.decode? (Text.Percent.decodeBytes "a+b".toList) = some "a+b" ∧
    ((company "a+b").resolve plainRegistry).toOption.map Url.path =
      some (.segments ["api", "companies", "a%2Bb"]) ∧
    Text.Utf8.decode? (Text.Percent.decodeBytes "a%2Bb".toList) = some "a+b" ∧
    ((company "..").resolve plainRegistry).toOption.map Url.path =
      some (.segments ["api", ""]) := by
  have hform : EntityForm plainRegistry ["companies"] := ⟨by decide +kernel, by simp [isWordChar]⟩
  exact ⟨hform, by decide +kernel, by decide +kernel, by decide +kernel, by decide +kernel,
    by decide +kernel, by decide +kernel⟩

end Lookup

end RegistryLookup
