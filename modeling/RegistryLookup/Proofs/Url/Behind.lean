import RegistryLookup.Proofs.Text.Form
import RegistryLookup.Proofs.Url.Glue

/-!
# What is asked for at a place

Behind the authority of a URL stand its path, its query and its fragment. A text that is put behind
adds segments to the path, or a query.

* `behindSite_append`: what is put behind an authority comes last.
* `not_endsPath_of_none`: a URL without query and fragment has a path only.
* `query_withBehind`, `path_withBehind`: what is asked for by a path with a query, and by a path.
* `pairs_querySet`: the encoding of a query changes none of its pairs.
* `collect_append`, `stem`: the parts of a path are taken in one after another.
* `readPath_append_cons`, `exists_readPath_append_replicate`: the segments of a path with another
  one behind it, and with slashes behind it.
-/

namespace RegistryLookup.Url

/-- **What is put behind an authority that it leaves alone comes last.** -/
theorem behindSite_append {xs ys : List Char} (hxs : ∃ c ∈ xs, isSlash c = false)
    (h : siteText (xs ++ ys) = siteText xs) : behindSite (xs ++ ys) = behindSite xs ++ ys := by
  have hne : xs.dropWhile isSlash ≠ [] := by
    rw [Ne, List.dropWhile_eq_nil_iff]
    obtain ⟨c, hc, hslash⟩ := hxs
    intro hall
    rw [hall c hc] at hslash
    cases hslash
  have hdrop : (xs ++ ys).dropWhile isSlash = xs.dropWhile isSlash ++ ys := by
    rw [List.dropWhile_append, if_neg (by simpa using hne)]
  unfold siteText at h
  unfold behindSite
  rw [hdrop] at h ⊢
  -- both texts go on behind the same authority
  have hwhole := List.takeWhile_append_dropWhile (p := fun c => !endsSite c)
    (l := xs.dropWhile isSlash ++ ys)
  have hfirst := List.takeWhile_append_dropWhile (p := fun c => !endsSite c)
    (l := xs.dropWhile isSlash)
  rw [h] at hwhole
  have hboth : (xs.dropWhile isSlash).takeWhile (fun c => !endsSite c) ++
        (xs.dropWhile isSlash ++ ys).dropWhile (fun c => !endsSite c) =
      (xs.dropWhile isSlash).takeWhile (fun c => !endsSite c) ++
        ((xs.dropWhile isSlash).dropWhile (fun c => !endsSite c) ++ ys) := by
    rw [hwhole, ← List.append_assoc, hfirst]
  exact List.append_cancel_left hboth

/-- What stands behind an authority begins with what ends it. -/
theorem endsSite_of_head_behindSite {xs : List Char} : ∀ c ∈ (behindSite xs).head?,
    endsSite c = true := by
  intro c hc
  have hne : behindSite xs ≠ [] := by
    intro hnil
    rw [hnil] at hc
    cases hc
  have hnot : (!endsSite ((behindSite xs).head hne)) = false :=
    List.head_dropWhile_not (fun c => !endsSite c) hne
  rw [List.head?_eq_some_head hne] at hc
  cases hc
  simpa using hnot

theorem splitBefore_of_not {stop : Char → Bool} {xs : List Char} (hxs : ∀ c ∈ xs, stop c = false) :
    splitBefore stop xs = (xs, []) := by
  unfold splitBefore
  rw [List.takeWhile_eq_self_iff.2 fun c hc => by simp [hxs c hc],
    List.dropWhile_eq_nil_iff.2 fun c hc => by simp [hxs c hc]]

theorem splitBefore_append_cons {stop : Char → Bool} {xs : List Char} {d : Char}
    (hxs : ∀ c ∈ xs, stop c = false) (hd : stop d = true) (ys : List Char) :
    splitBefore stop (xs ++ d :: ys) = (xs, d :: ys) := by
  unfold splitBefore
  rw [List.takeWhile_append_of_pos fun c hc => by simp [hxs c hc],
    List.dropWhile_append_of_pos fun c hc => by simp [hxs c hc]]
  simp [hd]

/-- **A URL without query and fragment has a path only.** -/
theorem not_endsPath_of_none {behind : List Char} {u : Url}
    (hquery : (withBehind behind u).query = none)
    (hfragment : (withBehind behind u).fragment = none) : ∀ c ∈ behind, endsPath c = false := by
  have hnil : (splitBefore endsPath behind).2 = [] := by
    cases htail : (splitBefore endsPath behind).2 with
    | nil => rfl
    | cons c tail =>
      have hends : endsPath c = true := by
        have hne : behind.dropWhile (fun c => !endsPath c) ≠ [] := by
          rw [show behind.dropWhile (fun c => !endsPath c) = c :: tail from htail]
          exact List.cons_ne_nil _ _
        have hnot := List.head_dropWhile_not (fun c => !endsPath c) hne
        simpa [show behind.dropWhile (fun c => !endsPath c) = c :: tail from htail] using hnot
      simp only [withBehind, htail] at hquery hfragment
      simp only [endsPath, Bool.or_eq_true, decide_eq_true_eq] at hends
      rcases hends with rfl | rfl
      · cases hquery
      · cases hfragment
  have hall := List.dropWhile_eq_nil_iff.1 hnil
  intro c hc
  simpa using hall c hc

/-- **What is asked for by a path with a query.** -/
theorem query_withBehind {xs query : List Char} (hxs : ∀ c ∈ xs, endsPath c = false)
    (hquery : '#' ∉ query) (u : Url) :
    (withBehind (xs ++ '?' :: query) u).query =
        some (String.ofList (Text.Percent.encode (querySet .special) query)) ∧
      (withBehind (xs ++ '?' :: query) u).fragment = none := by
  have hnone : ∀ c ∈ query, decide (c = '#') = false := by
    intro c hc
    rw [decide_eq_false_iff_not]
    rintro rfl
    exact hquery hc
  unfold withBehind
  rw [splitBefore_append_cons hxs (by decide)]
  simp only [readTail, splitBefore_of_not hnone]
  exact ⟨trivial, trivial⟩

/-- **What is asked for by a path.** -/
theorem path_withBehind {xs : List Char} (hxs : ∀ c ∈ xs, endsPath c = false) (u : Url) :
    (withBehind xs u).path = readPath .special xs ∧ (withBehind xs u).query = none ∧
      (withBehind xs u).fragment = none := by
  unfold withBehind
  rw [splitBefore_of_not hxs]
  exact ⟨rfl, rfl, rfl⟩

theorem spares_querySet (kind : Kind) : Text.Percent.Spares (querySet kind) Text.Form.unplus := by
  have hhex : ∀ n < 128, (Text.Percent.hexValue? (Char.ofNat n)).isSome = true →
      querySet kind (Char.ofNat n) = false ∧ Char.ofNat n ≠ '+' := by
    cases kind <;> decide +kernel
  have hdigit : ∀ c, (Text.Percent.hexValue? c).isSome = true →
      querySet kind c = false ∧ c ≠ '+' := by
    intro c hc
    obtain ⟨n, hn⟩ := Option.isSome_iff_exists.1 hc
    have hascii := Text.Percent.toNat_le_of_hexValue? hn
    have h := hhex c.toNat (by omega) (by rwa [Char.ofNat_toNat])
    rwa [Char.ofNat_toNat] at h
  refine ⟨fun c hc => Text.Form.unplus_of_ne ?_, fun c hc => ?_⟩
  · rintro rfl
    cases kind <;> revert hc <;> decide
  · by_cases hplus : c = '+'
    · subst hplus
      exact absurd hc (by decide)
    · rw [Text.Form.unplus_of_ne hplus] at hc ⊢
      refine ⟨rfl, ?_⟩
      rcases hc with rfl | hc
      · cases kind <;> decide
      · exact (hdigit c hc).1

/-- **The encoding of a query changes none of its pairs.** -/
theorem pairs_querySet (kind : Kind) (query : List Char) :
    Text.Form.pairs (Text.Percent.encode (querySet kind) query) = Text.Form.pairs query :=
  Text.Form.pairs_encode (spares_querySet kind) (by cases kind <;> decide)
    (by cases kind <;> decide) query

/-- The segments after a part of a path that is not the last one. -/
def pass (done : List String) (part : List Char) : List String :=
  if isDoubleDot part then done.drop 1
  else if isSingleDot part then done
  else String.ofList (Text.Percent.encode pathSet part) :: done

/-- The parts of a path are taken in one after another. -/
theorem collect_append (done : List String) (parts : List (List Char)) (last : List Char)
    (rest : List (List Char)) :
    collect done (parts ++ last :: rest) = collect (parts.foldl pass done) (last :: rest) := by
  induction parts generalizing done with
  | nil => rfl
  | cons part parts ih =>
    rw [List.cons_append, collect, List.foldl_cons, ← ih, pass]
    split_ifs <;> simp_all

/-- The last part of a path. -/
theorem collect_singleton (done : List String) (part : List Char) : collect done [part] =
    if isDoubleDot part then (done.drop 1).reverse ++ [""]
    else if isSingleDot part then done.reverse ++ [""]
    else done.reverse ++ [String.ofList (Text.Percent.encode pathSet part)] := by
  unfold collect
  split_ifs <;> simp_all [collect]

/-- The last part of a path adds at most an empty segment to what it passes on. -/
theorem exists_collect_concat (done : List String) (parts : List (List Char)) (last : List Char) :
    ∃ n, collect done (parts ++ [last]) =
      ((parts ++ [last]).foldl pass done).reverse ++ List.replicate n "" := by
  rw [collect_append, collect_singleton, List.foldl_append, List.foldl_cons, List.foldl_nil, pass]
  split_ifs
  · exact ⟨1, rfl⟩
  · exact ⟨1, rfl⟩
  · exact ⟨0, by simp⟩

theorem collect_replicate (done : List String) (n : Nat) :
    collect done (List.replicate (n + 1) []) = done.reverse ++ List.replicate (n + 1) "" := by
  have hdots : isDoubleDot [] = false ∧ isSingleDot [] = false := by decide
  have hempty : String.ofList (Text.Percent.encode pathSet []) = "" := rfl
  have hpass : ∀ done, pass done [] = "" :: done := by
    intro done
    rw [pass, hdots.1, hdots.2, hempty]
    rfl
  have hfold : ∀ n, (List.replicate n []).foldl pass done = List.replicate n "" ++ done := by
    intro n
    induction n with
    | zero => rfl
    | succ n ih =>
      rw [List.replicate_succ', List.foldl_append, ih, List.foldl_cons, List.foldl_nil, hpass,
        List.replicate_succ, List.cons_append]
  rw [List.replicate_succ', collect_append, collect_singleton, hdots.1, hdots.2, hempty, hfold]
  simp [List.replicate_succ']

theorem divides_slash (kind : Kind) : divides kind '/' = true := rfl

theorem splitOnP_replicate (kind : Kind) (n : Nat) :
    (List.replicate n '/').splitOnP (divides kind) = List.replicate (n + 1) [] := by
  induction n with
  | zero => rfl
  | succ n ih =>
    have h := List.splitOnP_append_cons [] (List.replicate n '/') (divides_slash kind)
    rw [List.nil_append] at h
    rw [List.replicate_succ, h, ih]
    rfl

/-- The segments of a path that goes on, last one first. -/
def passed (path : List Char) : List String :=
  match path with
  | [] => []
  | _ :: rest => (rest.splitOnP (divides .special)).foldl pass []

/-- The segments of a path that goes on. -/
def stem (path : List Char) : List String := (passed path).reverse

section Path

variable {path : List Char}

theorem readPath_of_isSlash {c : Char} (hc : isSlash c = true) (rest : List Char) :
    readPath .special (c :: rest) = .segments (readSegments .special rest) := by
  simp only [isSlash, Bool.or_eq_true, decide_eq_true_eq] at hc
  rcases hc with rfl | rfl <;> rfl

/-- **The segments of a path with another one behind it.** -/
theorem readPath_append_cons (hpath : ∀ c ∈ path.head?, isSlash c = true) (more : List Char) :
    readPath .special (path ++ '/' :: more) =
      .segments (collect (passed path) (more.splitOnP (divides .special))) := by
  obtain ⟨part, parts, h⟩ :=
    List.exists_cons_of_ne_nil (List.splitOnP_ne_nil (divides .special) more)
  cases path with
  | nil => rfl
  | cons c rest =>
    rw [List.cons_append, readPath_of_isSlash (hpath c rfl), readSegments,
      List.splitOnP_append_cons rest more (divides_slash .special), h, collect_append]
    rfl

/-- **The segments of a path with slashes behind it**, which may add empty segments. -/
theorem exists_readPath_append_replicate (hpath : ∀ c ∈ path.head?, isSlash c = true) (n : Nat) :
    ∃ m, readPath .special (path ++ List.replicate n '/') =
      .segments (stem path ++ List.replicate m "") := by
  cases n with
  | zero =>
    rw [List.replicate_zero, List.append_nil]
    cases path with
    | nil => exact ⟨1, rfl⟩
    | cons c rest =>
      obtain ⟨m, hm⟩ := exists_collect_concat [] (rest.splitOnP (divides .special)).dropLast
        ((rest.splitOnP (divides .special)).getLast (List.splitOnP_ne_nil (divides .special) rest))
      rw [List.dropLast_append_getLast] at hm
      refine ⟨m, ?_⟩
      rw [readPath_of_isSlash (hpath c rfl), readSegments, hm]
      rfl
  | succ n =>
    refine ⟨n + 1, ?_⟩
    rw [List.replicate_succ, readPath_append_cons hpath, splitOnP_replicate, collect_replicate]
    rfl

end Path

end RegistryLookup.Url
