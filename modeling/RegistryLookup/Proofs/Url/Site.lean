import Mathlib.Data.List.TakeWhile
import RegistryLookup.Url.Parser

/-!
# Where a URL leads

With a scheme that has a host, a text is read in two parts. The authority, up to the first slash,
backslash, question mark or number sign, says where the URL leads: user, host and port. What stands
behind it says what is asked for there: path, query and fragment.

* `readScheme_eq_some_iff`: what a text with a scheme looks like.
* `readAuthority_special`: where a URL leads depends on its authority alone.
* `parse_special`: the same for a whole text.
* `readScheme_of_parse`: the scheme of a URL is that of its text.
-/

namespace RegistryLookup.Url

theorem isSchemeChar_colon : isSchemeChar ':' = false := by decide

/-- **A scheme is a letter and more characters of schemes in front of a colon.** -/
theorem readScheme_eq_some_iff {cs rest : List Char} {scheme : String} :
    readScheme cs = some (scheme, rest) ↔ ∃ c name, cs = c :: name ++ ':' :: rest ∧
      c.isAlpha = true ∧ (∀ x ∈ c :: name, isSchemeChar x = true) ∧
      scheme = String.ofList ((c :: name).map Char.toLower) := by
  constructor
  · intro h
    unfold readScheme at h
    split at h
    · cases h
    · rename_i c tail
      split at h
      · cases h
      · rename_i halpha
        split at h
        · rename_i word behind hsplit
          cases h
          have happend := splitBefore_append (fun c => !isSchemeChar c) (c :: tail)
          rw [hsplit] at happend
          have hword : word = (c :: tail).takeWhile (fun c => !!isSchemeChar c) :=
            (congrArg Prod.fst hsplit).symm
          have hchars : ∀ x ∈ word, isSchemeChar x = true := by
            intro x hx
            rw [hword] at hx
            simpa using List.mem_takeWhile_imp hx
          -- the first letter is one of the scheme
          have hc : isSchemeChar c = true := by
            have halpha : c.isAlpha = true := by simpa using halpha
            simp [isSchemeChar, Char.isAlphanum, halpha]
          obtain ⟨name, rfl⟩ : ∃ name, word = c :: name := by
            refine ⟨tail.takeWhile (fun c => !!isSchemeChar c), ?_⟩
            rw [hword, List.takeWhile_cons]
            simp [hc]
          exact ⟨c, name, happend.symm, by simpa using halpha, hchars, rfl⟩
        · cases h
  · rintro ⟨c, name, rfl, halpha, hchars, rfl⟩
    have htake : (c :: name ++ ':' :: rest).takeWhile (fun c => !!isSchemeChar c) = c :: name := by
      rw [List.takeWhile_append_of_pos (by simpa using hchars)]
      simp [isSchemeChar_colon]
    have hdrop :
        (c :: name ++ ':' :: rest).dropWhile (fun c => !!isSchemeChar c) = ':' :: rest := by
      rw [List.dropWhile_append_of_pos (by simpa using hchars)]
      simp [isSchemeChar_colon]
    unfold readScheme splitBefore
    rw [htake, hdrop]
    simp [halpha]

/-- A character that ends the authority of a URL whose scheme has a host. -/
def endsSite (c : Char) : Bool := endsAuthority .special c

/-- A slash of either kind. -/
def isSlash (c : Char) : Bool := c = '/' || c = '\\'

theorem endsSite_of_isSlash {c : Char} (h : isSlash c = true) : endsSite c = true := by
  simp only [isSlash, Bool.or_eq_true, decide_eq_true_eq] at h
  rcases h with rfl | rfl <;> decide

/-- The authority behind the slashes that follow a scheme. -/
def siteText (rest : List Char) : List Char :=
  (rest.dropWhile isSlash).takeWhile (fun c => !endsSite c)

/-- What stands behind the authority. -/
def behindSite (rest : List Char) : List Char :=
  (rest.dropWhile isSlash).dropWhile (fun c => !endsSite c)

/-- Where an authority leads: a URL without a path. -/
def readSite (scheme : String) (authority : List Char) : Except Fault Url :=
  let user := readUser authority
  let parts := splitPort false user.2
  if parts.1.isEmpty then .error .emptyHost
  else do
    let host ← Host.parse parts.1
    let port ← readPort (parts.2.getD [])
    return {
      scheme := scheme
      username := user.1.1
      password := user.1.2
      host := some host
      port := if port = defaultPort? scheme then none else port
      path := .segments [] }

/-- A URL with path, query and fragment from what stands behind its authority. -/
def withBehind (behind : List Char) (u : Url) : Url :=
  { u with
    path := readPath .special (splitBefore endsPath behind).1
    query := (readTail .special (splitBefore endsPath behind).2).1
    fragment := (readTail .special (splitBefore endsPath behind).2).2 }

/-- Two URLs that lead to the same place: they differ at most in what is asked for there. -/
structure SameSite (u v : Url) : Prop where
  scheme : u.scheme = v.scheme
  username : u.username = v.username
  password : u.password = v.password
  host : u.host = v.host
  port : u.port = v.port

theorem SameSite.symm {u v : Url} (h : u.SameSite v) : v.SameSite u :=
  ⟨h.scheme.symm, h.username.symm, h.password.symm, h.host.symm, h.port.symm⟩

theorem SameSite.trans {u v w : Url} (h : u.SameSite v) (h' : v.SameSite w) : u.SameSite w :=
  ⟨h.scheme.trans h'.scheme, h.username.trans h'.username, h.password.trans h'.password,
    h.host.trans h'.host, h.port.trans h'.port⟩

theorem sameSite_withBehind (behind : List Char) (u : Url) : (withBehind behind u).SameSite u :=
  ⟨rfl, rfl, rfl, rfl, rfl⟩

theorem readSite_nil (scheme : String) : readSite scheme [] = .error .emptyHost := rfl

/-- What is taken for a port is the end of what is split. -/
theorem mem_of_mem_port {inBrackets : Bool} {cs port : List Char}
    (h : (splitPort inBrackets cs).2 = some port) : ∀ c ∈ port, c ∈ cs := by
  induction cs generalizing inBrackets with
  | nil => cases h
  | cons c rest ih =>
    unfold splitPort at h
    split at h
    · cases h
      exact fun x hx => List.mem_cons_of_mem _ hx
    · exact fun x hx => List.mem_cons_of_mem _ (ih h x hx)

/-- A host and a port are a part of the authority. -/
theorem mem_of_mem_readUser {authority : List Char} {c : Char} (h : c ∈ (readUser authority).2) :
    c ∈ authority := by
  have htake : c ∈ (authority.reverse.takeWhile (· != '@')).reverse := h
  exact List.mem_reverse.1 (List.takeWhile_subset _ (List.mem_reverse.1 htake))

/-- **Where a URL leads depends on its authority alone.** -/
theorem readAuthority_special (scheme : String) (cs : List Char) :
    readAuthority scheme .special cs =
      (readSite scheme (cs.takeWhile (fun c => !endsSite c))).map
        (withBehind (cs.dropWhile (fun c => !endsSite c))) := by
  have hsplit : splitBefore (endsAuthority .special) cs =
      (cs.takeWhile (fun c => !endsSite c), cs.dropWhile (fun c => !endsSite c)) := rfl
  have hbare : ∀ c ∈ cs.takeWhile (fun c => !endsSite c), c ≠ '\\' := by
    rintro c hc rfl
    exact absurd (List.mem_takeWhile_imp hc) (by decide)
  unfold readAuthority
  rw [hsplit]
  generalize cs.takeWhile (fun c => !endsSite c) = authority at hbare ⊢
  generalize cs.dropWhile (fun c => !endsSite c) = behind
  unfold readSite
  simp only [bind, Except.bind, pure, Except.pure]
  -- no backslash is left for the port
  have hport : ∀ c ∈ (splitPort false (readUser authority).2).2.getD [], c ≠ '\\' := by
    intro c hc
    cases hp : (splitPort false (readUser authority).2).2 with
    | none => rw [hp] at hc; cases hc
    | some port =>
      rw [hp] at hc
      exact hbare c (mem_of_mem_readUser (mem_of_mem_port hp c hc))
  have hdigits : splitBefore (fun c => decide (c = '\\'))
      ((splitPort false (readUser authority).2).2.getD []) =
        ((splitPort false (readUser authority).2).2.getD [], []) := by
    unfold splitBefore
    rw [List.takeWhile_eq_self_iff.2 (by simpa using hport),
      List.dropWhile_eq_nil_iff.2 (by simpa using hport)]
  by_cases hempty : (splitPort false (readUser authority).2).1.isEmpty = true
  · simp [hempty, Except.map]
  · simp only [hempty, hdigits]
    cases Host.parse (splitPort false (readUser authority).2).1 with
    | error fault => simp [Except.map]
    | ok host =>
      cases readPort ((splitPort false (readUser authority).2).2.getD []) with
      | error fault => simp [Except.map]
      | ok port => simp [Except.map, withBehind]

/-- **A text with a scheme that has a host.** -/
theorem parse_special {text scheme : String} {rest : List Char}
    (h : readScheme (clean text.toList) = some (scheme, rest))
    (hkind : Kind.ofScheme scheme = .special) :
    parse text = (readSite scheme (siteText rest)).map (withBehind (behindSite rest)) := by
  unfold parse
  simp only [h, hkind]
  exact readAuthority_special scheme _

theorem scheme_of_readAuthority {scheme : String} {kind : Kind} {cs : List Char} {u : Url}
    (h : readAuthority scheme kind cs = .ok u) : u.scheme = scheme := by
  unfold readAuthority at h
  simp only [bind, Except.bind, pure, Except.pure] at h
  repeat' split at h
  all_goals cases h
  all_goals rfl

theorem scheme_of_readFile {cs : List Char} {u : Url} (h : readFile cs = .ok u) :
    u.scheme = "file" := by
  unfold readFile at h
  simp only [bind, Except.bind, pure, Except.pure] at h
  repeat' split at h
  all_goals cases h
  all_goals rfl

theorem eq_file_of_ofScheme {scheme : String} (h : Kind.ofScheme scheme = .file) :
    scheme = "file" := by
  unfold Kind.ofScheme at h
  split at h
  · assumption
  · split at h <;> cases h

/-- **The scheme of a URL is that of its text.** -/
theorem readScheme_of_parse {text : String} {u : Url} (h : parse text = .ok u) :
    ∃ rest, readScheme (clean text.toList) = some (u.scheme, rest) := by
  unfold parse at h
  split at h
  · cases h
  · rename_i scheme rest hscheme
    refine ⟨rest, ?_⟩
    rw [hscheme]
    suffices hu : u.scheme = scheme by rw [hu]
    split at h
    · exact scheme_of_readAuthority h
    · rename_i hfile
      rw [scheme_of_readFile h, eq_file_of_ofScheme hfile]
    · split at h
      · exact scheme_of_readAuthority h
      · cases h
        rfl

end RegistryLookup.Url
