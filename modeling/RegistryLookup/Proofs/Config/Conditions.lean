import Mathlib.Data.List.FinRange
import RegistryLookup.Proofs.Config.Registries

/-!
# What is asked of a configuration, condition by condition

A configuration has to meet a list of conditions: one for each limit, one for the address for
metrics, and six for each registry. They are said here one by one, without the list of the names
that a check has seen. The check finds one problem for each condition that is not met, in the order
of the conditions, and no other (`problems_exact`).

* `Condition.Holds`, `Condition.Tells`: what is asked, and the problem that is told if it is not met.
* `Condition.all`, `mem_all`, `nodup_all`: the conditions in their order, each once.
* `problems_eq`: the check looks at one condition after another.
* `count_duplicates`: how often a name is told of that is given more than once.
-/

namespace RegistryLookup.Config

/-- The limits of a configuration. -/
inductive Limit
  | failureThreshold
  | resetTimeout
  | halfOpenMax
  | maxAttempts
  | maxConcurrent
  | cleanupInterval
  | connect
  | request
  deriving DecidableEq

namespace Limit

/-- The limits in the order in which they are checked. -/
def all : List Limit :=
  [failureThreshold, resetTimeout, halfOpenMax, maxAttempts, maxConcurrent, cleanupInterval,
    connect, request]

/-- What a limit is called. -/
def field : Limit → String
  | failureThreshold => "circuit_breaker.failure_threshold"
  | resetTimeout => "circuit_breaker.reset_timeout_ms"
  | halfOpenMax => "circuit_breaker.half_open_max"
  | maxAttempts => "retries.max_attempts"
  | maxConcurrent => "concurrency.max_concurrent_requests"
  | cleanupInterval => "cache.cleanup_interval_secs"
  | connect => "timeouts.connect_secs"
  | request => "timeouts.request_secs"

def value (s : Settings) : Limit → Nat
  | failureThreshold => s.breaker.failureThreshold.toNat
  | resetTimeout => s.breaker.resetTimeoutMs.toNat
  | halfOpenMax => s.breaker.halfOpenMax.toNat
  | maxAttempts => s.retries.maxAttempts.toNat
  | maxConcurrent => s.concurrency.maxConcurrentRequests.toNat
  | cleanupInterval => s.cache.cleanupIntervalSecs.toNat
  | connect => s.timeouts.connectSecs.toNat
  | request => s.timeouts.requestSecs.toNat

end Limit

/-- The sides of a registry at which something is asked of it. -/
inductive Aspect
  | name
  | baseUrl
  | companyPath
  | searchPath
  | companyTtl
  | searchTtl
  deriving DecidableEq

namespace Aspect

/-- The sides of a registry in the order in which they are checked. -/
def all : List Aspect := [name, baseUrl, companyPath, searchPath, companyTtl, searchTtl]

/-- What is asked of a registry behind others. -/
def Holds (before : List Registry) (r : Registry) : Aspect → Prop
  | name => r.trimmedName ≠ "" ∧ ∀ q ∈ before, q.trimmedName ≠ r.trimmedName
  | baseUrl => ∃ url, Url.parse r.baseUrl = .ok url
  | companyPath => idPlaceholder.toList <:+: r.companyPath.toList
  | searchPath => queryPlaceholder.toList <:+: r.searchPath.toList
  | companyTtl => r.companyTtlSecs ≠ 0
  | searchTtl => r.searchTtlSecs ≠ 0

instance decidableHolds (before : List Registry) (r : Registry) :
    (a : Aspect) → Decidable (a.Holds before r)
  | name => inferInstanceAs (Decidable (_ ∧ _))
  | baseUrl => match h : Url.parse r.baseUrl with
    | .ok url => .isTrue ⟨url, h⟩
    | .error _ => .isFalse fun ⟨_, hurl⟩ => nomatch h.symm.trans hurl
  | companyPath => inferInstanceAs (Decidable (_ <:+: _))
  | searchPath => inferInstanceAs (Decidable (_ <:+: _))
  | companyTtl => inferInstanceAs (Decidable (_ ≠ _))
  | searchTtl => inferInstanceAs (Decidable (_ ≠ _))

/-- The problem that is told of a registry that does not have what is asked of it. -/
inductive Tells (r : Registry) : Aspect → Problem → Prop
  | emptyName (h : r.trimmedName = "") : Tells r name .emptyRegistryName
  | duplicate (h : r.trimmedName ≠ "") : Tells r name (.duplicateRegistry r.trimmedName)
  | baseUrl (fault : Url.Fault) (h : Url.parse r.baseUrl = .error fault) :
      Tells r baseUrl (.invalidBaseUrl r.name fault)
  | companyPath : Tells r companyPath (.missingPlaceholder r.name "company_path" "\x7bid\x7d")
  | searchPath : Tells r searchPath (.missingPlaceholder r.name "search_path" "\x7bquery\x7d")
  | companyTtl : Tells r companyTtl
      (.zeroValue ("registries." ++ r.trimmedName ++ ".company_ttl_secs"))
  | searchTtl : Tells r searchTtl
      (.zeroValue ("registries." ++ r.trimmedName ++ ".search_ttl_secs"))

end Aspect

/-- Something that is asked of a configuration. -/
inductive Condition (s : Settings)
  | limit (l : Limit)
  | address
  /-- Something that is asked of the registry at a place of the list. -/
  | registry (i : Fin s.registries.length) (a : Aspect)
  deriving DecidableEq

namespace Condition

variable {s : Settings}

/-- What is asked. -/
def Holds : Condition s → Prop
  | limit l => l.value s ≠ 0
  | address => s.observability.metricsEnabled = true →
      (Address.Socket.ofText? s.observability.metricsAddress).isSome = true
  | registry i a => a.Holds (s.registries.take i) s.registries[i]

instance decidableHolds : (c : Condition s) → Decidable c.Holds
  | limit _ => inferInstanceAs (Decidable (_ ≠ _))
  | address => inferInstanceAs (Decidable (_ → _))
  | registry i a => a.decidableHolds (s.registries.take i) s.registries[i]

/-- The problem that is told of a condition that is not met. -/
inductive Tells : Condition s → Problem → Prop
  | limit (l : Limit) : Tells (limit l) (.zeroValue l.field)
  | address : Tells address (.invalidMetricsAddress s.observability.metricsAddress)
  | registry {i : Fin s.registries.length} {a : Aspect} {p : Problem}
      (h : a.Tells s.registries[i] p) : Tells (registry i a) p

/-- All conditions in their order: the limits, the address, and then registry by registry. -/
def all (s : Settings) : List (Condition s) :=
  Limit.all.map limit ++ [address] ++
    (List.finRange s.registries.length).flatMap (fun i => Aspect.all.map (registry i))

theorem mem_all (c : Condition s) : c ∈ all s := by
  unfold all
  cases c with
  | limit l =>
    have hl : l ∈ Limit.all := by cases l <;> decide
    simp [hl]
  | address => simp
  | registry i a =>
    have ha : a ∈ Aspect.all := by cases a <;> decide
    simp [ha]

theorem nodup_all (s : Settings) : (all s).Nodup := by
  have hlimits : (Limit.all.map (limit (s := s))).Nodup :=
    List.Nodup.map (fun _ _ h => limit.inj h) (by decide)
  have hregistries : ((List.finRange s.registries.length).flatMap
      (fun i => Aspect.all.map (registry (s := s) i))).Nodup := by
    refine List.nodup_flatMap.2 ⟨fun i _ => ?_, ?_⟩
    · exact List.Nodup.map (fun _ _ h => (registry.inj h).2) (by decide)
    · refine (List.nodup_finRange _).imp fun {i j} hne => ?_
      intro c hi hj
      obtain ⟨a, -, rfl⟩ := List.mem_map.1 hi
      obtain ⟨b, -, heq⟩ := List.mem_map.1 hj
      exact hne (registry.inj heq).1.symm
  unfold all
  refine List.nodup_append'.2 ⟨List.nodup_append'.2 ⟨hlimits, List.nodup_singleton _, ?_⟩,
    hregistries, ?_⟩
  · intro c hc hd
    cases List.mem_singleton.1 hd
    obtain ⟨l, -, hl⟩ := List.mem_map.1 hc
    cases hl
  · intro c hc hd
    obtain ⟨i, -, hi⟩ := List.mem_flatMap.1 hd
    obtain ⟨a, -, rfl⟩ := List.mem_map.1 hi
    rcases List.mem_append.1 hc with hlimit | haddress
    · obtain ⟨l, -, hl⟩ := List.mem_map.1 hlimit
      cases hl
    · cases List.mem_singleton.1 haddress

end Condition

/-- A placeholder is found where it stands, and nowhere else. -/
theorem occursIn_iff (part text : List Char) : occursIn part text = true ↔ part <:+: text := by
  induction text with
  | nil => simp [occursIn]
  | cons c rest ih => simp [occursIn, ih, List.infix_cons_iff]

/-- The names that a check has seen when it has gone through some registries, last one first. -/
def seenIn (before : List Registry) : List String :=
  ((before.map Registry.trimmedName).filter (· ≠ "")).reverse

theorem seenIn_concat (before : List Registry) (r : Registry) :
    seenIn (before ++ [r]) =
      if r.trimmedName = "" then seenIn before else r.trimmedName :: seenIn before := by
  unfold seenIn
  by_cases h : r.trimmedName = "" <;> simp [h]

theorem mem_seenIn {before : List Registry} {name : String} (h : name ≠ "") :
    name ∈ seenIn before ↔ ∃ q ∈ before, q.trimmedName = name := by
  simp [seenIn, h]

/-- What a check finds at a side of a registry behind others. -/
def Aspect.check (before : List Registry) (r : Registry) : Aspect → List Problem
  | name => checkName (seenIn before) r.trimmedName
  | baseUrl => checkBaseUrl r
  | companyPath => checkPath r.name "company_path" idPlaceholder r.companyPath
  | searchPath => checkPath r.name "search_path" queryPlaceholder r.searchPath
  | companyTtl =>
    checkLimit ("registries." ++ r.trimmedName ++ ".company_ttl_secs") r.companyTtlSecs.toNat
  | searchTtl =>
    checkLimit ("registries." ++ r.trimmedName ++ ".search_ttl_secs") r.searchTtlSecs.toNat

/-- What a check finds about a condition. -/
def Condition.check {s : Settings} : Condition s → List Problem
  | limit l => checkLimit l.field (l.value s)
  | address => checkAddress s.observability
  | registry i a => a.check (s.registries.take i) s.registries[i]

theorem checkRegistries_eq (before rs : List Registry) :
    checkRegistries (seenIn before) rs = (List.finRange rs.length).flatMap
      (fun i : Fin rs.length => Aspect.all.flatMap (Aspect.check (before ++ rs.take i) rs[i])) := by
  -- by induction on the registries, each of which stands before those behind it
  induction rs generalizing before with
  | nil => rfl
  | cons r rest ih =>
    have hfirst : Aspect.all.flatMap (Aspect.check before r) =
        checkName (seenIn before) r.trimmedName ++ checkRest r := by
      simp [Aspect.all, Aspect.check, checkRest, Registry.trimmedName]
    have hnext : (if Text.trim r.name = "" then seenIn before
        else Text.trim r.name :: seenIn before) = seenIn (before ++ [r]) :=
      (seenIn_concat before r).symm
    have hcons : checkRegistries (seenIn before) (r :: rest) =
        checkName (seenIn before) r.trimmedName ++ checkRest r ++
          checkRegistries (seenIn (before ++ [r])) rest := by
      rw [← hnext]
      rfl
    rw [hcons, ih, ← hfirst]
    simp [List.finRange_succ, List.flatMap_map]

/-- **The check looks at one condition after another.** -/
theorem problems_eq (s : Settings) : problems s = (Condition.all s).flatMap Condition.check := by
  have hlimits : limits s = Limit.all.map (fun l => (l.field, l.value s)) := rfl
  have hregistries := checkRegistries_eq [] s.registries
  rw [show seenIn [] = [] from rfl] at hregistries
  unfold problems Condition.all
  rw [hlimits, hregistries]
  simp only [List.flatMap_append, List.flatMap_map, List.flatMap_assoc, List.flatMap_singleton,
    Condition.check, List.nil_append]

/-- Nothing is found about what holds, and one problem is found about what does not. -/
inductive Checked (holds : Prop) (tells : Problem → Prop) : List Problem → Prop
  | met (h : holds) : Checked holds tells []
  | broken (h : ¬ holds) (p : Problem) (hp : tells p) : Checked holds tells [p]

theorem Checked.of_ite {holds : Prop} {tells : Problem → Prop} {c : Prop} [Decidable c]
    {p : Problem} (hc : c ↔ ¬ holds) (hp : tells p) :
    Checked holds tells (if c then [p] else []) := by
  by_cases h : c
  · rw [if_pos h]
    exact .broken (hc.1 h) p hp
  · rw [if_neg h]
    exact .met (not_not.1 fun hno => h (hc.2 hno))

theorem checkLimit_checked {field : String} {value : Nat} {tells : Problem → Prop}
    (h : tells (.zeroValue field)) : Checked (value ≠ 0) tells (checkLimit field value) :=
  .of_ite not_not.symm h

theorem checkName_checked (before : List Registry) (r : Registry) :
    Checked (Aspect.name.Holds before r) (Aspect.name.Tells r)
      (checkName (seenIn before) r.trimmedName) := by
  unfold checkName
  by_cases hempty : r.trimmedName = ""
  · rw [if_pos hempty]
    exact .broken (fun h => h.1 hempty) _ (.emptyName hempty)
  · rw [if_neg hempty]
    refine .of_ite ?_ (.duplicate hempty)
    rw [mem_seenIn hempty]
    simp [Aspect.Holds, hempty]

theorem checkBaseUrl_checked (before : List Registry) (r : Registry) :
    Checked (Aspect.baseUrl.Holds before r) (Aspect.baseUrl.Tells r) (checkBaseUrl r) := by
  unfold checkBaseUrl
  cases h : Url.parse r.baseUrl with
  | ok url => exact .met ⟨url, h⟩
  | error fault =>
    refine .broken ?_ _ (.baseUrl fault h)
    rintro ⟨url, hurl⟩
    rw [h] at hurl
    cases hurl

theorem checkPath_checked {registry field placeholder path : String} {tells : Problem → Prop}
    (h : tells (.missingPlaceholder registry field placeholder)) :
    Checked (placeholder.toList <:+: path.toList) tells
      (checkPath registry field placeholder path) := by
  unfold checkPath
  rw [← ite_not]
  exact .of_ite (by rw [occursIn_iff]) h

theorem Aspect.check_checked (a : Aspect) (before : List Registry) (r : Registry) :
    Checked (a.Holds before r) (a.Tells r) (a.check before r) := by
  have hword : ∀ w : UInt64, (w ≠ 0) = (w.toNat ≠ 0) := fun w => by simp [← UInt64.toNat_inj]
  cases a with
  | name => exact checkName_checked before r
  | baseUrl => exact checkBaseUrl_checked before r
  | companyPath => exact checkPath_checked .companyPath
  | searchPath => exact checkPath_checked .searchPath
  | companyTtl =>
    rw [Holds, hword]
    exact checkLimit_checked .companyTtl
  | searchTtl =>
    rw [Holds, hword]
    exact checkLimit_checked .searchTtl

theorem checkAddress_checked (s : Settings) :
    Checked (Condition.address (s := s)).Holds (Condition.address (s := s)).Tells
      (checkAddress s.observability) := by
  refine .of_ite ?_ .address
  simp [Condition.Holds]

theorem Condition.check_checked {s : Settings} (c : Condition s) :
    Checked c.Holds c.Tells c.check := by
  cases c with
  | limit l => exact checkLimit_checked (.limit l)
  | address => exact checkAddress_checked s
  | registry i a =>
    have h := a.check_checked (s.registries.take i) s.registries[i]
    show Checked _ _ (a.check (s.registries.take i) s.registries[i])
    generalize a.check (s.registries.take i) s.registries[i] = found at h
    cases h with
    | met h => exact .met h
    | broken h p hp => exact .broken h p (.registry hp)

/-- What is found about several conditions: the problem of each one that is not met. -/
theorem forall₂_check {s : Settings} (cs : List (Condition s)) :
    List.Forall₂ Condition.Tells (cs.filter (fun c => ¬ c.Holds)) (cs.flatMap Condition.check) := by
  induction cs with
  | nil => exact .nil
  | cons c rest ih =>
    rw [List.flatMap_cons, List.filter_cons]
    have h := c.check_checked
    generalize c.check = found at h
    cases h with
    | met h => simpa [h] using ih
    | broken h p hp => simpa [h] using List.Forall₂.cons hp ih

theorem count_checkLimit (name field : String) (value : Nat) :
    (checkLimit field value).count (.duplicateRegistry name) = 0 := by
  unfold checkLimit
  split <;> simp

theorem count_checkPath (name registry field placeholder path : String) :
    (checkPath registry field placeholder path).count (.duplicateRegistry name) = 0 := by
  unfold checkPath
  split <;> simp

theorem count_checkRest (name : String) (r : Registry) :
    (checkRest r).count (.duplicateRegistry name) = 0 := by
  have hurl : (checkBaseUrl r).count (.duplicateRegistry name) = 0 := by
    unfold checkBaseUrl
    split <;> simp
  simp [checkRest, List.count_append, hurl, count_checkPath, count_checkLimit]

theorem count_checkName {name : String} (hname : name ≠ "") (seen : List String) (found : String) :
    (checkName seen found).count (.duplicateRegistry name) =
      if found = name ∧ name ∈ seen then 1 else 0 := by
  unfold checkName
  by_cases heq : found = name
  · subst heq
    by_cases hseen : found ∈ seen <;> simp [hname, hseen]
  · split
    · simp [heq]
    · split <;> simp [heq]

/-- Among some registries a name is told of for each of them that has it, but for the first one if
the name has not been seen. -/
theorem count_checkRegistries {name : String} (hname : name ≠ "") (seen : List String)
    (rs : List Registry) :
    (checkRegistries seen rs).count (.duplicateRegistry name) =
      rs.countP (fun r => r.trimmedName = name) - if name ∈ seen then 0 else 1 := by
  induction rs generalizing seen with
  | nil => simp [checkRegistries]
  | cons r rest ih =>
    have htrim : Text.trim r.name = r.trimmedName := rfl
    simp only [checkRegistries, List.count_append, count_checkRest, htrim, count_checkName hname, ih,
      List.countP_cons]
    by_cases heq : r.trimmedName = name
    · by_cases hseen : name ∈ seen <;> simp [heq, hname, hseen]
      omega
    · by_cases hempty : r.trimmedName = ""
      · simp [hempty, Ne.symm hname]
      · simp [heq, hempty, Ne.symm heq]

/-- **A name that is given more than once is told of for each time but the first.** -/
theorem count_duplicates (s : Settings) {name : String} (hname : name ≠ "") :
    (problems s).count (.duplicateRegistry name) =
      s.registries.countP (fun r => r.trimmedName = name) - 1 := by
  have hlimits : ((limits s).flatMap (fun l => checkLimit l.1 l.2)).count
      (.duplicateRegistry name) = 0 := by
    refine List.count_eq_zero.2 fun hmem => ?_
    obtain ⟨l, -, hl⟩ := List.mem_flatMap.1 hmem
    exact List.count_eq_zero.1 (count_checkLimit name l.1 l.2) hl
  have haddress : (checkAddress s.observability).count (.duplicateRegistry name) = 0 := by
    unfold checkAddress
    split <;> simp
  unfold problems
  rw [List.count_append, List.count_append, hlimits, haddress, count_checkRegistries hname]
  simp

theorem checkRegistries_isPrefix (seen : List String) (rs more : List Registry) :
    checkRegistries seen rs <+: checkRegistries seen (rs ++ more) := by
  induction rs generalizing seen with
  | nil => exact List.nil_prefix
  | cons r rest ih => exact (List.prefix_append_right_inj _).2 (ih _)

/-- **What is added behind the registries adds problems behind the others.** -/
theorem problems_isPrefix (s : Settings) (more : List Registry) :
    problems s <+: problems { s with registries := s.registries ++ more } :=
  (List.prefix_append_right_inj _).2 (checkRegistries_isPrefix [] s.registries more)

/-- **The check of a configuration is sound and complete.** A configuration is sound exactly if it
meets all conditions. What is found are the problems of the conditions that it does not meet, one for
each of them, in the order of the conditions. A name that several registries have is told of once
less than they are, and registries that are added behind the others add problems behind the
others. -/
theorem problems_exact (s : Settings) :
    (isValid s = true ↔ ∀ c : Condition s, c.Holds) ∧
      List.Forall₂ Condition.Tells ((Condition.all s).filter (fun c => ¬ c.Holds)) (problems s) ∧
      ((Condition.all s).Nodup ∧ ∀ c, c ∈ Condition.all s) ∧
      (∀ name, name ≠ "" → (problems s).count (.duplicateRegistry name) =
        s.registries.countP (fun r => r.trimmedName = name) - 1) ∧
      ∀ more, problems s <+: problems { s with registries := s.registries ++ more } := by
  have hfound := forall₂_check (Condition.all s)
  rw [← problems_eq] at hfound
  refine ⟨?_, hfound, ⟨Condition.nodup_all s, Condition.mem_all⟩,
    fun name hname => count_duplicates s hname, problems_isPrefix s⟩
  have hlength := hfound.length_eq
  unfold isValid
  rw [List.isEmpty_iff, ← List.length_eq_zero_iff, ← hlength, List.length_eq_zero_iff,
    List.filter_eq_nil_iff]
  simp [Condition.mem_all]

end RegistryLookup.Config
