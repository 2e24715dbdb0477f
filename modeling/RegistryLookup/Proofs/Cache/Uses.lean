import RegistryLookup.Proofs.Cache.Refinement

/-!
# When entries were last used

A key is used when something is stored under it and when a look-up finds it. Of all this an entry
keeps one word, the time of its last use on the cache's own count of nanoseconds.

* `Remains`, `remains_of_step`: an entry that is there after an event has just been stored or found,
  or it was there before and is as it was.
* `lastUse`: when a key was last used, told by the history.
* `Dated.step`, `lastUse_shown`: until the word turns over, it is the time of the last use.
-/

namespace RegistryLookup.Cache

variable {α : Type}

/-- Whether an event looks up a key and finds it. -/
def finds (x : World α) (key : String) : Event α → Bool
  | .get k => decide (k = key) && (x.cache.get x.now k).1.isSome
  | _ => false

/-- Whether an event uses a key: it stores something under it, or looks it up and finds it. -/
def uses (x : World α) (key : String) (e : Event α) : Bool :=
  (e.stored? key).isSome || finds x key e

/-- When an event uses a key. -/
def useTime? (key : String) (x : World α) (e : Event α) : Option Nat :=
  if uses x key e then some x.now else none

/-- When a key was last used by the first `n` events. -/
def lastUse (x : World α) (es : List (Event α)) (n : Nat) (key : String) : Option Nat :=
  (Trace.collected step (useTime? key) x es 0 n).getLast?

theorem uses_of_stored {x : World α} {key : String} {e : Event α} {p : α × Nat}
    (h : e.stored? key = some p) : uses x key e = true := by
  rw [uses, h]
  rfl

/-- Operations that only take entries out leave what there is as it was. -/
theorem get?_of_subset {c d : Cache α} (hc : c.Exact) (h : ∀ p ∈ d.entries, p ∈ c.entries)
    {key : String} {e : Entry α} (he : d.entries.get? key = some e) :
    c.entries.get? key = some e :=
  Table.get?_of_mem hc.nodup (h _ (Table.mem_of_get? he))

theorem mem_of_mem_delete {c : Cache α} {k : String} {p : String × Entry α}
    (h : p ∈ (c.delete k).2.entries) : p ∈ c.entries := by
  unfold delete at h
  split at h
  · exact (List.mem_filter.1 h).1
  · exact h

/-- What an event makes of an entry that is there after it. -/
inductive Remains (x : World α) (key : String) (e : Event α) (d : Entry α) : Prop
  /-- It has just been stored. -/
  | stored (value : α) (ttl : Nat) (hv : e.stored? key = some (value, ttl))
      (hd : d = ⟨value, x.now + min ttl longestTtl, x.cache.stamp x.now⟩)
  /-- A look-up has found it, and it is marked as used. -/
  | found (c : Entry α) (hv : e.stored? key = none) (hu : uses x key e = true)
      (hc : x.cache.entries.get? key = some c)
      (hd : d = { c with accessedAt := max c.accessedAt (x.cache.stamp x.now) })
  /-- It was there before, and it is as it was. -/
  | kept (hv : e.stored? key = none) (hu : uses x key e = false)
      (hc : x.cache.entries.get? key = some d)

variable {x : World α} {key : String}

theorem remains_of_set {k : String} {value : α} {ttl : Nat} {d : Entry α}
    (hd : (x.cache.set x.now k value ttl).entries.get? key = some d) :
    Remains x key (.set k value ttl) d := by
  rw [entries_set] at hd
  by_cases hk : k = key
  · subst hk
    rw [Table.get?_put_self] at hd
    exact .stored value ttl (if_pos rfl) (Option.some.inj hd).symm
  · rw [Table.get?_put_of_ne _ _ (Ne.symm hk)] at hd
    have hv : (Event.set k value ttl : Event α).stored? key = none := if_neg hk
    exact .kept hv (by rw [uses, hv]; rfl) hd

theorem remains_of_get {k : String} {d : Entry α}
    (hd : (x.cache.get x.now k).2.entries.get? key = some d) : Remains x key (.get k) d := by
  by_cases hk : k = key
  · subst hk
    cases hc : x.cache.entries.get? k with
    | none =>
      have hsame : (x.cache.get x.now k).2.entries = x.cache.entries := by simp only [get, hc]
      rw [hsame, hc] at hd
      cases hd
    | some c =>
      cases hlive : c.livesAt x.now with
      | true =>
        have hentries : (x.cache.get x.now k).2.entries = x.cache.entries.put k
            { c with accessedAt := max c.accessedAt (x.cache.stamp x.now) } := by
          simp only [get, hc, hlive, if_true]
        have hanswer : (x.cache.get x.now k).1 = some c.value := by
          simp only [get, hc, hlive, if_true]
        rw [hentries, Table.get?_put_self] at hd
        refine .found c rfl ?_ hc (Option.some.inj hd).symm
        rw [uses, finds, hanswer, decide_eq_true rfl]
        rfl
      | false =>
        have hentries : (x.cache.get x.now k).2.entries = x.cache.entries.erase k := by
          simp only [get, hc, hlive, Bool.false_eq_true, if_false]
        rw [hentries, Table.get?_erase_self] at hd
        cases hd
  · refine .kept rfl (by rw [uses, finds, decide_eq_false hk]; rfl) ?_
    unfold get at hd
    split at hd
    · split at hd
      · rwa [Table.get?_put_of_ne _ _ (Ne.symm hk)] at hd
      · rwa [Table.get?_erase_of_ne _ (Ne.symm hk)] at hd
    · exact hd

/-- **An entry that is there after an event** has just been stored or found, or it is as it was. -/
theorem remains_of_step (h : x.cache.Exact) (e : Event α) {d : Entry α}
    (hd : (step x e).cache.entries.get? key = some d) : Remains x key e d := by
  cases e with
  | set k value ttl => exact remains_of_set hd
  | setAlone k value ttl order =>
    -- what the sweep leaves was there before the table was put in order
    have hstored : (x.cache.set x.now k value ttl).Exact := h.set _ _ _ _
    have hbefore : (x.cache.set x.now k value ttl).entries.get? key = some d := by
      refine get?_of_subset hstored (fun p hp => ?_) hd
      have hperm := entries_rearranged_perm (x.cache.set x.now k value ttl) order
      refine hperm.mem_iff.1 ?_
      simp only [step, sweepIfCalled] at hp
      split at hp
      · exact hp
      · exact mem_of_mem_sweep hp
    cases remains_of_set hbefore with
    | stored v t hv hd => exact .stored v t hv hd
    | found c hv hu hc hd => exact .found c hv hu hc hd
    | kept hv hu hc => exact .kept hv hu hc
  | get k => exact remains_of_get hd
  | delete k => exact .kept rfl rfl (get?_of_subset h (fun _ => mem_of_mem_delete) hd)
  | deleteStartingWith start =>
    exact .kept rfl rfl (get?_of_subset h (fun _ hp => (List.mem_filter.1 hp).1) hd)
  | evictOldest n => exact .kept rfl rfl (get?_of_subset h (fun _ => mem_of_mem_evictOldest) hd)
  | cleanup => exact .kept rfl rfl (get?_of_subset h (fun _ => mem_of_mem_cleanup) hd)
  | close => exact .kept rfl rfl hd
  | chore chore =>
    refine .kept rfl rfl (get?_of_subset h (fun p hp => ?_) hd)
    cases chore with
    | sweep =>
      simp only [step] at hp
      split at hp
      · exact hp
      · exact mem_of_mem_sweep hp
    | tick => exact mem_of_mem_cleanup hp
  | rearrange order =>
    have hperm := entries_rearranged_perm x.cache order
    exact .kept rfl rfl (get?_of_subset h (fun _ => hperm.mem_iff.1) hd)
  | pass d => exact .kept rfl rfl hd

/-- The entry of a key shows the last of certain times, counted from the start of the cache. -/
structure Dated (start : Nat) (key : String) (y : World α) (times : List Nat) : Prop where
  exact : y.cache.Exact
  epoch : y.cache.epoch = start
  begun : start ≤ y.now
  shown : y.now - start < UInt64.size → ∀ d, y.cache.entries.get? key = some d →
    ∃ t, times.getLast? = some t ∧ start ≤ t ∧ t ≤ y.now ∧ d.accessedAt = t - start

/-- Until the word turns over, it is the time since the start. -/
theorem stamp_of_lt {c : Cache α} {now : Nat} (h : now - c.epoch < UInt64.size) :
    c.stamp now = now - c.epoch :=
  Nat.mod_eq_of_lt h

/-- **Every event keeps the entry dated.** -/
theorem Dated.step {start : Nat} {times : List Nat} (h : Dated start key x times) (e : Event α) :
    Dated start key (step x e) (times ++ (useTime? key x e).toList) := by
  have hnow : x.now ≤ (Cache.step x e).now := by
    rw [now_step]
    exact Nat.le_add_right _ _
  refine ⟨exact_kept.step h.exact e,
    ((settings_kept x.cache).step (.refl x.cache) e).epoch.trans h.epoch,
    Nat.le_trans h.begun hnow, fun hage d hd => ?_⟩
  have hyoung : x.now - start < UInt64.size := by omega
  have hstamp : x.cache.stamp x.now = x.now - start := by
    rw [stamp_of_lt (by rw [h.epoch]; exact hyoung), h.epoch]
  have hlast : uses x key e = true →
      (times ++ (useTime? key x e).toList).getLast? = some x.now := by
    intro hu
    rw [useTime?, if_pos hu, Option.toList_some, List.getLast?_concat]
  cases remains_of_step h.exact e hd with
  | stored value ttl hv hd =>
    refine ⟨x.now, hlast (uses_of_stored hv), h.begun, hnow, ?_⟩
    rw [hd]
    exact hstamp
  | found c hv hu hc hd =>
    -- it was not used later than now
    obtain ⟨t, -, hstart, ht, hc⟩ := h.shown hyoung c hc
    refine ⟨x.now, hlast hu, h.begun, hnow, ?_⟩
    rw [hd]
    simp only [hc, hstamp]
    omega
  | kept hv hu hc =>
    obtain ⟨t, hlast, hstart, ht, hc⟩ := h.shown hyoung d hc
    have hnone : useTime? key x e = none := by
      rw [useTime?, hu]
      rfl
    rw [hnone, Option.toList_none, List.append_nil]
    exact ⟨t, hlast, hstart, Nat.le_trans ht hnow, hc⟩

/-- A new cache, with its count from now on. -/
structure Fresh (x : World α) : Prop where
  exact : x.cache.Exact
  empty : x.cache.entries = []
  epoch : x.cache.epoch = x.now

theorem dawn_fresh (name : String) (capacity start : Nat) :
    Fresh (dawn name capacity start : World α) :=
  ⟨dawn_exact name capacity start, rfl, rfl⟩

theorem Fresh.dated (h : Fresh x) (key : String) : Dated x.now key x [] := by
  refine ⟨h.exact, h.epoch, Nat.le_refl _, fun _ d hd => ?_⟩
  rw [h.empty] at hd
  cases hd

variable {es : List (Event α)} {n : Nat}

/-- **An entry shows when it was last used**, until the word turns over. -/
theorem lastUse_shown (hx : Fresh x) (hage : (worldAt x es n).now - x.now < UInt64.size)
    {d : Entry α} (hd : (worldAt x es n).cache.entries.get? key = some d) :
    ∃ t, lastUse x es n key = some t ∧ x.now ≤ t ∧ t ≤ (worldAt x es n).now ∧
      d.accessedAt = t - x.now := by
  have hdated : Dated x.now key (worldAt x es n)
      (Trace.collected step (useTime? key) x es 0 n) :=
    Trace.after_collected (f := useTime? key) (P := Dated x.now key) (hx.dated key)
      (fun _ _ e _ h => h.step e) n
  exact hdated.shown hage d hd

end RegistryLookup.Cache
