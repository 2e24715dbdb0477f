import RegistryLookup.Proofs.Cache.Uses

/-!
# Whom an eviction takes

An eviction puts the entries in the order of the words that tell their last use and takes the first
ones. So whatever it takes was last used no later than whatever it leaves; entries that were last
used at one instant may go in any order.

* `accessedAt_le_of_picked`: what is picked has no higher word than what is not.
* `entries_evictOldest_eq_foldl`: it makes no difference that the entries go one after another, each
  only if nobody has used it in the meantime.
* `lost`: the entries that are no longer there.
* `EvictsOldest`: what an eviction leaves of a cache. `Exact.evictsOldest`: it does, if the words
  tell the last uses.
* `worldAt_tells`: until they turn over, they do.
* `eviction_exact`: evictions on demand and sweeps, at every point of every run.
-/

namespace RegistryLookup.Cache

variable {α : Type}

/-- The entries in the order of their last use. -/
def byUse (c : Cache α) : Table String (Entry α) :=
  c.entries.mergeSort (fun p q => p.2.accessedAt ≤ q.2.accessedAt)

theorem byUse_perm (c : Cache α) : c.byUse.Perm c.entries := List.mergeSort_perm _ _

theorem byUse_sorted (c : Cache α) :
    c.byUse.Pairwise (fun p q => p.2.accessedAt ≤ q.2.accessedAt) := by
  have hsorted : c.byUse.Pairwise
      (fun p q => decide (p.2.accessedAt ≤ q.2.accessedAt) = true) := by
    refine List.pairwise_mergeSort (fun p q r hpq hqr => ?_) (fun p q => ?_) c.entries
    · exact decide_eq_true (Nat.le_trans (of_decide_eq_true hpq) (of_decide_eq_true hqr))
    · simp only [Bool.or_eq_true, decide_eq_true_eq]
      omega
  exact hsorted.imp of_decide_eq_true

theorem picked_eq (c : Cache α) (n : Nat) : c.picked n = (c.byUse.take n).map (·.1) :=
  List.map_take.symm

/-- **What is picked has no higher word than what is not.** -/
theorem accessedAt_le_of_picked {c : Cache α} (h : c.Exact) {n : Nat} {p q : String × Entry α}
    (hp : p ∈ c.entries) (hq : q ∈ c.entries) (hpicked : p.1 ∈ c.picked n)
    (hleft : q.1 ∉ c.picked n) : p.2.accessedAt ≤ q.2.accessedAt := by
  rw [picked_eq] at hpicked hleft
  -- the pair that is picked under the key is the one that is there
  obtain ⟨r, hr, hkey⟩ := List.mem_map.1 hpicked
  have hmem : r ∈ c.entries := (byUse_perm c).mem_iff.1 (List.mem_of_mem_take hr)
  obtain rfl : r = p := List.inj_on_of_nodup_map h.nodup hmem hp hkey
  have hlater : q ∈ c.byUse.drop n := by
    have hin : q ∈ c.byUse.take n ++ c.byUse.drop n := by
      rw [List.take_append_drop]
      exact (byUse_perm c).mem_iff.2 hq
    exact (List.mem_append.1 hin).resolve_left fun htaken => hleft (List.mem_map_of_mem htaken)
  have hsorted := byUse_sorted c
  rw [← List.take_append_drop n c.byUse, List.pairwise_append] at hsorted
  exact hsorted.2.2 r hr q hlater

/-- Take the entry of a key out of a table if it was last used at a given time. -/
def removeIfUsedAt (t : Table String (Entry α)) (s : String × Nat) : Table String (Entry α) :=
  if ∃ e, t.get? s.1 = some e ∧ e.accessedAt = s.2 then t.erase s.1 else t

theorem foldl_removeIfUsedAt {t l : Table String (Entry α)} (hl : (Table.keys l).Nodup)
    (h : ∀ p ∈ l, t.get? p.1 = some p.2) :
    (l.map (fun p => (p.1, p.2.accessedAt))).foldl removeIfUsedAt t =
      t.filter (fun q => !(Table.keys l).contains q.1) := by
  -- by induction on what is to go
  induction l generalizing t with
  | nil => simp [Table.keys]
  | cons p l ih =>
    obtain ⟨hnew, hrest⟩ := List.nodup_cons.1 hl
    have hout : removeIfUsedAt t (p.1, p.2.accessedAt) = t.erase p.1 :=
      if_pos ⟨p.2, h p List.mem_cons_self, rfl⟩
    have hothers : ∀ q ∈ l, (t.erase p.1).get? q.1 = some q.2 := by
      intro q hq
      have hne : q.1 ≠ p.1 := by
        intro heq
        exact hnew (List.mem_map.2 ⟨q, hq, heq⟩)
      rw [Table.get?_erase_of_ne t hne]
      exact h q (List.mem_cons_of_mem _ hq)
    rw [List.map_cons, List.foldl_cons, hout, ih hrest hothers, Table.erase, List.filter_filter]
    refine List.filter_congr fun q _ => ?_
    by_cases hq : q.1 = p.1 <;> simp [Table.keys, hq]

/-- **The entries can go one after another**, the one that was used least recently first, each only
if it is still as it was when they were put in order. -/
theorem entries_evictOldest_eq_foldl {c : Cache α} (h : c.Exact) (n : Nat) :
    (c.evictOldest n).2.entries =
      ((c.byUse.map (fun p => (p.1, p.2.accessedAt))).take n).foldl removeIfUsedAt c.entries := by
  have hkeys : Table.keys (c.byUse.take n) = c.picked n := (picked_eq c n).symm
  have hnodup : (Table.keys (c.byUse.take n)).Nodup := by
    rw [hkeys]
    exact h.nodup_picked n
  have hthere : ∀ p ∈ c.byUse.take n, c.entries.get? p.1 = some p.2 := fun p hp =>
    Table.get?_of_mem h.nodup ((byUse_perm c).mem_iff.1 (List.mem_of_mem_take hp))
  rw [← List.map_take, foldl_removeIfUsedAt hnodup hthere, hkeys]
  rfl

/-- The entries that are no longer there. -/
def lost (c d : Cache α) : Table String (Entry α) := c.entries.filter (fun p => !d.entries.has p.1)

/-- What an eviction of `n` entries leaves of a cache whose keys were last used at certain times. -/
structure EvictsOldest (used : String → Option Nat) (n : Nat) (c d : Cache α) : Prop where
  /-- As many go as should, as far as there are any. -/
  count : (lost c d).length = min n c.size
  size : d.size = c.size - min n c.size
  /-- Whatever goes was last used no later than whatever stays. -/
  oldest : ∀ p ∈ lost c d, ∀ q ∈ d.entries, ∃ s t, used p.1 = some s ∧ used q.1 = some t ∧ s ≤ t
  /-- What stays keeps its value, its expiry and the word that tells its last use. -/
  kept : ∀ q ∈ d.entries, q ∈ c.entries

theorem mem_lost {c d : Cache α} {p : String × Entry α} :
    p ∈ lost c d ↔ p ∈ c.entries ∧ p.1 ∉ Table.keys d.entries := by
  rw [lost, List.mem_filter, Bool.not_eq_true', Bool.eq_false_iff, Ne, Table.has_iff_mem_keys]

/-- How many entries go of which only some stay. -/
theorem length_lost {c d : Cache α} (hc : c.Exact) (hd : d.Exact)
    (h : ∀ q ∈ d.entries, q ∈ c.entries) :
    (lost c d).length + d.entries.length = c.entries.length := by
  have hsplit := List.length_eq_length_filter_add (l := c.entries) (fun p => d.entries.has p.1)
  -- the others are those that are there now
  have hperm : (c.entries.filter (fun p => d.entries.has p.1)).Perm d.entries := by
    refine (List.perm_ext_iff_of_nodup (hc.nodup.of_map.filter _) hd.nodup.of_map).2 fun p => ?_
    rw [List.mem_filter, Table.has_iff_mem_keys]
    constructor
    · rintro ⟨hp, hkey⟩
      obtain ⟨q, hq, heq⟩ := List.mem_map.1 hkey
      rwa [List.inj_on_of_nodup_map hc.nodup (h q hq) hp heq] at hq
    · exact fun hp => ⟨h p hp, List.mem_map_of_mem hp⟩
  have hlength := hperm.length_eq
  unfold lost
  omega

theorem entries_evictOldest (c : Cache α) (n : Nat) : (c.evictOldest n).2.entries =
    c.entries.filter (fun p => !(c.picked n).contains p.1) := rfl

theorem mem_entries_evictOldest {c : Cache α} {n : Nat} {q : String × Entry α} :
    q ∈ (c.evictOldest n).2.entries ↔ q ∈ c.entries ∧ q.1 ∉ c.picked n := by
  rw [entries_evictOldest, List.mem_filter, Bool.not_eq_true', Bool.eq_false_iff, Ne,
    List.contains_iff_mem]

/-- What an eviction takes was picked. -/
theorem picked_of_lost {c : Cache α} {n : Nat} {p : String × Entry α}
    (hp : p ∈ lost c (c.evictOldest n).2) : p.1 ∈ c.picked n := by
  obtain ⟨hmem, hgone⟩ := mem_lost.1 hp
  by_contra hleft
  exact hgone (List.mem_map_of_mem (mem_entries_evictOldest.2 ⟨hmem, hleft⟩))

/-- Words that tell the last uses: the lower word is the earlier use. -/
def Tells (c : Cache α) (used : String → Option Nat) : Prop :=
  ∀ p ∈ c.entries, ∀ q ∈ c.entries, p.2.accessedAt ≤ q.2.accessedAt →
    ∃ s t, used p.1 = some s ∧ used q.1 = some t ∧ s ≤ t

/-- **An eviction takes the entries that were used least recently**, if the words tell the uses. -/
theorem Exact.evictsOldest {c : Cache α} (h : c.Exact) {used : String → Option Nat}
    (hused : c.Tells used) (n : Nat) : EvictsOldest used n c (c.evictOldest n).2 := by
  have hafter := h.evictOldest n
  have hkept : ∀ q ∈ (c.evictOldest n).2.entries, q ∈ c.entries :=
    fun q hq => (mem_entries_evictOldest.1 hq).1
  have hlost := length_lost h hafter hkept
  have hlength := h.length_evictOldest n
  refine ⟨?_, ?_, fun p hp q hq => ?_, hkept⟩
  · rw [h.size_eq]
    omega
  · rw [h.size_evictOldest]
    omega
  · obtain ⟨hmem, hleft⟩ := mem_entries_evictOldest.1 hq
    have hpmem := (mem_lost.1 hp).1
    exact hused p hpmem q hmem (accessedAt_le_of_picked h hpmem hmem (picked_of_lost hp) hleft)

/-- An eviction says how many entries it has taken. -/
theorem Exact.fst_evictOldest {c : Cache α} (h : c.Exact) (n : Nat) :
    (c.evictOldest n).1 = min n c.size := by
  have hlength := h.length_evictOldest n
  show c.entries.length - (c.evictOldest n).2.entries.length = _
  rw [h.size_eq]
  omega

/-- How many entries a sweep is to take: those beyond the capacity, if there are any, and a tenth of
the capacity. -/
def excess (c : Cache α) : Nat := if c.overage = 0 then 0 else c.overage + c.capacity / 10

theorem entries_sweep_eq (c : Cache α) : c.sweep.entries = (c.evictOldest c.excess).2.entries := by
  rw [entries_sweep, excess]
  split
  · -- nobody is picked
    have hall : ∀ p ∈ c.entries, (!(c.picked 0).contains p.1) = true := fun _ _ => rfl
    exact (List.filter_eq_self.2 hall).symm
  · rfl

/-- Only the entries matter for what an eviction leaves. -/
theorem EvictsOldest.congr {used : String → Option Nat} {n : Nat} {c d d' : Cache α}
    (h : EvictsOldest used n c d) (hentries : d'.entries = d.entries) (hd : d.Exact)
    (hd' : d'.Exact) : EvictsOldest used n c d' := by
  have hlost : lost c d' = lost c d := by rw [lost, lost, hentries]
  refine ⟨by rw [hlost]; exact h.count, ?_, fun p hp q hq => ?_, fun q hq => ?_⟩
  · rw [hd'.size_eq, hentries, ← hd.size_eq]
    exact h.size
  · rw [hlost] at hp
    rw [hentries] at hq
    exact h.oldest p hp q hq
  · rw [hentries] at hq
    exact h.kept q hq

theorem Exact.evictsOldest_sweep {c : Cache α} (h : c.Exact) {used : String → Option Nat}
    (hused : c.Tells used) : EvictsOldest used c.excess c c.sweep :=
  (h.evictsOldest hused c.excess).congr (entries_sweep_eq c) (h.evictOldest _) (exact_kept.sweep h)

/-- Times of use, counted from a start, are told by the words. -/
theorem tells_of_shown {c : Cache α} (start : Nat) {used : String → Option Nat}
    (h : ∀ p ∈ c.entries, ∃ t, used p.1 = some t ∧ start ≤ t ∧ p.2.accessedAt = t - start) :
    c.Tells used := by
  intro p hp q hq hle
  obtain ⟨s, hs, hbegun, hfirst⟩ := h p hp
  obtain ⟨t, ht, hbegun', hsecond⟩ := h q hq
  exact ⟨s, t, hs, ht, by omega⟩

variable {x : World α} {es : List (Event α)} {n : Nat}

theorem shown_worldAt (hx : Fresh x) (hage : (worldAt x es n).now - x.now < UInt64.size) :
    ∀ p ∈ (worldAt x es n).cache.entries,
      ∃ t, lastUse x es n p.1 = some t ∧ x.now ≤ t ∧ p.2.accessedAt = t - x.now := by
  intro p hp
  have hread := Table.get?_of_mem (worldAt_exact hx.exact es n).nodup hp
  obtain ⟨t, ht, hbegun, -, hword⟩ := lastUse_shown hx hage hread
  exact ⟨t, ht, hbegun, hword⟩

/-- **The words tell the last uses**, until they turn over. -/
theorem worldAt_tells (hx : Fresh x) (hage : (worldAt x es n).now - x.now < UInt64.size) :
    (worldAt x es n).cache.Tells (lastUse x es n) :=
  tells_of_shown x.now (shown_worldAt hx hage)

/-- When keys were last used, once something has been stored under one of them. -/
def lastUseStored (x : World α) (es : List (Event α)) (n : Nat) (key k : String) : Option Nat :=
  if k = key then some (worldAt x es n).now else lastUse x es n k

theorem storedAlone_tells (hx : Fresh x) (hage : (worldAt x es n).now - x.now < UInt64.size)
    (key : String) (value : α) (ttl : Nat) (order : List String) :
    ((worldAt x es n).storedAlone key value ttl order).Tells (lastUseStored x es n key) := by
  have hexact := worldAt_exact hx.exact es n
  have hbegun : x.now ≤ (worldAt x es n).now := now_mono x es (Nat.zero_le n)
  have hepoch : (worldAt x es n).cache.epoch = x.now := (settings_worldAt x es n).epoch.trans hx.epoch
  refine tells_of_shown x.now fun p hp => ?_
  have hset : p ∈ ((worldAt x es n).cache.set (worldAt x es n).now key value ttl).entries :=
    (entries_rearranged_perm _ order).mem_iff.1 hp
  have hread := Table.get?_of_mem (hexact.set (worldAt x es n).now key value ttl).nodup hset
  unfold lastUseStored
  rw [entries_set] at hread
  by_cases hkey : p.1 = key
  · rw [hkey, Table.get?_put_self] at hread
    rw [if_pos hkey, ← Option.some.inj hread]
    refine ⟨_, rfl, hbegun, ?_⟩
    rw [← hepoch]
    exact stamp_of_lt (by rw [hepoch]; exact hage)
  · rw [Table.get?_put_of_ne _ _ hkey] at hread
    rw [if_neg hkey]
    exact shown_worldAt hx hage p (Table.mem_of_get? hread)

/-- Whom evictions take after the first events of a run. -/
structure Evictions (x : World α) (es : List (Event α)) (n : Nat) : Prop where
  /-- An eviction on demand. -/
  asked : ∀ m, ((worldAt x es n).cache.evictOldest m).1 = min m (worldAt x es n).cache.size ∧
    EvictsOldest (lastUse x es n) m (worldAt x es n).cache
      (step (worldAt x es n) (.evictOldest m)).cache
  /-- A sweep of the background. -/
  swept : (worldAt x es n).queued ≠ 0 →
    EvictsOldest (lastUse x es n) (worldAt x es n).cache.excess (worldAt x es n).cache
      (step (worldAt x es n) (.chore .sweep)).cache
  /-- A sweep that runs as soon as it is asked for, once the value has been stored. -/
  sweptAlone : ∀ key value ttl order,
    Tended.called (worldAt x es n).cache ((worldAt x es n).storedAlone key value ttl order) ≠ [] →
      EvictsOldest (lastUseStored x es n key)
        ((worldAt x es n).storedAlone key value ttl order).excess
        ((worldAt x es n).storedAlone key value ttl order)
        (step (worldAt x es n) (.setAlone key value ttl order)).cache

/-- **Evictions are exact**: on demand and in sweeps as many entries go as should, and those that
were used least recently, until the word of their last use turns over. -/
theorem eviction_exact (name : String) (capacity start : Nat) (es : List (Event α)) (n : Nat)
    (hage : (worldAt (dawn name capacity start) es n).now - start < UInt64.size) :
    Evictions (dawn name capacity start) es n := by
  have hnew : Fresh (dawn name capacity start : World α) := dawn_fresh name capacity start
  have hexact := worldAt_exact hnew.exact es n
  have htells := worldAt_tells hnew hage
  refine ⟨fun m => ⟨hexact.fst_evictOldest m, hexact.evictsOldest htells m⟩, fun hq => ?_,
    fun key value ttl order hcalled => ?_⟩
  · simp only [step, if_neg hq]
    exact hexact.evictsOldest_sweep htells
  · simp only [step, sweepIfCalled, if_neg hcalled]
    exact ((hexact.set _ _ _ _).rearranged order).evictsOldest_sweep
      (storedAlone_tells hnew hage key value ttl order)

/-- Five values, two of which are looked up again and one of which is stored again. -/
def usedInTurn : List (Event Nat) :=
  [.set "a" 1 100, .pass 1, .set "b" 2 100, .pass 1, .set "c" 3 1, .set "d" 4 100, .pass 1,
    .set "e" 5 100, .pass 1, .get "a", .pass 1, .set "b" 6 100, .get "c"]

theorem usedInTurn_exact :
    (worldAt (dawn "c" 5 0) usedInTurn 13).now - 0 < UInt64.size ∧
    Evictions (dawn "c" 5 0) usedInTurn 13 ∧
    Table.keys (step (worldAt (dawn "c" 5 0) usedInTurn 13) (.evictOldest 2)).cache.entries =
      ["a", "b"] := by
  have hage : (worldAt (dawn "c" 5 0) usedInTurn 13).now - 0 < UInt64.size := by decide
  refine ⟨hage, eviction_exact "c" 5 0 usedInTurn 13 hage, ?_⟩
  have hentries : (worldAt (dawn "c" 5 0) usedInTurn 13).cache.entries =
      [("a", ⟨1, 100, 4⟩), ("b", ⟨6, 105, 5⟩), ("d", ⟨4, 102, 2⟩), ("e", ⟨5, 103, 3⟩)] := rfl
  have hpicked : (worldAt (dawn "c" 5 0) usedInTurn 13).cache.picked 2 = ["d", "e"] := by
    rw [picked, keysByUse, hentries]
    simp [List.mergeSort, List.MergeSort.Internal.splitInTwo]
  have hstep : (step (worldAt (dawn "c" 5 0) usedInTurn 13) (.evictOldest 2)).cache.entries =
      ((worldAt (dawn "c" 5 0) usedInTurn 13).cache.evictOldest 2).2.entries := rfl
  rw [hstep, entries_evictOldest, hpicked, hentries]
  rfl

end RegistryLookup.Cache
