import RegistryLookup.Proofs.Cache.Run
import RegistryLookup.Proofs.Table

/-!
# The count of entries

The count that a cache keeps beside its entries is that of its entries, and no key comes twice
(`Exact`). Every operation adjusts the count by a rule of its own; all of them keep it exact.

* `Exact.keep`: what is left of the entries by a filter is counted by what went.
* `exact_kept`, `worldAt_exact`: the count is exact at every point of every run.
* `Exact.delete_eq`, `Exact.deleteStartingWith_eq`: what deletions take out and tell.
* `Exact.length_evictOldest`, `Exact.size_sweep`, `Exact.size_cleanup_le`: how many entries
  evictions leave.
-/

namespace RegistryLookup.Cache

variable {α : Type}

/-- The count is that of the entries, and no key comes twice. -/
structure Exact (c : Cache α) : Prop where
  nodup : (Table.keys c.entries).Nodup
  count : c.count = c.entries.length

theorem Exact.size_eq {c : Cache α} (h : c.Exact) : c.size = c.entries.length := by
  rw [size, h.count, Int.toNat_natCast]

theorem Exact.get {c : Cache α} (h : c.Exact) (now : Nat) (key : String) :
    (c.get now key).2.Exact := by
  unfold Cache.get
  cases he : c.entries.get? key with
  | none => exact ⟨h.nodup, h.count⟩
  | some e =>
    have hhas : c.entries.has key = true :=
      (Table.has_iff_mem_keys _ _).2 ((Table.mem_keys_iff _ _).2 ⟨e, he⟩)
    simp only
    split
    · refine ⟨Table.nodup_keys_put h.nodup _ _, ?_⟩
      simp only [Table.length_put, hhas, if_true, Nat.add_zero]
      exact h.count
    · have hlength := Table.length_erase h.nodup hhas
      have hcount := h.count
      refine ⟨Table.nodup_keys_erase h.nodup _, ?_⟩
      simp only
      omega

theorem Exact.set {c : Cache α} (h : c.Exact) (now : Nat) (key : String) (value : α) (ttl : Nat) :
    (c.set now key value ttl).Exact := by
  have hcount := h.count
  unfold Cache.set
  cases hhas : c.entries.has key with
  | true =>
    refine ⟨Table.nodup_keys_put h.nodup _ _, ?_⟩
    simp only [if_true, Table.length_put, hhas, Nat.add_zero]
    exact hcount
  | false =>
    refine ⟨Table.nodup_keys_put h.nodup _ _, ?_⟩
    simp only [Bool.false_eq_true, if_false, Table.length_put, hhas]
    omega

theorem Exact.delete {c : Cache α} (h : c.Exact) (key : String) : (c.delete key).2.Exact := by
  unfold Cache.delete
  cases hhas : c.entries.has key with
  | true =>
    have hlength := Table.length_erase h.nodup hhas
    have hcount := h.count
    refine ⟨Table.nodup_keys_erase h.nodup _, ?_⟩
    simp only [if_true]
    omega
  | false => exact h

/-- What is left of the entries by a filter is counted by what went. -/
theorem Exact.keep {c d : Cache α} (h : c.Exact) {f : String × Entry α → Bool}
    (hentries : d.entries = c.entries.filter f)
    (hcount : d.count = c.count - (c.entries.length - (c.entries.filter f).length : Nat)) :
    d.Exact := by
  have hle : (c.entries.filter f).length ≤ c.entries.length := List.length_filter_le _ _
  have hexact := h.count
  refine ⟨?_, ?_⟩
  · rw [hentries]
    exact Table.nodup_keys_filter h.nodup f
  · rw [hentries, hcount]
    omega

theorem Exact.deleteStartingWith {c : Cache α} (h : c.Exact) (start : String) :
    (c.deleteStartingWith start).2.Exact :=
  h.keep rfl rfl

theorem Exact.evictOldest {c : Cache α} (h : c.Exact) (n : Nat) : (c.evictOldest n).2.Exact :=
  h.keep rfl rfl

theorem Exact.dropExpired {c : Cache α} (h : c.Exact) (now : Nat) : (c.dropExpired now).2.Exact :=
  h.keep rfl rfl

theorem Exact.rearranged {c : Cache α} (h : c.Exact) (order : List String) :
    (c.rearranged order).Exact := by
  have hperm := entries_rearranged_perm c order
  refine ⟨(hperm.map _).nodup_iff.2 h.nodup, ?_⟩
  rw [hperm.length_eq]
  exact h.count

/-- **Every operation keeps the count exact.** -/
theorem exact_kept : Kept (Exact (α := α)) where
  get h := h.get
  set h := h.set
  delete h := h.delete
  deleteStartingWith h := h.deleteStartingWith
  evictOldest h := h.evictOldest
  dropExpired h := h.dropExpired
  noteSize h := ⟨h.nodup, h.count⟩
  lower h := ⟨h.nodup, h.count⟩
  close h := ⟨h.nodup, h.count⟩
  rearranged h := h.rearranged

/-- **The count is exact at every point.** -/
theorem worldAt_exact {x : World α} (h : x.cache.Exact) (es : List (Event α)) (n : Nat) :
    (worldAt x es n).cache.Exact :=
  exact_kept.worldAt h es n

theorem dawn_exact (name : String) (capacity now : Nat) :
    (dawn name capacity now : World α).cache.Exact :=
  ⟨List.nodup_nil, rfl⟩

/-- What is left when some entries go. -/
def without (c : Cache α) (gone : String × Entry α → Prop) [DecidablePred gone] : Cache α :=
  { c with
    entries := c.entries.filter (fun p => ¬ gone p)
    count := (c.entries.filter (fun p => ¬ gone p)).length }

section Deletions

variable {c : Cache α} {gone : String × Entry α → Prop} [DecidablePred gone]

theorem length_without (c : Cache α) (gone : String × Entry α → Prop) [DecidablePred gone] :
    (c.without gone).entries.length + c.entries.countP (fun p => gone p) = c.entries.length := by
  have hsplit := List.length_eq_length_filter_add (l := c.entries) (fun p => decide (gone p))
  simp only [without, decide_not, List.countP_eq_length_filter]
  omega

/-- A group of keys goes as a whole, and the entries that go are counted. -/
theorem Exact.deleteStartingWith_eq (h : c.Exact) {start : String}
    (hgone : ∀ p ∈ c.entries, gone p ↔ startsWith start p.1 = true) :
    c.deleteStartingWith start = (c.entries.countP (fun p => gone p), c.without gone) := by
  have hkept : c.entries.filter (fun p => !startsWith start p.1) = (c.without gone).entries := by
    refine List.filter_congr fun p hp => ?_
    cases hs : startsWith start p.1 with
    | true => simp [(hgone p hp).2 hs]
    | false => simp [show ¬ gone p from fun hg => by rw [(hgone p hp).1 hg] at hs; cases hs]
  have hremoved : c.entries.length - (c.without gone).entries.length =
      c.entries.countP (fun p => gone p) := by
    rw [← length_without c gone, Nat.add_sub_cancel_left]
  have hcount : c.count - (c.entries.countP (fun p => gone p) : Nat) =
      ((c.without gone).entries.length : Nat) := by
    rw [h.count, ← length_without c gone]
    omega
  unfold Cache.deleteStartingWith
  simp only [hkept, hremoved, hcount]
  rfl

/-- At most one entry goes with a key. -/
theorem Exact.countP_gone (h : c.Exact) {key : String}
    (hgone : ∀ p ∈ c.entries, gone p ↔ p.1 = key) :
    c.entries.countP (fun p => gone p) = if c.entries.has key then 1 else 0 := by
  have hlength := length_without c gone
  have hkept : (c.without gone).entries = c.entries.erase key :=
    List.filter_congr fun p hp => decide_eq_decide.2 (not_congr (hgone p hp))
  cases hhas : c.entries.has key with
  | true =>
    have herase := Table.length_erase h.nodup hhas
    rw [hkept] at hlength
    rw [if_pos rfl]
    omega
  | false =>
    refine List.countP_eq_zero.2 fun p hp hg => ?_
    have hkey : p.1 = key := (hgone p hp).1 (of_decide_eq_true hg)
    have hthere : c.entries.has key = true :=
      (Table.has_iff_mem_keys _ _).2 (List.mem_map.2 ⟨p, hp, hkey⟩)
    rw [hhas] at hthere
    cases hthere

/-- A key goes with its entry, if it is there. -/
theorem Exact.delete_eq (h : c.Exact) {key : String}
    (hgone : ∀ p ∈ c.entries, gone p ↔ p.1 = key) :
    c.delete key = (decide (∃ p ∈ c.entries, gone p), c.without gone) := by
  have hkept : c.entries.erase key = (c.without gone).entries :=
    List.filter_congr fun p hp => decide_eq_decide.2 (not_congr (hgone p hp).symm)
  have hthere : (∃ p ∈ c.entries, gone p) ↔ c.entries.has key = true := by
    rw [Table.has_iff_mem_keys, Table.keys, List.mem_map]
    exact exists_congr fun p => and_congr_right fun hp => hgone p hp
  have hlength := length_without c gone
  rw [h.countP_gone hgone] at hlength
  unfold Cache.delete
  cases hhas : c.entries.has key with
  | true =>
    have hleft : c.count - 1 = ((c.without gone).entries.length : Nat) := by
      rw [hhas, if_pos rfl] at hlength
      rw [h.count, ← hlength]
      omega
    rw [if_pos rfl, decide_eq_true (hthere.2 hhas), hkept, hleft]
    rfl
  | false =>
    have hnone : ¬ ∃ p ∈ c.entries, gone p := fun hex => by
      rw [hthere.1 hex] at hhas
      cases hhas
    have hall : (c.without gone).entries = c.entries :=
      List.filter_eq_self.2 fun p hp => decide_eq_true fun hg => hnone ⟨p, hp, hg⟩
    have hsame : c.without gone = c := by
      calc c.without gone = { c with
            entries := (c.without gone).entries
            count := ((c.without gone).entries.length : Nat) } := rfl
        _ = c := by rw [hall, ← h.count]
    rw [if_neg Bool.false_ne_true, decide_eq_false hnone, hsame]

end Deletions

theorem keysByUse_perm (c : Cache α) : c.keysByUse.Perm (Table.keys c.entries) :=
  (List.mergeSort_perm _ _).map _

theorem Exact.nodup_picked {c : Cache α} (h : c.Exact) (n : Nat) : (c.picked n).Nodup :=
  ((keysByUse_perm c).nodup_iff.2 h.nodup).sublist (List.take_sublist _ _)

theorem mem_keys_of_mem_picked {c : Cache α} {n : Nat} {k : String} (h : k ∈ c.picked n) :
    k ∈ Table.keys c.entries :=
  (keysByUse_perm c).mem_iff.1 (List.mem_of_mem_take h)

theorem length_picked (c : Cache α) (n : Nat) : (c.picked n).length = min n c.entries.length := by
  rw [picked, List.length_take, (keysByUse_perm c).length_eq, Table.keys, List.length_map]

/-- An eviction takes as many entries as it should, as far as there are any. -/
theorem Exact.length_evictOldest {c : Cache α} (h : c.Exact) (n : Nat) :
    (c.evictOldest n).2.entries.length = c.entries.length - n := by
  have hsplit := List.length_eq_length_filter_add (l := c.entries)
    (fun p => (c.picked n).contains p.1)
  -- the entries that go are those of the keys that were picked, each once
  have hgo : (c.entries.filter (fun p => (c.picked n).contains p.1)).length =
      (c.picked n).length := by
    have hkeys : (c.entries.filter (fun p => (c.picked n).contains p.1)).map (·.1) =
        (Table.keys c.entries).filter (c.picked n).contains := by
      rw [Table.keys, List.filter_map]
      rfl
    have hperm : ((Table.keys c.entries).filter (c.picked n).contains).Perm (c.picked n) := by
      refine (List.perm_ext_iff_of_nodup (h.nodup.filter _) (h.nodup_picked n)).2 fun k => ?_
      rw [List.mem_filter, List.contains_iff_mem]
      exact ⟨And.right, fun hk => ⟨mem_keys_of_mem_picked hk, hk⟩⟩
    rw [← hperm.length_eq, ← hkeys, List.length_map]
  have hlength := length_picked c n
  show (c.entries.filter (fun p => !(c.picked n).contains p.1)).length = c.entries.length - n
  omega

theorem Exact.size_evictOldest {c : Cache α} (h : c.Exact) (n : Nat) :
    (c.evictOldest n).2.size = c.size - n := by
  rw [(h.evictOldest n).size_eq, h.length_evictOldest, h.size_eq]

/-- A sweep that finds too many entries leaves a tenth of the capacity free; one that finds no more
than there may be takes none. -/
theorem Exact.size_sweep {c : Cache α} (h : c.Exact) :
    c.sweep.size = if c.capacity < c.size then c.capacity - c.capacity / 10 else c.size := by
  have hflag : ({ c with sweepPending := false } : Cache α).Exact := ⟨h.nodup, h.count⟩
  have hover : ({ c with sweepPending := false } : Cache α).overage = c.size - c.capacity := rfl
  unfold Cache.sweep
  simp only [hover]
  by_cases hfits : c.size - c.capacity = 0
  · have hno : ¬ c.capacity < c.size := by omega
    rw [if_pos hfits, if_neg hno]
    rfl
  · have hyes : c.capacity < c.size := by omega
    have hsize := hflag.size_evictOldest (c.size - c.capacity + c.capacity / 10)
    have hsame : ({ c with sweepPending := false } : Cache α).size = c.size := rfl
    rw [if_neg hfits, if_pos hyes]
    show (Cache.evictOldest { c with sweepPending := false } _).2.size = _
    rw [hsize, hsame]
    omega

/-- Entries that are not too many are left alone by a sweep. -/
theorem entries_sweep_of_le {c : Cache α} (h : c.size ≤ c.capacity) :
    c.sweep.entries = c.entries := by
  have hover : ({ c with sweepPending := false } : Cache α).overage = 0 := Nat.sub_eq_zero_of_le h
  unfold Cache.sweep
  simp only [hover, if_true]
  rfl

end RegistryLookup.Cache
