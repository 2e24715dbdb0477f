import RegistryLookup.Cache.Tended
import RegistryLookup.Proofs.Table

/-!
# The entry of a key after each operation

An operation of the cache keeps the entry of a key until it expires, unless the entry is evicted
or overwritten (`Cache.Holds`). And what it keeps was there before, unless it has just been stored
(`Cache.Has`).
-/

namespace RegistryLookup

namespace Table

variable {κ ν : Type} [DecidableEq κ]

/-- A pair that is read and passes a filter is still read. -/
theorem get?_filter {t : Table κ ν} {k : κ} {v : ν} (h : get? t k = some v) {f : κ × ν → Bool}
    (hf : f (k, v) = true) : get? (t.filter f) k = some v := by
  induction t with
  | nil => cases h
  | cons p t ih =>
    rw [get?_cons] at h
    split at h
    · rename_i hk
      cases h
      subst hk
      rw [List.filter_cons_of_pos hf, get?_cons, if_pos rfl]
    · rename_i hk
      rw [List.filter_cons]
      split
      · rw [get?_cons, if_neg hk]; exact ih h
      · exact ih h

/-- What a filter by keys leaves is read as before. -/
theorem get?_filter_keys (t : Table κ ν) (f : κ → Bool) (k : κ) :
    get? (t.filter (fun p => f p.1)) k = if f k then get? t k else none := by
  induction t with
  | nil => simp
  | cons p t ih =>
    rw [get?_cons, List.filter_cons]
    by_cases hk : p.1 = k
    · subst hk
      by_cases hf : f p.1 = true
      · rw [if_pos hf, get?_cons, if_pos rfl, if_pos rfl, if_pos hf]
      · rw [if_neg hf, ih, if_neg hf]
        simp [hf]
    · rw [if_neg hk]
      by_cases hf : f p.1 = true
      · rw [if_pos hf, get?_cons, if_neg hk, ih]
      · rw [if_neg hf, ih]

end Table

namespace Cache

variable {α : Type}

/-- A key can be found in the cache up to an instant, at least. -/
def Holds (c : Cache α) (key : String) (limit : Nat) : Prop :=
  ∃ e, c.entries.get? key = some e ∧ limit ≤ e.expiresAt

/-- A look-up leaves what is held, unless it has expired. -/
theorem get_holds {c : Cache α} {k : String} {limit : Nat} (h : c.Holds k limit) (now : Nat)
    (key : String) : (c.get now key).2.Holds k limit ∨ limit ≤ now := by
  obtain ⟨e, he, hl⟩ := h
  by_cases hk : k = key
  · subst hk
    unfold get
    simp only [he]
    cases hlive : e.livesAt now with
    | true =>
      left
      rw [if_pos rfl]
      exact ⟨_, Table.get?_put_self _ _ _, hl⟩
    | false =>
      right
      have hpast : e.expiresAt ≤ now := by simpa [Entry.livesAt] using hlive
      omega
  · left
    unfold get
    split
    · split
      · exact ⟨e, (Table.get?_put_of_ne _ _ hk).trans he, hl⟩
      · exact ⟨e, (Table.get?_erase_of_ne _ hk).trans he, hl⟩
    · exact ⟨e, he, hl⟩

/-- Whoever misses a key that was held comes too late. -/
theorem get_miss {c : Cache α} {now : Nat} {key : String} {limit : Nat} (h : c.Holds key limit)
    (hm : (c.get now key).1 = none) : limit ≤ now := by
  obtain ⟨e, he, hl⟩ := h
  unfold get at hm
  simp only [he] at hm
  split at hm
  · cases hm
  · rename_i hlive
    have hpast : e.expiresAt ≤ now := by simpa [Entry.livesAt] using hlive
    omega

theorem entries_set (c : Cache α) (now : Nat) (key : String) (v : α) (ttl : Nat) :
    (c.set now key v ttl).entries = c.entries.put key
      { value := v, expiresAt := now + min ttl longestTtl, accessedAt := c.stamp now } := by
  unfold set
  split <;> rfl

theorem set_holds_self (c : Cache α) (now : Nat) (key : String) (v : α) (ttl : Nat) :
    (c.set now key v ttl).Holds key (now + min ttl longestTtl) :=
  ⟨_, by rw [entries_set]; exact Table.get?_put_self _ _ _, Nat.le_refl _⟩

theorem set_holds_of_ne {c : Cache α} {key k : String} (hk : k ≠ key) {limit : Nat}
    (h : c.Holds k limit) (now : Nat) (v : α) (ttl : Nat) :
    (c.set now key v ttl).Holds k limit := by
  obtain ⟨e, he, hl⟩ := h
  exact ⟨e, by rw [entries_set, Table.get?_put_of_ne _ _ hk]; exact he, hl⟩

/-- An eviction keeps the entry of a key or takes it out. -/
theorem evictOldest_holds {c : Cache α} {k : String} {limit : Nat} (h : c.Holds k limit) (n : Nat) :
    (c.evictOldest n).2.Holds k limit ∨ (c.evictOldest n).2.entries.get? k = none := by
  obtain ⟨e, he, hl⟩ := h
  have hread : (c.evictOldest n).2.entries.get? k =
      if !(c.keysByUse.take n).contains k then c.entries.get? k else none :=
    Table.get?_filter_keys c.entries (fun j => !(c.keysByUse.take n).contains j) k
  -- the key is among those that go, or it is read as before
  by_cases hv : (!(c.keysByUse.take n).contains k) = true
  · rw [if_pos hv] at hread
    exact Or.inl ⟨e, hread.trans he, hl⟩
  · rw [if_neg hv] at hread
    exact Or.inr hread

theorem sweep_holds {c : Cache α} {k : String} {limit : Nat} (h : c.Holds k limit) :
    c.sweep.Holds k limit ∨ c.sweep.entries.get? k = none := by
  have hpending : ({ c with sweepPending := false } : Cache α).Holds k limit := h
  unfold sweep
  simp only
  split
  · exact Or.inl h
  · exact evictOldest_holds hpending _

theorem dropExpired_holds {c : Cache α} {k : String} {limit : Nat} (h : c.Holds k limit)
    (now : Nat) : (c.dropExpired now).2.Holds k limit ∨ limit ≤ now := by
  obtain ⟨e, he, hl⟩ := h
  -- an entry that still lives passes the filter
  cases hlive : e.livesAt now with
  | true =>
    left
    exact ⟨e, Table.get?_filter he (f := fun p => p.2.livesAt now) hlive, hl⟩
  | false =>
    right
    have hpast : e.expiresAt ≤ now := by simpa [Entry.livesAt] using hlive
    omega

/-- A cleanup keeps the entry of a key, or it has expired, or it is evicted. -/
theorem cleanup_holds {c : Cache α} {k : String} {limit : Nat} (h : c.Holds k limit) (now : Nat) :
    (c.cleanup now).2.Holds k limit ∨ limit ≤ now ∨
      ((c.dropExpired now).2.Holds k limit ∧ (c.cleanup now).2.entries.get? k = none) := by
  rcases dropExpired_holds h now with hd | hpast
  · rcases evictOldest_holds hd (c.dropExpired now).2.overage with he | hnone
    · exact Or.inl he
    · exact Or.inr (Or.inr ⟨hd, hnone⟩)
  · exact Or.inr (Or.inl hpast)

/-- A value is in the cache under a key, to be kept up to an instant. -/
def Has (c : Cache α) (key : String) (v : α) (limit : Nat) : Prop :=
  ∃ e, (key, e) ∈ c.entries ∧ e.value = v ∧ e.expiresAt = limit

theorem Has.of_subset {c d : Cache α} (h : ∀ p ∈ d.entries, p ∈ c.entries) {key : String} {v : α}
    {limit : Nat} (hd : d.Has key v limit) : c.Has key v limit := by
  obtain ⟨e, he, hv, hl⟩ := hd
  exact ⟨e, h _ he, hv, hl⟩

/-- What a look-up finds is in the cache and still lives. -/
theorem has_of_hit {c : Cache α} {now : Nat} {key : String} {v : α}
    (h : (c.get now key).1 = some v) : ∃ limit, c.Has key v limit ∧ now < limit := by
  unfold get at h
  cases he : c.entries.get? key with
  | none => simp [he] at h
  | some e =>
    simp only [he] at h
    cases hlive : e.livesAt now with
    | false => simp [hlive] at h
    | true =>
      rw [hlive] at h
      cases h
      exact ⟨e.expiresAt, ⟨e, Table.mem_of_get? he, rfl, rfl⟩, by simpa [Entry.livesAt] using hlive⟩

theorem has_of_get {c : Cache α} {now : Nat} {k key : String} {v : α} {limit : Nat}
    (h : (c.get now k).2.Has key v limit) : c.Has key v limit := by
  obtain ⟨e, he, hv, hl⟩ := h
  unfold get at he
  split at he
  · rename_i e₀ h₀
    split at he
    · -- the entry that was found is marked as used
      rcases Table.mem_put he with heq | hold
      · cases heq
        exact ⟨e₀, Table.mem_of_get? h₀, hv, hl⟩
      · exact ⟨e, hold, hv, hl⟩
    · exact ⟨e, (List.mem_filter.1 he).1, hv, hl⟩
  · exact ⟨e, he, hv, hl⟩

theorem has_of_set {c : Cache α} {now : Nat} {k key : String} {w v : α} {ttl limit : Nat}
    (h : (c.set now k w ttl).Has key v limit) :
    (key = k ∧ v = w ∧ limit = now + min ttl longestTtl) ∨ c.Has key v limit := by
  obtain ⟨e, he, hv, hl⟩ := h
  rw [entries_set] at he
  rcases Table.mem_put he with heq | hold
  · cases heq
    exact Or.inl ⟨rfl, hv.symm, hl.symm⟩
  · exact Or.inr ⟨e, hold, hv, hl⟩

theorem has_of_delete {c : Cache α} {k key : String} {v : α} {limit : Nat}
    (h : (c.delete k).2.Has key v limit) : c.Has key v limit ∧ key ≠ k := by
  obtain ⟨e, he, hv, hl⟩ := h
  unfold delete at he
  split at he
  · obtain ⟨hmem, hne⟩ := List.mem_filter.1 he
    exact ⟨⟨e, hmem, hv, hl⟩, by simpa using hne⟩
  · rename_i hno
    refine ⟨⟨e, he, hv, hl⟩, fun hk => hno ?_⟩
    exact List.any_eq_true.2 ⟨_, he, by simpa using hk⟩

theorem has_of_deleteStartingWith {c : Cache α} {start key : String} {v : α} {limit : Nat}
    (h : (c.deleteStartingWith start).2.Has key v limit) :
    c.Has key v limit ∧ startsWith start key = false := by
  obtain ⟨e, he, hv, hl⟩ := h
  obtain ⟨hmem, hno⟩ := List.mem_filter.1 he
  exact ⟨⟨e, hmem, hv, hl⟩, by simpa using hno⟩

theorem mem_of_mem_evictOldest {c : Cache α} {n : Nat} {p : String × Entry α}
    (h : p ∈ (c.evictOldest n).2.entries) : p ∈ c.entries :=
  (List.mem_filter.1 h).1

theorem mem_of_mem_sweep {c : Cache α} {p : String × Entry α} (h : p ∈ c.sweep.entries) :
    p ∈ c.entries := by
  unfold sweep at h
  simp only at h
  split at h
  · exact h
  · exact mem_of_mem_evictOldest (c := { c with sweepPending := false }) h

theorem mem_of_mem_cleanup {c : Cache α} {now : Nat} {p : String × Entry α}
    (h : p ∈ (c.cleanup now).2.entries) : p ∈ c.entries :=
  (List.mem_filter.1 (mem_of_mem_evictOldest h : p ∈ (c.dropExpired now).2.entries)).1

end Cache

/-- Background work stores nothing. -/
theorem Tended.has_of_perform {α : Type} {t : Tended α} {now : Nat} {timerFirst : Bool}
    {chore : Chore} {key : String} {v : α} {limit : Nat}
    (h : (t.perform now timerFirst chore).cache.Has key v limit) :
    t.cache.Has key v limit := by
  refine Cache.Has.of_subset (fun p hp => ?_) h
  unfold perform at hp
  split at hp
  · split at hp
    · exact Cache.mem_of_mem_sweep hp
    · exact hp
  · split at hp
    · exact hp
    · exact Cache.mem_of_mem_cleanup hp

end RegistryLookup
