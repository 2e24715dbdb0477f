import RegistryLookup.Table

/-!
# Tables read key by key

* `mem_keys_iff`: the keys of a table are those that have a value.
* `mem_of_get?`: a value read back is a pair of the table.
* `mem_put`: a pair of a table is the one that was written, or was there before.
* `countP_put`: how many values of a kind there are after a write.
* `erase_put_self`, `erase_put_of_ne`: writes to a table with and without a key.
* `get?_append_of_some`, `get?_append_of_none`: pairs that are added behind a table do not change
  its values.
* `get?_perm`, `get?_filter_of_nodup`: values in a table in another order, and in what a filter
  keeps.
* `length_put`, `length_erase`: how many pairs there are after a write.
-/

namespace RegistryLookup.Table

variable {κ ν : Type} [DecidableEq κ]

theorem mem_of_get? {t : Table κ ν} {k : κ} {v : ν} (h : get? t k = some v) : (k, v) ∈ t := by
  unfold get? at h
  obtain ⟨p, hp, rfl⟩ := Option.map_eq_some_iff.1 h
  have hk : p.1 = k := by simpa using List.find?_some hp
  rw [← hk]
  exact List.mem_of_find?_eq_some hp

theorem mem_keys_iff (t : Table κ ν) (k : κ) : k ∈ keys t ↔ ∃ v, get? t k = some v := by
  induction t with
  | nil => simp [keys]
  | cons p t ih =>
    rw [get?_cons]
    by_cases hk : p.1 = k
    · rw [if_pos hk]
      exact ⟨fun _ => ⟨p.2, rfl⟩, fun _ => by simp [keys, hk]⟩
    · rw [if_neg hk, ← ih]
      simp [keys, Ne.symm hk]

theorem mem_put {t : Table κ ν} {k : κ} {v : ν} {p : κ × ν} (h : p ∈ put t k v) :
    p = (k, v) ∨ p ∈ t := by
  induction t with
  | nil => exact Or.inl (List.mem_singleton.1 h)
  | cons q t ih =>
    unfold put at h
    split at h
    · rcases List.mem_cons.1 h with rfl | h
      · exact Or.inl rfl
      · exact Or.inr (List.mem_cons_of_mem _ h)
    · rcases List.mem_cons.1 h with rfl | h
      · exact Or.inr List.mem_cons_self
      · exact (ih h).imp_right (List.mem_cons_of_mem _)

/-- A write takes the old value out of a count, and puts the new one in. -/
theorem countP_put (f : ν → Bool) (t : Table κ ν) (k : κ) (v : ν) :
    (put t k v).countP (fun p => f p.2) + (((get? t k).map f).getD false).toNat =
      t.countP (fun p => f p.2) + (f v).toNat := by
  induction t with
  | nil => cases hv : f v <;> simp [put, hv]
  | cons p t ih =>
    rw [get?_cons]
    by_cases hk : p.1 = k
    · simp only [put, hk, if_true, List.countP_cons, Option.map_some, Option.getD_some]
      cases f v <;> cases f p.2 <;> simp
    · simp only [put, hk, if_false, List.countP_cons]
      omega

theorem erase_put_self (t : Table κ ν) (k : κ) (v : ν) : erase (put t k v) k = erase t k := by
  induction t with
  | nil => simp [put, erase]
  | cons p t ih =>
    unfold erase at ih ⊢
    by_cases hp : p.1 = k
    · simp [put, hp]
    · simp only [put, hp, if_false, List.filter_cons, ih]

theorem erase_put_of_ne (t : Table κ ν) {j k : κ} (hj : j ≠ k) (v : ν) :
    erase (put t j v) k = put (erase t k) j v := by
  induction t with
  | nil => simp [put, erase, hj]
  | cons p t ih =>
    unfold erase at ih ⊢
    by_cases hp : p.1 = j
    · simp [put, hp, hj]
    · by_cases hk : p.1 = k
      · simp only [put, hk, Ne.symm hj, if_false, List.filter_cons, ne_eq, not_true_eq_false,
          decide_false, Bool.false_eq_true]
        exact ih
      · simp only [put, hp, if_false, List.filter_cons, hk, ih, ne_eq, not_false_eq_true,
          decide_true, if_true]

theorem get?_of_mem {t : Table κ ν} (h : (keys t).Nodup) {k : κ} {v : ν} (hp : (k, v) ∈ t) :
    get? t k = some v := by
  induction t with
  | nil => cases hp
  | cons p t ih =>
    obtain ⟨hnew, hrest⟩ := List.nodup_cons.1 h
    rw [get?_cons]
    rcases List.mem_cons.1 hp with rfl | hp
    · exact if_pos rfl
    · have hne : p.1 ≠ k := fun hk => hnew (List.mem_map.2 ⟨(k, v), hp, hk.symm⟩)
      rw [if_neg hne]
      exact ih hrest hp

theorem get?_append_of_some {t u : Table κ ν} {k : κ} {v : ν} (h : get? t k = some v) :
    get? (t ++ u) k = some v := by
  unfold get? at h ⊢
  obtain ⟨p, hp, hv⟩ := Option.map_eq_some_iff.1 h
  rw [List.find?_append, hp, Option.some_or, Option.map_some, hv]

theorem get?_append_of_none {t : Table κ ν} (u : Table κ ν) {k : κ} (h : get? t k = none) :
    get? (t ++ u) k = get? u k := by
  unfold get? at h ⊢
  rw [List.find?_append, Option.map_eq_none_iff.1 h, Option.none_or]

/-- Values do not depend on the order of the pairs. -/
theorem get?_perm {t u : Table κ ν} (h : (keys t).Nodup) (hp : u.Perm t) (k : κ) :
    get? u k = get? t k := by
  have hu : (keys u).Nodup := (hp.map _).nodup_iff.2 h
  ext v
  constructor
  · intro hv
    exact get?_of_mem h (hp.mem_iff.1 (mem_of_get? hv))
  · intro hv
    exact get?_of_mem hu (hp.mem_iff.2 (mem_of_get? hv))

/-- A filter keeps the value of a key if it keeps the pair. -/
theorem get?_filter_of_nodup {t : Table κ ν} (h : (keys t).Nodup) (f : κ × ν → Bool) (k : κ) :
    get? (t.filter f) k = (get? t k).filter (fun v => f (k, v)) := by
  have hf : (keys (t.filter f)).Nodup := nodup_keys_filter h f
  ext v
  rw [Option.filter_eq_some_iff]
  constructor
  · intro hv
    obtain ⟨hmem, hkeep⟩ := List.mem_filter.1 (mem_of_get? hv)
    exact ⟨get?_of_mem h hmem, hkeep⟩
  · rintro ⟨hv, hkeep⟩
    exact get?_of_mem hf (List.mem_filter.2 ⟨mem_of_get? hv, hkeep⟩)

theorem has_iff_mem_keys (t : Table κ ν) (k : κ) : has t k = true ↔ k ∈ keys t := by
  unfold has keys
  rw [List.any_eq_true, List.mem_map]
  exact exists_congr fun p => and_congr_right fun _ => decide_eq_true_iff

theorem length_put (t : Table κ ν) (k : κ) (v : ν) :
    (put t k v).length = t.length + if has t k then 0 else 1 := by
  induction t with
  | nil => rfl
  | cons p t ih =>
    by_cases hp : p.1 = k
    · simp [put, has, hp]
    · have hrest : has (p :: t) k = has t k := by simp [has, hp]
      rw [hrest, put, if_neg hp, List.length_cons, ih, List.length_cons]
      omega

/-- An erased key takes one pair with it. -/
theorem length_erase {t : Table κ ν} (h : (keys t).Nodup) {k : κ} (hk : has t k = true) :
    (erase t k).length + 1 = t.length := by
  induction t with
  | nil => cases hk
  | cons p t ih =>
    obtain ⟨hnew, hrest⟩ := List.nodup_cons.1 h
    by_cases hp : p.1 = k
    · -- no other pair has the key
      have hother : ∀ q ∈ t, decide (q.1 ≠ k) = true := by
        intro q hq
        exact decide_eq_true fun hqk => hnew (List.mem_map.2 ⟨q, hq, hqk.trans hp.symm⟩)
      have hkept : erase (p :: t) k = t := by
        unfold erase
        rw [List.filter_cons_of_neg (by simp [hp]), List.filter_eq_self.2 hother]
      rw [hkept, List.length_cons]
    · have hin : has t k = true := by simpa [has, hp] using hk
      have hcons : erase (p :: t) k = p :: erase t k := by simp [erase, hp]
      rw [hcons, List.length_cons, List.length_cons, ih hrest hin]

end RegistryLookup.Table
