/-!
# Tables

A table is a list of keys with their values, in the order in which the keys came in. `put`
replaces the value of a key that is there and otherwise adds the key at the end, so a table
that starts empty never holds a key twice.

* `get?_put_self`, `get?_put_of_ne`: a written key reads back, other keys keep their value.
* `get?_erase_self`, `get?_erase_of_ne`: an erased key is gone, other keys stay.
* `nodup_keys_put`, `nodup_keys_erase`, `nodup_keys_filter`: no key ever comes twice.
-/

namespace RegistryLookup

/-- Keys with values, oldest key first. -/
abbrev Table (κ ν : Type) := List (κ × ν)

namespace Table

variable {κ ν : Type} [DecidableEq κ]

/-- The value of a key. -/
def get? (t : Table κ ν) (k : κ) : Option ν := (t.find? (fun p => p.1 = k)).map (·.2)

/-- Whether a key is there. -/
def has (t : Table κ ν) (k : κ) : Bool := t.any (fun p => p.1 = k)

/-- Write a key: in place if it is there, at the end if it is new. -/
def put : Table κ ν → κ → ν → Table κ ν
  | [], k, v => [(k, v)]
  | p :: t, k, v => if p.1 = k then (k, v) :: t else p :: put t k v

/-- Take a key out. -/
def erase (t : Table κ ν) (k : κ) : Table κ ν := t.filter (fun p => p.1 ≠ k)

/-- The keys, oldest first. -/
def keys (t : Table κ ν) : List κ := t.map (·.1)

@[simp] theorem get?_nil (k : κ) : get? ([] : Table κ ν) k = none := rfl

theorem get?_cons (p : κ × ν) (t : Table κ ν) (k : κ) :
    get? (p :: t) k = if p.1 = k then some p.2 else get? t k := by
  by_cases h : p.1 = k <;> simp [get?, h]

/-- A key that was written reads back. -/
theorem get?_put_self (t : Table κ ν) (k : κ) (v : ν) : get? (put t k v) k = some v := by
  induction t with
  | nil => simp [put, get?_cons]
  | cons p t ih => by_cases h : p.1 = k <;> simp [put, get?_cons, h, ih]

/-- A write leaves the values of the other keys alone. -/
theorem get?_put_of_ne (t : Table κ ν) {k j : κ} (v : ν) (hj : j ≠ k) :
    get? (put t k v) j = get? t j := by
  induction t with
  | nil => simp [put, get?_cons, Ne.symm hj]
  | cons p t ih =>
    by_cases h : p.1 = k
    · simp [put, h, get?_cons, Ne.symm hj]
    · simp [put, h, get?_cons, ih]

theorem get?_erase_self (t : Table κ ν) (k : κ) : get? (erase t k) k = none := by
  simp [get?, erase]

/-- The other keys keep their values when one is taken out. -/
theorem get?_erase_of_ne (t : Table κ ν) {k j : κ} (hj : j ≠ k) :
    get? (erase t k) j = get? t j := by
  induction t with
  | nil => rfl
  | cons p t ih =>
    have ih' : get? (List.filter (fun p => decide (p.1 ≠ k)) t) j = get? t j := ih
    by_cases h : p.1 = k
    · simp only [erase, List.filter_cons, h, ne_eq, not_true_eq_false, decide_false,
        Bool.false_eq_true, if_false, get?_cons]
      rw [if_neg (Ne.symm hj)]
      exact ih'
    · simp only [erase, List.filter_cons, h, ne_eq, not_false_eq_true, decide_true, if_true,
        get?_cons]
      exact congrArg _ ih'

/-- A write adds the key that it writes, and takes none away. -/
theorem mem_keys_put (t : Table κ ν) (k : κ) (v : ν) (j : κ) :
    j ∈ keys (put t k v) ↔ j = k ∨ j ∈ keys t := by
  induction t with
  | nil => simp [put, keys]
  | cons p t ih =>
    by_cases h : p.1 = k
    · subst h; simp [put, keys]
    · simp only [put, h, if_false, keys, List.map_cons, List.mem_cons] at *
      rw [ih]; grind

/-- **No key ever comes twice**: a key that is there is written in place. -/
theorem nodup_keys_put {t : Table κ ν} (h : (keys t).Nodup) (k : κ) (v : ν) :
    (keys (put t k v)).Nodup := by
  induction t with
  | nil => simp [put, keys]
  | cons p t ih =>
    by_cases hp : p.1 = k
    · subst hp; simpa [put, keys] using h
    · have h' : p.1 ∉ keys t ∧ (keys t).Nodup := by simpa [keys] using h
      have hm : p.1 ∉ keys (put t k v) := by
        rw [mem_keys_put]; exact fun e => e.elim hp h'.1
      simpa [put, hp, keys] using And.intro hm (ih h'.2)

omit [DecidableEq κ] in
theorem nodup_keys_filter {t : Table κ ν} (h : (keys t).Nodup) (f : κ × ν → Bool) :
    (keys (t.filter f)).Nodup :=
  h.sublist (List.filter_sublist.map _)

theorem nodup_keys_erase {t : Table κ ν} (h : (keys t).Nodup) (k : κ) :
    (keys (erase t k)).Nodup :=
  nodup_keys_filter h _

end Table

end RegistryLookup
