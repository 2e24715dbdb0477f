import Mathlib.Data.List.Nodup
import RegistryLookup.Cache.Tended
import RegistryLookup.Proofs.Trace

/-!
# Runs of a cache

Values are stored, looked up and deleted, entries are evicted and cleaned up, the cache is closed,
and time passes. Where there is a background, a sweep that is asked for is handed to it, and it
runs what was handed to it at some later time; it may also clean up at any time. Where there is
none, a sweep runs as soon as it is asked for. Every list of events is a run: an event that cannot
happen changes nothing.

A table promises no order of its keys, and of entries that were used at the same instant any may be
evicted first. So the table may come into any other order at any time (`rearranged_of_perm`).

* `World`, `Event`, `step`, `worldAt`: a run.
* `chosen`: the keys that the evictions of an event choose.
* `Kept`: what every operation keeps. `Kept.step`, `Kept.worldAt`: every event and every run keep it.
-/

namespace RegistryLookup.Cache

variable {α : Type}

/-- The cache with its table in another order: the keys of a list first, one after another. -/
def rearranged (c : Cache α) (order : List String) : Cache α :=
  { c with entries := c.entries.mergeSort (fun p q => order.idxOf p.1 ≤ order.idxOf q.1) }

/-- What can happen. -/
inductive Event (α : Type)
  /-- A value is stored, and a sweep that is asked for is handed to the background. -/
  | set (key : String) (value : α) (ttl : Nat)
  /-- A value is stored where there is no background, and the table comes into an order. A sweep
  that is asked for runs at once. -/
  | setAlone (key : String) (value : α) (ttl : Nat) (order : List String)
  | get (key : String)
  | delete (key : String)
  | deleteStartingWith (start : String)
  | evictOldest (n : Nat)
  | cleanup
  | close
  /-- The background does a piece of its work. -/
  | chore (chore : Tended.Chore)
  /-- The table comes into another order. -/
  | rearrange (order : List String)
  /-- Time passes. -/
  | pass (duration : Nat)

/-- A cache and the time. -/
structure World (α : Type) where
  now : Nat
  cache : Cache α
  /-- The sweeps that were handed to the background and have not begun. -/
  queued : Nat := 0

/-- The sweep that a change of the cache calls for runs at once. -/
def sweepIfCalled (before after : Cache α) : Cache α :=
  if Tended.called before after = [] then after else after.sweep

/-- The cache of a value that is stored where there is no background, before a sweep. -/
def World.storedAlone (x : World α) (key : String) (value : α) (ttl : Nat) (order : List String) :
    Cache α :=
  (x.cache.set x.now key value ttl).rearranged order

/-- The world after an event. -/
def step (x : World α) : Event α → World α
  | .set key value ttl =>
    { x with
      cache := x.cache.set x.now key value ttl
      queued := x.queued + (Tended.called x.cache (x.cache.set x.now key value ttl)).length }
  | .setAlone key value ttl order =>
    { x with cache := sweepIfCalled x.cache (x.storedAlone key value ttl order) }
  | .get key => { x with cache := (x.cache.get x.now key).2 }
  | .delete key => { x with cache := (x.cache.delete key).2 }
  | .deleteStartingWith start => { x with cache := (x.cache.deleteStartingWith start).2 }
  | .evictOldest n => { x with cache := (x.cache.evictOldest n).2 }
  | .cleanup => { x with cache := (x.cache.cleanup x.now).2 }
  | .close => { x with cache := x.cache.close }
  | .chore .sweep =>
    if x.queued = 0 then x else { x with cache := x.cache.sweep, queued := x.queued - 1 }
  | .chore .tick => { x with cache := (x.cache.cleanup x.now).2 }
  | .rearrange order => { x with cache := x.cache.rearranged order }
  | .pass duration => { x with now := x.now + duration }

/-- A new cache, before the first event. -/
def dawn (name : String) (capacity now : Nat) : World α where
  now := now
  cache := make name capacity now

/-- The world after the first `n` events. -/
abbrev worldAt (x : World α) (es : List (Event α)) (n : Nat) : World α := Trace.after step x es n

theorem worldAt_zero (x : World α) (es : List (Event α)) : worldAt x es 0 = x := Trace.after_zero

theorem worldAt_succ (x : World α) {es : List (Event α)} {n : Nat} {e : Event α}
    (he : es[n]? = some e) : worldAt x es (n + 1) = step (worldAt x es n) e :=
  Trace.after_of_getElem? he

theorem worldAt_cases (x : World α) (es : List (Event α)) (n : Nat) :
    (es[n]? = none ∧ worldAt x es (n + 1) = worldAt x es n) ∨
      ∃ e, es[n]? = some e ∧ worldAt x es (n + 1) = step (worldAt x es n) e :=
  Trace.after_cases step x es n

/-- The keys that an eviction of `n` entries chooses. -/
def picked (c : Cache α) (n : Nat) : List String := c.keysByUse.take n

/-- The keys that a sweep chooses. -/
def sweepPicked (c : Cache α) : List String :=
  if c.overage = 0 then [] else c.picked (c.overage + c.capacity / 10)

/-- The keys that a cleanup chooses, besides those that have expired. -/
def cleanupPicked (c : Cache α) (now : Nat) : List String :=
  (c.dropExpired now).2.picked (c.dropExpired now).2.overage

/-- The keys that the evictions of an event choose. -/
def chosen (x : World α) : Event α → List String
  | .setAlone key value ttl order =>
    if Tended.called x.cache (x.storedAlone key value ttl order) = [] then []
    else (x.storedAlone key value ttl order).sweepPicked
  | .evictOldest n => x.cache.picked n
  | .cleanup => x.cache.cleanupPicked x.now
  | .chore .sweep => if x.queued = 0 then [] else x.cache.sweepPicked
  | .chore .tick => x.cache.cleanupPicked x.now
  | _ => []

theorem entries_rearranged_perm (c : Cache α) (order : List String) :
    (c.rearranged order).entries.Perm c.entries :=
  List.mergeSort_perm _ _

/-- A table can come into every order. -/
theorem rearranged_of_perm {c : Cache α} {t : Table String (Entry α)} (ht : t.Perm c.entries)
    (h : (Table.keys t).Nodup) : (c.rearranged (Table.keys t)).entries = t := by
  have hperm : (c.rearranged (Table.keys t)).entries.Perm t :=
    (entries_rearranged_perm c _).trans ht.symm
  -- both tables are sorted by the places of the keys
  have hsorted : (c.rearranged (Table.keys t)).entries.Pairwise (fun p q =>
      decide ((Table.keys t).idxOf p.1 ≤ (Table.keys t).idxOf q.1) = true) := by
    refine List.pairwise_mergeSort ?_ ?_ _
    · intro p q r hpq hqr
      simp only [decide_eq_true_eq] at hpq hqr ⊢
      omega
    · intro p q
      simp only [Bool.or_eq_true, decide_eq_true_eq]
      omega
  have hplaces : t.Pairwise (fun p q =>
      decide ((Table.keys t).idxOf p.1 ≤ (Table.keys t).idxOf q.1) = true) := by
    rw [List.pairwise_iff_getElem]
    intro i j hi hj hij
    have hplace : ∀ m (hm : m < t.length), (Table.keys t).idxOf t[m].1 = m := by
      intro m hm
      have hlen : m < (Table.keys t).length := by rw [Table.keys, List.length_map]; exact hm
      have hkey : (Table.keys t)[m] = t[m].1 := List.getElem_map _
      rw [← hkey]
      exact h.idxOf_getElem m hlen
    rw [hplace i hi, hplace j hj]
    exact decide_eq_true (Nat.le_of_lt hij)
  refine List.Perm.eq_of_pairwise ?_ hsorted hplaces hperm
  -- pairs at one place of the list have one key
  intro p q hp hq hpq hqp
  have hplace : (Table.keys t).idxOf p.1 = (Table.keys t).idxOf q.1 :=
    Nat.le_antisymm (of_decide_eq_true hpq) (of_decide_eq_true hqp)
  have hmem : p ∈ t := hperm.mem_iff.1 hp
  have hkey : p.1 = q.1 := (List.idxOf_inj (List.mem_map_of_mem hmem)).1 hplace
  exact List.inj_on_of_nodup_map h hmem hq hkey

/-- A property of caches that every operation keeps. -/
structure Kept (P : Cache α → Prop) : Prop where
  get : ∀ {c}, P c → ∀ now key, P (c.get now key).2
  set : ∀ {c}, P c → ∀ now key value ttl, P (c.set now key value ttl)
  delete : ∀ {c}, P c → ∀ key, P (c.delete key).2
  deleteStartingWith : ∀ {c}, P c → ∀ start, P (c.deleteStartingWith start).2
  evictOldest : ∀ {c}, P c → ∀ n, P (c.evictOldest n).2
  dropExpired : ∀ {c}, P c → ∀ now, P (c.dropExpired now).2
  noteSize : ∀ {c}, P c → P c.noteSize
  /-- The flag of a pending sweep falls. -/
  lower : ∀ {c}, P c → P { c with sweepPending := false }
  close : ∀ {c}, P c → P c.close
  rearranged : ∀ {c}, P c → ∀ order, P (c.rearranged order)

section Kept

variable {P : Cache α → Prop}

theorem Kept.sweep (hP : Kept P) {c : Cache α} (h : P c) : P c.sweep := by
  unfold Cache.sweep
  simp only
  split
  · exact hP.noteSize (hP.lower h)
  · exact hP.noteSize (hP.evictOldest (hP.lower h) _)

theorem Kept.cleanup (hP : Kept P) {c : Cache α} (h : P c) (now : Nat) : P (c.cleanup now).2 :=
  hP.noteSize (hP.evictOldest (hP.dropExpired h now) _)

theorem Kept.sweepIfCalled (hP : Kept P) {before after : Cache α} (h : P after) :
    P (sweepIfCalled before after) := by
  unfold Cache.sweepIfCalled
  split
  · exact h
  · exact hP.sweep h

/-- **What every operation keeps, every event keeps.** -/
theorem Kept.step (hP : Kept P) {x : World α} (h : P x.cache) (e : Event α) :
    P (step x e).cache := by
  cases e with
  | set key value ttl => exact hP.set h _ _ _ _
  | setAlone key value ttl order => exact hP.sweepIfCalled (hP.rearranged (hP.set h _ _ _ _) order)
  | get key => exact hP.get h _ _
  | delete key => exact hP.delete h _
  | deleteStartingWith start => exact hP.deleteStartingWith h _
  | evictOldest n => exact hP.evictOldest h _
  | cleanup => exact hP.cleanup h _
  | close => exact hP.close h
  | chore chore =>
    cases chore with
    | sweep =>
      simp only [Cache.step]
      split
      · exact h
      · exact hP.sweep h
    | tick => exact hP.cleanup h _
  | rearrange order => exact hP.rearranged h order
  | pass duration => exact h

theorem Kept.worldAt (hP : Kept P) {x : World α} (h : P x.cache) (es : List (Event α)) (n : Nat) :
    P (worldAt x es n).cache :=
  Trace.after_invariant (P := fun y : World α => P y.cache) h (fun _ e _ hy => hP.step hy e) n

end Kept

/-- What a cache is made with. -/
structure SetAs (b c : Cache α) : Prop where
  name : c.name = b.name
  capacity : c.capacity = b.capacity
  epoch : c.epoch = b.epoch

theorem SetAs.refl (c : Cache α) : c.SetAs c := ⟨rfl, rfl, rfl⟩

/-- A cache keeps what it was made with. -/
theorem settings_kept (b : Cache α) : Kept b.SetAs where
  get h now key := by
    unfold Cache.get
    split
    · split <;> exact ⟨h.name, h.capacity, h.epoch⟩
    · exact ⟨h.name, h.capacity, h.epoch⟩
  set h now key value ttl := by
    unfold Cache.set
    split <;> exact ⟨h.name, h.capacity, h.epoch⟩
  delete h key := by
    unfold Cache.delete
    split <;> exact ⟨h.name, h.capacity, h.epoch⟩
  deleteStartingWith h _ := ⟨h.name, h.capacity, h.epoch⟩
  evictOldest h _ := ⟨h.name, h.capacity, h.epoch⟩
  dropExpired h _ := ⟨h.name, h.capacity, h.epoch⟩
  noteSize h := ⟨h.name, h.capacity, h.epoch⟩
  lower h := ⟨h.name, h.capacity, h.epoch⟩
  close h := ⟨h.name, h.capacity, h.epoch⟩
  rearranged h _ := ⟨h.name, h.capacity, h.epoch⟩

theorem settings_worldAt (x : World α) (es : List (Event α)) (n : Nat) :
    x.cache.SetAs (worldAt x es n).cache :=
  (settings_kept x.cache).worldAt (.refl x.cache) es n

theorem now_step (x : World α) (e : Event α) :
    (step x e).now = x.now + match e with | .pass d => d | _ => 0 := by
  cases e with
  | chore chore =>
    cases chore with
    | sweep => simp only [step]; split <;> rfl
    | tick => rfl
  | _ => rfl

theorem now_mono (x : World α) (es : List (Event α)) {m n : Nat} (hmn : m ≤ n) :
    (worldAt x es m).now ≤ (worldAt x es n).now := by
  refine Trace.after_since (P := fun y : World α => (worldAt x es m).now ≤ y.now) hmn
    (Nat.le_refl _) ?_
  intro i _ e _ h
  rw [now_step]
  exact Nat.le_trans h (Nat.le_add_right _ _)

end RegistryLookup.Cache
