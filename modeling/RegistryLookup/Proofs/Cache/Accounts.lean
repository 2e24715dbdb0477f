import Mathlib.Algebra.GroupWithZero.Nat
import RegistryLookup.Proofs.Cache.Count
import RegistryLookup.Proofs.Cache.Entries
import RegistryLookup.Proofs.Cache.Journal

/-!
# The books of a cache

Whatever was stored under a new key is still there, or it was deleted, evicted or dropped for its
age, and it is booked once. Every look-up is a hit or a miss.

* `booked`: the entries that are there, and those that were evicted or had expired.
* `booked_step`, `booked_worldAt`: these are what was stored anew, less what was deleted.
* `hits_worldAt`: hits and misses are the answers of the look-ups.
* `accounts_exact`: all of it at every point of every run, with what the journal shows.
-/

namespace RegistryLookup.Cache

variable {α : Type}

/-- The key, if an event stores something under a key that is not there. -/
def newKey? (x : World α) : Event α → Option String
  | .set key _ _ => if x.cache.entries.has key then none else some key
  | .setAlone key _ _ _ => if x.cache.entries.has key then none else some key
  | _ => none

/-- What the deletion of a key gives back: whether it was there. -/
def deletion? (x : World α) : Event α → Option Bool
  | .delete key => some (x.cache.delete key).1
  | _ => none

/-- What the deletion of all keys that start with a text gives back: how many there were. -/
def removal? (x : World α) : Event α → Option Nat
  | .deleteStartingWith start => some (x.cache.deleteStartingWith start).1
  | _ => none

/-- What a look-up gives back. -/
def answer? (x : World α) : Event α → Option (Option α)
  | .get key => some (x.cache.get x.now key).1
  | _ => none

/-- The entries that are there, and those that were evicted or had expired. -/
def booked (c : Cache α) : Nat := c.entries.length + c.evictions + c.expirations

theorem booked_set (c : Cache α) (now : Nat) (key : String) (value : α) (ttl : Nat) :
    (c.set now key value ttl).booked = c.booked + if c.entries.has key then 0 else 1 := by
  have hlength := congrArg List.length (entries_set c now key value ttl)
  rw [Table.length_put] at hlength
  have hlost : (c.set now key value ttl).evictions = c.evictions ∧
      (c.set now key value ttl).expirations = c.expirations := by
    unfold set
    split <;> exact ⟨rfl, rfl⟩
  rw [booked, booked, hlength, hlost.1, hlost.2]
  omega

theorem booked_get {c : Cache α} (h : c.Exact) (now : Nat) (key : String) :
    (c.get now key).2.booked = c.booked := by
  unfold get
  cases he : c.entries.get? key with
  | none => rfl
  | some e =>
    have hhas : c.entries.has key = true :=
      (Table.has_iff_mem_keys _ _).2 ((Table.mem_keys_iff _ _).2 ⟨e, he⟩)
    simp only
    split
    · simp only [booked, Table.length_put, hhas, if_true, Nat.add_zero]
    · -- the entry that went is booked as expired
      have hlength := Table.length_erase h.nodup hhas
      simp only [booked]
      omega

theorem booked_delete {c : Cache α} (h : c.Exact) (key : String) :
    (c.delete key).2.booked + [(c.delete key).1].count true = c.booked := by
  unfold delete
  cases hhas : c.entries.has key with
  | true =>
    have hlength := Table.length_erase h.nodup hhas
    simp only [if_true, booked, List.count_singleton_self]
    omega
  | false => rfl

theorem booked_deleteStartingWith (c : Cache α) (start : String) :
    (c.deleteStartingWith start).2.booked + (c.deleteStartingWith start).1 = c.booked := by
  have hle := List.length_filter_le (fun p : String × Entry α => !startsWith start p.1) c.entries
  simp only [booked, deleteStartingWith]
  omega

theorem booked_evictOldest (c : Cache α) (n : Nat) : (c.evictOldest n).2.booked = c.booked := by
  have hle := List.length_filter_le
    (fun p : String × Entry α => !(c.keysByUse.take n).contains p.1) c.entries
  simp only [booked, evictOldest]
  omega

theorem booked_dropExpired (c : Cache α) (now : Nat) :
    (c.dropExpired now).2.booked = c.booked := by
  have hle := List.length_filter_le (fun p : String × Entry α => p.2.livesAt now) c.entries
  simp only [booked, dropExpired]
  omega

theorem booked_sweep (c : Cache α) : c.sweep.booked = c.booked := by
  unfold sweep
  simp only
  split
  · rfl
  · exact booked_evictOldest { c with sweepPending := false } _

theorem booked_cleanup (c : Cache α) (now : Nat) : (c.cleanup now).2.booked = c.booked :=
  (booked_evictOldest (c.dropExpired now).2 _).trans (booked_dropExpired c now)

theorem booked_rearranged (c : Cache α) (order : List String) :
    (c.rearranged order).booked = c.booked := by
  have hlength := (entries_rearranged_perm c order).length_eq
  rw [booked, hlength]
  rfl

theorem booked_sweepIfCalled (before after : Cache α) :
    (sweepIfCalled before after).booked = after.booked := by
  unfold sweepIfCalled
  split
  · rfl
  · exact booked_sweep after

/-- What an event stores anew is booked, and what it deletes no more. -/
theorem booked_step {x : World α} (h : x.cache.Exact) (e : Event α) :
    (step x e).cache.booked + (deletion? x e).toList.count true + (removal? x e).toList.sum =
      x.cache.booked + (newKey? x e).toList.length := by
  have hset : ∀ key value ttl, (x.cache.set x.now key value ttl).booked = x.cache.booked +
      (if x.cache.entries.has key then none else some key).toList.length := by
    intro key value ttl
    rw [booked_set]
    split <;> rfl
  cases e with
  | set key value ttl => exact hset key value ttl
  | setAlone key value ttl order =>
    exact (booked_sweepIfCalled _ _).trans ((booked_rearranged _ order).trans (hset key value ttl))
  | get key => exact booked_get h x.now key
  | delete key => exact booked_delete h key
  | deleteStartingWith start => exact booked_deleteStartingWith x.cache start
  | evictOldest n => exact booked_evictOldest x.cache n
  | cleanup => exact booked_cleanup x.cache x.now
  | close => rfl
  | chore chore =>
    cases chore with
    | sweep =>
      simp only [step]
      split
      · rfl
      · exact booked_sweep x.cache
    | tick => exact booked_cleanup x.cache x.now
  | rearrange order => exact booked_rearranged x.cache order
  | pass duration => rfl

variable {x : World α}

/-- **What was stored anew is booked, but for what was deleted.** -/
theorem booked_worldAt (hx : x.cache.Exact) (es : List (Event α)) (n : Nat) :
    (worldAt x es n).cache.booked + (Trace.collected step deletion? x es 0 n).count true +
        (Trace.collected step removal? x es 0 n).sum =
      x.cache.booked + (Trace.collected step newKey? x es 0 n).length := by
  -- by induction on the events
  induction n with
  | zero =>
    rw [worldAt_zero, Trace.collected_self, Trace.collected_self, Trace.collected_self]
    rfl
  | succ n ih =>
    rw [Trace.collected_succ _ (Nat.zero_le n), Trace.collected_succ _ (Nat.zero_le n),
      Trace.collected_succ _ (Nat.zero_le n), List.count_append, List.sum_append,
      List.length_append]
    rcases worldAt_cases x es n with ⟨hnone, hsame⟩ | ⟨e, he, hstep⟩
    · rw [hsame, hnone]
      exact ih
    · have hone := booked_step (worldAt_exact hx es n) e
      rw [hstep]
      simp only [he, Option.bind_some]
      simp only [worldAt] at ih hone ⊢
      omega

/-- An operation that leaves hits and misses. -/
def SameLookups (c d : Cache α) : Prop := d.hits = c.hits ∧ d.misses = c.misses

theorem sameLookups_set (c : Cache α) (now : Nat) (key : String) (value : α) (ttl : Nat) :
    SameLookups c (c.set now key value ttl) := by
  unfold set
  split <;> exact ⟨rfl, rfl⟩

theorem sameLookups_sweep (c : Cache α) : SameLookups c c.sweep := by
  unfold sweep
  simp only
  split <;> exact ⟨rfl, rfl⟩

/-- A look-up that finds a value is a hit, and any other look-up a miss. -/
theorem lookups_get (c : Cache α) (now : Nat) (key : String) :
    (c.get now key).2.hits = c.hits + [(c.get now key).1].countP (·.isSome) ∧
      (c.get now key).2.misses = c.misses + [(c.get now key).1].countP (·.isNone) := by
  unfold get
  split
  · split <;> exact ⟨rfl, rfl⟩
  · exact ⟨rfl, rfl⟩

theorem lookups_step (x : World α) (e : Event α) :
    (step x e).cache.hits = x.cache.hits + (answer? x e).toList.countP (·.isSome) ∧
      (step x e).cache.misses = x.cache.misses + (answer? x e).toList.countP (·.isNone) := by
  cases e with
  | set key value ttl => exact sameLookups_set x.cache x.now key value ttl
  | setAlone key value ttl order =>
    have hstored : SameLookups x.cache (x.storedAlone key value ttl order) :=
      sameLookups_set x.cache x.now key value ttl
    have hswept := sameLookups_sweep (x.storedAlone key value ttl order)
    simp only [step, sweepIfCalled]
    split
    · exact hstored
    · exact ⟨hswept.1.trans hstored.1, hswept.2.trans hstored.2⟩
  | get key => exact lookups_get x.cache x.now key
  | delete key =>
    simp only [step, delete]
    split <;> exact ⟨rfl, rfl⟩
  | chore chore =>
    cases chore with
    | sweep =>
      simp only [step]
      split
      · exact ⟨rfl, rfl⟩
      · exact sameLookups_sweep x.cache
    | tick => exact ⟨rfl, rfl⟩
  | _ => exact ⟨rfl, rfl⟩

/-- **Hits and misses are the answers of the look-ups.** -/
theorem lookups_worldAt (x : World α) (es : List (Event α)) (n : Nat) :
    (worldAt x es n).cache.hits =
        x.cache.hits + (Trace.collected step answer? x es 0 n).countP (·.isSome) ∧
      (worldAt x es n).cache.misses =
        x.cache.misses + (Trace.collected step answer? x es 0 n).countP (·.isNone) := by
  refine Trace.after_collected (f := answer?) (P := fun (y : World α) l =>
    y.cache.hits = x.cache.hits + l.countP (·.isSome) ∧
      y.cache.misses = x.cache.misses + l.countP (·.isNone)) ⟨rfl, rfl⟩ ?_ n
  rintro y l e - ⟨hhits, hmisses⟩
  obtain ⟨hhit, hmiss⟩ := lookups_step y e
  rw [List.countP_append, List.countP_append, hhit, hmiss, hhits, hmisses]
  exact ⟨Nat.add_assoc _ _ _, Nat.add_assoc _ _ _⟩

theorem countP_isSome_add_countP_isNone {β : Type} (l : List (Option β)) :
    l.countP (·.isSome) + l.countP (·.isNone) = l.length := by
  induction l with
  | nil => rfl
  | cons o l ih =>
    rw [List.countP_cons, List.countP_cons, List.length_cons]
    cases o with
    | none =>
      simp only [Option.isSome_none, Option.isNone_none, if_true, Bool.false_eq_true, if_false]
      omega
    | some _ =>
      simp only [Option.isSome_some, Option.isNone_some, if_true, Bool.false_eq_true, if_false]
      omega

/-- The number of entries that is shown is that after the last cleanup or sweep. -/
theorem gauge_worldAt (hx : x.cache.gauge = none) (es : List (Event α)) (n : Nat) :
    (worldAt x es n).cache.gauge = (Trace.collected step sizeLeft x es 0 n).getLast? := by
  refine Trace.after_collected (f := sizeLeft) (P := fun (y : World α) l =>
    y.cache.gauge = l.getLast?) hx ?_ n
  intro y l e _ hy
  rw [gauge_step, hy, List.getLast?_append]
  cases sizeLeft y e <;> rfl

/-- The books of a cache after the first events of a run. -/
structure Accounts (x : World α) (es : List (Event α)) (n : Nat) : Prop where
  /-- No key comes twice. -/
  keys : (Table.keys (worldAt x es n).cache.entries).Nodup
  /-- The count that is kept beside the entries, and the number of entries that is told. -/
  count : (worldAt x es n).cache.count = (worldAt x es n).cache.entries.length
  size : (worldAt x es n).cache.size = (worldAt x es n).cache.entries.length
  /-- Whatever was stored under a new key is still there, or it was deleted, evicted or had
  expired. -/
  stored : (Trace.collected step newKey? x es 0 n).length =
    (worldAt x es n).cache.size + (Trace.collected step deletion? x es 0 n).count true +
      (Trace.collected step removal? x es 0 n).sum + (worldAt x es n).cache.stats.evictions +
        (worldAt x es n).cache.stats.expirations
  hits : (worldAt x es n).cache.stats.hits =
    (Trace.collected step answer? x es 0 n).countP (·.isSome)
  lookups : (worldAt x es n).cache.stats.hits + (worldAt x es n).cache.stats.misses =
    (Trace.collected step answer? x es 0 n).length
  /-- The journal shows every counter. -/
  counters : ∀ m : Counter, (Metrics.reading (worldAt x es n).cache.journal
    (m.series x.cache.name)).getD 0 = m.of (worldAt x es n).cache.stats
  /-- The journal shows the number of entries after the last cleanup or sweep. -/
  gauge : Metrics.reading (worldAt x es n).cache.journal (sizeSeries x.cache.name) =
    (Trace.collected step sizeLeft x es 0 n).getLast?

theorem accounts_of_empty (hexact : x.cache.Exact) (haudited : x.cache.Audited)
    (hbooked : x.cache.booked = 0) (hhits : x.cache.hits = 0) (hmisses : x.cache.misses = 0)
    (hgauge : x.cache.gauge = none) (es : List (Event α)) (n : Nat) : Accounts x es n := by
  have hthen := worldAt_exact hexact es n
  have hbook := booked_worldAt hexact es n
  obtain ⟨hhit, hmiss⟩ := lookups_worldAt x es n
  have hname := (settings_worldAt x es n).name
  have hboth := countP_isSome_add_countP_isNone (Trace.collected step answer? x es 0 n)
  refine ⟨hthen.nodup, hthen.count, hthen.size_eq, ?_, ?_, ?_, ?_, ?_⟩
  · rw [hthen.size_eq]
    simp only [booked, stats] at hbook hbooked ⊢
    omega
  · simp only [stats]
    omega
  · simp only [stats]
    omega
  · intro m
    rw [← hname]
    exact audited_kept.worldAt haudited es n m
  · rw [← hname]
    exact gauge_worldAt hgauge es n

/-- **The books of a cache are exact**, at every point of every run. -/
theorem accounts_exact (name : String) (capacity start : Nat) (es : List (Event α)) (n : Nat) :
    Accounts (dawn name capacity start) es n := by
  have haudited : (dawn name capacity start : World α).cache.Audited :=
    make_audited name capacity start
  have hgauge : (dawn name capacity start : World α).cache.gauge = none := rfl
  exact accounts_of_empty (dawn_exact name capacity start) haudited rfl rfl rfl hgauge es n

end RegistryLookup.Cache
