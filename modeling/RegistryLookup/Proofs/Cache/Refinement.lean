import RegistryLookup.Proofs.Cache.Count
import RegistryLookup.Proofs.Cache.Entries

/-!
# A cache as a map with expiry

Expired entries stay in the table until some operation meets them, and sweeps come late. None of
that shows: what a look-up finds is what was stored last, as long as its time is not over and
nothing has taken it out.

* `lookup_get`, `lookup_set_self`, `lookup_delete`, `lookup_evictOldest`, `lookup_cleanup` and their
  like: what each operation does to later look-ups.
* `lookup_step`: all of them as one step of a map.
* `Stands`, `lasts_succ_iff`: the same step, told by the history.
* `lookup_iff`: what a look-up finds is what stands.
* `refines_expiring_map`: at every point of every run.
-/

namespace RegistryLookup.Cache

variable {α : Type}

theorem lookup_eq (c : Cache α) (t : Nat) (k : String) : (c.get t k).1 =
    (c.entries.get? k).bind (fun e => if e.livesAt t then some e.value else none) := by
  unfold get
  cases c.entries.get? k with
  | none => rfl
  | some e =>
    simp only [Option.bind_some]
    split <;> rfl

theorem lookup_congr {c d : Cache α} {k : String} (h : d.entries.get? k = c.entries.get? k)
    (t : Nat) : (d.get t k).1 = (c.get t k).1 := by
  rw [lookup_eq, lookup_eq, h]

theorem lookup_of_none {c : Cache α} {k : String} (h : c.entries.get? k = none) (t : Nat) :
    (c.get t k).1 = none := by
  rw [lookup_eq, h, Option.bind_none]

theorem lookup_of_expired {c : Cache α} {k : String} {e : Entry α} {now t : Nat}
    (h : c.entries.get? k = some e) (hdead : e.livesAt now = false) (ht : now ≤ t) :
    (c.get t k).1 = none := by
  have hpast : ¬ now < e.expiresAt := of_decide_eq_false hdead
  have hlate : e.livesAt t = false := decide_eq_false (by omega)
  rw [lookup_eq, h, Option.bind_some, hlate]
  rfl

/-- A look-up changes no later look-up. -/
theorem lookup_get (c : Cache α) {now t : Nat} (ht : now ≤ t) (key k : String) :
    ((c.get now key).2.get t k).1 = (c.get t k).1 := by
  by_cases hk : k = key
  · subst hk
    cases he : c.entries.get? k with
    | none =>
      have hsame : (c.get now k).2.entries = c.entries := by simp only [get, he]
      exact lookup_congr (by rw [hsame]) t
    | some e =>
      cases hlive : e.livesAt now with
      | true =>
        -- the entry is marked as used, which does not show
        have hentries : (c.get now k).2.entries =
            c.entries.put k { e with accessedAt := max e.accessedAt (c.stamp now) } := by
          simp only [get, he, hlive, if_true]
        rw [lookup_eq, lookup_eq, hentries, Table.get?_put_self, he]
        rfl
      | false =>
        have hentries : (c.get now k).2.entries = c.entries.erase k := by
          simp only [get, he, hlive, Bool.false_eq_true, if_false]
        rw [lookup_of_expired he hlive ht, lookup_of_none]
        rw [hentries]
        exact Table.get?_erase_self _ _
  · refine lookup_congr ?_ t
    unfold get
    split
    · split
      · exact Table.get?_put_of_ne _ _ hk
      · exact Table.get?_erase_of_ne _ hk
    · rfl

theorem lookup_set_self (c : Cache α) (now : Nat) (k : String) (v : α) (ttl t : Nat) :
    ((c.set now k v ttl).get t k).1 = if t < now + min ttl longestTtl then some v else none := by
  rw [lookup_eq, entries_set, Table.get?_put_self, Option.bind_some]
  simp only [Entry.livesAt, decide_eq_true_eq]

theorem lookup_set_of_ne (c : Cache α) (now : Nat) {key k : String} (hk : k ≠ key) (v : α)
    (ttl t : Nat) : ((c.set now key v ttl).get t k).1 = (c.get t k).1 :=
  lookup_congr (by rw [entries_set]; exact Table.get?_put_of_ne _ _ hk) t

theorem lookup_delete (c : Cache α) (key k : String) (t : Nat) :
    ((c.delete key).2.get t k).1 = if key = k then none else (c.get t k).1 := by
  by_cases hk : key = k
  · subst hk
    rw [if_pos rfl]
    refine lookup_of_none ?_ t
    cases hhas : c.entries.has key with
    | true =>
      have hentries : (c.delete key).2.entries = c.entries.erase key := by simp [delete, hhas]
      rw [hentries]
      exact Table.get?_erase_self _ _
    | false =>
      have hsame : (c.delete key).2 = c := by simp [delete, hhas]
      rw [hsame]
      refine Option.eq_none_iff_forall_ne_some.2 fun e he => ?_
      have hmem := (Table.mem_keys_iff _ _).2 ⟨e, he⟩
      exact absurd ((Table.has_iff_mem_keys _ _).2 hmem) (by rw [hhas]; decide)
  · rw [if_neg hk]
    refine lookup_congr ?_ t
    unfold delete
    split
    · exact Table.get?_erase_of_ne _ (Ne.symm hk)
    · rfl

theorem lookup_deleteStartingWith (c : Cache α) (start k : String) (t : Nat) :
    ((c.deleteStartingWith start).2.get t k).1 =
      if startsWith start k then none else (c.get t k).1 := by
  have hread : (c.deleteStartingWith start).2.entries.get? k =
      if !startsWith start k then c.entries.get? k else none :=
    Table.get?_filter_keys c.entries (fun j => !startsWith start j) k
  cases hk : startsWith start k with
  | true =>
    rw [hk] at hread
    exact lookup_of_none hread t
  | false =>
    rw [hk] at hread
    exact lookup_congr hread t

theorem lookup_evictOldest (c : Cache α) (n : Nat) (k : String) (t : Nat) :
    ((c.evictOldest n).2.get t k).1 = if k ∈ c.picked n then none else (c.get t k).1 := by
  have hread : (c.evictOldest n).2.entries.get? k =
      if !(c.picked n).contains k then c.entries.get? k else none :=
    Table.get?_filter_keys c.entries (fun j => !(c.picked n).contains j) k
  by_cases hk : k ∈ c.picked n
  · rw [List.contains_iff_mem.2 hk] at hread
    rw [if_pos hk]
    exact lookup_of_none hread t
  · have hno : (c.picked n).contains k = false := by
      rw [Bool.eq_false_iff]
      exact fun hc => hk (List.contains_iff_mem.1 hc)
    rw [hno] at hread
    rw [if_neg hk]
    exact lookup_congr hread t

theorem lookup_noteSize (c : Cache α) (k : String) (t : Nat) :
    (c.noteSize.get t k).1 = (c.get t k).1 :=
  lookup_congr (c := c) (d := c.noteSize) rfl t

theorem entries_sweep (c : Cache α) : c.sweep.entries =
    if c.overage = 0 then c.entries
    else (c.evictOldest (c.overage + c.capacity / 10)).2.entries := by
  have hover : ({ c with sweepPending := false } : Cache α).overage = c.overage := rfl
  unfold sweep
  simp only [hover]
  split <;> rfl

theorem lookup_sweep (c : Cache α) (k : String) (t : Nat) :
    (c.sweep.get t k).1 = if k ∈ c.sweepPicked then none else (c.get t k).1 := by
  have hentries := entries_sweep c
  unfold sweepPicked
  by_cases hfits : c.overage = 0
  · rw [if_pos hfits] at hentries
    rw [if_pos hfits, if_neg List.not_mem_nil]
    exact lookup_congr (congrArg (·.get? k) hentries) t
  · rw [if_neg hfits] at hentries
    rw [if_neg hfits, ← lookup_evictOldest]
    exact lookup_congr (congrArg (·.get? k) hentries) t

/-- What has expired is not found any more, so that nobody misses it. -/
theorem lookup_dropExpired {c : Cache α} (h : c.Exact) {now t : Nat} (ht : now ≤ t) (k : String) :
    ((c.dropExpired now).2.get t k).1 = (c.get t k).1 := by
  have hread : (c.dropExpired now).2.entries.get? k =
      (c.entries.get? k).filter (fun e => e.livesAt now) :=
    Table.get?_filter_of_nodup h.nodup (fun p => p.2.livesAt now) k
  cases he : c.entries.get? k with
  | none =>
    rw [he] at hread
    exact lookup_congr (hread.trans he.symm) t
  | some e =>
    rw [he] at hread
    cases hlive : e.livesAt now with
    | true =>
      refine lookup_congr (hread.trans ?_) t
      rw [he, Option.filter_some, hlive]
      rfl
    | false =>
      rw [lookup_of_expired he hlive ht]
      refine lookup_of_none (hread.trans ?_) t
      rw [Option.filter_some, hlive]
      rfl

theorem lookup_cleanup {c : Cache α} (h : c.Exact) {now t : Nat} (ht : now ≤ t) (k : String) :
    ((c.cleanup now).2.get t k).1 = if k ∈ c.cleanupPicked now then none else (c.get t k).1 := by
  rw [← lookup_dropExpired h ht k]
  exact (lookup_noteSize _ k t).trans (lookup_evictOldest (c.dropExpired now).2 _ k t)

theorem lookup_rearranged {c : Cache α} (h : c.Exact) (order : List String) (k : String) (t : Nat) :
    ((c.rearranged order).get t k).1 = (c.get t k).1 :=
  lookup_congr (Table.get?_perm h.nodup (entries_rearranged_perm c order) k) t

/-- The value and the time for which an event stores something under a key. -/
def Event.stored? : Event α → String → Option (α × Nat)
  | .set key value ttl, k => if key = k then some (value, ttl) else none
  | .setAlone key value ttl _, k => if key = k then some (value, ttl) else none
  | _, _ => none

/-- Whether an event deletes a key, by itself or among those that start with a text. -/
def Event.deletes : Event α → String → Bool
  | .delete key, k => key = k
  | .deleteStartingWith start, k => start.toList.isPrefixOf k.toList
  | _, _ => false

/-- Storing under a key, as look-ups see it. -/
theorem lookup_set (c : Cache α) (now : Nat) (key : String) (v : α) (ttl : Nat) (k : String)
    (t : Nat) : ((c.set now key v ttl).get t k).1 =
      match (if key = k then some (v, ttl) else none) with
      | some (v, ttl) => if t < now + min ttl longestTtl then some v else none
      | none => (c.get t k).1 := by
  by_cases hk : key = k
  · subst hk
    rw [if_pos rfl]
    exact lookup_set_self c now key v ttl t
  · rw [if_neg hk]
    exact lookup_set_of_ne c now (Ne.symm hk) v ttl t

/-- **What an event does to a look-up.** What it chooses to evict or deletes is gone, what it stores
is there for its time, and nothing else changes. -/
theorem lookup_step {x : World α} (h : x.cache.Exact) (e : Event α) (k : String) {t : Nat}
    (ht : x.now ≤ t) : ((step x e).cache.get t k).1 =
      if k ∈ chosen x e ∨ e.deletes k = true then none
      else match e.stored? k with
        | some (v, ttl) => if t < x.now + min ttl longestTtl then some v else none
        | none => (x.cache.get t k).1 := by
  cases e with
  | set key value ttl =>
    have hno : ¬ (k ∈ chosen x (.set key value ttl) ∨
        Event.deletes (.set key value ttl : Event α) k = true) := by simp [chosen, Event.deletes]
    rw [if_neg hno]
    exact lookup_set x.cache x.now key value ttl k t
  | setAlone key value ttl order =>
    have hstored : ((x.storedAlone key value ttl order).get t k).1 = _ :=
      (lookup_rearranged (h.set x.now key value ttl) order k t).trans
        (lookup_set x.cache x.now key value ttl k t)
    simp only [step, sweepIfCalled, chosen, Event.deletes, Bool.false_eq_true, or_false]
    split
    · rw [if_neg List.not_mem_nil]
      exact hstored
    · rw [lookup_sweep, hstored]
      rfl
  | get key =>
    simp only [step, chosen, Event.deletes, Event.stored?, List.not_mem_nil, Bool.false_eq_true,
      or_self, if_false]
    exact lookup_get x.cache ht key k
  | delete key =>
    simp only [step, chosen, Event.deletes, Event.stored?, List.not_mem_nil, false_or,
      decide_eq_true_eq]
    exact lookup_delete x.cache key k t
  | deleteStartingWith start =>
    simp only [step, chosen, Event.deletes, Event.stored?, List.not_mem_nil, false_or]
    exact lookup_deleteStartingWith x.cache start k t
  | evictOldest n =>
    simp only [step, chosen, Event.deletes, Event.stored?, Bool.false_eq_true, or_false]
    exact lookup_evictOldest x.cache n k t
  | cleanup =>
    simp only [step, chosen, Event.deletes, Event.stored?, Bool.false_eq_true, or_false]
    exact lookup_cleanup h ht k
  | close =>
    simp only [step, chosen, Event.deletes, Event.stored?, List.not_mem_nil, Bool.false_eq_true,
      or_self, if_false]
    exact lookup_congr (c := x.cache) (d := x.cache.close) rfl t
  | chore chore =>
    cases chore with
    | sweep =>
      simp only [step, chosen, Event.deletes, Event.stored?, Bool.false_eq_true, or_false]
      split
      · rw [if_neg List.not_mem_nil]
      · exact lookup_sweep x.cache k t
    | tick =>
      simp only [step, chosen, Event.deletes, Event.stored?, Bool.false_eq_true, or_false]
      exact lookup_cleanup h ht k
  | rearrange order =>
    simp only [step, chosen, Event.deletes, Event.stored?, List.not_mem_nil, Bool.false_eq_true,
      or_self, if_false]
    exact lookup_rearranged h order k t
  | pass duration =>
    simp only [step, chosen, Event.deletes, Event.stored?, List.not_mem_nil, Bool.false_eq_true,
      or_self, if_false]

variable {x : World α} {es : List (Event α)} {n : Nat} {key : String}

/-- Event number `i` is the last one before number `n` that stored something under a key, a value for
a time, and since then the key has neither been deleted nor been chosen by an eviction. -/
structure Stands (x : World α) (es : List (Event α)) (n : Nat) (key : String) (i : Nat) (value : α)
    (ttl : Nat) : Prop where
  before : i < n
  stored : ∃ e, es[i]? = some e ∧ e.stored? key = some (value, ttl)
  last : ∀ j e, i < j → j < n → es[j]? = some e → e.stored? key = none
  undeleted : ∀ j e, i < j → j < n → es[j]? = some e → e.deletes key = false
  /-- The sweep that storing the value calls for is among the evictions. -/
  unchosen : ∀ j e, i ≤ j → j < n → es[j]? = some e → key ∉ chosen (worldAt x es j) e

theorem Stands.of_none {i : Nat} {value : α} {ttl : Nat}
    (h : Stands x es (n + 1) key i value ttl) (hnone : es[n]? = none) :
    Stands x es n key i value ttl := by
  obtain ⟨e, he, hv⟩ := h.stored
  have hne : i ≠ n := by
    rintro rfl
    rw [hnone] at he; cases he
  have hbefore := h.before
  exact ⟨by omega, ⟨e, he, hv⟩, fun j e hij hj => h.last j e hij (by omega),
    fun j e hij hj => h.undeleted j e hij (by omega), fun j e hij hj => h.unchosen j e hij (by omega)⟩

/-- One event more. -/
theorem Stands.succ {i : Nat} {value : α} {ttl : Nat} (h : Stands x es n key i value ttl)
    (hnext : ∀ e, es[n]? = some e →
      e.stored? key = none ∧ e.deletes key = false ∧ key ∉ chosen (worldAt x es n) e) :
    Stands x es (n + 1) key i value ttl := by
  have hbefore := h.before
  refine ⟨by omega, h.stored, fun j e hij hj he => ?_, fun j e hij hj he => ?_,
    fun j e hij hj he => ?_⟩
  · rcases Nat.lt_succ_iff_lt_or_eq.1 hj with hj | rfl
    · exact h.last j e hij hj he
    · exact (hnext e he).1
  · rcases Nat.lt_succ_iff_lt_or_eq.1 hj with hj | rfl
    · exact h.undeleted j e hij hj he
    · exact (hnext e he).2.1
  · rcases Nat.lt_succ_iff_lt_or_eq.1 hj with hj | rfl
    · exact h.unchosen j e hij hj he
    · exact (hnext e he).2.2

/-- What has just been stored stands, unless it is chosen by the sweep that it calls for. -/
theorem stands_of_stored {e : Event α} {value : α} {ttl : Nat} (he : es[n]? = some e)
    (hv : e.stored? key = some (value, ttl)) (hc : key ∉ chosen (worldAt x es n) e) :
    Stands x es (n + 1) key n value ttl := by
  refine ⟨Nat.lt_succ_self n, ⟨e, he, hv⟩, fun j _ hij hj => by omega, fun j _ hij hj => by omega,
    fun j e' hij hj he' => ?_⟩
  obtain rfl : j = n := by omega
  rw [he] at he'; cases he'
  exact hc

/-- Storing does not delete. -/
theorem Event.deletes_of_stored {e : Event α} {p : α × Nat} (h : e.stored? key = some p) :
    e.deletes key = false := by
  cases e with
  | delete key => cases h
  | deleteStartingWith start => cases h
  | _ => rfl

/-- **What stands after an event** has just been stored, or stood before. -/
theorem stands_succ_iff {i : Nat} {e : Event α} {value : α} {ttl : Nat} (he : es[n]? = some e) :
    Stands x es (n + 1) key i value ttl ↔ key ∉ chosen (worldAt x es n) e ∧
      ((i = n ∧ e.stored? key = some (value, ttl)) ∨
        (e.stored? key = none ∧ e.deletes key = false ∧ Stands x es n key i value ttl)) := by
  constructor
  · intro h
    have hbefore := h.before
    refine ⟨h.unchosen n e (by omega) (Nat.lt_succ_self n) he, ?_⟩
    rcases Nat.lt_or_eq_of_le (Nat.le_of_lt_succ hbefore) with hlt | rfl
    · refine Or.inr ⟨h.last n e hlt (Nat.lt_succ_self n) he,
        h.undeleted n e hlt (Nat.lt_succ_self n) he, hlt, h.stored, ?_, ?_, ?_⟩
      · exact fun j e hij hj => h.last j e hij (by omega)
      · exact fun j e hij hj => h.undeleted j e hij (by omega)
      · exact fun j e hij hj => h.unchosen j e hij (by omega)
    · obtain ⟨e', he', hv⟩ := h.stored
      rw [he] at he'; cases he'
      exact Or.inl ⟨rfl, hv⟩
  · rintro ⟨hc, ⟨rfl, hv⟩ | ⟨hv, hd, hs⟩⟩
    · exact stands_of_stored he hv hc
    · refine hs.succ fun e' he' => ?_
      rw [he] at he'; cases he'
      exact ⟨hv, hd, hc⟩

/-- A value stands whose time is not over at an instant. -/
def Lasts (x : World α) (es : List (Event α)) (n : Nat) (key : String) (value : α) (t : Nat) :
    Prop :=
  ∃ i ttl, Stands x es n key i value ttl ∧ t < (worldAt x es i).now + min ttl longestTtl

/-- The step of the map, told by the history. -/
theorem lasts_succ_iff {e : Event α} (he : es[n]? = some e) (v : α) (t : Nat) :
    Lasts x es (n + 1) key v t ↔
      ¬ (key ∈ chosen (worldAt x es n) e ∨ e.deletes key = true) ∧
        match e.stored? key with
        | some (w, ttl) => w = v ∧ t < (worldAt x es n).now + min ttl longestTtl
        | none => Lasts x es n key v t := by
  unfold Lasts
  simp only [stands_succ_iff he, not_or, Bool.not_eq_true]
  cases hv : e.stored? key with
  | some p =>
    obtain ⟨w, ttl⟩ := p
    have hd := Event.deletes_of_stored hv
    constructor
    · rintro ⟨i, ttl', ⟨hc, ⟨rfl, hw⟩ | ⟨hw, -⟩⟩, hlives⟩
      · cases hw
        exact ⟨⟨hc, hd⟩, rfl, hlives⟩
      · cases hw
    · rintro ⟨⟨hc, -⟩, rfl, hlives⟩
      exact ⟨n, ttl, ⟨hc, Or.inl ⟨rfl, rfl⟩⟩, hlives⟩
  | none =>
    constructor
    · rintro ⟨i, ttl, ⟨hc, ⟨-, hw⟩ | ⟨-, hd, hs⟩⟩, hlives⟩
      · cases hw
      · exact ⟨⟨hc, hd⟩, i, ttl, hs, hlives⟩
    · rintro ⟨⟨hc, hd⟩, i, ttl, hs, hlives⟩
      exact ⟨i, ttl, ⟨hc, Or.inr ⟨rfl, hd, hs⟩⟩, hlives⟩

theorem lasts_of_none (hnone : es[n]? = none) (v : α) (t : Nat) :
    Lasts x es (n + 1) key v t ↔ Lasts x es n key v t := by
  refine exists_congr fun i => exists_congr fun ttl => and_congr_left fun _ => ?_
  exact ⟨fun hs => hs.of_none hnone, fun hs => hs.succ fun e he => (by rw [hnone] at he; cases he)⟩

/-- **What a look-up finds is what stands.** -/
theorem lookup_iff (hx : x.cache.Exact) (hnew : x.cache.entries = []) (es : List (Event α)) (n : Nat)
    (key : String) (v : α) {t : Nat} (ht : (worldAt x es n).now ≤ t) :
    ((worldAt x es n).cache.get t key).1 = some v ↔ Lasts x es n key v t := by
  -- by induction on the events, with the step of the map
  induction n generalizing t with
  | zero =>
    have hnone : ((worldAt x es 0).cache.get t key).1 = none := by
      rw [worldAt_zero]
      exact lookup_of_none (by rw [hnew]; rfl) t
    rw [hnone]
    refine ⟨fun h => (by cases h), ?_⟩
    rintro ⟨i, ttl, hs, -⟩
    exact absurd hs.before (Nat.not_lt_zero i)
  | succ n ih =>
    rcases worldAt_cases x es n with ⟨hnone, hsame⟩ | ⟨e, he, hstep⟩
    · rw [hsame] at ht ⊢
      rw [ih ht, lasts_of_none hnone]
    · have hlate : (worldAt x es n).now ≤ t :=
        Nat.le_trans (now_mono x es (Nat.le_succ n)) ht
      rw [hstep, lookup_step (worldAt_exact hx es n) e key hlate, lasts_succ_iff he]
      by_cases hgone : key ∈ chosen (worldAt x es n) e ∨ e.deletes key = true
      · rw [if_pos hgone]
        exact ⟨fun h => (by cases h), fun h => absurd hgone h.1⟩
      · rw [if_neg hgone]
        cases e.stored? key with
        | some p => simp [hgone, and_comm]
        | none =>
          rw [ih hlate]
          exact ⟨fun h => ⟨hgone, h⟩, fun h => h.2⟩

/-- **A cache is a map with expiry.** At every point of every run a look-up finds a value exactly if
the value is what was stored last under the key, its time, at most `2 ^ 32 - 1` seconds, is not
over, and since then the key has neither been deleted nor been chosen by an eviction. And whatever
happens next, no look-up of the key at that instant or later comes out differently, unless the
event stores something under the key, deletes it, or chooses it for an eviction. -/
theorem refines_expiring_map (name : String) (capacity start : Nat) (es : List (Event α)) (n : Nat)
    (key : String) :
    (∀ v, ((worldAt (dawn name capacity start) es n).cache.get
        (worldAt (dawn name capacity start) es n).now key).1 = some v ↔
      ∃ i ttl, Stands (dawn name capacity start) es n key i v ttl ∧
        (worldAt (dawn name capacity start) es n).now <
          (worldAt (dawn name capacity start) es i).now + min ttl (Duration.ofSecs (UInt32.size - 1))) ∧
    ∀ e t, (worldAt (dawn name capacity start) es n).now ≤ t → e.stored? key = none →
      e.deletes key = false → key ∉ chosen (worldAt (dawn name capacity start) es n) e →
      ((step (worldAt (dawn name capacity start) es n) e).cache.get t key).1 =
        ((worldAt (dawn name capacity start) es n).cache.get t key).1 := by
  have hnew : (dawn name capacity start : World α).cache.Exact := dawn_exact name capacity start
  refine ⟨fun v => lookup_iff hnew rfl es n key v (Nat.le_refl _), ?_⟩
  intro e t ht hv hd hc
  have hno : ¬ (key ∈ chosen (worldAt (dawn name capacity start) es n) e ∨ e.deletes key = true) := by
    rintro (hmem | hdel)
    · exact hc hmem
    · rw [hd] at hdel; cases hdel
  rw [lookup_step (worldAt_exact hnew es n) e key ht, if_neg hno, hv]

end RegistryLookup.Cache
