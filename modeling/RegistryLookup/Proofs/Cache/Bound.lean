import RegistryLookup.Proofs.Cache.Count

/-!
# The bound on the number of entries

A cache may hold more entries than its capacity for a while, but then a sweep has been asked for and
has not begun. The flag in the cache says that one has been asked for, so that nobody asks for a
second one; it falls when the sweep begins.

* `Eases`: an operation that adds no entry and leaves the flag. `set_watched`, `sweep_watched`: the
  others.
* `Watched`: the flag says whether a sweep is queued, and whoever exceeds the capacity has raised it.
  `step_watched`: every event keeps it so.
* `bound_returns`: what follows at every point of every run.
-/

namespace RegistryLookup.Cache

variable {α : Type}

/-- Entries beyond the capacity have raised the flag. -/
def Flagged (c : Cache α) : Prop := c.capacity < c.size → c.sweepPending = true

/-- However large the capacity, a count beyond it is found to be so. -/
theorem isOver_of_lt {c : Cache α} {count : Int} (h : (c.capacity : Int) < count) :
    c.isOver count = true := by
  have hle : Int.bmod c.capacity UInt64.size ≤ c.capacity := by
    have hmod : (c.capacity : Int) % UInt64.size ≤ c.capacity := by
      exact_mod_cast Nat.mod_le c.capacity UInt64.size
    rw [Int.bmod_def]
    split
    · exact hmod
    · exact Int.le_trans (Int.sub_le_self _ (Int.natCast_nonneg _)) hmod
  exact decide_eq_true (Int.lt_of_le_of_lt hle h)

theorem sweepPending_set (c : Cache α) (now : Nat) (key : String) (value : α) (ttl : Nat) :
    (c.set now key value ttl).sweepPending =
      (c.sweepPending || (!c.entries.has key && c.isOver (c.count + 1))) := by
  unfold set
  cases c.entries.has key with
  | true => exact (Bool.or_false _).symm
  | false => rfl

/-- Storing beyond the capacity raises the flag. -/
theorem Flagged.set {c : Cache α} (h : c.Flagged) (now : Nat) (key : String) (value : α)
    (ttl : Nat) : (c.set now key value ttl).Flagged := by
  unfold Cache.set
  cases hhas : c.entries.has key with
  | true => exact h
  | false =>
    intro hmany
    have hmany' : c.capacity < (c.count + 1).toNat := hmany
    have hover : c.isOver (c.count + 1) = true := isOver_of_lt (by omega)
    show (c.sweepPending || c.isOver (c.count + 1)) = true
    rw [hover, Bool.or_true]

/-- An operation that adds no entry and leaves the flag. -/
structure Eases (c d : Cache α) : Prop where
  capacity : d.capacity = c.capacity
  count : d.count ≤ c.count
  flag : d.sweepPending = c.sweepPending

theorem Eases.refl (c : Cache α) : Eases c c := ⟨rfl, Int.le_refl _, rfl⟩

theorem Eases.flagged {c d : Cache α} (h : Eases c d) (hc : c.Flagged) : d.Flagged := by
  intro hmany
  have hcount := h.count
  have hcapacity := h.capacity
  rw [h.flag]
  refine hc ?_
  unfold size at hmany ⊢
  omega

theorem eases_get (c : Cache α) (now : Nat) (key : String) : Eases c (c.get now key).2 := by
  unfold get
  split
  · split
    · exact ⟨rfl, Int.le_refl _, rfl⟩
    · exact ⟨rfl, by simp only; omega, rfl⟩
  · exact ⟨rfl, Int.le_refl _, rfl⟩

theorem eases_delete (c : Cache α) (key : String) : Eases c (c.delete key).2 := by
  unfold delete
  split
  · exact ⟨rfl, by simp only; omega, rfl⟩
  · exact .refl c

theorem eases_deleteStartingWith (c : Cache α) (start : String) :
    Eases c (c.deleteStartingWith start).2 :=
  ⟨rfl, Int.sub_le_self _ (Int.natCast_nonneg _), rfl⟩

theorem eases_evictOldest (c : Cache α) (n : Nat) : Eases c (c.evictOldest n).2 :=
  ⟨rfl, Int.sub_le_self _ (Int.natCast_nonneg _), rfl⟩

theorem eases_cleanup (c : Cache α) (now : Nat) : Eases c (c.cleanup now).2 := by
  have hexpired : (c.dropExpired now).2.count ≤ c.count :=
    Int.sub_le_self _ (Int.natCast_nonneg _)
  have hevicted := (eases_evictOldest (c.dropExpired now).2 (c.dropExpired now).2.overage).count
  exact ⟨rfl, Int.le_trans hevicted hexpired, rfl⟩

theorem eases_rearranged (c : Cache α) (order : List String) : Eases c (c.rearranged order) :=
  ⟨rfl, Int.le_refl _, rfl⟩

theorem sweepPending_sweep (c : Cache α) : c.sweep.sweepPending = false := by
  unfold sweep
  simp only
  split <;> rfl

theorem flagged_of_le {c : Cache α} (h : c.size ≤ c.capacity) : c.Flagged :=
  fun hmany => absurd hmany (Nat.not_lt_of_le h)

theorem Exact.flagged_sweep {c : Cache α} (h : c.Exact) : c.sweep.Flagged := by
  have hsize := h.size_sweep
  refine flagged_of_le ?_
  rw [((settings_kept c).sweep (.refl c)).capacity]
  split at hsize <;> omega

/-- What a sweep leaves: as many entries as there may be, less a tenth of that, if there were too
many, and otherwise every entry. -/
structure Swept (most : Nat) (c d : Cache α) : Prop where
  size : d.size = if most < c.size then most - most / 10 else c.size
  entries : c.size ≤ most → d.entries = c.entries

theorem Exact.swept {c : Cache α} (h : c.Exact) : Swept c.capacity c c.sweep :=
  ⟨h.size_sweep, entries_sweep_of_le⟩

/-- The flag says whether a sweep is queued, and whoever exceeds the capacity has raised it. -/
structure Watched (x : World α) : Prop where
  exact : x.cache.Exact
  queued : x.queued = x.cache.sweepPending.toNat
  flagged : x.cache.Flagged

/-- A change of the cache that keeps a raised flag calls for a sweep if it raises the flag. -/
theorem length_called {before after : Cache α}
    (h : before.sweepPending = true → after.sweepPending = true) :
    before.sweepPending.toNat + (Tended.called before after).length = after.sweepPending.toNat := by
  unfold Tended.called
  cases hb : before.sweepPending with
  | true =>
    rw [h hb]
    rfl
  | false => cases after.sweepPending <;> rfl

theorem sweepPending_set_of_raised {c : Cache α} (h : c.sweepPending = true) (now : Nat)
    (key : String) (value : α) (ttl : Nat) : (c.set now key value ttl).sweepPending = true := by
  rw [sweepPending_set, h, Bool.true_or]

variable {x : World α}

theorem Watched.ease (h : Watched x) {d : Cache α} (hexact : d.Exact) (heases : Eases x.cache d) :
    Watched { x with cache := d } := by
  refine ⟨hexact, ?_, heases.flagged h.flagged⟩
  rw [heases.flag]
  exact h.queued

theorem set_watched (h : Watched x) (key : String) (value : α) (ttl : Nat) :
    Watched (step x (.set key value ttl)) := by
  refine ⟨h.exact.set _ _ _ _, ?_, h.flagged.set _ _ _ _⟩
  have hcalled : x.cache.sweepPending.toNat +
      (Tended.called x.cache (x.cache.set x.now key value ttl)).length =
        (x.cache.set x.now key value ttl).sweepPending.toNat :=
    length_called fun hb => sweepPending_set_of_raised hb x.now key value ttl
  rw [← h.queued] at hcalled
  exact hcalled

theorem setAlone_watched (h : Watched x) (key : String) (value : α) (ttl : Nat)
    (order : List String) : Watched (step x (.setAlone key value ttl order)) := by
  have hexact : (x.storedAlone key value ttl order).Exact := (h.exact.set _ _ _ _).rearranged order
  have hflagged : (x.storedAlone key value ttl order).Flagged :=
    (eases_rearranged _ order).flagged (h.flagged.set _ _ _ _)
  have hcalled : x.cache.sweepPending.toNat +
      (Tended.called x.cache (x.storedAlone key value ttl order)).length =
        (x.storedAlone key value ttl order).sweepPending.toNat :=
    length_called fun hb => sweepPending_set_of_raised hb x.now key value ttl
  have hqueued := h.queued
  simp only [step, sweepIfCalled]
  by_cases hnone : Tended.called x.cache (x.storedAlone key value ttl order) = []
  · rw [if_pos hnone]
    rw [hnone, List.length_nil, Nat.add_zero, ← hqueued] at hcalled
    exact ⟨hexact, hcalled, hflagged⟩
  · -- the flag was not raised before, and it is not after the sweep
    rw [if_neg hnone]
    have hpos := List.length_pos_of_ne_nil hnone
    have hone := Bool.toNat_le (x.storedAlone key value ttl order).sweepPending
    refine ⟨exact_kept.sweep hexact, ?_, hexact.flagged_sweep⟩
    rw [sweepPending_sweep]
    show x.queued = 0
    omega

theorem sweep_watched (h : Watched x) : Watched (step x (.chore .sweep)) := by
  simp only [step]
  by_cases hq : x.queued = 0
  · rw [if_pos hq]
    exact h
  · rw [if_neg hq]
    have hone := Bool.toNat_le x.cache.sweepPending
    have hqueued := h.queued
    refine ⟨exact_kept.sweep h.exact, ?_, h.exact.flagged_sweep⟩
    rw [sweepPending_sweep]
    show x.queued - 1 = 0
    omega

/-- **Every event keeps the flag and the queue together.** -/
theorem step_watched (h : Watched x) (e : Event α) : Watched (step x e) := by
  cases e with
  | set key value ttl => exact set_watched h key value ttl
  | setAlone key value ttl order => exact setAlone_watched h key value ttl order
  | get key => exact h.ease (h.exact.get _ _) (eases_get _ _ _)
  | delete key => exact h.ease (h.exact.delete _) (eases_delete _ _)
  | deleteStartingWith start =>
    exact h.ease (h.exact.deleteStartingWith _) (eases_deleteStartingWith _ _)
  | evictOldest n => exact h.ease (h.exact.evictOldest _) (eases_evictOldest _ _)
  | cleanup => exact h.ease (exact_kept.cleanup h.exact _) (eases_cleanup _ _)
  | close => exact ⟨⟨h.exact.nodup, h.exact.count⟩, h.queued, h.flagged⟩
  | chore chore =>
    cases chore with
    | sweep => exact sweep_watched h
    | tick => exact h.ease (exact_kept.cleanup h.exact _) (eases_cleanup _ _)
  | rearrange order => exact h.ease (h.exact.rearranged _) (eases_rearranged _ _)
  | pass duration => exact ⟨h.exact, h.queued, h.flagged⟩

theorem worldAt_watched (h : Watched x) (es : List (Event α)) (n : Nat) :
    Watched (worldAt x es n) :=
  Trace.after_invariant (P := Watched) h (fun _ e _ hy => step_watched hy e) n

theorem Watched.size_le (h : Watched x) (hq : x.queued = 0) : x.cache.size ≤ x.cache.capacity := by
  refine Nat.le_of_not_lt fun hmany => ?_
  have hqueued := h.queued
  rw [h.flagged hmany, hq] at hqueued
  cases hqueued

/-- Whether an event leaves a sweep that is asked for to the background. -/
def Event.handsOver : Event α → Bool
  | .set _ _ _ => true
  | _ => false

theorem queued_step_le (x : World α) {e : Event α} (h : e.handsOver = false) :
    (step x e).queued ≤ x.queued := by
  cases e with
  | set key value ttl => cases h
  | chore chore =>
    cases chore with
    | sweep =>
      simp only [step]
      split
      · exact Nat.le_refl _
      · exact Nat.sub_le _ _
    | tick => exact Nat.le_refl _
  | _ => exact Nat.le_refl _

/-- Where nothing is left to the background, nothing is queued. -/
theorem queued_eq_zero (hx : x.queued = 0) {es : List (Event α)} {n : Nat}
    (h : ∀ i e, i < n → es[i]? = some e → e.handsOver = false) : (worldAt x es n).queued = 0 := by
  induction n with
  | zero =>
    rw [worldAt_zero]
    exact hx
  | succ n ih =>
    have hbefore := ih fun i e hi he => h i e (Nat.lt_succ_of_lt hi) he
    rcases worldAt_cases x es n with ⟨-, hsame⟩ | ⟨e, he, hstep⟩
    · rw [hsame]
      exact hbefore
    · have hle := queued_step_le (worldAt x es n) (h n e (Nat.lt_succ_self n) he)
      rw [hstep]
      omega

/-- The bound on the number of entries after the first events of a run. -/
structure Bounded (most : Nat) (x : World α) (es : List (Event α)) (n : Nat) : Prop where
  capacity : (worldAt x es n).cache.capacity = most
  /-- No second sweep is handed to the background while one waits there. -/
  once : (worldAt x es n).queued ≤ 1
  /-- One waits there whenever there are too many entries. -/
  waits : most < (worldAt x es n).cache.size → (worldAt x es n).queued = 1
  /-- When the background has done its work, there are not. -/
  settled : (worldAt x es n).queued = 0 → (worldAt x es n).cache.size ≤ most
  /-- Where nothing is left to the background, there never are. -/
  alone : (∀ i e, i < n → es[i]? = some e → e.handsOver = false) →
    (worldAt x es n).cache.size ≤ most
  /-- What a sweep of the background leaves. -/
  swept : (worldAt x es n).queued ≠ 0 →
    Swept most (worldAt x es n).cache (step (worldAt x es n) (.chore .sweep)).cache ∧
      (step (worldAt x es n) (.chore .sweep)).queued = 0
  /-- What a sweep leaves that runs as soon as it is asked for. -/
  sweptAlone : ∀ key value ttl order,
    Tended.called (worldAt x es n).cache ((worldAt x es n).storedAlone key value ttl order) ≠ [] →
      Swept most ((worldAt x es n).storedAlone key value ttl order)
        (step (worldAt x es n) (.setAlone key value ttl order)).cache

theorem dawn_watched (name : String) (capacity start : Nat) :
    Watched (dawn name capacity start : World α) := by
  exact ⟨dawn_exact name capacity start, rfl, flagged_of_le (Nat.zero_le _)⟩

theorem bounded_of_watched (h : Watched x) (hx : x.queued = 0) (es : List (Event α)) (n : Nat) :
    Bounded x.cache.capacity x es n := by
  have hthen := worldAt_watched h es n
  have hcapacity := (settings_worldAt x es n).capacity
  have hone := Bool.toNat_le (worldAt x es n).cache.sweepPending
  have hqueued := hthen.queued
  refine ⟨hcapacity, by omega, fun hmany => ?_, fun hq => ?_, fun halone => ?_, fun hq => ?_, ?_⟩
  · rw [← hcapacity] at hmany
    rw [hqueued, hthen.flagged hmany]
    rfl
  · rw [← hcapacity]
    exact hthen.size_le hq
  · rw [← hcapacity]
    exact hthen.size_le (queued_eq_zero hx halone)
  · simp only [step, if_neg hq]
    rw [← hcapacity]
    exact ⟨hthen.exact.swept, by omega⟩
  · intro key value ttl order hcalled
    simp only [step, sweepIfCalled, if_neg hcalled]
    have hstored : ((worldAt x es n).storedAlone key value ttl order).capacity = x.cache.capacity :=
      ((settings_kept _).set (.refl _) _ _ _ _).capacity.trans hcapacity
    rw [← hstored]
    exact ((hthen.exact.set _ _ _ _).rearranged order).swept

/-- **The bound on the number of entries always comes back**, at every point of every run. -/
theorem bound_returns (name : String) (capacity start : Nat) (es : List (Event α)) (n : Nat) :
    Bounded (if capacity = 0 then 10000 else capacity) (dawn name capacity start) es n :=
  bounded_of_watched (dawn_watched name capacity start) rfl es n

end RegistryLookup.Cache
