import RegistryLookup.Proofs.Cache.Run

/-!
# A closed cache

Only the task that cleans up in the background asks whether a cache is closed. Whatever else is done
with a closed cache, and a last cleanup as well, does what it would do if the cache were not closed.

* `get_close`, `set_close`, `delete_close`, `sweep_close`: what is done with a closed cache.
* `closed_step`: only closing closes, and nothing opens again.
* `step_closed`, `worldAt_closed`: events do to a closed cache what they would do if it were not
  closed.
* `asOpened`: a run from a closed cache beside the run from the same cache that is not closed.
-/

namespace RegistryLookup.Cache

variable {α : Type}

/-- Whether an event closes the cache. -/
def Event.closes : Event α → Bool
  | .close => true
  | _ => false

theorem closed_sweep (c : Cache α) : c.sweep.closed = c.closed := by
  unfold sweep
  simp only
  split <;> rfl

theorem closed_set (c : Cache α) (now : Nat) (key : String) (value : α) (ttl : Nat) :
    (c.set now key value ttl).closed = c.closed := by
  unfold set
  simp only
  split <;> rfl

/-- Only closing closes. -/
theorem closed_step (x : World α) (e : Event α) :
    (step x e).cache.closed = (x.cache.closed || e.closes) := by
  cases e with
  | set key value ttl => exact (closed_set _ _ _ _ _).trans (Bool.or_false _).symm
  | setAlone key value ttl order =>
    have hstored : (x.storedAlone key value ttl order).closed = x.cache.closed :=
      closed_set _ _ _ _ _
    simp only [step, sweepIfCalled, Event.closes, Bool.or_false]
    split
    · exact hstored
    · rw [closed_sweep, hstored]
  | get key =>
    simp only [step, get, Event.closes, Bool.or_false]
    split
    · split <;> rfl
    · rfl
  | delete key =>
    simp only [step, delete, Event.closes, Bool.or_false]
    split <;> rfl
  | close => exact (Bool.or_true _).symm
  | chore chore =>
    cases chore with
    | sweep =>
      simp only [step, Event.closes, Bool.or_false]
      split
      · rfl
      · exact closed_sweep _
    | tick => exact (Bool.or_false _).symm
  | _ => exact (Bool.or_false _).symm

theorem sweep_close (c : Cache α) : c.close.sweep = c.sweep.close := by
  have hover : ({ c.close with sweepPending := false } : Cache α).overage =
      ({ c with sweepPending := false } : Cache α).overage := rfl
  unfold sweep
  simp only [hover]
  split <;> rfl

theorem get_close (c : Cache α) (now : Nat) (key : String) :
    c.close.get now key = ((c.get now key).1, (c.get now key).2.close) := by
  have hread : c.close.entries.get? key = c.entries.get? key := rfl
  unfold get
  rw [hread]
  cases c.entries.get? key with
  | none => rfl
  | some e =>
    simp only
    split <;> rfl

theorem set_close (c : Cache α) (now : Nat) (key : String) (value : α) (ttl : Nat) :
    c.close.set now key value ttl = (c.set now key value ttl).close := by
  have hhas : c.close.entries.has key = c.entries.has key := rfl
  unfold set
  simp only [hhas]
  split <;> rfl

theorem delete_close (c : Cache α) (key : String) :
    c.close.delete key = ((c.delete key).1, (c.delete key).2.close) := by
  have hhas : c.close.entries.has key = c.entries.has key := rfl
  unfold delete
  rw [hhas]
  split <;> rfl

/-- What the foreground is told. -/
inductive Reply (α : Type)
  | nothing
  | found (value : Option α)
  | removed (b : Bool)
  | count (n : Nat)

/-- What an event tells the foreground. -/
def reply (x : World α) : Event α → Reply α
  | .get key => .found (x.cache.get x.now key).1
  | .delete key => .removed (x.cache.delete key).1
  | .deleteStartingWith start => .count (x.cache.deleteStartingWith start).1
  | .evictOldest n => .count (x.cache.evictOldest n).1
  | .cleanup => .count (x.cache.cleanup x.now).1
  | _ => .nothing

/-- The world with its cache closed. -/
def World.closed (x : World α) : World α := { x with cache := x.cache.close }

/-- What does not change calls for no work in the background. -/
theorem called_self (c : Cache α) : Tended.called c c = [] := by
  unfold Tended.called
  cases c.sweepPending <;> rfl

theorem called_close (before after : Cache α) :
    Tended.called before.close after.close = Tended.called before after := rfl

/-- **A closed cache does what it would do if it were not closed.** -/
theorem step_closed (x : World α) (e : Event α) :
    step x.closed e = (step x e).closed ∧ reply x.closed e = reply x e := by
  cases e with
  | set key value ttl =>
    have hset := set_close x.cache x.now key value ttl
    refine ⟨?_, rfl⟩
    simp only [step, World.closed, hset, called_close]
  | setAlone key value ttl order =>
    have hset := set_close x.cache x.now key value ttl
    have hstored : x.closed.storedAlone key value ttl order =
        (x.storedAlone key value ttl order).close := by
      simp only [World.storedAlone, World.closed, hset]
      rfl
    refine ⟨?_, rfl⟩
    simp only [step, World.closed] at hstored ⊢
    rw [hstored]
    unfold sweepIfCalled
    rw [called_close]
    split
    · rfl
    · rw [sweep_close]
  | get key =>
    have hget := get_close x.cache x.now key
    simp only [step, reply, World.closed, hget, and_self]
  | delete key =>
    have hdelete := delete_close x.cache key
    simp only [step, reply, World.closed, hdelete, and_self]
  | chore chore =>
    cases chore with
    | sweep =>
      have hsweep := sweep_close x.cache
      have hqueued : x.closed.queued = x.queued := rfl
      refine ⟨?_, rfl⟩
      simp only [step, hqueued]
      split
      · rfl
      · simp only [World.closed, hsweep]
    | tick => exact ⟨rfl, rfl⟩
  | _ => exact ⟨rfl, rfl⟩

/-- **So it is in whole runs.** -/
theorem worldAt_closed (x : World α) (es : List (Event α)) (n : Nat) :
    worldAt x.closed es n = (worldAt x es n).closed := by
  induction n with
  | zero => rw [worldAt_zero, worldAt_zero]
  | succ n ih =>
    rcases worldAt_cases x es n with ⟨hnone, hsame⟩ | ⟨e, he, hstep⟩
    · have hend : es.length ≤ n := List.getElem?_eq_none_iff.1 hnone
      rw [hsame, worldAt, Trace.after_succ_of_le hend]
      exact ih
    · rw [hstep, worldAt_succ x.closed he, ih]
      exact (step_closed _ e).1

/-- The world with its cache not closed. -/
def World.opened (x : World α) : World α := { x with cache := { x.cache with closed := false } }

theorem closed_opened {x : World α} (h : x.cache.closed = true) : x.opened.closed = x := by
  have hcache : { x.cache with closed := true } = x.cache := by rw [← h]
  show { x with cache := { x.cache with closed := true } } = x
  rw [hcache]

/-- Events do to a closed cache, and tell about it, what they do to the same cache that is not
closed. -/
structure AsOpened (x : World α) (es : List (Event α)) : Prop where
  same : ∀ n, worldAt x es n = (worldAt x.opened es n).closed
  replies : ∀ n e, es[n]? = some e → reply (worldAt x es n) e = reply (worldAt x.opened es n) e

theorem asOpened {x : World α} (hc : x.cache.closed = true) (es : List (Event α)) :
    AsOpened x es := by
  have hsame : ∀ n, worldAt x es n = (worldAt x.opened es n).closed := by
    intro n
    have hclosed := worldAt_closed x.opened es n
    rwa [closed_opened hc] at hclosed
  refine ⟨hsame, fun n e _ => ?_⟩
  rw [hsame]
  exact (step_closed _ e).2

end RegistryLookup.Cache
