import RegistryLookup.Cache.Session
import RegistryLookup.Proofs.Cache.Bound
import RegistryLookup.Proofs.Clock

/-!
# Sessions with a cache as runs

In a session without background work a sweep runs as soon as it is asked for. In a session with it,
sweeps and cleanups are tasks on the clock, and time passes only when none of them is ready. Both
are runs of events (`runAlone_run`, `runTended_run`), and what holds of every run holds of what is
seen in them.
-/

namespace RegistryLookup.Cache

/-- What an operation is as events, when a value is stored by an event of some kind. -/
def Operation.events (storing : String → Json → Nat → Event Json) : Operation → List (Event Json)
  | .set key value ttl => [storing key value ttl]
  | .fill start first last ttl => (List.range (last - first)).map
      (fun i => storing (start ++ toString (first + i)) (.ofNat (first + i)) ttl)
  | .get key => [.get key]
  | .delete key => [.delete key]
  | .deleteStartingWith start => [.deleteStartingWith start]
  | .evictOldest n => [.evictOldest n]
  | .cleanup => [.cleanup]
  | .close => [.close]
  | .info => []
  | .advance _ => []

/-- Storing a value is an event. -/
def Stores (store : Storing) (storing : String → Json → Nat → Event Json) : Prop :=
  ∀ (y : World Json) key value ttl,
    (step y (storing key value ttl)).cache = store y.cache y.now key value ttl ∧
      (step y (storing key value ttl)).now = y.now

theorem stores_set : Stores Cache.set .set := fun _ _ _ _ => ⟨rfl, rfl⟩

/-- The order in which no key is put first is the one that the table has. -/
theorem rearranged_nil {α : Type} (c : Cache α) : c.rearranged [] = c := by
  have hsame : c.entries.mergeSort (fun p q => [].idxOf p.1 ≤ [].idxOf q.1) = c.entries :=
    List.mergeSort_of_pairwise (List.pairwise_of_forall fun _ _ => rfl)
  unfold rearranged
  rw [hsame]

/-- A value is stored where there is no background, and the table stays in its order. -/
abbrev storingAlone (key : String) (value : Json) (ttl : Nat) : Event Json :=
  .setAlone key value ttl []

theorem stores_setAndSweep : Stores setAndSweep storingAlone := by
  intro y key value ttl
  refine ⟨?_, rfl⟩
  have hstored : y.storedAlone key value ttl [] = y.cache.set y.now key value ttl :=
    rearranged_nil _
  simp only [step, hstored, sweepIfCalled, Tended.called, setAndSweep]
  split <;> rfl

/-- An operation is a run of its events. -/
theorem foldl_events {store : Storing} {storing : String → Json → Nat → Event Json}
    (h : Stores store storing) (operation : Operation) (y : World Json) :
    ((operation.events storing).foldl step y).cache = (y.cache.perform store y.now operation).2 ∧
      ((operation.events storing).foldl step y).now = y.now := by
  cases operation with
  | set key value ttl => exact h y key value ttl
  | fill start first last ttl =>
    simp only [Operation.events, perform, List.foldl_map]
    -- one value after the other
    generalize List.range (last - first) = numbers
    induction numbers generalizing y with
    | nil => exact ⟨rfl, rfl⟩
    | cons i numbers ih =>
      obtain ⟨hcache, hnow⟩ := h y (start ++ toString (first + i)) (.ofNat (first + i)) ttl
      rw [List.foldl_cons, List.foldl_cons, ← hcache, ← hnow]
      exact ih _
  | _ => exact ⟨rfl, rfl⟩

/-- A world to which a run comes in which nothing is left to a background. -/
def ComesAlone (x y : World Json) : Prop :=
  ∃ es : List (Event Json), (∀ e ∈ es, e.handsOver = false) ∧ y = worldAt x es es.length

variable {x y : World Json}

theorem ComesAlone.foldl (h : ComesAlone x y) {events : List (Event Json)}
    (hevents : ∀ e ∈ events, e.handsOver = false) : ComesAlone x (events.foldl step y) := by
  obtain ⟨es, hes, hy⟩ := h
  refine ⟨es ++ events, ?_, ?_⟩
  · intro e he
    exact (List.mem_append.1 he).elim (hes e) (hevents e)
  · rw [hy, worldAt, worldAt, Trace.after_append]

theorem ComesAlone.step (h : ComesAlone x y) {e : Event Json} (he : e.handsOver = false) :
    ComesAlone x (step y e) :=
  h.foldl (List.forall_mem_singleton.2 he)

theorem handsOver_events {storing : String → Json → Nat → Event Json}
    (h : ∀ key value ttl, (storing key value ttl).handsOver = false) (operation : Operation) :
    ∀ e ∈ operation.events storing, e.handsOver = false := by
  intro e he
  cases operation with
  | fill start first last ttl =>
    obtain ⟨i, -, rfl⟩ := List.mem_map.1 he
    exact h _ _ _
  | set key value ttl =>
    rw [List.mem_singleton.1 he]
    exact h _ _ _
  | info => cases he
  | advance duration => cases he
  | _ =>
    rw [List.mem_singleton.1 he]
    rfl

/-- **Whatever is seen in a session without background work is seen in a run.** -/
theorem runAlone_run (tick : Nat) {operations : List Operation} (h : ComesAlone x y) :
    ∀ o ∈ (runAlone tick operations y.now y.cache).1,
      ∃ z, ComesAlone x z ∧ o.size = z.cache.size ∧ o.stats = z.cache.stats := by
  -- by induction on the operations
  induction operations generalizing y with
  | nil =>
    intro o ho
    cases ho
  | cons operation operations ih =>
    have hdone : ComesAlone x ((operation.events storingAlone).foldl step y) :=
      h.foldl (handsOver_events (fun _ _ _ => rfl) operation)
    obtain ⟨hcache, hnow⟩ := foldl_events stores_setAndSweep operation y
    have hrest := ih (hdone.step (e := .pass (operation.duration + tick)) rfl)
    intro o ho
    simp only [step, hcache, hnow, ← Nat.add_assoc] at hrest
    simp only [runAlone] at ho
    rcases List.mem_cons.1 ho with rfl | ho
    · exact ⟨_, hdone, by rw [hcache], by rw [hcache]⟩
    · exact hrest o ho

/-- A session is at a point of a run: it has the cache and the time there, and a sweep is ready in
it if one has been asked for. -/
structure Plays (w : Clock.World (Tended Json) Tended.Chore) (y : World Json) : Prop where
  cache : y.cache = w.state.cache
  now : y.now = w.now
  sweep : .sweep ∈ w.ready ↔ w.state.cache.sweepPending = true
  nodup : w.ready.Nodup

variable {w : Clock.World (Tended Json) Tended.Chore}

theorem turn_background (h : w.ready.Nodup) {chore : Tended.Chore} {rest : List Tended.Chore}
    (hr : w.ready = chore :: rest) : w.turn background =
      { w with state := w.state.perform w.now false chore, ready := w.ready.filter (· ≠ chore) } :=
  Clock.World.turn_of_ready h hr

theorem Plays.sweep_turn (h : Plays w y) (hy : Watched y) {rest : List Tended.Chore}
    (hr : w.ready = .sweep :: rest) : Plays (w.turn background) (step y (.chore .sweep)) := by
  have hmem : .sweep ∈ w.ready := by rw [hr]; exact List.mem_cons_self
  have hpending := h.sweep.1 hmem
  have hqueued : y.queued ≠ 0 := by
    rw [hy.queued, h.cache, hpending]
    decide
  have hperform : w.state.perform w.now false .sweep =
      { w.state with cache := w.state.cache.sweep } :=
    if_pos hpending
  rw [turn_background h.nodup hr]
  simp only [step, if_neg hqueued, hperform]
  refine ⟨by rw [h.cache], h.now, ?_, h.nodup.filter _⟩
  simp [sweepPending_sweep]

/-- A turn in which a cleanup is due: it is an event of the run while the cache is open. -/
theorem Plays.tick_turn (h : Plays w y) {rest : List Tended.Chore}
    (hr : w.ready = .tick :: rest) : Plays (w.turn background)
      ((if w.state.cache.closed then [] else [Event.chore .tick]).foldl step y) := by
  have hkept : .sweep ∈ w.ready.filter (· ≠ Tended.Chore.tick) ↔ .sweep ∈ w.ready := by
    simp [List.mem_filter]
  rw [turn_background h.nodup hr]
  simp only [Tended.perform, Bool.not_false, Bool.and_true]
  split
  · exact ⟨h.cache, h.now, hkept.trans h.sweep, h.nodup.filter _⟩
  · refine ⟨?_, h.now, ?_, h.nodup.filter _⟩
    · rw [List.foldl_cons, List.foldl_nil]
      simp only [step, Tended.tidy, h.cache, h.now]
    · have hflag := (eases_cleanup w.state.cache w.now).flag
      simp only [Tended.tidy, hflag]
      exact hkept.trans h.sweep

theorem Plays.pass (h : Plays w y) (limit : Nat) : Plays (w.pass background limit)
    (step y (.pass ((w.pass background limit).now - w.now))) := by
  have hle : w.now ≤ (w.pass background limit).now := Clock.World.le_pass
  refine ⟨?_, ?_, ?_, ?_⟩
  · rw [Clock.World.state_pass]
    exact h.cache
  · show y.now + _ = _
    rw [h.now]
    omega
  · -- no timer wakes a sweep
    rw [Clock.World.mem_pass, Clock.World.state_pass, ← h.sweep]
    refine or_iff_left ?_
    rintro ⟨-, hdue⟩
    simp only [background, Tended.system, Tended.timers] at hdue
    split at hdue
    · cases hdue
    · have htask := congrArg Prod.snd (List.mem_singleton.1 hdue)
      cases htask
  · unfold Clock.World.pass
    split
    · exact h.nodup
    · exact Clock.World.nodup_wake h.nodup _

/-- Operations leave a raised flag. -/
theorem sweepPending_perform {c : Cache Json} (h : c.sweepPending = true) (now : Nat)
    (operation : Operation) : (c.perform Cache.set now operation).2.sweepPending = true := by
  cases operation with
  | set key value ttl => exact sweepPending_set_of_raised h now key value ttl
  | fill start first last ttl =>
    simp only [perform]
    generalize List.range (last - first) = numbers
    induction numbers generalizing c with
    | nil => exact h
    | cons i numbers ih => exact ih (sweepPending_set_of_raised h now _ _ ttl)
  | get key => exact (eases_get c now key).flag.trans h
  | delete key => exact (eases_delete c key).flag.trans h
  | deleteStartingWith start => exact (eases_deleteStartingWith c start).flag.trans h
  | evictOldest n => exact (eases_evictOldest c n).flag.trans h
  | cleanup => exact (eases_cleanup c now).flag.trans h
  | close => exact h
  | info => exact h
  | advance duration => exact h

/-- An operation, and the work that it calls for. -/
theorem Plays.perform (h : Plays w y) (operation : Operation) {after : Cache Json}
    (hafter : after = (w.state.cache.perform Cache.set w.now operation).2) :
    Plays ({ w with state := { w.state with cache := after } }.wake
      (Tended.called w.state.cache after)) ((operation.events .set).foldl step y) := by
  obtain ⟨hcache, hnow⟩ := foldl_events stores_set operation y
  have hraised : w.state.cache.sweepPending = true → after.sweepPending = true := by
    intro hp
    rw [hafter]
    exact sweepPending_perform hp w.now operation
  refine ⟨?_, hnow.trans h.now, ?_, Clock.World.nodup_wake h.nodup _⟩
  · rw [hcache, h.cache, h.now]
    exact hafter.symm
  · rw [Clock.World.mem_wake, h.sweep]
    unfold Tended.called
    cases hb : w.state.cache.sweepPending with
    | true => simp [hraised hb]
    | false => cases ha : after.sweepPending <;> simp [ha]

/-- A session to which a run comes. -/
structure Reached (x : World Json) (w : Clock.World (Tended Json) Tended.Chore) : Prop where
  watched : Watched x
  run : ∃ es, Plays w (worldAt x es es.length)

theorem Reached.events (h : Reached x w) {w' : Clock.World (Tended Json) Tended.Chore}
    (events : List (Event Json))
    (hplays : ∀ y, Watched y → Plays w y → Plays w' (events.foldl step y)) : Reached x w' := by
  obtain ⟨es, hes⟩ := h.run
  refine ⟨h.watched, es ++ events, ?_⟩
  rw [worldAt, Trace.after_append]
  exact hplays _ (worldAt_watched h.watched es es.length) hes

theorem Reached.turn (h : Reached x w) : Reached x (w.turn background) := by
  cases hr : w.ready with
  | nil =>
    have hrest : w.turn background = w := by
      unfold Clock.World.turn
      simp only [hr]
    rw [hrest]
    exact h
  | cons chore rest =>
    cases chore with
    | sweep => exact h.events [.chore .sweep] fun _ hy hw => hw.sweep_turn hy hr
    | tick => exact h.events _ fun _ _ hw => hw.tick_turn hr

theorem Reached.settle (h : Reached x w) : Reached x (w.settle background) :=
  Clock.World.settle_keeps (P := Reached x) (fun _ => Reached.turn) h

theorem Reached.advance (h : Reached x w) (limit : Nat) :
    Reached x (w.advance background limit) :=
  Clock.World.advanceUntil_keeps (P := Reached x) (fun _ => Reached.turn)
    (fun _ hw => hw.events [.pass _] fun _ _ hplays => hplays.pass limit) h

/-- **What is seen in a session once the background has done its work is seen in a run**, at a point
at which no sweep is queued. -/
theorem runTended_run (tick : Nat) {operations : List Operation} (h : Reached x w) :
    ∀ o ∈ (runTended tick operations w).1, ∃ es, (worldAt x es es.length).queued = 0 ∧
      o.stats = (worldAt x es es.length).cache.stats := by
  -- by induction on the operations
  induction operations generalizing w with
  | nil =>
    intro o ho
    cases ho
  | cons operation operations ih =>
    intro o ho
    simp only [runTended] at ho
    generalize hafter : (w.state.cache.perform Cache.set w.now operation).2 = after at ho
    have hdone := h.events _ fun _ _ hw => hw.perform operation hafter.symm
    generalize hcalled : Clock.World.wake { w with state := { w.state with cache := after } }
      (Tended.called w.state.cache after) = woken at ho hdone
    generalize hlater : (if operation.duration = 0 then woken
      else (woken.settle background).advance background
        (woken.now + operation.duration)) = later at ho
    have hreached : Reached x later := by
      rw [← hlater]
      split
      · exact hdone
      · exact hdone.settle.advance _
    rcases List.mem_cons.1 ho with rfl | ho
    · -- nothing is left to do in the background
      obtain ⟨es, hes⟩ := hreached.settle.run
      have hready : (later.settle background).ready = [] :=
        Clock.World.ready_settle (fun _ _ _ => rfl) later
      have hpending : (later.settle background).state.cache.sweepPending = false := by
        rw [Bool.eq_false_iff]
        intro hp
        have hmem := hes.sweep.2 hp
        rw [hready] at hmem
        cases hmem
      refine ⟨es, ?_, by rw [hes.cache]⟩
      rw [(worldAt_watched h.watched es es.length).queued, hes.cache, hpending]
      rfl
    · exact ih (hreached.settle.advance _) o ho

/-- Without background work there are never too many entries after an operation. -/
theorem runAlone_within (name : String) (capacity start tick : Nat) (operations : List Operation) :
    ∀ o ∈ (runAlone tick operations start (make name capacity start)).1,
      o.size ≤ if capacity = 0 then 10000 else capacity := by
  have hstart : ComesAlone (dawn name capacity start) (dawn name capacity start) :=
    ⟨[], fun e he => (by cases he), rfl⟩
  intro o ho
  obtain ⟨z, ⟨es, hes, rfl⟩, hsize, -⟩ := runAlone_run tick hstart o ho
  rw [hsize]
  exact (bounded_of_watched (dawn_watched name capacity start) rfl es es.length).alone
    fun i e _ he => hes e (List.mem_of_getElem? he)

/-- With background work there are none left once it is done. -/
theorem runTended_within (name : String) (capacity interval reach start tick : Nat)
    (operations : List Operation) :
    ∀ o ∈ (runTended tick operations
        { now := start, state := .make name capacity interval reach start }).1,
      o.stats.entries ≤ if capacity = 0 then 10000 else capacity := by
  have hstart : Reached (dawn name capacity start)
      { now := start, state := .make name capacity interval reach start } :=
    ⟨dawn_watched name capacity start, [], rfl, rfl, by simp [Tended.make, make], List.nodup_nil⟩
  intro o ho
  obtain ⟨es, hq, hstats⟩ := runTended_run tick hstart o ho
  rw [hstats]
  exact (bounded_of_watched (dawn_watched name capacity start) rfl es es.length).settled hq

end RegistryLookup.Cache
