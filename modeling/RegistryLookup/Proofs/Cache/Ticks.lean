import RegistryLookup.Proofs.Cache.Background
import RegistryLookup.Proofs.Cache.Cleanup
import RegistryLookup.Proofs.Clock

/-!
# Cleanups in the background

The first cleanup is one interval after the cache was made, and each one sets the time of the next.
Time does not pass one that is due, so while the cache is open they run at every multiple of the
interval that the clock can tell, and never at another time.

* `tickAt`: when the cleanups are due. `tickAt_eq`: at the multiples of the interval.
* `cleanups`: when the background has cleaned up.
* `Timed.happen`: what ties the next cleanup to those that have run.
* `held_sceneAt`: an entry was stored by an event, and has lived at every cleanup since then.
* `cleanups_of_closed`: what no longer happens when the cache has been closed.
* `staleness_bounded`: what follows at every point of every run.
* `astray_cleanups`: a cleanup at an instant that is no multiple of the interval, and one after the
  cache was closed.
-/

namespace RegistryLookup.Tended

variable {α : Type}

/-- When the cleanups are due, with the start in front. -/
def tickAt (start period reach : Nat) : Nat → Nat
  | 0 => start
  | m + 1 => timerAfter reach period (tickAt start period reach m)

/-- When the first cleanups are due. -/
def schedule (start period reach count : Nat) : List Nat :=
  (List.range count).map (fun m => tickAt start period reach (m + 1))

/-- The first multiples of a period after an instant. -/
def multiples (start period count : Nat) : List Nat :=
  (List.range count).map (fun m => start + (m + 1) * period)

theorem timerAfter_of_le {reach period t : Nat} (h : t + period ≤ reach) :
    timerAfter reach period t = t + period :=
  if_pos h

theorem lt_timerAfter {reach period t : Nat} (hpos : 0 < period) :
    t < timerAfter reach period t := by
  have hfar : 0 < farAhead := by decide
  unfold timerAfter
  split <;> omega

theorem timerAfter_le (reach period t : Nat) :
    timerAfter reach period t ≤ t + max period farAhead := by
  unfold timerAfter
  split <;> omega

/-- **Cleanups are due at the multiples of the period**, as long as the clock can tell them. -/
theorem tickAt_eq {start period reach m : Nat} (h : start + m * period ≤ reach) :
    tickAt start period reach m = start + m * period := by
  induction m with
  | zero => rw [Nat.zero_mul]; rfl
  | succ m ih =>
    have hnext : (m + 1) * period = m * period + period := Nat.succ_mul m period
    have hprev := ih (by omega)
    rw [tickAt, hprev, timerAfter_of_le (by omega)]
    omega

theorem tickAt_mono (start reach : Nat) {period i j : Nat} (hpos : 0 < period) (hij : i ≤ j) :
    tickAt start period reach i ≤ tickAt start period reach j := by
  induction hij with
  | refl => exact Nat.le_refl _
  | step _ ih => exact Nat.le_trans ih (Nat.le_of_lt (lt_timerAfter hpos))

theorem schedule_eq {start period reach count : Nat} (h : start + count * period ≤ reach) :
    schedule start period reach count = multiples start period count := by
  refine List.map_congr_left fun m hm => tickAt_eq ?_
  have hmul : (m + 1) * period ≤ count * period :=
    Nat.mul_le_mul_right period (List.mem_range.1 hm)
  omega

theorem schedule_succ (start period reach count : Nat) : schedule start period reach (count + 1) =
    schedule start period reach count ++ [tickAt start period reach (count + 1)] := by
  rw [schedule, List.range_succ, List.map_append]
  rfl

/-- When an event is a cleanup of the background. -/
def tick? (w : Scene α) (e : Event α) : Option Nat :=
  match told w e with
  | some (.chore .tick) => some w.now
  | _ => none

/-- When the background has cleaned up in the first `n` events. -/
def cleanups (x : Scene α) (es : List (Event α)) (n : Nat) : List Nat :=
  Trace.collected happen tick? x es 0 n

theorem tick?_eq_some {w : Scene α} {e : Event α} {t : Nat} :
    tick? w e = some t ↔ told w e = some (.chore .tick) ∧ t = w.now := by
  unfold tick?
  split
  · rename_i h
    rw [h, Option.some.injEq]
    exact ⟨fun h => ⟨rfl, h.symm⟩, fun h => h.2.symm⟩
  · rename_i h
    refine ⟨fun hno => (by cases hno), fun htick => absurd htick.1 ?_⟩
    exact h

theorem tick?_of_told {w : Scene α} {e : Event α} (h : told w e = some (.chore .tick)) :
    tick? w e = some w.now :=
  tick?_eq_some.2 ⟨h, rfl⟩

theorem tick?_of_ne {w : Scene α} {e : Event α} (h : told w e ≠ some (.chore .tick)) :
    tick? w e = none := by
  rw [Option.eq_none_iff_forall_ne_some]
  exact fun t ht => h (tick?_eq_some.1 ht).1

/-- Only turns are cleanups of the background. -/
theorem ready_of_tick {w : Scene α} {e : Event α} (h : told w e = some (.chore .tick)) :
    (∃ timerFirst, e = .turn timerFirst) ∧ ∃ rest, w.ready = .tick :: rest := by
  cases e with
  | does e =>
    simp only [told] at h
    split at h
    · rename_i hf
      cases h
      cases hf
    · cases h
  | turn timerFirst =>
    cases turn_cases w timerFirst with
    | none hr hw => rw [told_of_nil hr] at h; cases h
    | sweep rest hr hw => rw [told_of_sweep hr] at h; cases h
    | late rest hr hc hw => rw [told_of_late hr hc] at h; cases h
    | tick rest hr hc hw => exact ⟨⟨timerFirst, rfl⟩, rest, hr⟩
  | pass limit =>
    simp only [told] at h
    split at h <;> cases h

/-- The foreground calls for no cleanup. -/
theorem tick_mem_act (w : Scene α) (e : Cache.Event α) :
    .tick ∈ (act w e).ready ↔ .tick ∈ w.ready := by
  rw [act, Clock.World.mem_wake]
  refine or_iff_left ?_
  unfold called
  split
  · exact fun hmem => (by cases List.mem_singleton.1 hmem)
  · exact List.not_mem_nil

/-- What ties the next cleanup to those that have run. -/
structure Timed (start period reach : Nat) (w : Scene α) (ticks : List Nat) : Prop where
  interval : w.state.interval = period
  clock : w.state.reach = reach
  next : w.state.nextTick = tickAt start period reach (ticks.length + 1)
  regular : ticks = schedule start period reach ticks.length
  passed : tickAt start period reach ticks.length ≤ w.now
  /-- Time does not pass a cleanup. -/
  waits : w.state.cache.closed = false → w.now ≤ w.state.nextTick
  /-- One that is ready is due now, whether or not the cache has been closed since. -/
  due : .tick ∈ w.ready → w.now = w.state.nextTick
  ready : w.state.cache.closed = false → w.now = w.state.nextTick → .tick ∈ w.ready
  nodup : w.ready.Nodup

section Timed

variable {start period reach : Nat} {w : Scene α} {ticks : List Nat}

theorem Timed.act (h : Timed start period reach w ticks) (e : Cache.Event α) :
    Timed start period reach (act w e) ticks := by
  have hopen : (Tended.act w e).state.cache.closed = false → w.state.cache.closed = false := by
    intro hc
    have hclosed : (Tended.act w e).state.cache.closed = (w.state.cache.closed || e.closes) :=
      Cache.closed_step (front w) e
    rw [hc] at hclosed
    exact (Bool.or_eq_false_iff.1 hclosed.symm).1
  exact ⟨h.interval, h.clock, h.next, h.regular, h.passed, fun hc => h.waits (hopen hc),
    fun hmem => h.due ((tick_mem_act w e).1 hmem),
    fun hc hnow => (tick_mem_act w e).2 (h.ready (hopen hc) hnow),
    Clock.World.nodup_wake h.nodup _⟩

/-- A sweep leaves the times of the cleanups. -/
theorem Timed.sweep (h : Timed start period reach w ticks) (timerFirst : Bool) {rest : List Chore}
    (hr : w.ready = .sweep :: rest) : Timed start period reach
      { w with state := w.state.perform w.now timerFirst .sweep, ready := rest } ticks := by
  obtain ⟨hinterval, hnext, hreach, hclosed⟩ := settings_perform_sweep w.state w.now timerFirst
  have hmem : Chore.tick ∈ w.ready ↔ .tick ∈ rest := by
    rw [hr, List.mem_cons]
    exact or_iff_right (fun hno => by cases hno)
  have hnodup := h.nodup
  rw [hr] at hnodup
  refine ⟨hinterval.trans h.interval, hreach.trans h.clock, hnext.trans h.next, h.regular,
    h.passed, fun hc => ?_, fun hm => ?_, fun hc hnow => ?_, (List.nodup_cons.1 hnodup).2⟩
  · have hc' : w.state.cache.closed = false := hclosed.symm.trans hc
    exact Nat.le_trans (h.waits hc') (Nat.le_of_eq hnext.symm)
  · exact (h.due (hmem.2 hm)).trans hnext.symm
  · exact hmem.1 (h.ready (hclosed.symm.trans hc) (hnow.trans hnext))

/-- A cache that has been closed waits for no cleanup. -/
theorem Timed.late (h : Timed start period reach w ticks) {chore : Chore} {rest : List Chore}
    (hr : w.ready = chore :: rest) (hc : w.state.cache.closed = true) :
    Timed start period reach { w with ready := rest } ticks := by
  have hnodup := h.nodup
  rw [hr] at hnodup
  refine ⟨h.interval, h.clock, h.next, h.regular, h.passed, fun hno => ?_, fun hm => ?_,
    fun hno => ?_, (List.nodup_cons.1 hnodup).2⟩
  · exact absurd (hc.symm.trans hno) Bool.noConfusion
  · exact h.due (by rw [hr]; exact List.mem_cons_of_mem chore hm)
  · exact absurd (hc.symm.trans hno) Bool.noConfusion

/-- A cleanup that is ready is due now, and sets the time of the next one. -/
theorem Timed.tick (h : Timed start period reach w ticks) (hpos : 0 < period) {rest : List Chore}
    (hr : w.ready = .tick :: rest) :
    Timed start period reach { w with state := w.state.tidy w.now, ready := rest }
      (ticks ++ [w.now]) := by
  have hnow : w.now = w.state.nextTick := h.due (by rw [hr]; exact List.mem_cons_self)
  have hat : w.now = tickAt start period reach (ticks.length + 1) := hnow.trans h.next
  have hnext : (w.state.tidy w.now).nextTick = timerAfter reach period w.now := by
    rw [hnow, ← h.clock, ← h.interval]
    rfl
  have hahead : w.now < (w.state.tidy w.now).nextTick := by
    rw [hnext]
    exact lt_timerAfter hpos
  have hlength : (ticks ++ [w.now]).length = ticks.length + 1 := List.length_append
  have hnodup := h.nodup
  rw [hr] at hnodup
  have hgone : Chore.tick ∉ rest := (List.nodup_cons.1 hnodup).1
  refine ⟨h.interval, h.clock, ?_, ?_, ?_, fun _ => Nat.le_of_lt hahead,
    fun hmem => absurd hmem hgone, fun _ heq => absurd heq (Nat.ne_of_lt hahead),
    (List.nodup_cons.1 hnodup).2⟩
  · rw [hlength, tickAt, ← hat]
    exact hnext
  · rw [hlength, schedule_succ, ← h.regular, ← hat]
  · rw [hlength]
    exact Nat.le_of_eq hat.symm

theorem Timed.turn (h : Timed start period reach w ticks) (hpos : 0 < period)
    (timerFirst : Bool) : Timed start period reach (w.turn (system timerFirst))
      (ticks ++ (tick? w (.turn timerFirst)).toList) := by
  have hno : told w (.turn timerFirst) ≠ some (.chore .tick) →
      ticks ++ (tick? w (.turn timerFirst)).toList = ticks := by
    intro hne
    rw [tick?_of_ne hne, Option.toList_none, List.append_nil]
  cases turn_cases w timerFirst with
  | none hr hw =>
    rw [hw, hno (by simp [told_of_nil hr])]
    exact h
  | sweep rest hr hw =>
    rw [hw, hno (by simp [told_of_sweep hr])]
    exact h.sweep timerFirst hr
  | late rest hr hc hw =>
    rw [hw, hno (by simp [told_of_late hr hc])]
    exact h.late hr (Bool.and_eq_true_iff.1 hc).1
  | tick rest hr hc hw =>
    rw [hw, tick?_of_told (told_of_tick hr hc), Option.toList_some]
    exact h.tick hpos hr

/-- When nothing is ready, the next cleanup is still to come. -/
theorem Timed.lt_nextTick (h : Timed start period reach w ticks)
    (hc : w.state.cache.closed = false) (hr : w.ready = []) : w.now < w.state.nextTick := by
  refine Nat.lt_of_le_of_ne (h.waits hc) fun hnow => ?_
  have hmem := h.ready hc hnow
  rw [hr] at hmem
  cases hmem

theorem Timed.pass (h : Timed start period reach w ticks) (hr : w.ready = []) (limit : Nat) :
    Timed start period reach (w.pass (system false) limit) ticks := by
  have hle : w.now ≤ (w.pass (system false) limit).now := Clock.World.le_pass
  have htimers : w.state.cache.closed = false →
      (system false).timers w.state = [(w.state.nextTick, Chore.tick)] := by
    intro hc
    simp only [system, timers, hc, Bool.false_eq_true, if_false]
  refine ⟨?_, ?_, ?_, h.regular, Nat.le_trans h.passed hle, fun hc => ?_, fun hmem => ?_,
    fun hc hnow => ?_, Clock.World.nodup_pass h.nodup⟩
  · rw [Clock.World.state_pass]
    exact h.interval
  · rw [Clock.World.state_pass]
    exact h.clock
  · rw [Clock.World.state_pass]
    exact h.next
  · rw [Clock.World.state_pass] at hc ⊢
    refine Clock.World.pass_le (w.state.nextTick, Chore.tick) ?_ (h.lt_nextTick hc hr)
    rw [htimers hc]
    exact List.mem_singleton.2 rfl
  · rw [Clock.World.mem_pass, hr] at hmem
    obtain ⟨-, hdue⟩ := hmem.resolve_left List.not_mem_nil
    simp only [system, timers] at hdue
    rw [Clock.World.state_pass]
    split at hdue
    · cases hdue
    · exact congrArg Prod.fst (List.mem_singleton.1 hdue)
  · rw [Clock.World.state_pass] at hc hnow
    rw [Clock.World.mem_pass, htimers hc]
    exact Or.inr ⟨Nat.lt_of_lt_of_eq (h.lt_nextTick hc hr) hnow.symm,
      List.mem_singleton.2 (by rw [hnow])⟩

/-- **Every event keeps the cleanups timed.** -/
theorem Timed.happen (h : Timed start period reach w ticks) (hpos : 0 < period) (e : Event α) :
    Timed start period reach (happen w e) (ticks ++ (tick? w e).toList) := by
  have hno : (∀ timerFirst, e ≠ .turn timerFirst) → ticks ++ (tick? w e).toList = ticks := by
    intro hne
    rw [tick?_of_ne fun htick => (ready_of_tick htick).1.elim hne, Option.toList_none,
      List.append_nil]
  cases e with
  | does e =>
    rw [hno (by simp)]
    simp only [Tended.happen]
    split
    · exact h.act e
    · exact h
  | turn timerFirst => exact h.turn hpos timerFirst
  | pass limit =>
    rw [hno (by simp)]
    simp only [Tended.happen]
    split
    · rename_i hr
      exact h.pass hr limit
    · exact h

end Timed

/-- The time between two cleanups, at least a millisecond. -/
abbrev periodOf (interval : Nat) : Nat := max interval (Duration.ofMillis 1)

theorem periodOf_pos (interval : Nat) : 0 < periodOf interval :=
  Nat.lt_of_lt_of_le (by decide) (Nat.le_max_right _ _)

theorem dawn_timed (name : String) (capacity interval reach start : Nat) :
    Timed start (periodOf interval) reach
      (dawn name capacity interval reach start : Scene α) [] := by
  have hahead : start < timerAfter reach (periodOf interval) start :=
    lt_timerAfter (periodOf_pos interval)
  exact ⟨rfl, rfl, rfl, rfl, Nat.le_refl start, fun _ => Nat.le_of_lt hahead,
    fun hmem => (by cases hmem), fun _ heq => absurd heq (Nat.ne_of_lt hahead), List.nodup_nil⟩

theorem sceneAt_timed (name : String) (capacity interval reach start : Nat) (es : List (Event α))
    (n : Nat) : Timed start (periodOf interval) reach
      (sceneAt (dawn name capacity interval reach start) es n)
      (cleanups (dawn name capacity interval reach start) es n) := by
  have hpos := periodOf_pos interval
  exact Trace.after_collected (f := tick?) (P := Timed start (periodOf interval) reach)
    (dawn_timed name capacity interval reach start) (fun _ _ e _ h => h.happen hpos e) n

variable {x : Scene α} {es : List (Event α)} {n : Nat} {key : String} {d : Cache.Entry α}

/-- What an event of a run stores under a key, and for how long. -/
def storedAt (x : Scene α) (es : List (Event α)) (n : Nat) (key : String) : Option (α × Nat) :=
  (toldAt x es n).bind (fun e => e.stored? key)

/-- In a cleanup of the background the cache is cleaned up. -/
theorem cache_of_tick (h : toldAt x es n = some (.chore .tick)) :
    (sceneAt x es (n + 1)).state.cache =
      ((sceneAt x es n).state.cache.cleanup (sceneAt x es n).now).2 := by
  rw [cache_succ, h]
  rfl

theorem ready_of_toldAt (h : toldAt x es n = some (.chore .tick)) :
    .tick ∈ (sceneAt x es n).ready := by
  obtain ⟨e, -, htold⟩ := Option.bind_eq_some_iff.1 h
  obtain ⟨-, rest, hr⟩ := ready_of_tick htold
  rw [hr]
  exact List.mem_cons_self

/-- An entry was stored by an event, and has lived at every cleanup of the background since then. -/
structure Held (x : Scene α) (es : List (Event α)) (n : Nat) (key : String) (d : Cache.Entry α)
    (m : Nat) (ttl : Nat) : Prop where
  before : m < n
  stored : storedAt x es m key = some (d.value, ttl)
  expiry : d.expiresAt = (sceneAt x es m).now + min ttl Cache.longestTtl
  /-- Nothing was stored in its place. -/
  last : ∀ j, m < j → j < n → storedAt x es j key = none
  lives : ∀ j, m < j → j < n → toldAt x es j = some (.chore .tick) →
    (sceneAt x es j).now < d.expiresAt

/-- An entry that an event has left is still held. -/
theorem Held.succ {c : Cache.Entry α} {m ttl : Nat} (h : Held x es n key c m ttl)
    (hvalue : d.value = c.value) (hexpiry : d.expiresAt = c.expiresAt)
    (hstored : storedAt x es n key = none)
    (hlives : toldAt x es n = some (.chore .tick) → (sceneAt x es n).now < d.expiresAt) :
    Held x es (n + 1) key d m ttl := by
  refine ⟨Nat.lt_succ_of_lt h.before, ?_, hexpiry.trans h.expiry, ?_, ?_⟩
  · rw [hvalue]
    exact h.stored
  · intro j hmj hj
    rcases Nat.lt_succ_iff_lt_or_eq.1 hj with hj | rfl
    · exact h.last j hmj hj
    · exact hstored
  · intro j hmj hj htick
    rcases Nat.lt_succ_iff_lt_or_eq.1 hj with hj | rfl
    · rw [hexpiry]
      exact h.lives j hmj hj htick
    · exact hlives htick

/-- **Every entry is held.** -/
theorem held_sceneAt (hx : x.state.cache.Exact) (hempty : x.state.cache.entries = [])
    (hd : (sceneAt x es n).state.cache.entries.get? key = some d) :
    ∃ m ttl, Held x es n key d m ttl := by
  induction n generalizing d with
  | zero =>
    rw [sceneAt_zero, hempty] at hd
    cases hd
  | succ n ih =>
    have hexact := exact_sceneAt hx es n
    -- what a cleanup leaves has not expired
    have hlives : toldAt x es n = some (.chore .tick) →
        (sceneAt x es n).now < d.expiresAt := by
      intro htick
      rw [cache_of_tick htick] at hd
      exact Cache.expired_gone (Table.mem_of_get? hd)
    rw [cache_succ] at hd
    cases htold : toldAt x es n with
    | none =>
      rw [htold] at hd
      obtain ⟨m, ttl, h⟩ := ih hd
      exact ⟨m, ttl, h.succ rfl rfl (by rw [storedAt, htold, Option.bind_none]) hlives⟩
    | some e =>
      rw [htold, Option.toList_some, List.foldl_cons, List.foldl_nil] at hd
      have hstored : storedAt x es n key = e.stored? key := by
        rw [storedAt, htold, Option.bind_some]
      cases Cache.remains_of_step (x := front (sceneAt x es n)) hexact e hd with
      | stored value ttl hv hd =>
        refine ⟨n, ttl, Nat.lt_succ_self n, ?_, ?_, ?_, ?_⟩
        · rw [hstored, hv, hd]
        · rw [hd]
          rfl
        · intro j hnj hj
          omega
        · intro j hnj hj
          omega
      | found c hv hu hc hd =>
        obtain ⟨m, ttl, h⟩ := ih hc
        exact ⟨m, ttl, h.succ (by rw [hd]) (by rw [hd]) (hstored.trans hv) hlives⟩
      | kept hv hu hc =>
        obtain ⟨m, ttl, h⟩ := ih hc
        exact ⟨m, ttl, h.succ rfl rfl (hstored.trans hv) hlives⟩

theorem mem_cleanups {t : Nat} : t ∈ cleanups x es n ↔
    ∃ m, m < n ∧ toldAt x es m = some (.chore .tick) ∧ t = (sceneAt x es m).now := by
  unfold cleanups Trace.collected toldAt
  simp only [List.mem_filterMap, List.mem_range'_1, Option.bind_eq_some_iff, tick?_eq_some]
  constructor
  · rintro ⟨m, ⟨-, hm⟩, e, he, htold, rfl⟩
    exact ⟨m, by omega, ⟨e, he, htold⟩, rfl⟩
  · rintro ⟨m, hm, ⟨e, he, htold⟩, rfl⟩
    exact ⟨m, ⟨Nat.zero_le m, by omega⟩, e, he, htold, rfl⟩

/-- No cleanup of the background has come after an entry expired. -/
theorem Held.le_expiresAt {m ttl : Nat} (h : Held x es n key d m ttl) :
    ∀ t ∈ cleanups x es n, t ≤ d.expiresAt := by
  intro t ht
  obtain ⟨j, hj, htick, rfl⟩ := mem_cleanups.1 ht
  rcases Nat.lt_trichotomy j m with hjm | rfl | hmj
  · -- it was before the entry was stored
    have hnow := now_mono x es (Nat.le_of_lt hjm)
    have hexpiry := h.expiry
    omega
  · have hstored := h.stored
    rw [storedAt, htick] at hstored
    cases hstored
  · exact Nat.le_of_lt (h.lives j hmj hj htick)

/-- While a cache is closed, no cleanup gets ready. -/
theorem tick_not_mem_happen {w : Scene α} (hc : w.state.cache.closed = true)
    (h : .tick ∉ w.ready) (e : Event α) : .tick ∉ (happen w e).ready := by
  cases e with
  | does e =>
    simp only [happen]
    split
    · rwa [tick_mem_act]
    · exact h
  | turn timerFirst =>
    simp only [happen]
    cases turn_cases w timerFirst with
    | none hr hw => rwa [hw]
    | sweep rest hr hw =>
      rw [hr] at h
      rw [hw]
      exact fun hmem => h (List.mem_cons_of_mem _ hmem)
    | late rest hr hc hw =>
      rw [hr] at h
      exact absurd List.mem_cons_self h
    | tick rest hr hc hw =>
      rw [hr] at h
      exact absurd List.mem_cons_self h
  | pass limit =>
    have htimers : (system false).timers w.state = [] := if_pos hc
    simp only [happen]
    split
    · rw [Clock.World.mem_pass, htimers]
      exact fun hor => hor.elim h fun hdue => (by cases hdue.2)
    · exact h

theorem tick_not_mem_since {m : Nat} (hmn : m ≤ n)
    (hc : (sceneAt x es m).state.cache.closed = true) (h : .tick ∉ (sceneAt x es m).ready) :
    .tick ∉ (sceneAt x es n).ready :=
  Trace.after_since (P := fun w : Scene α => .tick ∉ w.ready) hmn h
    fun _ hmi e _ hi => tick_not_mem_happen (closed_mono hmi hc) hi e

/-- **A closed cache is not cleaned up in the background** any more, once no cleanup is ready. -/
theorem cleanups_of_closed {m : Nat} (hmn : m ≤ n)
    (hc : (sceneAt x es m).state.cache.closed = true) (h : .tick ∉ (sceneAt x es m).ready) :
    cleanups x es n = cleanups x es m := by
  induction hmn with
  | refl => rfl
  | @step n hmn ih =>
    have hnone : es[n]?.bind (tick? (sceneAt x es n)) = none := by
      rw [Option.eq_none_iff_forall_ne_some]
      intro t ht
      obtain ⟨e, he, htick⟩ := Option.bind_eq_some_iff.1 ht
      refine tick_not_mem_since hmn hc h (ready_of_toldAt ?_)
      rw [toldAt, he, Option.bind_some]
      exact (tick?_eq_some.1 htick).1
    rw [← ih, cleanups, Nat.succ_eq_add_one, Trace.collected_succ tick? (Nat.zero_le n), hnone,
      Option.toList_none, List.append_nil]
    rfl

/-- What the background does besides cleanups: it sweeps. -/
theorem cache_of_turn {timerFirst : Bool} (he : es[n]? = some (.turn timerFirst))
    (h : toldAt x es n ≠ some (.chore .tick)) :
    (sceneAt x es (n + 1)).state.cache = (sceneAt x es n).state.cache ∨
      (sceneAt x es (n + 1)).state.cache = (sceneAt x es n).state.cache.sweep := by
  have htold : toldAt x es n = told (sceneAt x es n) (.turn timerFirst) := by
    rw [toldAt, he, Option.bind_some]
  rw [cache_succ]
  rw [htold] at h ⊢
  cases turn_cases (sceneAt x es n) timerFirst with
  | none hr hw =>
    rw [told_of_nil hr]
    exact Or.inl rfl
  | sweep rest hr hw =>
    rw [told_of_sweep hr, Option.toList_some, List.foldl_cons, List.foldl_nil]
    simp only [Cache.step]
    split
    · exact Or.inl rfl
    · exact Or.inr rfl
  | late rest hr hc hw =>
    rw [told_of_late hr hc]
    exact Or.inl rfl
  | tick rest hr hc hw => exact absurd (told_of_tick hr hc) h

theorem Timed.ahead {start period reach : Nat} {w : Scene α} {ticks : List Nat}
    (h : Timed start period reach w ticks) (hc : w.state.cache.closed = false)
    (hr : w.ready = []) : w.now < tickAt start period reach (ticks.length + 1) := by
  rw [← h.next]
  exact h.lt_nextTick hc hr

/-- As many cleanups have run as there are multiples of the period up to now, if the clock can tell
the next one. -/
theorem Timed.count {start period reach : Nat} {w : Scene α} {ticks : List Nat}
    (h : Timed start period reach w ticks) (hc : w.state.cache.closed = false) (hr : w.ready = [])
    (hbegun : start ≤ w.now) (hpos : 0 < period) (hreach : w.now + period ≤ reach) :
    ticks = multiples start period ((w.now - start) / period) := by
  have hahead := h.ahead hc hr
  have hpassed := h.passed
  generalize hcount : ticks.length = count at hahead hpassed
  have hdiv : (w.now - start) / period * period ≤ w.now - start := Nat.div_mul_le_self _ _
  have hlt : w.now - start < ((w.now - start) / period + 1) * period := by
    rw [Nat.mul_comm]
    exact Nat.lt_mul_div_succ _ hpos
  generalize (w.now - start) / period = k at hdiv hlt
  have hnext : (k + 1) * period = k * period + period := Nat.succ_mul k period
  have hk : tickAt start period reach k = start + k * period := tickAt_eq (by omega)
  have hk' : tickAt start period reach (k + 1) = start + (k + 1) * period := tickAt_eq (by omega)
  have heq : count = k := by
    rcases Nat.lt_trichotomy count k with hlt' | heq | hgt
    · -- the cleanup after the last one has been due
      have hmono : tickAt start period reach (count + 1) ≤ tickAt start period reach k :=
        tickAt_mono start reach hpos hlt'
      omega
    · exact heq
    · have hmono : tickAt start period reach (k + 1) ≤ tickAt start period reach count :=
        tickAt_mono start reach hpos hgt
      omega
  rw [h.regular, hcount, heq]
  exact schedule_eq (by omega)

/-- **An entry stays for less than a period after it has expired**, at points where nothing is ready
and if the clock can tell the next cleanup. Else the cleanup comes far ahead. -/
theorem Timed.stale {start period reach : Nat}
    (h : Timed start period reach (sceneAt x es n) (cleanups x es n))
    (hnow : x.now = start) (hx : x.state.cache.Exact) (hempty : x.state.cache.entries = [])
    (hc : (sceneAt x es n).state.cache.closed = false) (hr : (sceneAt x es n).ready = []) :
    ∀ p ∈ (sceneAt x es n).state.cache.entries, (sceneAt x es n).now < p.2.expiresAt +
      if (sceneAt x es n).now + period ≤ reach then period else max period farAhead := by
  intro p hp
  have hentry := Table.get?_of_mem (exact_sceneAt hx es n).nodup hp
  obtain ⟨m, ttl, hheld⟩ := held_sceneAt hx hempty hentry
  have hpassed := h.passed
  have hahead : (sceneAt x es n).now <
      timerAfter reach period (tickAt start period reach (cleanups x es n).length) := h.ahead hc hr
  -- the last cleanup was not after the entry expired
  have hlast : tickAt start period reach (cleanups x es n).length ≤ p.2.expiresAt := by
    cases hcount : (cleanups x es n).length with
    | zero =>
      have hstored := now_mono x es (Nat.zero_le m)
      have hexpiry := hheld.expiry
      rw [sceneAt_zero, hnow] at hstored
      rw [tickAt]
      omega
    | succ count =>
      have hticks := h.regular
      rw [hcount, schedule_succ] at hticks
      refine hheld.le_expiresAt _ ?_
      rw [hticks]
      exact List.mem_append_right _ (List.mem_singleton.2 rfl)
  split
  · rw [timerAfter_of_le (by omega)] at hahead
    omega
  · have hfar := timerAfter_le reach period (tickAt start period reach (cleanups x es n).length)
    omega

/-- The background of a cache that was made at some instant, after the first events of a run. -/
structure Punctual (start period reach : Nat) (x : Scene α) (es : List (Event α)) (n : Nat) :
    Prop where
  /-- It has cleaned up when cleanups were due, one after the other. While the cache is open, it has
  missed none. -/
  regular : ∃ count, cleanups x es n = schedule start period reach count ∧
    tickAt start period reach count ≤ (sceneAt x es n).now ∧
    ((sceneAt x es n).state.cache.closed = false →
      (sceneAt x es n).now ≤ tickAt start period reach (count + 1) ∧
        ((sceneAt x es n).ready = [] →
          (sceneAt x es n).now < tickAt start period reach (count + 1)))
  /-- They are due at the multiples of the period that the clock can tell. -/
  multiples : ∀ count, start + count * period ≤ reach →
    schedule start period reach count = multiples start period count
  /-- So it has cleaned up at all of these up to now if nothing is ready. -/
  complete : (sceneAt x es n).state.cache.closed = false → (sceneAt x es n).ready = [] →
    (sceneAt x es n).now + period ≤ reach →
      cleanups x es n = Tended.multiples start period (((sceneAt x es n).now - start) / period)
  /-- Each time the cache was cleaned up. -/
  cleaned : ∀ m, toldAt x es m = some (.chore .tick) → (sceneAt x es (m + 1)).state.cache =
    ((sceneAt x es m).state.cache.cleanup (sceneAt x es m).now).2
  /-- At other times, nothing but sweeps was done. -/
  others : ∀ m timerFirst, es[m]? = some (.turn timerFirst) →
    toldAt x es m ≠ some (.chore .tick) →
      (sceneAt x es (m + 1)).state.cache = (sceneAt x es m).state.cache ∨
        (sceneAt x es (m + 1)).state.cache = (sceneAt x es m).state.cache.sweep
  /-- No entry has expired at a cleanup that came after it was stored. -/
  held : ∀ key d, (sceneAt x es n).state.cache.entries.get? key = some d →
    ∃ m ttl, Held x es n key d m ttl
  /-- So none stays for a period after it has expired, if the clock can tell the next cleanup. -/
  stale : (sceneAt x es n).state.cache.closed = false → (sceneAt x es n).ready = [] →
    ∀ p ∈ (sceneAt x es n).state.cache.entries, (sceneAt x es n).now < p.2.expiresAt +
      if (sceneAt x es n).now + period ≤ reach then period else max period farAhead
  closed : (sceneAt x es n).state.cache.closed = true ↔ ∃ m, m < n ∧ es[m]? = some (.does .close)
  /-- Unless a cleanup was due when the cache was closed, none runs in the background afterwards,
  and none even gets ready. -/
  stopped : ∀ m, m ≤ n → (sceneAt x es m).state.cache.closed = true →
    .tick ∉ (sceneAt x es m).ready →
      cleanups x es n = cleanups x es m ∧ .tick ∉ (sceneAt x es n).ready
  /-- Apart from that, it goes on as if it were not closed. -/
  asBefore : ∀ m, m ≤ n → (sceneAt x es m).state.cache.closed = true →
    front (sceneAt x es n) = Cache.worldAt (front (sceneAt x es m)) (toldSince x es m n)
        (toldSince x es m n).length ∧
      Cache.AsOpened (front (sceneAt x es m)) (toldSince x es m n)

/-- **The background is punctual**, at every point of every run: it bounds for how long expired
entries stay. -/
theorem staleness_bounded (name : String) (capacity interval reach start : Nat)
    (es : List (Event α)) (n : Nat) : Punctual start (max interval (Duration.ofMillis 1)) reach
      (dawn name capacity interval reach start) es n := by
  have hpos := periodOf_pos interval
  have htimed := sceneAt_timed name capacity interval reach start es n
  have hexact : (dawn name capacity interval reach start : Scene α).state.cache.Exact :=
    Cache.dawn_exact name capacity start
  have hbegun := now_mono (dawn name capacity interval reach start) es (Nat.zero_le n)
  refine ⟨⟨_, htimed.regular, htimed.passed, fun hc => ⟨?_, htimed.ahead hc⟩⟩,
    fun count => schedule_eq, fun hc hr => htimed.count hc hr hbegun hpos, fun m => cache_of_tick,
    fun m _ => cache_of_turn, fun key d hd => held_sceneAt hexact rfl hd,
    htimed.stale rfl hexact rfl, ?_,
    fun m hmn hc h => ⟨cleanups_of_closed hmn hc h, tick_not_mem_since hmn hc h⟩,
    fun m hmn hc => ⟨front_since _ es hmn, Cache.asOpened hc _⟩⟩
  · rw [← htimed.next]
    exact htimed.waits hc
  · rw [closed_sceneAt]
    exact or_iff_right Bool.noConfusion

/-- Two cleanups, and none once the cache is closed. -/
example : cleanups (dawn "c" 1 1000000 wordReach 0 : Scene Nat)
    [.pass 9000000, .turn true, .pass 9000000, .turn true, .does .close, .pass 9000000,
      .turn true] 7 = [1000000, 2000000] := by decide

/-- **A cleanup can run between two multiples of its interval, and one after the cache was closed.**
With an interval of `2^64 - 1` seconds the first one comes after thirty years. With an interval of
a millisecond, one is due when the cache is closed, and its timer is looked at first. -/
theorem astray_cleanups :
    (cleanups (dawn "c" 1 (Duration.ofSecs 18446744073709551615) wordReach 0 : Scene Nat)
        [.pass farAhead, .turn false] 2 = [farAhead] ∧
      ¬ ∃ m, farAhead = m * Duration.ofSecs 18446744073709551615) ∧
    (sceneAt (dawn "c" 1 1000000 wordReach 0 : Scene Nat)
        [.pass 1000000, .does .close, .turn true] 2).state.cache.closed = true ∧
      cleanups (dawn "c" 1 1000000 wordReach 0 : Scene Nat)
        [.pass 1000000, .does .close, .turn true] 2 = [] ∧
      cleanups (dawn "c" 1 1000000 wordReach 0 : Scene Nat)
        [.pass 1000000, .does .close, .turn true] 3 = [1000000] := by
  refine ⟨⟨by decide, ?_⟩, rfl, by decide, by decide⟩
  rintro ⟨m, hm⟩
  simp only [farAhead, Duration.ofSecs] at hm
  omega

end RegistryLookup.Tended
