import RegistryLookup.Proofs.Cache.Closed
import RegistryLookup.Proofs.Cache.Schedule
import RegistryLookup.Proofs.Clock

/-!
# Runs of a tended cache

On the clock the foreground may do something with a tended cache at any time, even while background
work is ready. Work that is ready is done one piece after another, and time passes only when none
is. A turn tells what is looked at first if a cleanup is due and the cache has been closed. Every
list of events is a run: an event that cannot happen changes nothing.

* `Scene`, `Event`, `happen`, `sceneAt`: a run.
* `told`, `front_happen`, `front_since`: for the cache it is a run of the cache.
* `closed_happen`, `closed_sceneAt`: only closing closes, and nothing opens again.
* `runTended_scene`: what is seen in a session is seen in a run.
-/

namespace RegistryLookup

/-- Whether an event is something that the foreground does where there is a background. -/
def Cache.Event.isForeground {α : Type} : Cache.Event α → Bool
  | .setAlone _ _ _ _ => false
  | .chore _ => false
  | .pass _ => false
  | _ => true

namespace Tended

variable {α : Type}

/-- A tended cache on the clock, with the background work that is ready. -/
abbrev Scene (α : Type) := Clock.World (Tended α) Chore

/-- What can happen. -/
inductive Event (α : Type)
  /-- The foreground does something. -/
  | does (e : Cache.Event α)
  /-- The first ready piece of background work is done. -/
  | turn (timerFirst : Bool)
  /-- Time passes up to an instant, or to the next cleanup before it. -/
  | pass (limit : Nat)

/-- What a scene is for the cache. The flag says whether a sweep has been handed over. -/
def front (w : Scene α) : Cache.World α where
  now := w.now
  cache := w.state.cache
  queued := w.state.cache.sweepPending.toNat

/-- The foreground does something; a sweep that is asked for gets ready. -/
def act (w : Scene α) (e : Cache.Event α) : Scene α :=
  { w with state := { w.state with cache := (Cache.step (front w) e).cache } }.wake
    (called w.state.cache (Cache.step (front w) e).cache)

/-- The scene after an event. -/
def happen (w : Scene α) : Event α → Scene α
  | .does e => if e.isForeground then act w e else w
  | .turn timerFirst => w.turn (system timerFirst)
  | .pass limit => if w.ready = [] then w.pass (system false) limit else w

/-- A new cache with its background, before the first event. -/
def dawn (name : String) (capacity interval reach start : Nat) : Scene α where
  now := start
  state := make name capacity interval reach start

/-- The scene after the first `n` events. -/
abbrev sceneAt (x : Scene α) (es : List (Event α)) (n : Nat) : Scene α := Trace.after happen x es n

theorem sceneAt_zero (x : Scene α) (es : List (Event α)) : sceneAt x es 0 = x := Trace.after_zero

/-- What the background does in a turn. -/
inductive Turned (w w' : Scene α) (timerFirst : Bool) : Prop
  /-- Nothing is ready. -/
  | none (h : w.ready = []) (hw : w' = w)
  | sweep (rest : List Chore) (h : w.ready = .sweep :: rest)
      (hw : w' = { w with state := w.state.perform w.now timerFirst .sweep, ready := rest })
  /-- The cache has been closed before the cleanup that is due, and that is looked at first. -/
  | late (rest : List Chore) (h : w.ready = .tick :: rest)
      (hc : (w.state.cache.closed && !timerFirst) = true) (hw : w' = { w with ready := rest })
  | tick (rest : List Chore) (h : w.ready = .tick :: rest)
      (hc : (w.state.cache.closed && !timerFirst) = false)
      (hw : w' = { w with state := w.state.tidy w.now, ready := rest })

/-- **Everything that can happen in a turn.** -/
theorem turn_cases (w : Scene α) (timerFirst : Bool) :
    Turned w (w.turn (system timerFirst)) timerFirst := by
  unfold Clock.World.turn
  cases hr : w.ready with
  | nil => exact .none hr rfl
  | cons chore rest =>
    cases chore with
    | sweep => exact .sweep rest hr rfl
    | tick =>
      cases hc : w.state.cache.closed && !timerFirst with
      | true =>
        have hperform : w.state.perform w.now timerFirst .tick = w.state := if_pos hc
        refine .late rest hr hc ?_
        simp only [system, hperform]
        rfl
      | false =>
        have hperform : w.state.perform w.now timerFirst .tick = w.state.tidy w.now :=
          if_neg (by rw [hc]; exact Bool.false_ne_true)
        refine .tick rest hr hc ?_
        simp only [system, hperform]
        rfl

/-- A sweep of the background leaves the times of the cleanups. -/
theorem settings_perform_sweep (t : Tended α) (now : Nat) (timerFirst : Bool) :
    (t.perform now timerFirst .sweep).interval = t.interval ∧
      (t.perform now timerFirst .sweep).nextTick = t.nextTick ∧
      (t.perform now timerFirst .sweep).reach = t.reach ∧
        (t.perform now timerFirst .sweep).cache.closed = t.cache.closed := by
  unfold perform
  simp only
  split
  · exact ⟨rfl, rfl, rfl, Cache.closed_sweep t.cache⟩
  · exact ⟨rfl, rfl, rfl, rfl⟩

/-- What an event is for the cache. -/
def told (w : Scene α) : Event α → Option (Cache.Event α)
  | .does e => if e.isForeground then some e else none
  | .turn timerFirst =>
    match w.ready.head? with
    | some .sweep => some (.chore .sweep)
    | some .tick => if w.state.cache.closed && !timerFirst then none else some (.chore .tick)
    | none => none
  | .pass limit =>
    if w.ready = [] then some (.pass ((w.pass (system false) limit).now - w.now)) else none

section Told

variable {w : Scene α} {timerFirst : Bool} {rest : List Chore}

theorem told_of_sweep (h : w.ready = .sweep :: rest) :
    told w (.turn timerFirst) = some (.chore .sweep) := by
  simp only [told, h, List.head?_cons]

theorem told_of_late (h : w.ready = .tick :: rest)
    (hc : (w.state.cache.closed && !timerFirst) = true) : told w (.turn timerFirst) = none := by
  simp only [told, h, List.head?_cons, hc, if_true]

theorem told_of_tick (h : w.ready = .tick :: rest)
    (hc : (w.state.cache.closed && !timerFirst) = false) :
    told w (.turn timerFirst) = some (.chore .tick) := by
  simp only [told, h, List.head?_cons, hc, Bool.false_eq_true, if_false]

theorem told_of_nil (h : w.ready = []) : told w (.turn timerFirst) = none := by
  simp only [told, h, List.head?_nil]

end Told

/-- Of what the foreground does, only storing raises the flag. -/
theorem sets_or_keeps {y : Cache.World α} {e : Cache.Event α} (h : e.isForeground = true) :
    (∃ key value ttl, e = .set key value ttl) ∨
      ((Cache.step y e).cache.sweepPending = y.cache.sweepPending ∧
        (Cache.step y e).queued = y.queued) := by
  cases e with
  | set key value ttl => exact Or.inl ⟨key, value, ttl, rfl⟩
  | get key => exact Or.inr ⟨(Cache.eases_get _ _ _).flag, rfl⟩
  | delete key => exact Or.inr ⟨(Cache.eases_delete _ _).flag, rfl⟩
  | setAlone key value ttl order => cases h
  | chore chore => cases h
  | pass d => cases h
  | _ => exact Or.inr ⟨rfl, rfl⟩

/-- What the foreground does leaves a raised flag. -/
theorem raised_step {y : Cache.World α} {e : Cache.Event α} (h : e.isForeground = true)
    (hp : y.cache.sweepPending = true) : (Cache.step y e).cache.sweepPending = true := by
  rcases sets_or_keeps (y := y) h with ⟨key, value, ttl, rfl⟩ | ⟨hflag, -⟩
  · exact Cache.sweepPending_set_of_raised hp _ _ _ _
  · exact hflag.trans hp

/-- What the foreground does hands over a sweep if it raises the flag. -/
theorem queued_step (w : Scene α) {e : Cache.Event α} (h : e.isForeground = true) :
    (Cache.step (front w) e).queued = (Cache.step (front w) e).cache.sweepPending.toNat := by
  rcases sets_or_keeps (y := front w) h with ⟨key, value, ttl, rfl⟩ | ⟨hflag, hqueued⟩
  · exact Cache.length_called fun hb => Cache.sweepPending_set_of_raised hb _ _ _ _
  · rw [hqueued, hflag]
    rfl

theorem now_foreground {y : Cache.World α} {e : Cache.Event α} (h : e.isForeground = true) :
    (Cache.step y e).now = y.now := by
  cases e with
  | pass d => cases h
  | _ => exact Cache.now_step y _

theorem front_act (w : Scene α) {e : Cache.Event α} (h : e.isForeground = true) :
    front (act w e) = Cache.step (front w) e := by
  have hqueued := queued_step w h
  have hnow : (Cache.step (front w) e).now = w.now := now_foreground h
  have hfront : front (act w e) =
      { now := w.now
        cache := (Cache.step (front w) e).cache
        queued := (Cache.step (front w) e).cache.sweepPending.toNat } := rfl
  rw [hfront, ← hqueued, ← hnow]

theorem front_sweep (w : Scene α) (timerFirst : Bool) (rest : List Chore) :
    front { w with state := w.state.perform w.now timerFirst .sweep, ready := rest } =
      Cache.step (front w) (.chore .sweep) := by
  cases hp : w.state.cache.sweepPending with
  | true =>
    have hperform : w.state.perform w.now timerFirst .sweep =
        { w.state with cache := w.state.cache.sweep } := if_pos hp
    simp only [hperform, front, Cache.step, hp, Cache.sweepPending_sweep, Bool.toNat_true,
      Nat.one_ne_zero, if_false]
    rfl
  | false =>
    have hperform : w.state.perform w.now timerFirst .sweep = w.state :=
      if_neg (by rw [hp]; decide)
    simp only [hperform, front, Cache.step, hp, Bool.toNat_false, if_true]

/-- **Every event of a scene is an event of the cache, or none.** -/
theorem front_happen (w : Scene α) (e : Event α) :
    front (happen w e) = (told w e).toList.foldl Cache.step (front w) := by
  cases e with
  | does e =>
    simp only [happen, told]
    split
    · rename_i h
      exact front_act w h
    · rfl
  | turn timerFirst =>
    simp only [happen]
    cases turn_cases w timerFirst with
    | none h hw =>
      rw [hw, told_of_nil h]
      rfl
    | sweep rest h hw =>
      rw [hw, told_of_sweep h]
      exact front_sweep w timerFirst rest
    | late rest h hc hw =>
      rw [hw, told_of_late h hc]
      rfl
    | tick rest h hc hw =>
      rw [hw, told_of_tick h hc]
      rfl
  | pass limit =>
    simp only [happen, told]
    split
    · have hle : w.now ≤ (w.pass (system false) limit).now := Clock.World.le_pass
      have hnow : w.now + ((w.pass (system false) limit).now - w.now) =
          (w.pass (system false) limit).now := by omega
      simp only [Option.toList_some, List.foldl_cons, List.foldl_nil, Cache.step, front,
        Clock.World.state_pass, hnow]
    · rfl

/-- What an event of a run is for the cache. -/
def toldAt (x : Scene α) (es : List (Event α)) (n : Nat) : Option (Cache.Event α) :=
  es[n]?.bind (told (sceneAt x es n))

theorem front_succ (x : Scene α) (es : List (Event α)) (n : Nat) :
    front (sceneAt x es (n + 1)) =
      (toldAt x es n).toList.foldl Cache.step (front (sceneAt x es n)) := by
  unfold toldAt
  rcases Trace.after_cases happen x es n with ⟨hnone, hsame⟩ | ⟨e, he, hstep⟩
  · rw [sceneAt, hsame, hnone]
    rfl
  · rw [sceneAt, hstep, he]
    exact front_happen _ e

theorem cache_succ (x : Scene α) (es : List (Event α)) (n : Nat) :
    (sceneAt x es (n + 1)).state.cache =
      ((toldAt x es n).toList.foldl Cache.step (front (sceneAt x es n))).cache :=
  congrArg Cache.World.cache (front_succ x es n)

/-- What the events from number `m` to before number `n` are for the cache. -/
abbrev toldSince (x : Scene α) (es : List (Event α)) (m n : Nat) : List (Cache.Event α) :=
  Trace.collected happen told x es m n

/-- **A run of a tended cache is a run of the cache.** -/
theorem front_since (x : Scene α) (es : List (Event α)) {m n : Nat} (hmn : m ≤ n) :
    front (sceneAt x es n) = Cache.worldAt (front (sceneAt x es m)) (toldSince x es m n)
      (toldSince x es m n).length := by
  rw [Cache.worldAt, Trace.after_length]
  -- by induction on the events since then
  induction hmn with
  | refl => rw [toldSince, Trace.collected_self, List.foldl_nil]
  | @step n hmn ih =>
    have hsince : toldSince x es m (n + 1) = toldSince x es m n ++ (toldAt x es n).toList :=
      Trace.collected_succ told hmn
    rw [Nat.succ_eq_add_one, front_succ, ih, hsince, List.foldl_append]

theorem exact_sceneAt {x : Scene α} (hx : x.state.cache.Exact) (es : List (Event α)) (n : Nat) :
    (sceneAt x es n).state.cache.Exact := by
  have hfront : (sceneAt x es n).state.cache = (Cache.worldAt (front x) (toldSince x es 0 n)
      (toldSince x es 0 n).length).cache :=
    congrArg Cache.World.cache (front_since x es (Nat.zero_le n))
  rw [hfront]
  exact Cache.worldAt_exact (x := front x) hx _ _

theorem now_mono (x : Scene α) (es : List (Event α)) {m n : Nat} (hmn : m ≤ n) :
    (sceneAt x es m).now ≤ (sceneAt x es n).now := by
  have hfront : (sceneAt x es n).now = (Cache.worldAt (front (sceneAt x es m))
      (toldSince x es m n) (toldSince x es m n).length).now :=
    congrArg Cache.World.now (front_since x es hmn)
  rw [hfront]
  exact Cache.now_mono (front (sceneAt x es m)) _ (Nat.zero_le _)

/-- Whether an event closes the cache. -/
def Event.closes : Event α → Bool
  | .does e => e.closes
  | _ => false

theorem any_closes_told (w : Scene α) (e : Event α) :
    (told w e).toList.any Cache.Event.closes = e.closes := by
  cases e with
  | does e =>
    cases hf : e.isForeground with
    | true =>
      have htold : told w (.does e) = some e := if_pos hf
      rw [htold, Option.toList_some, List.any_cons, List.any_nil, Bool.or_false]
      rfl
    | false =>
      have htold : told w (.does e) = none := if_neg (by rw [hf]; exact Bool.false_ne_true)
      rw [htold]
      cases e with
      | close => cases hf
      | _ => rfl
  | turn timerFirst =>
    cases turn_cases w timerFirst with
    | none h hw =>
      rw [told_of_nil h]
      rfl
    | sweep rest h hw =>
      rw [told_of_sweep h]
      rfl
    | late rest h hc hw =>
      rw [told_of_late h hc]
      rfl
    | tick rest h hc hw =>
      rw [told_of_tick h hc]
      rfl
  | pass limit =>
    simp only [told]
    split <;> rfl

/-- **Only closing closes**, and nothing opens again. -/
theorem closed_happen (w : Scene α) (e : Event α) :
    (happen w e).state.cache.closed = (w.state.cache.closed || e.closes) := by
  have hfront : (happen w e).state.cache.closed =
      ((told w e).toList.foldl Cache.step (front w)).cache.closed :=
    congrArg (fun y => y.cache.closed) (front_happen w e)
  rw [hfront, ← any_closes_told w e]
  cases told w e with
  | none => exact (Bool.or_false _).symm
  | some e' =>
    rw [Option.toList_some, List.foldl_cons, List.foldl_nil, List.any_cons, List.any_nil,
      Bool.or_false]
    exact Cache.closed_step (front w) e'

theorem closes_iff {e : Event α} : e.closes = true ↔ e = .does .close := by
  constructor
  · intro h
    cases e with
    | does e =>
      cases e with
      | close => rfl
      | _ => cases h
    | _ => cases h
  · rintro rfl
    rfl

/-- A cache is closed if it was, or if somebody has closed it. -/
theorem closed_sceneAt (x : Scene α) (es : List (Event α)) (n : Nat) :
    (sceneAt x es n).state.cache.closed = true ↔
      x.state.cache.closed = true ∨ ∃ m, m < n ∧ es[m]? = some (.does .close) := by
  induction n with
  | zero =>
    rw [sceneAt_zero]
    exact ⟨Or.inl, fun h => h.resolve_right (by rintro ⟨m, hm, -⟩; exact Nat.not_lt_zero m hm)⟩
  | succ n ih =>
    have hlater : (∃ m, m < n + 1 ∧ es[m]? = some (.does .close)) ↔
        (∃ m, m < n ∧ es[m]? = some (.does .close)) ∨ es[n]? = some (.does .close) := by
      constructor
      · rintro ⟨m, hm, he⟩
        rcases Nat.lt_succ_iff_lt_or_eq.1 hm with hm | rfl
        · exact Or.inl ⟨m, hm, he⟩
        · exact Or.inr he
      · rintro (⟨m, hm, he⟩ | he)
        · exact ⟨m, Nat.lt_succ_of_lt hm, he⟩
        · exact ⟨n, Nat.lt_succ_self n, he⟩
    rw [hlater, ← or_assoc, ← ih]
    rcases Trace.after_cases happen x es n with ⟨hnone, hsame⟩ | ⟨e, he, hstep⟩
    · rw [sceneAt, hsame, hnone]
      simp
    · rw [sceneAt, hstep, he, closed_happen, Bool.or_eq_true, closes_iff, Option.some.injEq]

theorem closed_mono {x : Scene α} {es : List (Event α)} {m n : Nat} (hmn : m ≤ n)
    (hc : (sceneAt x es m).state.cache.closed = true) :
    (sceneAt x es n).state.cache.closed = true := by
  rw [closed_sceneAt] at hc ⊢
  refine hc.imp_right ?_
  rintro ⟨j, hj, he⟩
  exact ⟨j, Nat.lt_of_lt_of_le hj hmn, he⟩

/-- The background work that two changes call for, one after the other. -/
theorem called_append {before between after : Cache α}
    (h : before.sweepPending = true → between.sweepPending = true)
    (h' : between.sweepPending = true → after.sweepPending = true) :
    called before between ++ called between after = called before after := by
  unfold called
  cases hb : before.sweepPending with
  | true => rw [h hb, h' (h hb)]; rfl
  | false =>
    cases hm : between.sweepPending with
    | true => rw [h' hm]; rfl
    | false => rfl

/-- What the foreground does at one instant calls for the background work that its whole change of
the cache calls for. -/
theorem foldl_does (w : Scene α) {events : List (Cache.Event α)}
    (h : ∀ e ∈ events, e.isForeground = true) :
    (w.state.cache.sweepPending = true →
        (events.foldl Cache.step (front w)).cache.sweepPending = true) ∧
      (events.map Event.does).foldl happen w =
        { w with state := { w.state with cache := (events.foldl Cache.step (front w)).cache } }.wake
          (called w.state.cache (events.foldl Cache.step (front w)).cache) := by
  induction events generalizing w with
  | nil =>
    refine ⟨id, ?_⟩
    have hcalled : called w.state.cache (front w).cache = [] :=
      Cache.called_self w.state.cache
    rw [List.foldl_nil, hcalled]
    rfl
  | cons e events ih =>
    have he : e.isForeground = true := h e List.mem_cons_self
    have hact : happen w (.does e) = act w e := if_pos he
    obtain ⟨hraised, hrest⟩ := ih (act w e) fun e' he' => h e' (List.mem_cons_of_mem e he')
    rw [front_act w he] at hraised hrest
    have hfirst : w.state.cache.sweepPending = true →
        (act w e).state.cache.sweepPending = true := raised_step (y := front w) he
    refine ⟨fun hp => hraised (hfirst hp), ?_⟩
    rw [List.map_cons, List.foldl_cons, List.foldl_cons, hact, hrest,
      ← called_append hfirst hraised, Clock.World.wake_append]
    rfl

theorem foreground_events (operation : Cache.Operation) :
    ∀ e ∈ operation.events .set, e.isForeground = true := by
  intro e he
  cases operation with
  | fill start first last ttl =>
    obtain ⟨i, -, rfl⟩ := List.mem_map.1 he
    rfl
  | info => cases he
  | advance duration => cases he
  | _ =>
    rw [List.mem_singleton.1 he]
    rfl

/-- A scene to which a run comes. -/
def Comes (x w : Scene α) : Prop := ∃ es : List (Event α), w = sceneAt x es es.length

theorem Comes.foldl {x w : Scene α} (h : Comes x w) (events : List (Event α)) :
    Comes x (events.foldl happen w) := by
  obtain ⟨es, hw⟩ := h
  exact ⟨es ++ events, by rw [hw, sceneAt, sceneAt, Trace.after_append]⟩

theorem Comes.turn {x w : Scene α} (h : Comes x w) : Comes x (w.turn (system false)) :=
  h.foldl [.turn false]

theorem Comes.settle {x w : Scene α} (h : Comes x w) : Comes x (w.settle (system false)) :=
  Clock.World.settle_keeps (P := Comes x) (fun _ => Comes.turn) h

theorem ready_settle (w : Scene α) : (w.settle (system false)).ready = [] :=
  Clock.World.ready_settle (fun _ _ _ => rfl) w

theorem Comes.pass {x w : Scene α} (h : Comes x w) (hr : w.ready = []) (limit : Nat) :
    Comes x (w.pass (system false) limit) := by
  have hpass : happen w (.pass limit) = w.pass (system false) limit := if_pos hr
  rw [← hpass]
  exact h.foldl [.pass limit]

theorem Comes.advance {x w : Scene α} (h : Comes x w) (hr : w.ready = []) (limit : Nat) :
    Comes x (w.advance (system false) limit) :=
  Clock.World.advance_keeps (P := Comes x) (fun _ => Comes.turn) (fun w _ => ready_settle w)
    (fun _ hw hquiet => hw.pass hquiet limit) h hr

/-- An operation of a session, and the work that it calls for. -/
theorem Comes.perform {x w : Scene Json} (h : Comes x w) (operation : Cache.Operation)
    {after : Cache Json} (hafter : after = (w.state.cache.perform Cache.set w.now operation).2) :
    Comes x ({ w with state := { w.state with cache := after } }.wake
      (called w.state.cache after)) := by
  have hcache : ((operation.events .set).foldl Cache.step (front w)).cache = after :=
    (Cache.foldl_events Cache.stores_set operation (front w)).1.trans hafter.symm
  have hdone := (foldl_does w (foreground_events operation)).2
  rw [hcache] at hdone
  rw [← hdone]
  exact h.foldl _

/-- **What is seen in a session once the background has done its work is seen in a run**, at a point
at which nothing is ready. -/
theorem runTended_scene (tick : Nat) {x w : Scene Json} {operations : List Cache.Operation}
    (h : Comes x w) : ∀ o ∈ (Cache.runTended tick operations w).1, ∃ es : List (Event Json),
      (sceneAt x es es.length).ready = [] ∧
        o.stats = (sceneAt x es es.length).state.cache.stats := by
  -- by induction on the operations
  induction operations generalizing w with
  | nil =>
    intro o ho
    cases ho
  | cons operation operations ih =>
    intro o ho
    simp only [Cache.runTended] at ho
    generalize hafter : (w.state.cache.perform Cache.set w.now operation).2 = after at ho
    have hdone := h.perform operation hafter.symm
    generalize hcalled : Clock.World.wake { w with state := { w.state with cache := after } }
      (called w.state.cache after) = woken at ho hdone
    generalize hlater : (if operation.duration = 0 then woken
      else (woken.settle Cache.background).advance Cache.background
        (woken.now + operation.duration)) = later at ho
    have hcomes : Comes x later := by
      rw [← hlater]
      split
      · exact hdone
      · exact hdone.settle.advance (ready_settle woken) _
    rcases List.mem_cons.1 ho with rfl | ho
    · obtain ⟨es, hes⟩ := hcomes.settle
      exact ⟨es, by rw [← hes]; exact ready_settle later, by rw [← hes]⟩
    · exact ih (hcomes.settle.advance (ready_settle later) _) o ho

end Tended

end RegistryLookup
