import RegistryLookup.Caller.Session
import RegistryLookup.Proofs.Caller.Step
import RegistryLookup.Proofs.Clock

/-!
# Sessions of a caller as runs

In a session ready tasks take turns in the order in which they were woken, time passes only when no
task is ready, and tokens fire and calls are dropped when it was planned. That is one run of events
among many (`runAll_run`). What holds of every run holds of sessions.

* `taskEvent`: a task that runs, as an event.
* `Plays`: a session is at a point of a run.
-/

namespace RegistryLookup

theorem Cache.sweepPending_delete {α : Type} (c : Cache α) (key : String) :
    (c.delete key).2.sweepPending = c.sweepPending := by
  unfold delete
  split <;> rfl

namespace Caller

/-- Whether a task runs only when it is ready. Tokens fire and calls are dropped at any time. -/
def Task.isTurn : Task → Bool
  | .call _ => true
  | .chore _ => true
  | _ => false

/-- A task that runs, as an event. -/
def taskEvent {α : Type} (answers : Nat → Answers α) : Task → Event α
  | .call c => .turn c (answers c)
  | .fire c => .fire c
  | .abort c => .abort c
  | .chore chore => .chore chore false

theorem step_taskEvent {α : Type} {y : World α} {task : Task} (answers : Nat → Answers α)
    (hr : task.isTurn = true → task ∈ y.ready) : step y (taskEvent answers task) =
      { y with
        state := (y.state.run answers y.now task).1
        ready := y.ready.filter (· ≠ task) }.wake (y.state.run answers y.now task).2 := by
  cases task with
  | call c => exact if_pos (hr rfl)
  | fire c => rfl
  | abort c => rfl
  | chore chore => exact if_pos (hr rfl)

theorem taskEvent_ne_call {α : Type} (answers : Nat → Answers α) (task : Task) (c : Nat)
    (key : String) (ttl : Nat) (fired : Bool) :
    taskEvent answers task ≠ .call c key ttl fired := by
  cases task <;> exact fun h => by cases h

/-- Plans set timers for tokens and drops only. -/
theorem mem_timers {α : Type} {s : Caller α} {plans : Table Nat Plan} {t : Nat} {task : Task} :
    ((t, task) ∈ s.timers [] ↔ (t, task) ∈ s.timers plans ∧ task.isTurn = true) := by
  cases task <;> simp [timers, Task.isTurn]

/-- An event that brings no call. -/
theorem calls_of_step {α : Type} {y : World α} {e : Event α}
    (he : ∀ c key ttl fired, e ≠ .call c key ttl fired) {k : Nat} {call : Call α}
    (hc : (step y e).state.calls.get? k = some call) :
    ∃ stage, y.state.calls.get? k = some { call with stage := stage } := by
  refine (calls_known y e hc).resolve_right ?_
  rintro ⟨fired, heq⟩
  exact he _ _ _ _ heq

/-- A session is at a point of a run: it has the state of the caller there, and what is ready in the
session is ready there. -/
structure Plays (w : Session.World) (y : World Json) : Prop where
  state : y.state = w.state.caller
  now : y.now = w.now
  ready : ∀ task : Task, task.isTurn = true → task ∈ w.ready → task ∈ y.ready
  nodup : w.ready.Nodup

/-- A session to which a run has come in which calls with numbers below `c` have come in. -/
structure Reached (x : World Json) (c : Nat) (w : Session.World) : Prop where
  run : ∃ es, Plays w (worldAt x es es.length)
  known : ∀ k call, w.state.caller.calls.get? k = some call → k < c

variable {x : World Json} {c : Nat} {w w' : Session.World} {y : World Json}

/-- One more event. -/
theorem Reached.event (h : Reached x c w) (e : Event Json)
    (he : ∀ k key ttl fired, e ≠ .call k key ttl fired)
    (hplays : ∀ y, Plays w y → Plays w' (step y e)) : Reached x c w' := by
  obtain ⟨es, hes⟩ := h.run
  have hnext := hplays _ hes
  refine ⟨⟨es ++ [e], ?_⟩, fun k call hk => ?_⟩
  · rw [worldAt, Trace.after_append]
    exact hnext
  · rw [← hnext.state] at hk
    obtain ⟨stage, hs⟩ := calls_of_step he hk
    rw [hes.state] at hs
    exact h.known k _ hs

theorem Plays.wake (h : Plays w y) (tasks : List Task) : Plays (w.wake tasks) (y.wake tasks) := by
  refine ⟨h.state, h.now, fun task ht hmem => ?_, Clock.World.nodup_wake h.nodup tasks⟩
  rw [Clock.World.mem_wake] at hmem ⊢
  exact hmem.imp (h.ready task ht) id

theorem Plays.turn (h : Plays w y) {task : Task} {rest : List Task} (hr : w.ready = task :: rest) :
    Plays (w.turn Session.system) (step y (taskEvent w.state.answersFor task)) := by
  have hmem : task ∈ w.ready := by rw [hr]; exact List.mem_cons_self
  have hran : Plays
      { w with
        state := (Session.system.run w.now task w.state).1
        ready := w.ready.filter (· ≠ task) }
      { y with
        state := (w.state.caller.run w.state.answersFor w.now task).1
        ready := y.ready.filter (· ≠ task) } := by
    refine ⟨rfl, h.now, fun t ht htask => ?_, h.nodup.filter _⟩
    obtain ⟨hready, hne⟩ := List.mem_filter.1 htask
    exact List.mem_filter.2 ⟨h.ready t ht hready, hne⟩
  rw [Clock.World.turn_of_ready h.nodup hr,
    step_taskEvent w.state.answersFor (fun ht => h.ready task ht hmem), h.state, h.now]
  rw [h.now] at hran
  exact hran.wake _

theorem Reached.turn (h : Reached x c w) : Reached x c (w.turn Session.system) := by
  cases hr : w.ready with
  | nil =>
    have hrest : w.turn Session.system = w := by
      unfold Clock.World.turn
      simp only [hr]
    rw [hrest]
    exact h
  | cons task rest =>
    exact h.event _ (taskEvent_ne_call _ task) (fun _ hy => hy.turn hr)

theorem Plays.pass (h : Plays w y) (limit : Nat) : Plays (w.pass Session.system limit)
    (step y (.pass (w.pass Session.system limit).now)) := by
  -- the timers of the caller are timers of the session
  have htimers : ∀ p ∈ (system silence).timers y.state, y.now < p.1 →
      (w.pass Session.system limit).now ≤ p.1 := by
    rintro ⟨t, task⟩ hp hlt
    rw [h.state] at hp
    exact Clock.World.pass_le (t, task) (mem_timers.1 hp).1 (by rw [← h.now]; exact hlt)
  have hnow : (y.pass (system silence) (w.pass Session.system limit).now).now =
      (w.pass Session.system limit).now :=
    Clock.World.pass_now (by rw [h.now]; exact Clock.World.le_pass) htimers
  show Plays _ (y.pass (system silence) (w.pass Session.system limit).now)
  refine ⟨?_, hnow, fun task ht hmem => ?_, ?_⟩
  · rw [Clock.World.state_pass, Clock.World.state_pass]
    exact h.state
  · rw [Clock.World.mem_pass, hnow]
    refine ((Clock.World.mem_pass _).1 hmem).imp (h.ready task ht) ?_
    rintro ⟨hlt, hdue⟩
    exact ⟨by rw [h.now]; exact hlt, by rw [h.state]; exact mem_timers.2 ⟨hdue, ht⟩⟩
  · unfold Clock.World.pass
    split
    · exact h.nodup
    · exact Clock.World.nodup_wake h.nodup _

theorem Reached.pass (h : Reached x c w) (limit : Nat) :
    Reached x c (w.pass Session.system limit) :=
  h.event _ (fun _ _ _ _ heq => by cases heq) (fun _ hy => hy.pass limit)

/-- Whether an event leaves the breaker to the calls, and the cache to the calls but for keys that
are forgotten. -/
def Session.Event.isPlain : Session.Event → Bool
  | .allow => false
  | .success => false
  | .failure => false
  | .onCache (.delete _) => true
  | .onCache (.deleteStartingWith _) => true
  | .onCache _ => false
  | _ => true

/-- A change of the caller that wakes tasks. -/
theorem Plays.update (h : Plays w y) (s : Caller Json) (tasks : List Task) :
    Plays (Session.update w s tasks) ({ y with state := s }.wake tasks) := by
  have hchanged : Plays { w with state := { w.state with caller := s } } { y with state := s } :=
    ⟨rfl, h.now, h.ready, h.nodup⟩
  exact hchanged.wake tasks

/-- A change of the cache that calls for no background work. -/
theorem Plays.onCache (h : Plays w y) {after : Cache Json}
    (hpending : after.sweepPending = w.state.caller.cache.sweepPending) :
    Plays (Session.update w (w.state.caller.withCache after)
        ((Tended.called w.state.caller.cache after).map .chore))
      { y with state := y.state.withCache after } := by
  have hnone : Tended.called w.state.caller.cache after = [] := by
    unfold Tended.called
    rw [hpending, Bool.and_not_self]
    rfl
  rw [hnone, h.state]
  exact h.update (w.state.caller.withCache after) []

theorem Reached.call (h : Reached x c w) (key : String) (ttl : Nat) (fired : Bool) (plan : Plan)
    (answers : Answers Json) :
    Reached x (c + 1) (Session.perform c w (.call key ttl fired plan answers)).2 := by
  obtain ⟨es, hes⟩ := h.run
  have hnew : (worldAt x es es.length).state.calls.get? c = none := by
    cases hc : (worldAt x es es.length).state.calls.get? c with
    | none => rfl
    | some call =>
      rw [hes.state] at hc
      exact absurd (h.known c call hc) (Nat.lt_irrefl c)
  have hstep : step (worldAt x es es.length) (.call c key ttl fired) =
      { worldAt x es es.length with
        state := (worldAt x es es.length).state.start c key ttl fired }.wake [.call c] := by
    simp only [step, hnew, Option.isSome_none, Bool.false_eq_true, if_false]
  refine ⟨⟨es ++ [.call c key ttl fired], ?_⟩, fun k call hk => ?_⟩
  · rw [worldAt, Trace.after_append, List.foldl_cons, List.foldl_nil, hstep, hes.state]
    have hcomes : Plays
        { w with state := ⟨w.state.caller.start c key ttl fired, w.state.plans.put c plan,
            w.state.answers.put c answers⟩ }
        { worldAt x es es.length with state := w.state.caller.start c key ttl fired } :=
      ⟨rfl, hes.now, hes.ready, hes.nodup⟩
    exact hcomes.wake _
  · by_cases hkc : k = c
    · rw [hkc]
      exact Nat.lt_succ_self c
    · have hold : (w.state.caller.start c key ttl fired).calls.get? k = some call := hk
      rw [show (w.state.caller.start c key ttl fired).calls.get? k =
        w.state.caller.calls.get? k from Table.get?_put_of_ne _ _ hkc] at hold
      exact Nat.lt_succ_of_lt (h.known k call hold)

theorem Reached.mono (h : Reached x c w) : Reached x (c + 1) w :=
  ⟨h.run, fun k call hk => Nat.lt_succ_of_lt (h.known k call hk)⟩

theorem Reached.perform (h : Reached x c w) {event : Session.Event} (hplain : event.isPlain = true) :
    Reached x (c + 1) (Session.perform c w event).2 := by
  cases event with
  | call key ttl fired plan answers => exact h.call key ttl fired plan answers
  | health => exact h.mono
  | name => exact h.mono
  | close =>
    refine (h.event .close (fun _ _ _ _ heq => by cases heq) (fun y hy => ?_)).mono
    show Plays (Session.update w w.state.caller.closeAndWake.1 w.state.caller.closeAndWake.2) _
    rw [← hy.state]
    exact hy.update _ _
  | onCache operation =>
    cases operation with
    | delete key =>
      refine (h.event (.delete key) (fun _ _ _ _ heq => by cases heq) (fun y hy => ?_)).mono
      show Plays (Session.perform c w (.onCache (.delete key))).2
        { y with state := y.state.withCache (y.state.cache.delete key).2 }
      rw [show y.state.cache = w.state.caller.cache by rw [hy.state]]
      exact hy.onCache (Cache.sweepPending_delete w.state.caller.cache key)
    | deleteStartingWith start =>
      refine (h.event (.deleteStartingWith start) (fun _ _ _ _ heq => by cases heq)
        (fun y hy => ?_)).mono
      show Plays (Session.perform c w (.onCache (.deleteStartingWith start))).2
        { y with state := y.state.withCache (y.state.cache.deleteStartingWith start).2 }
      rw [show y.state.cache = w.state.caller.cache by rw [hy.state]]
      exact hy.onCache rfl
    | _ => cases hplain
  | _ => cases hplain

theorem Reached.settle (h : Reached x c w) : Reached x c (w.settle Session.system) :=
  Clock.World.settle_keeps (P := Reached x c) (fun _ => Reached.turn) h

theorem Reached.advanceUntil (h : Reached x c w) (done : Session → Bool) (limit : Nat) :
    Reached x c (w.advanceUntil Session.system done limit) :=
  Clock.World.advanceUntil_keeps (P := Reached x c) (fun _ => Reached.turn) (fun _ hw => hw.pass _) h

theorem Reached.play {events : List (Nat × Session.Event)} (h : Reached x c w)
    (hplain : ∀ p ∈ events, p.2.isPlain = true) :
    Reached x (c + events.length) (Session.play c w events).2 := by
  -- by induction on the events, as they come in
  induction events generalizing c w with
  | nil => exact h
  | cons p events ih =>
    obtain ⟨instant, event⟩ := p
    have hcomes : Reached x c ((w.settle Session.system).advance Session.system instant) :=
      h.settle.advanceUntil _ _
    have hnext := (hcomes.perform (hplain _ List.mem_cons_self)).settle
    have hrest := ih hnext fun q hq => hplain q (List.mem_cons_of_mem _ hq)
    rw [List.length_cons, ← Nat.add_assoc, Nat.add_right_comm]
    exact hrest

/-- **A session is a run of events**, if it leaves the breaker and the cache to the calls. -/
theorem runAll_run (name : String) (settings : Config.Settings)
    {events : List (Nat × Session.Event)} (hplain : ∀ p ∈ events, p.2.isPlain = true) :
    ∃ es, Plays (Session.runAll (make name settings 0) events).2
      (worldAt (dawn name settings 0) es es.length) := by
  have hstart : Reached (dawn name settings 0) 0 { state := { caller := make name settings 0 } } := by
    refine ⟨⟨[], rfl, rfl, fun task _ hmem => ?_, List.nodup_nil⟩, fun k call hk => ?_⟩
    · cases hmem
    · cases hk
  exact ((hstart.play hplain).advanceUntil _ _).run

end Caller

end RegistryLookup
