import RegistryLookup.Proofs.Clock
import RegistryLookup.Proofs.Retry.Timeline
import RegistryLookup.Retry.Session

/-!
# A retry loop keeps time

On the clock, a loop on its own is given a turn at each instant of its timeline and when its token
fires. So the timeline says how it ends, and when: with the last attempt, or in the wait in which
its token fires.

* `OnTime`: a world in which the loop keeps to its timeline.
* `onTime_turn`, `onTime_pass`: turns and the passing of time keep it so.
* `runUntil_cases`: a loop has ended when the clock stops, or was not given enough time.
* `runs_onTime`: how a loop ends, and when.
-/

namespace RegistryLookup.Retry

open Clock (World)

variable {α : Type} {s : Script α} {p : Policy} {token : Option Nat} {k : Nat} {label : String}

/-- The retries that a record tells of, newest first. -/
def noted (label : String) (record : List (Entry α)) : List Sample :=
  record.filterMap (fun e => match e.notice with
    | .retried failure => some (.retry label (reason failure))
    | _ => none)

theorem noted_append (label : String) (xs ys : List (Entry α)) :
    noted label (xs ++ ys) = noted label xs ++ noted label ys :=
  List.filterMap_append ..

/-- What is counted in a turn is what the record tells of it. -/
theorem samples_append_noted (label : String) (call now : Nat) (ns : List (Notice α))
    (record : List (Entry α)) :
    samples label ns ++ noted label record = noted label (enter call now ns record) := by
  unfold enter
  rw [noted_append]
  congr 1
  unfold samples noted
  rw [List.filterMap_reverse, List.filterMap_map]
  rfl

theorem reason_ne_other {e : Failure} (h : e.isRetryable = true) : reason e ≠ "other" := by
  cases e with
  | transport detail => simp [reason]
  | serverError status detail => simp [reason]
  | rateLimited after => simp [reason]
  | _ => cases h

/-- The failures of the first attempts are what is counted up to the wait behind them. -/
theorem noted_log (label : String) {m : Nat} (hlast : s.IsLast m k) {i : Nat} (hi : i < k) :
    ∃ es : List Failure,
      es.map Except.error = (List.range i).map (fun n => s.result (n + 1)) ∧
      noted label (s.log p i) = (es.map (fun e => Sample.retry label (reason e))).reverse ∧
      ∀ e ∈ es, reason e ≠ "other" := by
  induction i with
  | zero => exact ⟨[], rfl, rfl, fun e he => by cases he⟩
  | succ i ih =>
    obtain ⟨es, hes, hnoted, hreason⟩ := ih (by omega)
    obtain ⟨e, he, hretry, -⟩ := hlast.error_of_lt (Nat.succ_pos i) hi
    refine ⟨es ++ [e], ?_, ?_, ?_⟩
    · rw [List.map_append, hes, List.range_succ, List.map_append]
      simp [he]
    · rw [Script.log_succ, Script.retry_of_error he, List.append_assoc, noted_append, noted_append,
        hnoted, List.map_append, List.reverse_append]
      rfl
    · intro e' he'
      rcases List.mem_append.1 he' with hmem | hmem
      · exact hreason e' hmem
      · rw [List.mem_singleton.1 hmem]
        exact reason_ne_other hretry

/-- A session whose attempts are those of a script and whose token fires at an instant, or
never. -/
def Script.session (s : Script α) (p : Policy) (label : String) (token : Option Nat) :
    Session α where
  policy := p
  label := label
  answers := s.answers
  cancelAt := token
  fired := token = some 0

/-- A loop that has not ended keeps to its timeline: it is woken when something is due, and when it
rests although its token has fired. -/
structure Live (s : Script α) (p : Policy) (token : Option Nat) (k : Nat)
    (w : World (Session α) Session.Task) (since due : Nat) : Prop where
  stage : Stage s p token k w.state.loop since due w.state.record
  begun : since ≤ w.now
  ahead : w.now ≤ due
  woken : due = w.now → Session.Task.go ∈ w.ready
  prompt : Prompt token w.now w.state.fired w.state.loop since
  alert : ∀ wakesAt, w.state.loop.phase = .resting wakesAt → w.state.fired = true →
    Session.Task.go ∈ w.ready

/-- A world in which the loop of a session keeps to its timeline. -/
structure OnTime (s : Script α) (p : Policy) (label : String) (token : Option Nat) (k : Nat)
    (w : World (Session α) Session.Task) : Prop where
  policy_eq : w.state.policy = p
  label_eq : w.state.label = label
  answers_eq : w.state.answers = s.answers
  token_eq : w.state.cancelAt = token
  nodup : w.ready.Nodup
  told : Told token w.now w.state.fired
  /-- The token fires on time. -/
  firing : Session.Task.fire ∈ w.ready → token = some w.now
  fires : w.state.fired = false → token = some w.now → Session.Task.fire ∈ w.ready
  journal : w.state.journal = noted label w.state.record
  live : w.state.result = none → ∃ since due, Live s p token k w since due
  ended : ∀ r instant, w.state.result = some (r, instant) →
    Final s p token k r instant w.state.record

theorem onTime_start (hs : Timetable s p token k) :
    OnTime s p label token k { state := s.session p label token, ready := [.go] } where
  policy_eq := rfl
  label_eq := rfl
  answers_eq := rfl
  token_eq := rfl
  nodup := List.pairwise_singleton _ _
  told := by
    refine ⟨fun h => ⟨0, by simpa [Script.session] using h, Nat.le_refl 0⟩, fun _ f _ => ?_⟩
    exact Nat.zero_le f
  firing := fun h => by cases List.mem_singleton.1 h
  fires := fun h htoken => by simp [Script.session, htoken] at h
  journal := rfl
  live := fun _ => by
    refine ⟨0, 0, .ready hs.last.pos fun f _ => Nat.zero_le f, Nat.le_refl 0, Nat.le_refl 0,
      fun _ => List.mem_singleton_self _, fun wakesAt h => ?_, fun wakesAt h => ?_⟩
    · cases h
    · cases h
  ended := fun r instant h => by cases h

/-- A loop that waits is due later, and has not been told of its token in a rest. -/
theorem Stage.lt_of_waits {l : Loop α} {since due now : Nat} {fired : Bool} {log : List (Entry α)}
    (h : Stage s p token k l since due log) (hw : l.Waits now fired) :
    now < due ∧ ∀ wakesAt, l.phase = .resting wakesAt → ¬ fired = true := by
  cases h with
  | ready hi ht => exact absurd rfl hw.begun
  | @attempting i hi ht =>
    cases hw with
    | attempting since o hp hlater =>
      cases hp
      exact ⟨hlater _ rfl, fun wakesAt hrest => by cases hrest⟩
    | resting wakesAt hp => cases hp
  | resting hi ht =>
    cases hw with
    | attempting since o hp => cases hp
    | resting wakesAt hp hf hlater =>
      cases hp
      exact ⟨hlater, fun _ _ hfired => by rw [hf] at hfired; cases hfired⟩

theorem go_of_some {x : Session α} {now : Nat} {ended : Except Failure α × Nat}
    (hr : x.result = some ended) : x.go now = x := by
  unfold Session.go
  simp only [hr]

theorem go_of_inl {x : Session α} {now : Nat} {l : Loop α} (hr : x.result = none)
    (hl : (x.loop.turn x.policy x.answers now x.fired).rest = .inl l) :
    x.go now = { x with
      loop := l
      record := enter 0 now (x.loop.turn x.policy x.answers now x.fired).notices x.record
      journal := samples x.label (x.loop.turn x.policy x.answers now x.fired).notices ++
        x.journal } := by
  unfold Session.go
  simp only [hr, hl]

theorem go_of_inr {x : Session α} {now : Nat} {r : Except Failure α} (hr : x.result = none)
    (hl : (x.loop.turn x.policy x.answers now x.fired).rest = .inr r) :
    x.go now = { x with
      result := some (r, now)
      record := enter 0 now (x.loop.turn x.policy x.answers now x.fired).notices x.record
      journal := samples x.label (x.loop.turn x.policy x.answers now x.fired).notices ++
        x.journal } := by
  unfold Session.go
  simp only [hr, hl]

/-- A turn of the loop changes only what the loop comes to. -/
theorem OnTime.of_go {w : World (Session α) Session.Task} (h : OnTime s p label token k w)
    {x : Session α} (hsame : x.policy = w.state.policy ∧ x.label = w.state.label ∧
      x.answers = w.state.answers ∧ x.cancelAt = w.state.cancelAt ∧ x.fired = w.state.fired)
    (hjournal : x.journal = noted label x.record)
    (hlive : x.result = none → ∃ since due, Stage s p token k x.loop since due x.record ∧
      since ≤ w.now ∧ w.now < due ∧ ∀ wakesAt, x.loop.phase = .resting wakesAt → ¬ x.fired = true)
    (hended : ∀ r instant, x.result = some (r, instant) → Final s p token k r instant x.record) :
    OnTime s p label token k { w with state := x, ready := w.ready.filter (· ≠ .go) } := by
  obtain ⟨hpolicy, hlabel, hanswers, htoken, hfired⟩ := hsame
  have hfire : Session.Task.fire ∈ w.ready.filter (· ≠ .go) ↔ Session.Task.fire ∈ w.ready := by
    simp [List.mem_filter]
  refine ⟨hpolicy.trans h.policy_eq, hlabel.trans h.label_eq, hanswers.trans h.answers_eq,
    htoken.trans h.token_eq, h.nodup.filter _, ?_, fun hm => h.firing (hfire.1 hm),
    fun hf ht => hfire.2 (h.fires (hfired ▸ hf) ht), hjournal, fun hnone => ?_, hended⟩
  · simp only [hfired]
    exact h.told
  · obtain ⟨since, due, hstage, hsince, hlt, hquiet⟩ := hlive hnone
    exact ⟨since, due, hstage, hsince, Nat.le_of_lt hlt,
      fun heq => absurd heq (Nat.ne_of_gt hlt),
      fun wakesAt hp hf => absurd hf (hquiet wakesAt hp),
      fun wakesAt hp hf => absurd hf (hquiet wakesAt hp)⟩

/-- A turn of the loop. -/
theorem OnTime.go (hs : Timetable s p token k) {w : World (Session α) Session.Task}
    (h : OnTime s p label token k w) :
    OnTime s p label token k { w with
      state := w.state.go w.now
      ready := w.ready.filter (· ≠ .go) } := by
  cases hr : w.state.result with
  | some ended =>
    rw [go_of_some hr]
    refine h.of_go ⟨rfl, rfl, rfl, rfl, rfl⟩ h.journal (fun hnone => ?_) h.ended
    rw [hr] at hnone
    cases hnone
  | none =>
    obtain ⟨since, due, hlive⟩ := h.live hr
    obtain ⟨hturned, hwaits⟩ := hlive.stage.turn hs h.told hlive.begun hlive.ahead hlive.prompt
    rw [← h.policy_eq, ← h.answers_eq] at hturned hwaits
    have hjournal : samples w.state.label (w.state.loop.turn w.state.policy w.state.answers w.now
        w.state.fired).notices ++ w.state.journal = noted label (enter 0 w.now (w.state.loop.turn
          w.state.policy w.state.answers w.now w.state.fired).notices w.state.record) := by
      rw [h.journal, h.label_eq, samples_append_noted]
    cases hrest : (w.state.loop.turn w.state.policy w.state.answers w.now w.state.fired).rest with
    | inl l =>
      rw [hrest, h.policy_eq] at hturned
      rw [go_of_inl hr hrest]
      refine h.of_go ⟨rfl, rfl, rfl, rfl, rfl⟩ hjournal (fun _ => ?_) (fun r instant hsome => ?_)
      · cases hturned with
        | @on _ since' due' hstage hsince hdue =>
          obtain ⟨hlt, hquiet⟩ := hstage.lt_of_waits (hwaits l hrest)
          rw [h.policy_eq]
          exact ⟨since', due', hstage, hsince, hlt, hquiet⟩
      · have hsome : w.state.result = some (r, instant) := hsome
        rw [hr] at hsome
        cases hsome
    | inr r =>
      rw [hrest, h.policy_eq] at hturned
      rw [go_of_inr hr hrest]
      refine h.of_go ⟨rfl, rfl, rfl, rfl, rfl⟩ hjournal (fun hnone => by cases hnone)
        (fun r' instant hsome => ?_)
      cases hsome
      rw [h.policy_eq]
      cases hturned with
      | ended hfinal => exact hfinal

/-- The token fires, which wakes the loop. -/
theorem OnTime.fire {w w' : World (Session α) Session.Task} (h : OnTime s p label token k w)
    (hmem : Session.Task.fire ∈ w.ready) (hstate : w'.state = { w.state with fired := true })
    (hnow : w'.now = w.now) (hnodup : w'.ready.Nodup) (hgo : Session.Task.go ∈ w'.ready)
    (hgone : Session.Task.fire ∉ w'.ready) : OnTime s p label token k w' := by
  have htoken : token = some w.now := h.firing hmem
  obtain ⟨now', state', ready'⟩ := w'
  simp only at hstate hnow hnodup hgo hgone
  subst hstate hnow
  refine ⟨h.policy_eq, h.label_eq, h.answers_eq, h.token_eq, hnodup, ?_,
    fun hm => absurd hm hgone, fun hf => (by cases hf), h.journal, fun hnone => ?_, h.ended⟩
  · exact ⟨fun _ => ⟨w.now, htoken, Nat.le_refl _⟩, fun hf => by cases hf⟩
  · obtain ⟨since, due, hlive⟩ := h.live hnone
    refine ⟨since, due, hlive.stage, hlive.begun, hlive.ahead, fun _ => hgo,
      fun wakesAt _ _ f hf => ?_, fun _ _ _ => hgo⟩
    have hsince : since ≤ w.now := hlive.begun
    rw [htoken] at hf
    cases hf
    exact (Nat.max_eq_left hsince).symm

/-- **A turn keeps the loop on time.** -/
theorem onTime_turn (hs : Timetable s p token k) {w : World (Session α) Session.Task}
    (h : OnTime s p label token k w) : OnTime s p label token k (w.turn Session.system) := by
  cases hr : w.ready with
  | nil =>
    have hrest : w.turn Session.system = w := by
      unfold World.turn
      simp only [hr]
    rw [hrest]
    exact h
  | cons task rest =>
    have hmem : task ∈ w.ready := by rw [hr]; exact List.mem_cons_self
    rw [World.turn_of_ready h.nodup hr]
    cases task with
    | go => exact h.go hs
    | fire =>
      refine h.fire hmem rfl rfl (World.nodup_wake (by exact h.nodup.filter _) _) ?_ ?_
      · rw [World.mem_wake]
        exact Or.inr (List.mem_singleton_self _)
      · rw [World.mem_wake]
        simp [Session.system]

/-- Ready tasks run until none is left: the token wakes the loop once, and the loop wakes nobody. -/
theorem Session.ready_settle {w : World (Session α) Session.Task} (h : w.ready.Nodup) :
    (w.settle Session.system).ready = [] := by
  have hlower : ∀ w : World (Session α) Session.Task, w.ready ≠ [] →
      (w.turn Session.system).ready.length + (w.turn Session.system).ready.count .fire <
        w.ready.length + w.ready.count .fire := by
    intro w hne
    unfold World.turn
    cases hr : w.ready with
    | nil => exact absurd hr hne
    | cons task rest =>
      cases task with
      | go => simp [Session.system, World.wake]
      | fire =>
        by_cases hgo : Session.Task.go ∈ rest
        · simp [Session.system, World.wake, hgo]
          omega
        · simp [Session.system, World.wake, hgo]
  refine World.ready_settleFor_of_lt (fun w => w.ready.length + w.ready.count .fire) hlower ?_
  have hone : w.ready.count .fire ≤ 1 := List.nodup_iff_count.1 h _
  have hturns : Session.system.turns w.state = 4 := rfl
  omega

theorem OnTime.ready_settle {w : World (Session α) Session.Task} (h : OnTime s p label token k w) :
    (w.settle Session.system).ready = [] :=
  Session.ready_settle h.nodup

theorem mem_timers_go {x : Session α} {t : Nat} :
    (t, Session.Task.go) ∈ Session.system.timers x ↔ x.loop.timer = some t := by
  simp [Session.system]

theorem mem_timers_fire {x : Session α} {t : Nat} :
    (t, Session.Task.fire) ∈ Session.system.timers x ↔ x.fired = false ∧ x.cancelAt = some t := by
  cases hf : x.fired with
  | true => simp [Session.system, hf]
  | false => simp [Session.system, hf]

/-- A loop that is due later has a timer set for then. -/
theorem Stage.timer {l : Loop α} {since due : Nat} {log : List (Entry α)}
    (h : Stage s p token k l since due log) (hlt : since < due) : l.timer = some due := by
  cases h with
  | ready hi ht => exact absurd hlt (Nat.lt_irrefl _)
  | attempting hi ht => rfl
  | resting hi ht => rfl

/-- A token that has not fired does so later, if nobody is ready. -/
theorem OnTime.lt_token {w : World (Session α) Session.Task} (h : OnTime s p label token k w)
    (hready : w.ready = []) (hf : w.state.fired = false) {f : Nat} (htoken : token = some f) :
    w.now < f := by
  refine Nat.lt_of_le_of_ne (h.told.ahead hf f htoken) ?_
  rintro rfl
  have hmem := h.fires hf htoken
  rw [hready] at hmem
  cases hmem

/-- What a loop does is due later, if nobody is ready. -/
theorem Live.lt_due {w : World (Session α) Session.Task} {since due : Nat}
    (h : Live s p token k w since due) (hready : w.ready = []) :
    w.now < due ∧ w.state.loop.timer = some due ∧
      ∀ wakesAt, w.state.loop.phase = .resting wakesAt → ¬ w.state.fired = true := by
  have hnoGo : Session.Task.go ∉ w.ready := by
    rw [hready]
    exact List.not_mem_nil
  have hlt : w.now < due := by
    refine Nat.lt_of_le_of_ne h.ahead ?_
    rintro rfl
    exact hnoGo (h.woken rfl)
  exact ⟨hlt, h.stage.timer (Nat.lt_of_le_of_lt h.begun hlt),
    fun wakesAt hp hf => hnoGo (h.alert wakesAt hp hf)⟩

/-- **Time passes and keeps the loop on time**, if nobody is ready. -/
theorem onTime_pass {w : World (Session α) Session.Task} (h : OnTime s p label token k w)
    (hready : w.ready = []) (limit : Nat) :
    OnTime s p label token k (w.pass Session.system limit) := by
  have hstate : (w.pass Session.system limit).state = w.state := World.state_pass
  have hnow : w.now ≤ (w.pass Session.system limit).now := World.le_pass
  have hwoken : ∀ task, task ∈ (w.pass Session.system limit).ready ↔
      w.now < (w.pass Session.system limit).now ∧
        ((w.pass Session.system limit).now, task) ∈ Session.system.timers w.state := by
    intro task
    rw [World.mem_pass, hready]
    simp
  have hnodup : (w.pass Session.system limit).ready.Nodup := World.nodup_pass h.nodup
  have hstop : ∀ t task, (t, task) ∈ Session.system.timers w.state → w.now < t →
      (w.pass Session.system limit).now ≤ t := fun t task hmem hlt => World.pass_le _ hmem hlt
  generalize w.pass Session.system limit = w' at hstate hnow hwoken hnodup hstop ⊢
  obtain ⟨now', state', ready'⟩ := w'
  simp only at hstate hnow hwoken hnodup hstop
  subst hstate
  refine ⟨h.policy_eq, h.label_eq, h.answers_eq, h.token_eq, hnodup,
    ⟨fun hf => ?_, fun hf f htoken => ?_⟩, fun hm => ?_, fun hf htoken => ?_, h.journal,
    fun hnone => ?_, h.ended⟩
  · obtain ⟨f, htoken, hle⟩ := h.told.past hf
    exact ⟨f, htoken, Nat.le_trans hle hnow⟩
  · exact hstop f .fire (mem_timers_fire.2 ⟨hf, h.token_eq.trans htoken⟩)
      (h.lt_token hready hf htoken)
  · rw [← h.token_eq]
    exact (mem_timers_fire.1 ((hwoken _).1 hm).2).2
  · exact (hwoken _).2 ⟨h.lt_token hready hf htoken,
      mem_timers_fire.2 ⟨hf, h.token_eq.trans htoken⟩⟩
  · obtain ⟨since, due, hlive⟩ := h.live hnone
    obtain ⟨hlt, htimer, hquiet⟩ := hlive.lt_due hready
    have hgo : due = now' → Session.Task.go ∈ ready' := by
      rintro rfl
      exact (hwoken _).2 ⟨hlt, mem_timers_go.2 htimer⟩
    exact ⟨since, due, hlive.stage, Nat.le_trans hlive.begun hnow,
      hstop due .go (mem_timers_go.2 htimer) hlt, hgo,
      fun wakesAt hp hf => absurd hf (hquiet wakesAt hp),
      fun wakesAt hp hf => absurd hf (hquiet wakesAt hp)⟩

/-- A loop that has not ended when the clock stops is due later than the clock was let run, and so is
its token if the loop rests. -/
theorem OnTime.of_stopped {w : World (Session α) Session.Task} (h : OnTime s p label token k w)
    (hready : w.ready = []) {limit : Nat} (hstop : w.nextTimer Session.system limit = none)
    (hnone : w.state.result = none) :
    ∃ since due, Stage s p token k w.state.loop since due w.state.record ∧ limit < due ∧
      ((∃ wakesAt, w.state.loop.phase = .resting wakesAt) → ∀ f ∈ token, limit < f) := by
  have hlater : ∀ t task, (t, task) ∈ Session.system.timers w.state → w.now < t → limit < t :=
    fun t task hmem hlt => World.nextTimer_eq_none hstop _ hmem hlt
  obtain ⟨since, due, hlive⟩ := h.live hnone
  obtain ⟨hlt, htimer, hquiet⟩ := hlive.lt_due hready
  refine ⟨since, due, hlive.stage, hlater due .go (mem_timers_go.2 htimer) hlt, ?_⟩
  rintro ⟨wakesAt, hp⟩ f htoken
  have hf : w.state.fired = false := Bool.eq_false_iff.2 (hquiet wakesAt hp)
  exact hlater f .fire (mem_timers_fire.2 ⟨hf, h.token_eq.trans htoken⟩)
    (h.lt_token hready hf htoken)

/-- **How a loop ends**: where the clock stops, it has its result, or what it was doing was not over
in time. -/
theorem runUntil_cases (hs : Timetable s p token k) (label : String) (limit : Nat) :
    ∃ x : Session α, (s.session p label token).runUntil limit = x ∧ x.label = label ∧
      x.journal = noted label x.record ∧
      ((∃ r instant, x.result = some (r, instant) ∧ Final s p token k r instant x.record) ∨
        ∃ since due, Stage s p token k x.loop since due x.record ∧ limit < due ∧
          ((∃ wakesAt, x.loop.phase = .resting wakesAt) → ∀ f ∈ token, limit < f)) := by
  have hstart : OnTime s p label token k { state := s.session p label token, ready := [.go] } :=
    onTime_start hs
  have hsettled : OnTime s p label token k (World.settle Session.system
      { state := s.session p label token, ready := [.go] }) :=
    World.settle_keeps (P := OnTime s p label token k) (fun _ => onTime_turn hs) hstart
  unfold Session.runUntil
  obtain ⟨w, h, hready, hstop, hstate⟩ := World.advanceUntil_stops
    (P := OnTime s p label token k) (fun _ => onTime_turn hs) (fun _ => OnTime.ready_settle)
    (fun _ hw hready => onTime_pass hw hready limit) hsettled hstart.ready_settle
  refine ⟨w.state, hstate, h.label_eq, h.journal, ?_⟩
  cases hr : w.state.result with
  | some ended => exact Or.inl ⟨ended.1, ended.2, rfl, h.ended _ _ hr⟩
  | none =>
    have hstop : w.nextTimer Session.system limit = none := by
      rcases hstop with hdone | hstop
      · rw [hr] at hdone
        cases hdone
      · exact hstop
    exact Or.inr (h.of_stopped hready hstop hr)

/-- How a session has ended: its result and when it came, its attempts, each on time, and a retry
counted under the reason of each failure behind which there was a wait. -/
structure Session.Ended (x : Session α) (s : Script α) (p : Policy) (attempts retries : Nat)
    (r : Except Failure α) (instant : Nat) : Prop where
  result : x.result = some (r, instant)
  trials : trials x.record = (List.range attempts).map (fun i => s.trial p (i + 1))
  journal : ∃ es : List Failure,
    es.map Except.error = (List.range retries).map (fun i => s.result (i + 1)) ∧
    x.journal = (es.map (fun e => Sample.retry x.label (reason e))).reverse ∧
    ∀ e ∈ es, reason e ≠ "other"

/-- A session ends in the first wait that is not over when its token fires. -/
theorem Timetable.cut (hs : Timetable s p token k) (label : String) {f j : Nat}
    (hf : token = some f) (hj : 0 < j) (hjk : j < k) (hpassed : s.wakes p (j - 1) ≤ f)
    (hcut : f < s.wakes p j) {limit : Nat} (hlimit : max f (s.ends p j) ≤ limit) :
    ((s.session p label token).runUntil limit).Ended s p j j (.error .cancelled)
      (max f (s.ends p j)) := by
  obtain ⟨x, hx, hlabel, hjournal, hends⟩ := runUntil_cases hs label limit
  rw [hx]
  rcases hends with ⟨r, instant, hresult, hfinal⟩ | ⟨since, due, hstage, hlt, hrest⟩
  · generalize hrecord : x.record = record at hfinal hjournal
    cases hfinal with
    | settled ht =>
      have hmono : s.wakes p j ≤ s.wakes p (k - 1) := s.wakes_mono p (by omega)
      have hle : s.wakes p (k - 1) ≤ f := ht f hf
      omega
    | @cut j' f' hj' hjk' hf' hpassed' hcut' =>
      rw [hf] at hf'
      cases hf'
      have hsame : j' = j := s.eq_of_between p hpassed' hcut' hpassed hcut
      subst hsame
      have hroom : k ≤ p.maxAttempts.toNat := hs.room
      obtain ⟨es, hes, hnoted, hreason⟩ := noted_log x.label hs.last hjk
      refine ⟨hresult, by rw [hrecord, trials_log s (by omega)], es, hes, ?_, hreason⟩
      rw [hjournal, ← hlabel, hnoted]
  · -- the attempt is over in time, and the token fires in time
    have hfire : f ≤ limit := Nat.le_trans (Nat.le_max_left _ _) hlimit
    have hend : s.ends p j ≤ limit := Nat.le_trans (Nat.le_max_right _ _) hlimit
    generalize x.loop = l, x.record = record at hstage hrest
    cases hstage with
    | ready hi ht =>
      have hle := ht f hf
      omega
    | @attempting i hi ht =>
      have hle : s.wakes p i ≤ f := ht f hf
      have hij : i < j := by
        refine Nat.lt_of_not_le fun hge => ?_
        have hmono : s.wakes p j ≤ s.wakes p i := s.wakes_mono p hge
        omega
      have hdue : s.ends p (i + 1) ≤ s.ends p j := s.ends_mono p hij (Nat.succ_pos i)
      omega
    | resting hi ht =>
      have hlate : limit < f := hrest ⟨_, rfl⟩ f hf
      omega

end RegistryLookup.Retry
