import RegistryLookup.Proofs.Caller.Alike

/-!
# What a closed caller still does

To close a caller sends away the calls without a permit. The calls with one do not notice: they go
on exactly as in a run in which the caller is not closed, the calls without a permit are dropped at
that instant, and no call comes in any more (`unclosed`). The two runs are related event by event.

* `alike_step`: an event of the closed caller, and what it is in the other run.
* `paired_unclosed`: the two runs at every point after the close.
-/

namespace RegistryLookup.Caller

open Flight

variable {α : Type} {x y : World α} {es : List (Event α)} {limit : Nat}

/-- What an event of a closed caller is in the run in which it is not closed: the same if it concerns
a call among the flights, or none; no call comes in, nothing is cleaned up unless the closed caller
does it too, and time passes by the instant at which the cache would have been. -/
def carried (x : World α) : Event α → List (Event α)
  | .call _ _ _ _ => []
  | .close => []
  | .chore .tick timerFirst =>
    if timerFirst ∧ .chore .tick ∈ x.ready then [.chore .tick timerFirst] else []
  | .pass limit => [.pass (step x (.pass limit)).now, .pass (step x (.pass limit)).now]
  | e => if e.call?.all (fun c => (phase? x.state c).isSome) then [e] else []

/-- What holds of a caller at every point of a run. -/
structure Steady (x : World α) (limit : Nat) : Prop where
  placed : Placed x.state
  metered : x.state.Metered limit

theorem steady_step (h : Steady x limit) (e : Event α) : Steady (step x e) limit :=
  ⟨placed_step h.placed e, step_metered h.metered e⟩

/-- Nobody comes among the flights of a closed caller. -/
theorem ashore_stays (hx : Placed x.state) (hclosed : x.state.permits.closed = true) (e : Event α)
    {c : Nat} (hc : phase? x.state c = none) : phase? (step x e).state c = none := by
  by_cases he : e.call? = some c
  · unfold phase? at hc ⊢
    rcases ashore_step hx he hc (fun _ _ => hclosed) with hs | ⟨p, call, hs⟩
    · rw [hs]; exact hc
    · rw [hs]; exact hc
  · unfold phase? at hc ⊢
    rw [(frame hx.sound he).2]
    exact hc

theorem noticed_before (hx : Placed x.state) (hclosed : x.state.permits.closed = true) (e : Event α)
    {t : Task} (ht : Noticed (step x e).state t) : Noticed x.state t := by
  cases t with
  | call c => exact fun hc => ht (ashore_stays hx hclosed e hc)
  | chore chore => cases chore <;> exact ht
  | _ => exact ht

/-- To close a caller is not noticed among the flights. -/
theorem alike_close (h : Steady x limit) : Alike Store.shut (step x .close) x where
  now := rfl
  state := ⟨rfl, rfl, rfl, rfl, fun _ _ => rfl⟩
  ready := fun t ht => by
    show _ ↔ t ∈ (Clock.World.wake ⟨x.now, x.state.close, x.ready⟩
      (x.state.permits.queue.map .call)).ready
    rw [Clock.World.mem_wake]
    refine ⟨Or.inl, fun hor => hor.resolve_right fun hmem => ?_⟩
    obtain ⟨d, hd, rfl⟩ := List.mem_map.1 hmem
    exact ht (h.metered.phase_of_waiter h.placed.sound (Permits.mem_waiters.2 (Or.inl hd)))

theorem alike_runTask (h : Alike Store.shut x y) {task : Task} {answers : Answers α}
    (hstate : Akin Store.shut (runTask x task answers).state (runTask y task answers).state)
    (hkept : ∀ t, Noticed (runTask x task answers).state t → Noticed x.state t)
    (hwoken : ∀ t, Noticed (runTask x task answers).state t →
      (t ∈ (y.state.run (fun _ => answers) y.now task).2 ↔
        t ∈ (x.state.run (fun _ => answers) x.now task).2)) :
    Alike Store.shut (runTask x task answers) (runTask y task answers) where
  now := h.now
  state := hstate
  ready := fun t ht => by
    rw [mem_runTask, mem_runTask, h.ready t (hkept t ht), hwoken t ht]

/-- The same changes wake the same calls. -/
theorem woken_akin {s s' t t' : Caller α} (h : Akin Store.shut s t) (h' : Akin Store.shut s' t')
    (hs : s'.Metered limit ∧ s'.Sound) (ht : t'.Metered limit ∧ t'.Sound) {c : Nat} {task : Task}
    (hn : Noticed s' task) : task ∈ woken t t' c ↔ task ∈ woken s s' c := by
  rw [mem_woken_noticed ht.1 ht.2 ((h'.noticed task).2 hn), mem_woken_noticed hs.1 hs.2 hn,
    h.cache, h'.cache, h'.flights]
  rfl

section Step

variable {c : Nat}

/-- A call among the flights takes its turn, its token fires, or it is dropped. -/
theorem alike_among (h : Alike Store.shut x y) (hx : Steady x limit) (hy : Steady y limit)
    (hclosed : x.state.permits.closed = true) {e : Event α} (he : e.call? = some c)
    (hnew : ∀ key ttl fired, e ≠ .call c key ttl fired) (hc : phase? x.state c ≠ none) :
    Alike Store.shut (step x e) (step y e) := by
  have hx' := steady_step hx e
  have hy' := steady_step hy e
  have hkept : ∀ t, Noticed (step x e).state t → Noticed x.state t := fun t =>
    noticed_before hx.placed hclosed e
  cases e with
  | call d key ttl fired => cases he; exact absurd rfl (hnew key ttl fired)
  | turn d answers =>
    cases he
    have hready := h.ready (.call c) hc
    by_cases hr : .call c ∈ x.ready
    swap
    · rw [step_of_idle hr, step_of_idle fun hr' => hr (hready.1 hr')]
      exact h
    have hstate : Akin Store.shut (step x (.turn c answers)).state
        (step y (.turn c answers)).state := by
      rw [state_turn hr, state_turn (hready.2 hr), h.now]
      exact akin_turn h.state hx.placed.sound hc answers x.now
    have hstep : ∀ {z : World α}, .call c ∈ z.ready →
        step z (.turn c answers) = runTask z (.call c) answers := by
      intro z hz
      simp only [step, if_pos hz]
    rw [hstep hr] at hx' hkept hstate ⊢
    rw [hstep (hready.2 hr)] at hy' hstate ⊢
    exact alike_runTask h hstate hkept fun t ht => woken_akin h.state hstate
      ⟨hx'.metered, hx'.placed.sound⟩ ⟨hy'.metered, hy'.placed.sound⟩ ht
  | fire d =>
    cases he
    exact alike_runTask h (akin_fire h.state hx.placed.sound hc) hkept fun _ _ => Iff.rfl
  | abort d =>
    cases he
    have hstate := akin_drop h.state hx.placed.sound hc
    exact alike_runTask h hstate hkept fun t ht => woken_akin h.state hstate
      ⟨hx'.metered, hx'.placed.sound⟩ ⟨hy'.metered, hy'.placed.sound⟩ ht
  | _ => cases he

end Step

/-- The cache forgets keys. -/
theorem akin_withCache {s t : Caller α} (h : Akin Store.shut s t) {c c' : Cache α}
    (hc : c = c'.close) : Akin Store.shut (s.withCache c) (t.withCache c') where
  name := h.name
  policy := h.policy
  breaker := h.breaker
  flights := by
    unfold withCache
    rw [h.flights, hc]
    rfl
  calls := h.calls

/-- Background work that both runs do. -/
theorem alike_tend (h : Alike Store.shut x y) {chore : Tended.Chore} {timerFirst : Bool}
    (hperform : x.state.flights.store.tended.perform x.now timerFirst chore =
      { y.state.flights.store.tended.perform y.now timerFirst chore with
        cache := (y.state.flights.store.tended.perform y.now timerFirst chore).cache.close }) :
    Alike Store.shut (tend x chore timerFirst) (tend y chore timerFirst) := by
  refine ⟨h.now, ⟨h.state.name, h.state.policy, h.state.breaker, ?_, h.state.calls⟩,
    fun t ht => ?_⟩
  · show (x.state.perform x.now timerFirst chore).flights =
      ((y.state.perform y.now timerFirst chore).flights).mapStore Store.shut
    unfold perform
    rw [hperform, h.state.flights]
    rfl
  · have hnoticed : Noticed x.state t := by
      cases t with
      | call c => exact ht
      | chore chore => cases chore <;> exact ht
      | _ => exact ht
    show t ∈ y.ready.filter _ ↔ t ∈ x.ready.filter _
    rw [List.mem_filter, List.mem_filter, h.ready t hnoticed]

/-- A sweep of the cache that was asked for. -/
theorem alike_sweep (h : Alike Store.shut x y) (timerFirst : Bool) :
    Alike Store.shut (step x (.chore .sweep timerFirst))
      (step y (.chore .sweep timerFirst)) := by
  have hready := h.ready (.chore .sweep) trivial
  by_cases hr : .chore .sweep ∈ x.ready
  swap
  · have hr' : .chore .sweep ∉ y.ready := fun hr' => hr (hready.1 hr')
    simp only [step, if_neg hr, if_neg hr']
    exact h
  simp only [step, if_pos hr, if_pos (hready.2 hr)]
  refine alike_tend h ?_
  rw [← Tended.perform_sweep_close, h.now, h.state.flights]
  rfl

/-- A closed cache is cleaned up, as the cleanup was due and its timer was looked at first. -/
theorem alike_late (h : Alike Store.shut x y) :
    Alike Store.shut (tend x .tick true) (tend y .tick true) := by
  refine alike_tend h ?_
  have hperform : ∀ (t : Tended α) (now : Nat), t.perform now true .tick = t.tidy now :=
    fun t now => if_neg (by simp)
  rw [hperform, hperform, h.now, h.state.flights]
  rfl

/-- Else a closed cache is not cleaned up. -/
theorem alike_tick (hclosed : x.state.cache.closed = true) :
    Alike id x (step x (.chore .tick false)) := by
  by_cases hr : .chore .tick ∈ x.ready
  swap
  · simp only [step, if_neg hr]
    exact .refl x
  have hsame : x.state.perform x.now false .tick = x.state := by
    unfold perform Tended.perform
    simp only [show x.state.flights.store.tended.cache.closed = true from hclosed, Bool.not_false,
      Bool.and_true, if_true]
  simp only [step, if_pos hr]
  refine ⟨rfl, ?_, fun t ht => ?_⟩
  · show Akin id x.state (x.state.perform x.now false .tick)
    rw [hsame]
    exact (Alike.refl x).state
  · show t ∈ x.ready.filter _ ↔ t ∈ x.ready
    refine ⟨fun hmem => (List.mem_filter.1 hmem).1, fun hmem =>
      List.mem_filter.2 ⟨hmem, decide_eq_true ?_⟩⟩
    rintro rfl
    exact ht

/-- What the closed caller does about a cleanup that was due when it was closed. -/
theorem alike_due (h : Alike Store.shut x y)
    (hdue : .chore .tick ∈ x.ready → .chore .tick ∈ y.ready) (timerFirst : Bool) :
    Alike Store.shut (step x (.chore .tick timerFirst))
      ((carried x (.chore .tick timerFirst)).foldl step y) := by
  have hclosed : x.state.cache.closed = true := by rw [h.state.cache]; rfl
  cases timerFirst with
  | false =>
    have hnone : carried x (.chore .tick false) = [] := by simp [carried]
    rw [hnone]
    exact (alike_tick hclosed).symm.trans h
  | true =>
    by_cases hr : .chore .tick ∈ x.ready
    · have hsame : carried x (.chore .tick true) = [.chore .tick true] := if_pos ⟨rfl, hr⟩
      simp only [hsame, List.foldl_cons, List.foldl_nil, step, if_pos hr, if_pos (hdue hr)]
      exact alike_late h
    · have hnone : carried x (.chore .tick true) = [] := if_neg fun hboth => hr hboth.2
      simp only [hnone, List.foldl_nil, step, if_neg hr]
      exact h

/-- The timers are those of the calls that make attempts or rest, and of the cleanup. -/
theorem mem_timers_iff {s : Caller α} {t : Nat} {task : Task} : (t, task) ∈ s.timers [] ↔
    (∃ c call, (c, call) ∈ s.calls ∧ call.isOpen = true ∧ s.workTimer c = some t ∧
      task = .call c) ∨
    (s.cache.closed = false ∧ t = s.flights.store.tended.nextTick ∧ task = .chore .tick) := by
  have hcall : ∀ c, (Table.get? ([] : Table Nat Plan) c).getD {} = {} := fun _ => rfl
  unfold timers Tended.timers cache
  simp only [List.mem_append, List.mem_flatMap, Prod.exists, hcall]
  refine or_congr ⟨?_, ?_⟩ ?_
  · rintro ⟨c, call, hmem, hin⟩
    refine ⟨c, call, hmem, ?_⟩
    cases ho : call.isOpen with
    | false => simp [ho] at hin
    | true =>
      simp only [ho, if_true, List.mem_append, List.mem_map, Option.mem_toList] at hin
      rcases hin with (⟨i, hi, heq⟩ | hin) | hin
      · cases heq
        exact ⟨rfl, hi, rfl⟩
      · split at hin <;> cases hin
      · obtain ⟨_, hnone, -⟩ := hin
        cases hnone
  · rintro ⟨c, call, hmem, ho, ht, rfl⟩
    refine ⟨c, call, hmem, ?_⟩
    simp [ho, ht]
  · cases s.flights.store.tended.cache.closed with
    | true => simp
    | false => simp

theorem mem_timers_call {s : Caller α} (h : s.calls.keys.Nodup) {t d : Nat} :
    (t, .call d) ∈ s.timers [] ↔
      ∃ call, s.calls.get? d = some call ∧ call.isOpen = true ∧ s.workTimer d = some t := by
  rw [mem_timers_iff]
  constructor
  · rintro (⟨c, call, hmem, ho, ht, hd⟩ | ⟨-, -, hd⟩)
    · cases hd
      exact ⟨call, Table.get?_of_mem h hmem, ho, ht⟩
    · cases hd
  · rintro ⟨call, hc, ho, ht⟩
    exact Or.inl ⟨d, call, Table.mem_of_get? hc, ho, ht, rfl⟩

/-- Only a call among the flights has a timer. -/
theorem phase_of_workTimer {s : Caller α} {d t : Nat} (h : s.workTimer d = some t) :
    phase? s d ≠ none := by
  intro hnone
  unfold workTimer at h
  rw [Option.map_eq_none_iff.1 hnone] at h
  cases h

theorem Akin.timers {s t : Caller α} (h : Akin Store.shut s t) (hs : s.calls.keys.Nodup)
    (ht : t.calls.keys.Nodup) {i d : Nat} :
    (i, .call d) ∈ t.timers [] ↔ (i, .call d) ∈ s.timers [] := by
  have hwork : s.workTimer d = t.workTimer d := by
    unfold workTimer
    rw [h.flights]
    rfl
  rw [mem_timers_call hs, mem_timers_call ht, hwork]
  refine exists_congr fun call => and_congr_left fun ⟨_, htimer⟩ => ?_
  rw [h.calls d (phase_of_workTimer (hwork.trans htimer))]

/-- Time passes up to the same instant, and wakes the same calls. -/
theorem alike_pass (h : Alike Store.shut x y) (hx : Steady x limit) (hy : Steady y limit)
    (instant : Nat) : Alike Store.shut (step x (.pass instant))
      (step (step y (.pass (step x (.pass instant)).now)) (.pass (step x (.pass instant)).now)) := by
  show Alike Store.shut (x.pass (system silence) instant)
    ((y.pass (system silence) (x.pass (system silence) instant).now).pass (system silence)
      (x.pass (system silence) instant).now)
  have hle : y.now ≤ (x.pass (system silence) instant).now := by
    rw [h.now]
    exact Clock.World.le_pass
  have htimers : ∀ {i d : Nat}, (i, Task.call d) ∈ y.state.timers [] ↔
      (i, .call d) ∈ x.state.timers [] := h.state.timers hx.metered.keys hy.metered.keys
  -- nothing but the cleanup is on the way
  have hlone : ∀ p ∈ (system silence).timers y.state, y.now < p.1 →
      p.1 < (x.pass (system silence) instant).now →
      p = (y.state.flights.store.tended.nextTick, .chore .tick) := by
    rintro ⟨t, task⟩ hp hlt hbefore
    rcases mem_timers_iff.1 hp with ⟨c, call, -, -, -, rfl⟩ | ⟨-, rfl, rfl⟩
    · have hmem : (t, Task.call c) ∈ (system silence).timers x.state := htimers.1 hp
      have hbound : (x.pass (system silence) instant).now ≤ t :=
        Clock.World.pass_le _ hmem (by rw [← h.now]; exact hlt)
      exact absurd hbefore (Nat.not_lt.2 hbound)
    · rfl
  obtain ⟨hend, hready⟩ := Clock.World.pass_pass hle hlone
  have hstate : Akin Store.shut (x.pass (system silence) instant).state
      ((y.pass (system silence) (x.pass (system silence) instant).now).pass (system silence)
        (x.pass (system silence) instant).now).state := by
    rw [Clock.World.state_pass, Clock.World.state_pass, Clock.World.state_pass]
    exact h.state
  refine ⟨hend, hstate, fun t ht => ?_⟩
  rw [Clock.World.state_pass] at ht
  have hdue : ((x.pass (system silence) instant).now, t) ∈ y.state.timers [] ↔
      ((x.pass (system silence) instant).now, t) ∈ x.state.timers [] := by
    cases t with
    | call d => exact htimers
    | chore chore =>
      cases chore with
      | sweep => rw [mem_timers_iff, mem_timers_iff]; simp
      | tick => cases ht
    | _ => cases ht
  rw [hready t (fun htick => by rw [htick] at ht; cases ht), Clock.World.mem_pass, h.ready t ht, h.now]
  exact or_congr_right (and_congr_right fun _ => hdue)

/-- **An event of the closed caller, and what it is in the other run.** -/
theorem alike_step (h : Alike Store.shut x y) (hx : Steady x limit) (hy : Steady y limit)
    (hclosed : x.state.permits.closed = true)
    (hdue : .chore .tick ∈ x.ready → .chore .tick ∈ y.ready) (e : Event α) :
    Alike Store.shut (step x e) ((carried x e).foldl step y) := by
  -- what is not noticed is left out
  have haside : Alike id x (step x e) → Alike Store.shut (step x e) y := fun hsame => hsame.symm.trans h
  have hown : ∀ {c}, e.call? = some c → (∀ key ttl fired, e ≠ .call c key ttl fired) →
      carried x e = (if (phase? x.state c).isSome then [e] else []) →
      Alike Store.shut (step x e) ((carried x e).foldl step y) := by
    intro c he hnew hcarried
    rw [hcarried]
    cases hc : phase? x.state c with
    | none =>
      exact haside (alike_of_ashore hx.placed hx.metered he hc fun _ _ => hclosed)
    | some p =>
      exact alike_among h hx hy hclosed he hnew (by rw [hc]; exact Option.some_ne_none p)
  cases e with
  | call c key ttl fired =>
    cases hcall : x.state.calls.get? c with
    | some call => rw [step_of_known hcall]; exact h
    | none =>
      have hc : phase? x.state c = none := by
        by_contra hc
        obtain ⟨call, hknown, -⟩ := hx.placed.sound.known_among hc
        rw [hcall] at hknown; cases hknown
      exact haside (alike_of_ashore hx.placed hx.metered rfl hc fun _ _ => hclosed)
  | turn c answers => exact hown rfl (fun _ _ _ hn => by cases hn) rfl
  | fire c => exact hown rfl (fun _ _ _ hn => by cases hn) rfl
  | abort c => exact hown rfl (fun _ _ _ hn => by cases hn) rfl
  | wake c =>
    refine ⟨h.now, h.state, fun t ht => ?_⟩
    show t ∈ (y.wake [.call c]).ready ↔ t ∈ (x.wake [.call c]).ready
    rw [Clock.World.mem_wake, Clock.World.mem_wake, h.ready t ht]
  | close =>
    have hagain : Alike (Store.shut ∘ Store.shut) (step x .close) y := (alike_close hx).trans h
    exact hagain
  | chore chore timerFirst =>
    cases chore with
    | sweep => exact alike_sweep h timerFirst
    | tick => exact alike_due h hdue timerFirst
  | delete key =>
    refine ⟨h.now, akin_withCache h.state ?_, h.ready⟩
    rw [h.state.cache]
    exact congrArg Prod.snd (Cache.delete_close _ _)
  | deleteStartingWith start =>
    refine ⟨h.now, akin_withCache h.state ?_, h.ready⟩
    rw [h.state.cache]
    rfl
  | pass instant => exact alike_pass h hx hy instant

theorem tick_not_woken {answers : Nat → Answers α} {now : Nat} {task : Task} {s : Caller α} :
    .chore .tick ∉ (s.run answers now task).2 := by
  have hwoken : ∀ (s s' : Caller α) (c : Nat), .chore .tick ∉ woken s s' c := by
    intro s s' c hmem
    unfold woken Tended.called at hmem
    simp only [List.mem_append, List.mem_map] at hmem
    rcases hmem with (⟨chore, hchore, htick⟩ | ⟨d, -, hd⟩) | ⟨d, -, hd⟩
    · split at hchore
      · rw [List.mem_singleton.1 hchore] at htick
        cases htick
      · cases hchore
    · cases hd
    · cases hd
  cases task with
  | call c => exact hwoken _ _ c
  | fire c => exact fun hmem => by cases List.mem_singleton.1 hmem
  | abort c => exact hwoken _ _ c
  | chore chore => exact List.not_mem_nil

theorem due_of_close (h : .chore .tick ∈ (step x .close).ready) : .chore .tick ∈ x.ready := by
  refine ((Clock.World.mem_wake _ _ _).1 h).resolve_right fun hmem => ?_
  obtain ⟨d, -, hn⟩ := List.mem_map.1 hmem
  cases hn

/-- **No cleanup gets ready once the cache is closed**, and one that is done is not ready any
more. -/
theorem due_of_step (hclosed : x.state.cache.closed = true) {e : Event α}
    (h : .chore .tick ∈ (step x e).ready) :
    .chore .tick ∈ x.ready ∧ e.task? ≠ some (.chore .tick) := by
  have hwake : ∀ {s : Caller α} {tasks : List Task}, (∀ t ∈ tasks, t ≠ .chore .tick) →
      .chore .tick ∈ (Clock.World.wake ⟨x.now, s, x.ready⟩ tasks).ready → .chore .tick ∈ x.ready :=
    fun hno hmem => ((Clock.World.mem_wake _ _ _).1 hmem).resolve_right fun ht => hno _ ht rfl
  have hrun : ∀ {task : Task} {answers : Answers α},
      .chore .tick ∈ (runTask x task answers).ready → .chore .tick ∈ x.ready := fun hmem =>
    ((mem_runTask.1 hmem).resolve_right tick_not_woken).1
  cases e with
  | call c key ttl fired =>
    simp only [step] at h
    split at h
    · exact ⟨h, fun hn => by cases hn⟩
    · exact ⟨hwake (fun t ht hn => by rw [List.mem_singleton.1 ht] at hn; cases hn) h,
        fun hn => by cases hn⟩
  | turn c answers =>
    simp only [step] at h
    split at h
    · exact ⟨hrun h, fun hn => by cases hn⟩
    · exact ⟨h, fun hn => by cases hn⟩
  | chore chore timerFirst =>
    simp only [step] at h
    split at h
    · obtain ⟨hmem, hne⟩ := List.mem_filter.1 h
      exact ⟨hmem, fun hn => of_decide_eq_true hne (Option.some.inj hn).symm⟩
    · rename_i hr
      exact ⟨h, fun hn => hr (by rw [Option.some.inj hn]; exact h)⟩
  | wake c =>
    exact ⟨hwake (fun t ht hn => by rw [List.mem_singleton.1 ht] at hn; cases hn) h,
      fun hn => by cases hn⟩
  | fire c => exact ⟨hrun h, fun hn => by cases hn⟩
  | abort c => exact ⟨hrun h, fun hn => by cases hn⟩
  | close => exact ⟨due_of_close h, fun hn => by cases hn⟩
  | delete key => exact ⟨h, fun hn => by cases hn⟩
  | deleteStartingWith start => exact ⟨h, fun hn => by cases hn⟩
  | pass limit =>
    refine ⟨((Clock.World.mem_pass _).1 h).resolve_right ?_, fun hn => by cases hn⟩
    rintro ⟨-, htimer⟩
    rcases mem_timers_iff.1 htimer with ⟨c, call, -, -, -, hn⟩ | ⟨hopen, -, -⟩
    · cases hn
    · rw [hclosed] at hopen
      cases hopen

theorem ready_foldl {t : Task} {events : List (Event α)} (hne : ∀ e ∈ events, e.task? ≠ some t)
    (h : t ∈ y.ready) : t ∈ (events.foldl step y).ready := by
  induction events generalizing y with
  | nil => exact h
  | cons e events ih =>
    exact ih (fun e' he' => hne e' (List.mem_cons_of_mem e he'))
      (ready_step (hne e List.mem_cons_self) h)

/-- A cleanup that is still due for the closed caller is due in the other run. -/
theorem due_step (h : Alike Store.shut x y)
    (hdue : .chore .tick ∈ x.ready → .chore .tick ∈ y.ready) (e : Event α)
    (hr : .chore .tick ∈ (step x e).ready) :
    .chore .tick ∈ ((carried x e).foldl step y).ready := by
  have hclosed : x.state.cache.closed = true := by rw [h.state.cache]; rfl
  obtain ⟨hmem, htask⟩ := due_of_step hclosed hr
  refine ready_foldl (fun e' he' => ?_) (hdue hmem)
  have hone : e' ∈ (if e.call?.all (fun c => (phase? x.state c).isSome) then [e] else []) →
      e'.task? ≠ some (.chore .tick) := by
    intro hin
    split at hin
    · rw [List.mem_singleton.1 hin]
      exact htask
    · cases hin
  cases e with
  | call c key ttl fired => cases he'
  | close => cases he'
  | chore chore timerFirst =>
    cases chore with
    | sweep => exact hone he'
    | tick => exact absurd rfl htask
  | pass limit =>
    simp only [carried, List.mem_cons, List.not_mem_nil, or_false, or_self] at he'
    rw [he']
    exact fun hn => by cases hn
  | _ => exact hone he'

/-- The calls that have no permit. -/
def outsiders (s : Caller α) : List Nat :=
  (s.calls.filter (fun p => p.2.stage.isAshore)).map (·.1)

/-- A run up to event `n` in which event `m` is not a close: the calls without a permit are dropped
in its place, and afterwards no call comes in. -/
def unclosed (x : World α) (es : List (Event α)) (m n : Nat) : List (Event α) :=
  es.take m ++ (worldAt x es m).state.outsiders.map .abort ++
    Trace.echoed step carried (worldAt x es (m + 1)) (es.drop (m + 1)) (n - (m + 1))

theorem phase_of_outsider {s : Caller α} (h : s.Sound) (hkeys : s.calls.keys.Nodup) {c : Nat}
    (hc : c ∈ s.outsiders) : phase? s c = none := by
  obtain ⟨⟨d, call⟩, hmem, rfl⟩ := List.mem_map.1 hc
  obtain ⟨hmem, ha⟩ := List.mem_filter.1 hmem
  unfold phase?
  rw [h.ashore d call (Table.get?_of_mem hkeys hmem) ha]
  rfl

/-- The calls without a permit are dropped, one after another. -/
theorem alike_aborts (cs : List Nat) (h : Steady x limit) (hcs : ∀ c ∈ cs, phase? x.state c = none) :
    Alike id x ((cs.map .abort).foldl step x) ∧ Steady ((cs.map .abort).foldl step x) limit := by
  induction cs generalizing x with
  | nil => exact ⟨.refl x, h⟩
  | cons c cs ih =>
    have hfirst : Alike id x (step x (.abort c)) :=
      alike_of_ashore h.placed h.metered rfl (hcs c List.mem_cons_self) (fun _ hn => by cases hn)
    obtain ⟨hrest, hsteady⟩ := ih (steady_step h (.abort c)) fun d hd => by
      rw [hfirst.state.phase]
      exact hcs d (List.mem_cons_of_mem _ hd)
    exact ⟨hfirst.trans hrest, hsteady⟩

/-- The closed caller and the other run, with what holds of each. -/
structure Paired (limit : Nat) (x y : World α) : Prop where
  closed : x.state.permits.closed = true
  left : Steady x limit
  right : Steady y limit
  alike : Alike Store.shut x y
  due : .chore .tick ∈ x.ready → .chore .tick ∈ y.ready

theorem closed_stays (hclosed : x.state.permits.closed = true) (e : Event α) :
    (step x e).state.permits.closed = true := by
  cases he : e.isClose with
  | false => exact (closed_step he).trans hclosed
  | true =>
    cases e with
    | close => rfl
    | _ => cases he

theorem steady_foldl (h : Steady x limit) (es : List (Event α)) : Steady (es.foldl step x) limit := by
  induction es generalizing x with
  | nil => exact h
  | cons e es ih => exact ih (steady_step h e)

theorem paired_step (h : Paired limit x y) (e : Event α) :
    Paired limit (step x e) ((carried x e).foldl step y) where
  closed := closed_stays h.closed e
  left := steady_step h.left e
  right := steady_foldl h.right _
  alike := alike_step h.alike h.left h.right h.closed h.due e
  due := due_step h.alike h.due e

/-- **The two runs at every point after the close.** -/
theorem paired_unclosed (hx : Steady x limit) {m n : Nat} (he : es[m]? = some .close) (hmn : m < n) :
    Paired limit (worldAt x es n)
      (worldAt x (unclosed x es m n) (unclosed x es m n).length) := by
  have hat : Steady (worldAt x es m) limit :=
    Trace.after_invariant (P := fun y => Steady y limit) hx (fun _ e _ hy => steady_step hy e) m
  obtain ⟨hdropped, hsteady⟩ := alike_aborts (worldAt x es m).state.outsiders hat
    fun c hc => phase_of_outsider hat.placed.sound hat.metered.keys hc
  have hstep := worldAt_succ x he
  have hstart : Paired limit (worldAt x es (m + 1))
      (((worldAt x es m).state.outsiders.map .abort).foldl step (worldAt x es m)) := by
    rw [hstep]
    refine ⟨rfl, steady_step hat _, hsteady, (alike_close hat).trans hdropped, fun hr =>
      ready_foldl (fun e he => ?_) (due_of_close hr)⟩
    obtain ⟨c, -, rfl⟩ := List.mem_map.1 he
    exact fun hn => by cases hn
  have hrun : Paired limit
      (Trace.after step (worldAt x es (m + 1)) (es.drop (m + 1)) (n - (m + 1))) _ :=
    Trace.after_echoed hstart (fun _ _ e _ h => paired_step h e) (n - (m + 1))
  have hhere : worldAt x es n =
      Trace.after step (worldAt x es (m + 1)) (es.drop (m + 1)) (n - (m + 1)) := by
    rw [← Trace.after_add, Nat.add_sub_cancel' hmn]
  have hthere : worldAt x (unclosed x es m n) (unclosed x es m n).length =
      (Trace.echoed step carried (worldAt x es (m + 1)) (es.drop (m + 1)) (n - (m + 1))).foldl step
        (((worldAt x es m).state.outsiders.map .abort).foldl step (worldAt x es m)) := by
    unfold unclosed worldAt
    rw [Trace.after_append, Trace.after_append, Trace.after_length]
    rfl
  rw [hhere, hthere, ← Trace.after_length]
  exact hrun

end RegistryLookup.Caller
