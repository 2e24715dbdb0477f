import RegistryLookup.Proofs.Cache.Closed
import RegistryLookup.Proofs.Caller.Capacity
import RegistryLookup.Proofs.Flight.Mapped

/-!
# What is noticed among the flights

A call that comes in, waits for a permit or goes away again without one is not noticed by the calls
with a permit. Nor is it that the caller is closed: among the flights nothing changes but the mark on
the cache that its cleanup has stopped. Callers that are the same to the calls with a permit are
related (`Akin`), and so are the worlds in which the same of them are ready (`Alike`).

* `alike_of_ashore`: nothing that a call does without a permit is noticed.
* `loadWork_shut`: the work of a flight does the same with a closed cache.
* `akin_turn`, `akin_fire`, `akin_drop`: what a call with a permit does.
-/

namespace RegistryLookup

/-- A sweep does not ask whether the cleanup has stopped. -/
theorem Tended.perform_sweep_close {α : Type} (t : Tended α) (now : Nat) (timerFirst : Bool) :
    ({ t with cache := t.cache.close } : Tended α).perform now timerFirst .sweep =
      { t.perform now timerFirst .sweep with
        cache := (t.perform now timerFirst .sweep).cache.close } := by
  have hpending : t.cache.close.sweepPending = t.cache.sweepPending := rfl
  unfold perform
  simp only [hpending, Cache.sweep_close]
  split <;> rfl

namespace Caller

open Flight

variable {α : Type} {x y : World α} {es : List (Event α)} {limit : Nat}

/-- A store whose cache is not cleaned up any more. -/
def Store.shut (s : Store α) : Store α := s.withCache s.tended.cache.close

theorem attempt_shut (policy : Retry.Policy) (label : String) (answers : Answers α)
    (now call : Nat) (fired : Bool) (load : Load α) (loop : Retry.Loop α) (s : Store α) :
    attempt policy label answers now call fired load loop s.shut =
      ((attempt policy label answers now call fired load loop s).1,
        (attempt policy label answers now call fired load loop s).2.shut) := by
  unfold attempt
  simp only
  cases (loop.turn policy answers now fired).rest with
  | inl loop' => rfl
  | inr r =>
    cases r with
    | error f => rfl
    | ok v =>
      simp only [Prod.mk.injEq, true_and]
      show Store.withCache _ (s.tended.cache.close.set now load.key v load.ttl) = _
      rw [Cache.set_close]
      rfl

/-- A load does the same whether the cache is cleaned up or not. -/
theorem loadWork_shut (policy : Retry.Policy) (label : String) :
    (loadWork policy label).Along Store.shut (loadWork policy label : Work _ _ _ α) := by
  intro answers now c fired load s
  have hget : s.shut.tended.cache.get now load.key =
      ((s.tended.cache.get now load.key).1, (s.tended.cache.get now load.key).2.close) :=
    Cache.get_close _ _ _
  unfold loadWork
  simp only [hget]
  cases load.stage with
  | trying loop => exact attempt_shut _ _ _ _ _ _ _ _ _
  | lookup =>
    simp only
    cases s.tended.cache.get now load.key with
    | mk v cache =>
      cases v with
      | some v => rfl
      | none => exact attempt_shut _ _ _ _ _ _ _ _ (s.withCache cache)

section Closed

variable {s : Caller α} {answers : Answers α} {now c : Nat} {call : Call α} {fired : Bool}

/-- A call that has its first turn is turned away. -/
theorem turn_of_arriving (hclosed : s.permits.closed = true) (hc : s.calls.get? c = some call)
    (hs : call.stage = .arriving fired) : s.turn answers now c =
      s.become c call (.ended (.error (closedFailure s.name)) now) := by
  unfold turn arrive
  simp only [hc, hs, hclosed, if_true]

/-- A call that waits for a permit is sent away; its token is looked at first. -/
theorem turn_of_queued (hclosed : s.permits.closed = true) (hc : s.calls.get? c = some call)
    (hs : call.stage = .queued fired) : s.turn answers now c =
      { s with permits := s.permits.leave c }.become c call
        (.ended (.error (if fired then .cancelled else closedFailure s.name)) now) := by
  unfold turn await
  cases fired <;> simp [hc, hs, hclosed]

end Closed

/-- Two callers are the same to the calls among their flights, which share a store, or what a map
makes of it. -/
structure Akin (f : Store α → Store α) (s t : Caller α) : Prop where
  name : t.name = s.name
  policy : t.policy = s.policy
  breaker : t.breaker = s.breaker
  flights : s.flights = t.flights.mapStore f
  calls : ∀ d, phase? s d ≠ none → t.calls.get? d = s.calls.get? d

/-- A task that matters to the calls among the flights. -/
def Noticed (s : Caller α) : Task → Prop
  | .call c => phase? s c ≠ none
  | .chore .sweep => True
  | _ => False

/-- So are two callers on the clock, with the same tasks ready. -/
structure Alike (f : Store α → Store α) (x y : World α) : Prop where
  now : y.now = x.now
  state : Akin f x.state y.state
  ready : ∀ t, Noticed x.state t → (t ∈ y.ready ↔ t ∈ x.ready)

section Akin

variable {f g : Store α → Store α} {s t u : Caller α} {z : World α}

theorem Akin.phase (h : Akin f s t) (c : Nat) : phase? t c = phase? s c := by
  unfold phase?
  rw [h.flights]
  rfl

theorem Akin.trans (h : Akin f s t) (h' : Akin g t u) : Akin (f ∘ g) s u where
  name := h'.name.trans h.name
  policy := h'.policy.trans h.policy
  breaker := h'.breaker.trans h.breaker
  flights := by rw [h.flights, h'.flights]; rfl
  calls := fun d hd => (h'.calls d (by rw [h.phase]; exact hd)).trans (h.calls d hd)

theorem Akin.symm (h : Akin id s t) : Akin id t s where
  name := h.name.symm
  policy := h.policy.symm
  breaker := h.breaker.symm
  flights := by rw [h.flights]; rfl
  calls := fun d hd => (h.calls d (by rw [← h.phase]; exact hd)).symm

theorem Akin.noticed (h : Akin f s t) (task : Task) : Noticed t task ↔ Noticed s task := by
  cases task with
  | call c => exact not_congr (by rw [h.phase])
  | chore chore => cases chore <;> exact Iff.rfl
  | _ => exact Iff.rfl

theorem Alike.refl (x : World α) : Alike id x x :=
  ⟨rfl, ⟨rfl, rfl, rfl, rfl, fun _ _ => rfl⟩, fun _ _ => Iff.rfl⟩

theorem Alike.trans (h : Alike f x y) (h' : Alike g y z) : Alike (f ∘ g) x z where
  now := h'.now.trans h.now
  state := h.state.trans h'.state
  ready := fun t ht => (h'.ready t ((h.state.noticed t).2 ht)).trans (h.ready t ht)

theorem Alike.symm (h : Alike id x y) : Alike id y x where
  now := h.now.symm
  state := h.state.symm
  ready := fun t ht => (h.ready t ((h.state.noticed t).1 ht)).symm

end Akin

theorem mem_runTask {task t : Task} {answers : Answers α} :
    t ∈ (runTask x task answers).ready ↔
      (t ∈ x.ready ∧ t ≠ task) ∨ t ∈ (x.state.run (fun _ => answers) x.now task).2 := by
  unfold runTask
  simp only [Clock.World.mem_wake, List.mem_filter, decide_eq_true_eq]
  rfl

/-- A call that waits for a permit is not among the flights. -/
theorem Metered.phase_of_waiter {s : Caller α} (h : s.Metered limit) (hs : s.Sound) {c : Nat}
    (hc : c ∈ s.permits.waiters) : phase? s c = none := by
  obtain ⟨call, fired, hcall, hq⟩ := h.waits c hc
  unfold phase?
  rw [hs.ashore c call hcall (by rw [hq]; rfl)]
  rfl

/-- Who is woken among the flights: a permit that is given back wakes nobody there. -/
theorem mem_woken_noticed {s s' : Caller α} (h : s'.Metered limit) (hs : s'.Sound) {c : Nat}
    {t : Task} (ht : Noticed s' t) : t ∈ woken s s' c ↔
      t ∈ (Tended.called s.cache s'.cache).map .chore ∨ t ∈ (s'.flights.freedBy c).map .call := by
  unfold woken
  rw [List.mem_append, List.mem_append]
  refine ⟨fun hor => hor.resolve_right fun hmem => ?_, Or.inl⟩
  obtain ⟨d, hd, rfl⟩ := List.mem_map.1 hmem
  exact ht (h.phase_of_waiter hs (Permits.mem_waiters.2 (Or.inr (List.mem_filter.1 hd).1)))

/-- A call that is not among the flights keeps to itself. -/
theorem ashore_step (hx : Placed x.state) {e : Event α} {c : Nat} (he : e.call? = some c)
    (hc : phase? x.state c = none)
    (hturn : ∀ answers, e = .turn c answers → x.state.permits.closed = true) :
    (step x e).state = x.state ∨ ∃ p call', (step x e).state =
      { x.state with permits := p, calls := x.state.calls.put c call' } := by
  -- it has no permit
  have hadmitted : ∀ {call : Call α}, x.state.calls.get? c = some call → call.stage ≠ .admitted := by
    intro call hcall hs
    obtain ⟨p, -, hp, -⟩ := hx.aboard c call hcall hs
    rw [hc] at hp; cases hp
  cases e with
  | call d key ttl fired =>
    cases he
    cases hcall : x.state.calls.get? c with
    | some call => rw [step_of_known hcall]; exact Or.inl rfl
    | none =>
      simp only [step, hcall, Option.isSome_none, Bool.false_eq_true, if_false]
      exact Or.inr ⟨x.state.permits, ⟨key, ttl, .arriving fired⟩, rfl⟩
  | turn d answers =>
    cases he
    have hclosed := hturn answers rfl
    by_cases hr : .call c ∈ x.ready
    swap
    · rw [step_of_idle hr]; exact Or.inl rfl
    rw [state_turn hr]
    cases hcall : x.state.calls.get? c with
    | none => exact Or.inl (by unfold turn; simp only [hcall])
    | some call =>
      cases hs : call.stage with
      | arriving fired =>
        rw [turn_of_arriving hclosed hcall hs]
        exact Or.inr ⟨x.state.permits, _, rfl⟩
      | queued fired =>
        rw [turn_of_queued hclosed hcall hs]
        exact Or.inr ⟨x.state.permits.leave c, _, rfl⟩
      | admitted => exact absurd hs (hadmitted hcall)
      | ended r t => exact Or.inl (by unfold turn; simp only [hcall, hs])
      | dropped => exact Or.inl (by unfold turn; simp only [hcall, hs])
  | fire d =>
    cases he
    show x.state.fire c = _ ∨ ∃ p call', x.state.fire c = _
    rcases fire_cases x.state c with hs | ⟨call, fired, -, ⟨-, hs⟩ | ⟨-, hs⟩⟩ | ⟨call, hcall, hs, -⟩
    · exact Or.inl hs
    · exact Or.inr ⟨x.state.permits, _, hs⟩
    · exact Or.inr ⟨x.state.permits, _, hs⟩
    · exact absurd hs (hadmitted hcall)
  | abort d =>
    cases he
    show x.state.drop c = _ ∨ ∃ p call', x.state.drop c = _
    rcases drop_cases x.state c with hs | ⟨call, hcall, ⟨fired, p, -, -, hs⟩ | ⟨hs, -⟩⟩
    · exact Or.inl hs
    · exact Or.inr ⟨p, _, hs⟩
    · exact absurd hs (hadmitted hcall)
  | _ => cases he

theorem akin_of_ashore (hx : Placed x.state) {e : Event α} {c : Nat} (he : e.call? = some c)
    (hc : phase? x.state c = none)
    (hturn : ∀ answers, e = .turn c answers → x.state.permits.closed = true) :
    Akin id x.state (step x e).state := by
  rcases ashore_step hx he hc hturn with hs | ⟨p, call', hs⟩
  · rw [hs]
    exact (Alike.refl x).state
  · rw [hs]
    refine ⟨rfl, rfl, rfl, rfl, fun d hd => Table.get?_put_of_ne _ _ ?_⟩
    rintro rfl
    exact hd hc

/-- Where nothing changes among the flights, nobody is woken there: nobody has waited for a call that
is not among them, and the cache is as before. -/
theorem not_woken_of_ashore {s s' : Caller α} (h : Akin id s s') (hm : s'.Metered limit)
    (hs : s'.Sound) {c : Nat} (hc : phase? s c = none) {t : Task} (ht : Noticed s t) :
    t ∉ woken s s' c := by
  have hcache : s'.cache = s.cache := by
    unfold cache
    rw [h.flights]
    rfl
  have hgone : s'.flights.calls.get? c = none := by
    have hphase := h.phase c
    rw [hc] at hphase
    exact Option.map_eq_none_iff.1 hphase
  intro hmem
  rw [mem_woken_noticed hm hs ((h.noticed t).2 ht), hcache, Cache.called_self,
    Flights.freedBy_of_none hs.flights hgone] at hmem
  rcases hmem with hmem | hmem <;> cases hmem

/-- **Nothing that concerns a call without a permit is noticed among the flights.** -/
theorem alike_of_ashore (hx : Placed x.state) (hm : x.state.Metered limit) {e : Event α} {c : Nat}
    (he : e.call? = some c) (hc : phase? x.state c = none)
    (hturn : ∀ answers, e = .turn c answers → x.state.permits.closed = true) :
    Alike id x (step x e) := by
  have hakin : Akin id x.state (step x e).state := akin_of_ashore hx he hc hturn
  have hne : ∀ {t}, Noticed x.state t → t ≠ .call c := by
    rintro t ht rfl
    exact ht hc
  have hquiet : ∀ {t}, Noticed x.state t → t ∉ woken x.state (step x e).state c :=
    fun ht => not_woken_of_ashore hakin (step_metered hm e) (step_sound hx.sound e) hc ht
  refine ⟨now_step_of_ne fun limit hpass => ?_, hakin, fun t ht => ?_⟩
  · rw [hpass] at he; cases he
  cases e with
  | call d key ttl fired =>
    cases he
    cases hcall : x.state.calls.get? c with
    | some call => rw [step_of_known hcall]
    | none =>
      simp only [step, hcall, Option.isSome_none, Bool.false_eq_true, if_false]
      rw [Clock.World.mem_wake, List.mem_singleton]
      exact ⟨fun hor => hor.resolve_right (hne ht), Or.inl⟩
  | turn d answers =>
    cases he
    by_cases hr : .call c ∈ x.ready
    swap
    · rw [step_of_idle hr]
    have hstep : step x (.turn c answers) = runTask x (.call c) answers := by
      simp only [step, if_pos hr]
    rw [hstep] at hquiet ⊢
    rw [mem_runTask]
    exact ⟨fun hor => (hor.resolve_right (hquiet ht)).1, fun hmem => Or.inl ⟨hmem, hne ht⟩⟩
  | fire d =>
    cases he
    show t ∈ (runTask x (.fire c) silence).ready ↔ _
    rw [mem_runTask]
    show _ ∨ t ∈ [Task.call c] ↔ _
    rw [List.mem_singleton]
    refine ⟨fun hor => (hor.resolve_right (hne ht)).1, fun hmem => Or.inl ⟨hmem, ?_⟩⟩
    rintro rfl
    exact ht
  | abort d =>
    cases he
    show t ∈ (runTask x (.abort c) silence).ready ↔ _
    rw [mem_runTask]
    refine ⟨fun hor => (hor.resolve_right (hquiet ht)).1, fun hmem => Or.inl ⟨hmem, ?_⟩⟩
    rintro rfl
    exact ht
  | _ => cases he

section Among

variable {s t : Caller α} {c : Nat}

/-- Whoever is among the flights has had its first turn, and does not wait for a permit. -/
theorem Sound.known_among (h : s.Sound) (hc : phase? s c ≠ none) :
    ∃ call, s.calls.get? c = some call ∧ call.stage.isAshore = false := by
  cases hf : s.flights.calls.get? c with
  | none =>
    refine absurd ?_ hc
    unfold phase?
    rw [hf]
    rfl
  | some fcall =>
    obtain ⟨call, hcall, -⟩ := h.carried c fcall hf
    refine ⟨call, hcall, ?_⟩
    cases ha : call.stage.isAshore with
    | false => rfl
    | true =>
      rw [h.ashore c call hcall ha] at hf
      cases hf

theorem Akin.cache (h : Akin Store.shut s t) : s.cache = t.cache.close := by
  unfold Caller.cache
  rw [h.flights]
  rfl

/-- Nobody comes among the flights by the turn of a call that is there. -/
theorem phase?_of_turned {F : Flights (Store α) (Load α) α} {w : Work (Store α) (Load α) (Answers α) α}
    {answers : Answers α} {now d : Nat} (hc : F.calls.get? c ≠ none)
    (hd : (F.turn w answers now c).calls.get? d ≠ none) : F.calls.get? d ≠ none := by
  by_cases hdc : d = c
  · rw [hdc]; exact hc
  · rw [Flights.turn_of_ne _ _ _ _ hdc] at hd
    exact hd

theorem get?_put_congr {calls calls' : Table Nat (Call α)} {c d : Nat} {call : Call α}
    (h : d ≠ c → calls'.get? d = calls.get? d) :
    (calls'.put c call).get? d = (calls.put c call).get? d := by
  by_cases hdc : d = c
  · rw [hdc, Table.get?_put_self, Table.get?_put_self]
  · rw [Table.get?_put_of_ne _ _ hdc, Table.get?_put_of_ne _ _ hdc]
    exact h hdc

theorem akin_proceed (h : Akin Store.shut s t) (hc : phase? s c ≠ none) (answers : Answers α)
    (now : Nat) (call : Call α) :
    Akin Store.shut (s.proceed answers now c call) (t.proceed answers now c call) := by
  have hturn : s.flights.turn (loadWork s.policy s.name) answers now c =
      (t.flights.turn (loadWork t.policy t.name) answers now c).mapStore Store.shut := by
    rw [h.flights, h.policy, h.name]
    exact (Flights.mapStore_turn (loadWork_shut _ _) answers now c t.flights).symm
  have hending : (t.flights.turn (loadWork t.policy t.name) answers now c).ending? c =
      (s.flights.turn (loadWork s.policy s.name) answers now c).ending? c := by
    rw [hturn]
    rfl
  -- nobody has come among the flights
  have hcalls : ∀ d, (s.flights.turn (loadWork s.policy s.name) answers now c).calls.get? d ≠ none →
      t.calls.get? d = s.calls.get? d := by
    intro d hd
    refine h.calls d fun hnone => ?_
    have hthere : s.flights.calls.get? c ≠ none := fun hgone => hc (by unfold phase?; rw [hgone]; rfl)
    exact phase?_of_turned hthere hd (Option.map_eq_none_iff.1 hnone)
  have hphase : ∀ {s' : Caller α} {d},
      s'.flights = s.flights.turn (loadWork s.policy s.name) answers now c → phase? s' d ≠ none →
      t.calls.get? d = s.calls.get? d := by
    intro s' d hs' hd
    refine hcalls d fun hnone => hd ?_
    unfold phase?
    rw [hs', hnone]
    rfl
  rcases proceed_cases answers now c call s with ⟨hs, hp⟩ | ⟨E, hs, hp⟩
  · rcases proceed_cases answers now c call t with ⟨-, hq⟩ | ⟨E, ht, -⟩
    · rw [hp, hq]
      exact ⟨h.name, h.policy, h.breaker, hturn, fun d hd => hphase rfl hd⟩
    · rw [hending, hs] at ht; cases ht
  · rcases proceed_cases answers now c call t with ⟨ht, -⟩ | ⟨E', ht, hq⟩
    · rw [hending, hs] at ht; cases ht
    · rw [hending, hs] at ht; cases ht
      rw [hp, hq]
      refine ⟨h.name, h.policy, ?_, hturn, fun d hd => get?_put_congr fun _ => hphase rfl hd⟩
      show settleReport t.breaker now E = settleReport s.breaker now E
      rw [h.breaker]

/-- **A call with a permit has the same turns.** -/
theorem akin_turn (h : Akin Store.shut s t) (hs : s.Sound) (hc : phase? s c ≠ none)
    (answers : Answers α) (now : Nat) :
    Akin Store.shut (s.turn answers now c) (t.turn answers now c) := by
  obtain ⟨call, hcall, hashore⟩ := hs.known_among hc
  have hcall' : t.calls.get? c = some call := (h.calls c hc).trans hcall
  unfold turn
  simp only [hcall, hcall']
  cases hstage : call.stage with
  | arriving fired => rw [hstage] at hashore; cases hashore
  | queued fired => rw [hstage] at hashore; cases hashore
  | admitted => exact akin_proceed h hc answers now call
  | ended r i => exact h
  | dropped => exact h

theorem akin_fire (h : Akin Store.shut s t) (hs : s.Sound) (hc : phase? s c ≠ none) :
    Akin Store.shut (s.fire c) (t.fire c) := by
  obtain ⟨call, hcall, hashore⟩ := hs.known_among hc
  have hcall' : t.calls.get? c = some call := (h.calls c hc).trans hcall
  unfold fire
  simp only [hcall, hcall']
  cases hstage : call.stage with
  | arriving fired => rw [hstage] at hashore; cases hashore
  | queued fired => rw [hstage] at hashore; cases hashore
  | admitted =>
    refine ⟨h.name, h.policy, h.breaker, ?_, fun d hd => h.calls d ?_⟩
    · show s.flights.fire c = (t.flights.fire c).mapStore Store.shut
      rw [Flights.mapStore_fire, ← h.flights]
    · rw [← phase?_fire s c d]
      exact hd
  | ended r i => exact h
  | dropped => exact h

theorem akin_drop (h : Akin Store.shut s t) (hs : s.Sound) (hc : phase? s c ≠ none) :
    Akin Store.shut (s.drop c) (t.drop c) := by
  obtain ⟨call, hcall, hashore⟩ := hs.known_among hc
  have hcall' : t.calls.get? c = some call := (h.calls c hc).trans hcall
  unfold drop
  simp only [hcall, hcall']
  cases hstage : call.stage with
  | arriving fired => rw [hstage] at hashore; cases hashore
  | queued fired => rw [hstage] at hashore; cases hashore
  | admitted =>
    refine ⟨h.name, h.policy, h.breaker, ?_, fun d hd => get?_put_congr fun hdc => ?_⟩
    · show s.flights.drop c = (t.flights.drop c).mapStore Store.shut
      rw [Flights.mapStore_drop, ← h.flights]
    · refine h.calls d fun hnone => hd ?_
      unfold phase? at hnone ⊢
      show ((s.flights.drop c).calls.get? d).map _ = none
      rw [Flights.drop_of_ne _ hdc]
      exact hnone
  | ended r i => exact h
  | dropped => exact h

end Among

end Caller

end RegistryLookup
