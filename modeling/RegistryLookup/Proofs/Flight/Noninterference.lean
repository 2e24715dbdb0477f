import RegistryLookup.Proofs.Flight.Singleflight

/-!
# Waiters do not interfere

A call that never does its own work is a waiter all along: it takes turns, its token fires, it is
served, gives up or is dropped. Nothing of this can be told from the other calls. Two runs are laid
beside each other, one with the call and one without it, in which the events of the other calls are
the same and happen at the same instants; they are related event by event (`Beside`).

* `Without.turn`: a turn of another call does the same with the call and without it.
* `Aloof`: a call that has not worked leads no flight, and nobody waits for it.
* `beside_step`, `beside_own`: the events of the other calls, and those of the call itself.
* `beside_runWithout`: the two runs at every point.
* `waiter_unseen`: the run without the call.
-/

namespace RegistryLookup

namespace Flights

open Flight

variable {σ ω ι α : Type} {w : Work σ ω ι α} {i : ι} {now : Nat}

/-- `t` is `s` without a call; what was noted aside. -/
structure Without (c : Nat) (s t : Flights σ ω α) : Prop where
  name : t.name = s.name
  calls : t.calls = s.calls.erase c
  inFlight : t.inFlight = s.inFlight
  store : t.store = s.store

section Without

variable {c d : Nat} {s t : Flights σ ω α}

theorem Without.get? (h : Without c s t) (hd : d ≠ c) : t.calls.get? d = s.calls.get? d := by
  rw [h.calls]
  exact Table.get?_erase_of_ne _ hd

theorem Without.gone (h : Without c s t) : t.calls.get? c = none := by
  rw [h.calls]
  exact Table.get?_erase_self _ _

theorem Without.fate (h : Without c s t) (hd : d ≠ c) : t.fate d = s.fate d := by
  unfold Flights.fate
  rw [h.get? hd]

/-- Another call changes. -/
theorem Without.put (h : Without c s t) (hd : d ≠ c) (call : Call ω α) :
    Without c { s with calls := s.calls.put d call } { t with calls := t.calls.put d call } :=
  ⟨h.name, by rw [h.calls]; exact (Table.erase_put_of_ne _ hd _).symm, h.inFlight, h.store⟩

/-- The call itself changes. -/
theorem Without.put_self (h : Without c s t) (call : Call ω α) :
    Without c { s with calls := s.calls.put c call } t :=
  ⟨h.name, by rw [h.calls]; exact (Table.erase_put_self _ _ _).symm, h.inFlight, h.store⟩

theorem Without.become (h : Without c s t) (hd : d ≠ c) (call : Call ω α) (p : Phase ω α) :
    Without c (s.become d call p) (t.become d call p) := h.put hd _

theorem Without.land (h : Without c s t) (key : String) (d : Nat) :
    Without c (s.land key d) (t.land key d) := by
  unfold Flights.land
  rw [h.inFlight]
  split
  · exact ⟨h.name, h.calls, rfl, h.store⟩
  · exact h

theorem Without.work (h : Without c s t) (hd : d ≠ c) (call : Call ω α) (task : ω) :
    Without c (s.work w i now d call task) (t.work w i now d call task) := by
  have hstored : Without c { s with store := (w.turn i now d call.fired task s.store).2 }
      { t with store := (w.turn i now d call.fired task t.store).2 } :=
    ⟨h.name, h.calls, h.inFlight, by rw [h.store]⟩
  have hprogress : (w.turn i now d call.fired task t.store).1 =
      (w.turn i now d call.fired task s.store).1 := by rw [h.store]
  rcases work_cases w i now d call task s with ⟨task', hp, hs⟩ | ⟨r, hp, hs⟩
  · rcases work_cases w i now d call task t with ⟨task'', hp', ht⟩ | ⟨r, hp', ht⟩
    · rw [hprogress, hp] at hp'; cases hp'
      rw [hs, ht]
      exact hstored.become hd call _
    · rw [hprogress, hp] at hp'; cases hp'
  · rcases work_cases w i now d call task t with ⟨task'', hp', ht⟩ | ⟨r', hp', ht⟩
    · rw [hprogress, hp] at hp'; cases hp'
    · rw [hprogress, hp] at hp'; cases hp'
      rw [hs, ht]
      exact (hstored.become hd call _).land call.key d

theorem Without.join (h : Without c s t) (hd : d ≠ c) (call : Call ω α) (task : ω) :
    Without c (s.join w i now d call task) (t.join w i now d call task) := by
  unfold Flights.join
  rw [h.inFlight]
  cases s.inFlight.get? call.key with
  | none =>
    have htaken : Without c { s with inFlight := s.inFlight.put call.key d }
        { t with inFlight := s.inFlight.put call.key d } := ⟨h.name, h.calls, rfl, h.store⟩
    exact htaken.work hd call task
  | some l =>
    simp only
    split
    · exact h.become hd call _
    · exact h.become hd call _

/-- **A turn of another call does the same without the call**, if it does not wait for it. -/
theorem Without.turn (h : Without c s t) (hd : d ≠ c) (hw : ¬ s.WaitsFor d c) :
    Without c (s.turn w i now d) (t.turn w i now d) := by
  unfold Flights.turn
  rw [h.get? hd]
  cases hc : s.calls.get? d with
  | none => exact h
  | some call =>
    obtain ⟨key, fired, phase⟩ := call
    simp only
    cases phase with
    | arriving task => exact h.join hd _ task
    | waiting l task =>
      have hl : l ≠ c := by
        rintro rfl
        exact hw ⟨key, fired, task, hc⟩
      simp only [h.fate hl]
      split
      · exact h.become hd _ _
      · cases s.fate l with
        | flying => exact h
        | landed r =>
          have hended := h.become hd ⟨key, fired, .waiting l task⟩ (.ended ⟨r, .served l, now⟩)
          exact ⟨hended.name, hended.calls, hended.inFlight, hended.store⟩
        | lost => exact h.join hd _ task
    | leading task => exact h.work hd _ task
    | ended E => exact h
    | dropped => exact h

theorem Without.fire (h : Without c s t) (hd : d ≠ c) : Without c (s.fire d) (t.fire d) := by
  unfold Flights.fire
  rw [h.get? hd]
  cases s.calls.get? d with
  | none => exact h
  | some call => exact h.put hd _

theorem Without.drop (h : Without c s t) (hd : d ≠ c) : Without c (s.drop d) (t.drop d) := by
  unfold Flights.drop
  rw [h.get? hd]
  cases s.calls.get? d with
  | none => exact h
  | some call =>
    obtain ⟨key, fired, phase⟩ := call
    cases phase with
    | ended E => exact h
    | _ => exact (h.become hd _ .dropped).land key d

theorem Without.mem_waitersOf (h : Without c s t) (hs : s.calls.keys.Nodup) {l : Nat} :
    d ∈ t.waitersOf l ↔ d ≠ c ∧ d ∈ s.waitersOf l := by
  have ht : t.calls.keys.Nodup := by rw [h.calls]; exact Table.nodup_keys_erase hs _
  rw [mem_waitersOf_iff ht, mem_waitersOf_iff hs]
  constructor
  · rintro ⟨key, fired, task, hd⟩
    have hne : d ≠ c := by
      rintro rfl
      rw [h.gone] at hd; cases hd
    exact ⟨hne, key, fired, task, by rw [← h.get? hne]; exact hd⟩
  · rintro ⟨hne, key, fired, task, hd⟩
    exact ⟨key, fired, task, by rw [h.get? hne]; exact hd⟩

theorem Without.mem_freedBy (h : Without c s t) (hs : s.calls.keys.Nodup) {l : Nat} (hl : l ≠ c) :
    d ∈ t.freedBy l ↔ d ≠ c ∧ d ∈ s.freedBy l := by
  unfold freedBy
  rw [h.fate hl]
  cases s.fate l with
  | flying => simp
  | landed r => exact h.mem_waitersOf hs
  | lost => exact h.mem_waitersOf hs

end Without

end Flights

namespace Flight

open Flights

variable {σ ω ι α : Type} {w : Work σ ω ι α} {x y : World σ ω α} {c : Nat}

/-- A call leads no flight, and nobody waits for it. -/
structure Aloof (s : Flights σ ω α) (c : Nat) : Prop where
  leads : ∀ key, ¬ s.Leads key c
  awaited : ∀ d, ¬ s.WaitsFor d c

theorem shiftsOf_cons {s s' : Watched σ ω α} {h : Shift ω α} (hs : s'.store.2 = h :: s.store.2)
    (hno : shiftsOf s' c = []) : h.call ≠ c ∧ shiftsOf s c = [] := by
  unfold shiftsOf at hno ⊢
  rw [hs, List.filter_eq_nil_iff] at hno
  refine ⟨fun hc => hno h List.mem_cons_self (decide_eq_true hc), List.filter_eq_nil_iff.2 ?_⟩
  exact fun h' hmem => hno h' (List.mem_cons_of_mem _ hmem)

/-- A call that has not worked after an event has not worked before it. -/
theorem shiftsOf_before {e : Event ω ι} (hno : shiftsOf (step w x e).state c = []) :
    shiftsOf x.state c = [] := by
  rcases step_record w x e with hsame | ⟨d, i, call, task, p, -, -, -, hrec⟩
  · unfold shiftsOf at hno ⊢
    rw [hsame] at hno
    exact hno
  · exact (shiftsOf_cons hrec hno).2

theorem shiftsOf_worldAt {es : List (Event ω ι)} {n : Nat}
    (hno : shiftsOf (worldAt w x es es.length).state c = []) :
    shiftsOf (worldAt w x es n).state c = [] := by
  by_contra hn
  -- once it has worked, that stays on record
  have hkept : ∀ m, n ≤ m → shiftsOf (worldAt w x es m).state c ≠ [] := fun m hnm =>
    Trace.after_since (P := fun (y : World σ ω α) => shiftsOf y.state c ≠ []) hnm hn
      (fun _ _ _ _ hy hno => hy (shiftsOf_before hno))
  rcases Nat.le_total n es.length with hle | hle
  · exact hkept _ hle hno
  · refine hn ?_
    unfold worldAt Trace.after at hno ⊢
    rw [List.take_of_length_le hle, ← List.take_length (l := es)]
    exact hno

/-- The own turn of a call that does not work in it. -/
theorem turn_aside {s t : Watched σ ω α} {i : ι} {now : Nat} (h : Without c s t)
    (hno : shiftsOf (s.turn w.watched i now c) c = []) :
    Without c (s.turn w.watched i now c) t ∧
      ∀ key, ¬ s.Leads key c → ¬ (s.turn w.watched i now c).Leads key c := by
  have hput : ∀ {s' : Watched σ ω α} {call : Call ω α} {p : Phase ω α},
      s'.calls = s.calls.put c { call with phase := p } → (∀ task, p ≠ .leading task) →
      ∀ key, ¬ s'.Leads key c := by
    rintro s' call p hs hp key ⟨fired, task, hL⟩
    rw [hs, Table.get?_put_self] at hL
    cases hL
    exact hp task rfl
  cases turn_cases w.watched i now c s with
  | rest hs => rw [hs]; exact ⟨h, fun _ hn => hn⟩
  | giveUp call task _ _ _ hs =>
    rw [hs]
    exact ⟨h.put_self _, fun key _ => hput (calls_become _ _ _ _) (fun _ hp => by cases hp) key⟩
  | wait call task l _ _ _ _ _ hs =>
    rw [hs]
    exact ⟨h.put_self _, fun key _ => hput (calls_become _ _ _ _) (fun _ hp => by cases hp) key⟩
  | serve call task l r _ _ _ _ hs =>
    have hended := h.put_self { call with phase := .ended ⟨r, .served l, now⟩ }
    rw [hs]
    exact ⟨⟨hended.name, hended.calls, hended.inFlight, hended.store⟩,
      fun key _ => hput (calls_become s _ _ _) (fun _ hp => by cases hp) key⟩
  | work call task s₁ _ hl hs =>
    -- that would be on record
    obtain ⟨p, hstore, -⟩ := work_record w i now c call task s₁
    rw [← hs] at hstore
    exact absurd rfl (shiftsOf_cons hstore hno).1

theorem drop_aside {s t : Flights σ ω α} (h : Without c s t) (hs : s.Sound) (ha : Aloof s c) :
    Without c (s.drop c) t := by
  rcases drop_cases s c with hsame | ⟨call, hc, -, hdrop⟩
  · rw [hsame]; exact h
  · -- its key is not on the table under its name
    have hland : ¬ (s.become c call .dropped).inFlight.get? call.key = some c := fun hkey =>
      ha.leads call.key ((hs.led call.key c).1 hkey)
    rw [hdrop]
    unfold Flights.land
    rw [if_neg hland]
    exact h.put_self _

/-- **Whoever does not work stays aloof.** -/
theorem aloof_step (h : Alert x) (ha : Aloof x.state c) {e : Event ω ι}
    (hno : shiftsOf (step w x e).state c = []) : Aloof (step w x e).state c := by
  refine ⟨fun key => ?_, fun d hw => ?_⟩
  · rintro ⟨fired, task, hL⟩
    cases hc : x.state.calls.get? c with
    | none =>
      obtain ⟨_, _, _, -, hcall⟩ := new_of_step hc hL
      cases hcall
    | some call =>
      obtain ⟨k, f, p⟩ := call
      cases moved (w := w) e hc with
      | same hs =>
        rw [hs] at hL; cases hL
        exact ha.leads key ⟨fired, task, hc⟩
      | fire _ hs =>
        rw [hs] at hL; cases hL
        exact ha.leads k ⟨f, task, hc⟩
      | drop _ _ hs => rw [hs] at hL; cases hL
      | turn i _ _ hs =>
        rw [hs] at hL hno
        have hself : Without c x.state { x.state with calls := x.state.calls.erase c } :=
          ⟨rfl, rfl, rfl, rfl⟩
        exact (turn_aside hself hno).2 key (ha.leads key) ⟨fired, task, hL⟩
  · -- to be waited for it would have to lead a flight
    obtain ⟨call, task, -, -, -, hL, -⟩ := join_of_step h (ha.awaited d) hw
    exact ha.leads _ hL

/-- An event can happen. -/
def happens (x : World σ ω α) : Event ω ι → Bool
  | .start c _ _ _ => (x.state.calls.get? c).isNone
  | .turn c _ => c ∈ x.ready
  | .pass instant => idle x && x.now ≤ instant
  | _ => true

theorem step_of_not_happens {e : Event ω ι} (he : happens x e = false) : step w x e = x := by
  cases e with
  | start c key fired work =>
    cases hc : x.state.calls.get? c with
    | none => simp only [happens, hc, Option.isNone_none] at he; cases he
    | some call => simp only [step, hc, Option.isSome_some, if_true]
  | turn c i =>
    have hr : c ∉ x.ready := by simpa [happens] using he
    simp only [step, if_neg hr]
  | pass t =>
    have hno : ¬ (idle x = true ∧ x.now ≤ t) := by
      rintro ⟨hi, ht⟩
      simp only [happens, hi, ht, decide_true, Bool.and_self] at he
      cases he
    simp only [step, if_neg hno]
  | wake c => cases he
  | fire c => cases he
  | drop c => cases he

/-- Two runs stand beside each other, the second one without a call. -/
structure Beside (c : Nat) (x y : World σ ω α) : Prop where
  now : y.now = x.now
  flights : Without c x.state y.state
  ready : ∀ d, d ∈ y.ready ↔ d ≠ c ∧ d ∈ x.ready

theorem Beside.wake {s t : Watched σ ω α} {q q' cs cs' : List Nat} {n n' : Nat}
    (hnow : n' = n) (hs : Without c s t) (hq : ∀ d, d ∈ q' ↔ d ≠ c ∧ d ∈ q)
    (hcs : ∀ d, d ∈ cs' ↔ d ≠ c ∧ d ∈ cs) :
    Beside c (Clock.World.wake ⟨n, s, q⟩ cs) (Clock.World.wake ⟨n', t, q'⟩ cs') := by
  refine ⟨hnow, hs, fun d => ?_⟩
  rw [Clock.World.mem_wake, Clock.World.mem_wake]
  show d ∈ q' ∨ d ∈ cs' ↔ d ≠ c ∧ (d ∈ q ∨ d ∈ cs)
  rw [hq, hcs]
  tauto

theorem mem_single_of_ne {d e : Nat} (hd : d ≠ c) : e ∈ [d] ↔ e ≠ c ∧ e ∈ [d] := by
  rw [List.mem_singleton]
  exact ⟨fun he => ⟨fun hc => hd (he.symm.trans hc), he⟩, fun he => he.2⟩

/-- Where no call under way is ready, none is without the call. -/
theorem Beside.idle (h : Beside c x y) (hi : Flight.idle x = true) : Flight.idle y = true := by
  refine List.all_eq_true.2 fun d hd => ?_
  obtain ⟨hne, hd⟩ := (h.ready d).1 hd
  have hopen := List.all_eq_true.1 hi d hd
  unfold isOpen at hopen ⊢
  rw [h.flights.get? hne]
  exact hopen

/-- What can happen can happen without the call. -/
theorem Beside.happens (h : Beside c x y) {e : Event ω ι} (he : e.call? ≠ some c)
    (hh : Flight.happens x e = true) : Flight.happens y e = true := by
  cases e with
  | start d key fired work =>
    have hd : d ≠ c := fun hdc => he (by rw [hdc]; rfl)
    show (y.state.calls.get? d).isNone = true
    rw [h.flights.get? hd]
    exact hh
  | turn d i =>
    have hd : d ≠ c := fun hdc => he (by rw [hdc]; rfl)
    have hr : d ∈ x.ready := by simpa [Flight.happens] using hh
    have hr' : d ∈ y.ready := (h.ready d).2 ⟨hd, hr⟩
    simpa [Flight.happens] using hr'
  | pass t =>
    obtain ⟨hi, ht⟩ : Flight.idle x = true ∧ x.now ≤ t := by simpa [Flight.happens] using hh
    have hi' := h.idle hi
    simp only [Flight.happens, hi', h.now, ht, decide_true, Bool.and_self]
  | wake d => rfl
  | fire d => rfl
  | drop d => rfl

/-- **An event of another call does the same without the call.** -/
theorem beside_step (h : Beside c x y) (hs : x.state.Sound) (ha : Aloof x.state c)
    {e : Event ω ι} (he : e.call? ≠ some c) (hh : happens x e = true) :
    Beside c (step w x e) (step w y e) := by
  have hh' := h.happens he hh
  cases e with
  | start d key fired work =>
    have hd : d ≠ c := fun hdc => he (by rw [hdc]; rfl)
    have hx : x.state.calls.get? d = none := Option.isNone_iff_eq_none.1 hh
    have hy : y.state.calls.get? d = none := Option.isNone_iff_eq_none.1 hh'
    simp only [step, hx, hy, Option.isSome_none, Bool.false_eq_true, if_false]
    exact .wake h.now (h.flights.put hd _) h.ready (fun _ => mem_single_of_ne hd)
  | turn d i =>
    have hd : d ≠ c := fun hdc => he (by rw [hdc]; rfl)
    have hr : d ∈ x.ready := by simpa [happens] using hh
    have hr' : d ∈ y.ready := by simpa [happens] using hh'
    have hturn : Without c (x.state.turn w.watched i x.now d) (y.state.turn w.watched i x.now d) :=
      h.flights.turn hd (ha.awaited d)
    simp only [step, if_pos hr, if_pos hr', h.now]
    have hkeys := (turn_sound w.watched i x.now d hs).calls
    refine .wake rfl hturn (fun e => ?_) (fun e => hturn.mem_freedBy hkeys hd)
    rw [List.mem_filter, List.mem_filter, h.ready]
    exact and_assoc
  | wake d =>
    have hd : d ≠ c := fun hdc => he (by rw [hdc]; rfl)
    exact .wake h.now h.flights h.ready (fun _ => mem_single_of_ne hd)
  | fire d =>
    have hd : d ≠ c := fun hdc => he (by rw [hdc]; rfl)
    exact .wake h.now (h.flights.fire hd) h.ready (fun _ => mem_single_of_ne hd)
  | drop d =>
    have hd : d ≠ c := fun hdc => he (by rw [hdc]; rfl)
    have hdrop := h.flights.drop hd
    exact .wake h.now hdrop h.ready (fun _ => hdrop.mem_freedBy (drop_sound hs d).calls hd)
  | pass t =>
    obtain ⟨hi, ht⟩ : idle x = true ∧ x.now ≤ t := by simpa [happens] using hh
    have ht' : y.now ≤ t := by rw [h.now]; exact ht
    simp only [step, hi, ht, h.idle hi, ht', and_self, if_true]
    exact ⟨rfl, h.flights, h.ready⟩

/-- Whom the call itself wakes: nobody else. -/
theorem Beside.wake_self {s : Watched σ ω α} {q cs : List Nat} (hs : Without c s y.state)
    (hnow : y.now = x.now) (hq : ∀ d, d ∈ y.ready ↔ d ≠ c ∧ d ∈ q) (hcs : ∀ d ∈ cs, d = c) :
    Beside c (Clock.World.wake ⟨x.now, s, q⟩ cs) y := by
  refine ⟨hnow, hs, fun d => ?_⟩
  rw [Clock.World.mem_wake, hq]
  refine and_congr_right fun hd => ⟨Or.inl, fun hor => hor.resolve_right fun hmem => ?_⟩
  exact hd (hcs d hmem)

theorem freedBy_aloof {s : Flights σ ω α} (ha : Aloof s c) (hs : s.Sound) {d : Nat} :
    d ∉ s.freedBy c := fun hd => ha.awaited d (waitsFor_of_freedBy hs hd)

/-- **The events of the call itself cannot be told from the other calls.** -/
theorem beside_own (h : Beside c x y) (halert : Alert x) (ha : Aloof x.state c) {e : Event ω ι}
    (he : e.call? = some c) (hno : shiftsOf (step w x e).state c = []) :
    Beside c (step w x e) y := by
  have hafter := aloof_step halert ha hno
  have hsound := (step_alert w halert e).sound
  have hself : ∀ d ∈ [c], d = c := fun d hd => List.mem_singleton.1 hd
  cases e with
  | start d key fired work =>
    cases he
    cases hc : x.state.calls.get? c with
    | none =>
      simp only [step, hc, Option.isSome_none, Bool.false_eq_true, if_false]
      exact .wake_self (h.flights.put_self _) h.now h.ready hself
    | some call =>
      simp only [step, hc, Option.isSome_some, if_true]
      exact h
  | turn d i =>
    cases he
    by_cases hr : c ∈ x.ready
    swap
    · simp only [step, if_neg hr]; exact h
    simp only [step, if_pos hr, Clock.World.state_wake] at hno hafter hsound ⊢
    refine .wake_self (turn_aside h.flights hno).1 h.now (fun e => ?_)
      (fun e hmem => absurd hmem (freedBy_aloof hafter hsound))
    rw [h.ready, List.mem_filter, decide_eq_true_eq]
    tauto
  | wake d =>
    cases he
    exact .wake_self h.flights h.now h.ready hself
  | fire d =>
    cases he
    refine .wake_self ?_ h.now h.ready hself
    rcases fire_cases x.state c with ⟨hs, -⟩ | ⟨call, -, hs⟩
    · rw [hs]; exact h.flights
    · rw [hs]; exact h.flights.put_self _
  | drop d =>
    cases he
    exact .wake_self (drop_aside h.flights halert.sound ha) h.now h.ready
      (fun e hmem => absurd hmem (freedBy_aloof hafter hsound))
  | pass t => cases he

/-- What an event is in the run without a call: the same, unless it is the call's, or cannot
happen. -/
def leftOut (c : Nat) (x : World σ ω α) (e : Event ω ι) : List (Event ω ι) :=
  if e.call? ≠ some c ∧ happens x e = true then [e] else []

/-- The first `n` events of a run without those of a call. -/
def runWithout (w : Work σ ω ι α) (x : World σ ω α) (es : List (Event ω ι)) (c n : Nat) :
    List (Event ω ι) :=
  Trace.echoed (step w) (leftOut c) x es n

/-- As long as a call has not worked, it is aloof, and the run without it stands beside. -/
def Unnoticed (c : Nat) (x y : World σ ω α) : Prop :=
  shiftsOf x.state c = [] → Alert x ∧ Aloof x.state c ∧ Beside c x y

theorem unnoticed_step (h : Unnoticed c x y) (e : Event ω ι) :
    Unnoticed c (step w x e) ((leftOut c x e).foldl (step w) y) := by
  intro hno
  obtain ⟨halert, ha, hb⟩ := h (shiftsOf_before hno)
  refine ⟨step_alert w halert e, aloof_step halert ha hno, ?_⟩
  unfold leftOut
  by_cases he : e.call? = some c
  · rw [if_neg (fun hor => hor.1 he)]
    exact beside_own hb halert ha he hno
  cases hh : happens x e with
  | false =>
    rw [if_neg (fun hor => Bool.false_ne_true hor.2), step_of_not_happens hh]
    exact hb
  | true =>
    rw [if_pos ⟨he, rfl⟩]
    exact beside_step hb halert.sound ha he hh

theorem dawn_unnoticed (name : String) (store : σ) (now c : Nat) :
    Unnoticed c (dawn name store now : World σ ω α) (dawn name store now) := by
  intro _
  have hnone : ∀ d, (dawn name store now : World σ ω α).state.calls.get? d = none := fun _ => rfl
  refine ⟨dawn_alert name store now, ⟨?_, ?_⟩, rfl, ⟨rfl, rfl, rfl, rfl⟩, fun d => ?_⟩
  · rintro key ⟨fired, task, hL⟩
    rw [hnone] at hL; cases hL
  · rintro d ⟨key, fired, task, hw⟩
    rw [hnone] at hw; cases hw
  · constructor
    · intro hd; cases hd
    · exact fun hd => hd.2

/-- Whatever is in the run without a call is there for an event of the run. -/
theorem getElem?_runWithout {es : List (Event ω ι)} {n i : Nat} {e : Event ω ι}
    (he : (runWithout w x es c n)[i]? = some e) : ∃ m, m < n ∧
      i = (runWithout w x es c m).length ∧ e.call? ≠ some c ∧ happens (worldAt w x es m) e = true := by
  obtain ⟨hi, -⟩ := List.getElem?_eq_some_iff.1 he
  obtain ⟨m, j, e', hm, -, hij, hj⟩ := Trace.exists_echo hi
  unfold runWithout at he
  rw [hj] at he
  unfold leftOut at he
  split at he
  · rename_i hleft
    obtain ⟨hj', he'⟩ := List.getElem?_eq_some_iff.1 he
    obtain rfl : j = 0 := Nat.lt_one_iff.1 hj'
    cases he'
    exact ⟨m, hm, hij, hleft⟩
  · cases he

/-- Where every event of a run happens, only the call's are left out. -/
theorem runWithout_eq_filter {es : List (Event ω ι)}
    (h : ∀ n e, es[n]? = some e → happens (worldAt w x es n) e = true) {n : Nat}
    (hn : n ≤ es.length) :
    runWithout w x es c n = (es.take n).filter (fun e => e.call? ≠ some c) := by
  induction n with
  | zero => rfl
  | succ n ih =>
    have he : es[n]? = some es[n] := List.getElem?_eq_getElem hn
    have hhappens : happens (worldAt w x es n) es[n] = true := h n _ he
    unfold runWithout at ih ⊢
    rw [Trace.echoed_of_getElem? he, ih (Nat.le_of_lt hn), List.take_add_one, he,
      List.filter_append, Option.toList_some]
    unfold leftOut
    by_cases hcall : es[n].call? = some c
    · simp [hcall]
    · simp [hcall, hhappens]

/-- **The run without a call that has not worked keeps pace.** -/
theorem beside_runWithout (name : String) (store : σ) (now : Nat) {es : List (Event ω ι)}
    (hc : shiftsOf (worldAt w (dawn name store now) es es.length).state c = []) {n : Nat}
    (hn : n ≤ es.length) :
    Beside c (worldAt w (dawn name store now) es n)
      (worldAt w (dawn name store now) (runWithout w (dawn name store now) es c es.length)
        (runWithout w (dawn name store now) es c n).length) := by
  have hpace : Unnoticed c (worldAt w (dawn name store now) es n)
      (worldAt w (dawn name store now) (runWithout w (dawn name store now) es c n)
        (runWithout w (dawn name store now) es c n).length) :=
    Trace.after_echoed (dawn_unnoticed name store now c) (fun _ _ e _ h => unnoticed_step h e) n
  have hprefix : runWithout w (dawn name store now) es c n <+:
      runWithout w (dawn name store now) es c es.length := Trace.echoed_isPrefix hn
  obtain ⟨-, -, hbeside⟩ := hpace (shiftsOf_worldAt hc)
  unfold worldAt
  rw [Trace.after_of_isPrefix hprefix (Nat.le_refl _)]
  exact hbeside

/-- A run tells nothing of a call: without the call it is a run in which the others fare alike. -/
structure Unseen (w : Work σ ω ι α) (x : World σ ω α) (es : List (Event ω ι)) (c : Nat) :
    Prop where
  /-- Nothing in the other run is the call's. -/
  absent : ∀ e ∈ runWithout w x es c es.length, e.call? ≠ some c
  /-- Whatever is in it happens. -/
  isRun : ∀ i e, (runWithout w x es c es.length)[i]? = some e →
    happens (worldAt w x (runWithout w x es c es.length) i) e = true
  /-- It has all other events, if all of them happen. -/
  whole : (∀ n e, es[n]? = some e → happens (worldAt w x es n) e = true) →
    runWithout w x es c es.length = es.filter (fun e => e.call? ≠ some c)
  /-- It keeps pace: nothing but the call is missing. -/
  pace : ∀ n ≤ es.length, Beside c (worldAt w x es n)
    (worldAt w x (runWithout w x es c es.length) (runWithout w x es c n).length)
  /-- Every other call ends alike: in the same way, at the same instant, shared or not. -/
  endings : ∀ n ≤ es.length, ∀ d, d ≠ c →
    (worldAt w x (runWithout w x es c es.length)
      (runWithout w x es c n).length).state.ending? d = (worldAt w x es n).state.ending? d
  /-- The same works take the same turns at the same instants, and leave the same store. -/
  works : ∀ n ≤ es.length,
    (worldAt w x (runWithout w x es c es.length)
      (runWithout w x es c n).length).state.store = (worldAt w x es n).state.store

/-- **A call that never works cannot be told from the other calls.** -/
theorem waiter_unseen (w : Work σ ω ι α) (name : String) (store : σ) (now : Nat)
    (es : List (Event ω ι)) (c : Nat)
    (hc : shiftsOf (worldAt w (dawn name store now) es es.length).state c = []) :
    Unseen w (dawn name store now) es c := by
  have hpace : ∀ n ≤ es.length, Beside c (worldAt w (dawn name store now) es n)
      (worldAt w (dawn name store now) (runWithout w (dawn name store now) es c es.length)
        (runWithout w (dawn name store now) es c n).length) :=
    fun n hn => beside_runWithout name store now hc hn
  refine ⟨?_, ?_, ?_, hpace, ?_, ?_⟩
  · intro e he
    obtain ⟨i, hi⟩ := List.getElem?_of_mem he
    obtain ⟨m, -, -, hother, -⟩ := getElem?_runWithout hi
    exact hother
  · intro i e he
    obtain ⟨m, hm, rfl, hother, hh⟩ := getElem?_runWithout he
    exact (hpace m (Nat.le_of_lt hm)).happens hother hh
  · intro hall
    rw [runWithout_eq_filter hall (Nat.le_refl _), List.take_length]
  · intro n hn d hd
    unfold Flights.ending?
    rw [(hpace n hn).flights.get? hd]
  · intro n hn
    exact (hpace n hn).flights.store

/-- A job of two units of time is shared by three calls; the token of the second one fires. -/
def givenUp : List (Event (Job Nat) Unit) :=
  [.start 0 "key" false ⟨some 2, .ok 7, false, none⟩, .start 1 "key" false ⟨some 2, .ok 8, false, none⟩,
    .start 2 "key" false ⟨some 2, .ok 9, false, none⟩, .turn 0 (), .turn 1 (), .turn 2 (), .pass 1,
    .fire 1, .turn 1 (), .pass 2, .wake 0, .turn 0 (), .turn 2 ()]

theorem givenUp_unseen :
    shiftsOf (worldAt jobWork (dawn "flights" [] 0) givenUp givenUp.length).state 1 = [] ∧
      Unseen jobWork (dawn "flights" [] 0) givenUp 1 :=
  ⟨by rfl, waiter_unseen jobWork "flights" [] 0 givenUp 1 (by rfl)⟩

end Flight

end RegistryLookup
