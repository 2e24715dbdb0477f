import RegistryLookup.Proofs.Flight.Singleflight

/-!
# Whose result a call returns

A call that ends did its own work, once and from the beginning, or it was served the result of
another call, or it gave up because its token had fired (`attribution`). It is served by a call
of its key that was at work when it began to wait, and at the instant at which that call ended.

* `Tale`: what the record says of a call in each phase, kept by every event (`origin`).
* `Attribution.shared`: while no token fires and no call is dropped, one piece of work serves all
  calls that begin during it.
-/

namespace RegistryLookup.Flight

open Flights

variable {σ ω ι α : Type} {w : Work σ ω ι α}

theorem ending?_eq_some {s : Flights σ ω α} {c : Nat} {e : Ending α} :
    s.ending? c = some e ↔ ∃ key fired, s.calls.get? c = some ⟨key, fired, .ended e⟩ := by
  unfold ending?
  constructor
  · intro h
    split at h
    · rename_i key fired e' hc
      cases h
      exact ⟨key, fired, hc⟩
    · cases h
  · rintro ⟨key, fired, hc⟩
    rw [hc]

/-- The record of a call in a phase, if its own work was `work` in the beginning. -/
inductive Tale (work : ω) : List (Shift ω α) → Call ω α → Prop
  | arriving {key : String} {fired : Bool} : Tale work [] ⟨key, fired, .arriving work⟩
  | waiting {key : String} {fired : Bool} {l : Nat} : Tale work [] ⟨key, fired, .waiting l work⟩
  | leading {key : String} {fired : Bool} {hs : List (Shift ω α)} {task : ω}
      (h : Course work hs (.running task)) : Tale work hs ⟨key, fired, .leading task⟩
  | landed {key : String} {fired : Bool} {h : Shift ω α} {hs : List (Shift ω α)}
      {r : Except Failure α} (hc : Course work hs (.running h.task))
      (hp : h.progress = .finished r) :
      Tale work (h :: hs)
        ⟨key, fired, .ended ⟨r, .leader (!(h.fired && !r.isOk)), h.instant⟩⟩
  | served {key : String} {fired : Bool} {r : Except Failure α} {l t : Nat} :
      Tale work [] ⟨key, fired, .ended ⟨r, .served l, t⟩⟩
  | gaveUp {key : String} {t : Nat} :
      Tale work [] ⟨key, true, .ended ⟨.error .cancelled, .gaveUp, t⟩⟩
  | dropped {key : String} {fired : Bool} {hs : List (Shift ω α)} :
      Tale work hs ⟨key, fired, .dropped⟩

theorem Tale.unbegun {work task : ω} {hs : List (Shift ω α)} {call : Call ω α}
    (h : Tale work hs call) (ht : call.phase.task? = some task) : hs = [] ∧ task = work := by
  cases h with
  | arriving => cases ht; exact ⟨rfl, rfl⟩
  | waiting => cases ht; exact ⟨rfl, rfl⟩
  | leading => cases ht
  | landed => cases ht
  | served => cases ht
  | gaveUp => cases ht
  | dropped => cases ht

theorem Tale.course {work task : ω} {hs : List (Shift ω α)} {call : Call ω α}
    (h : Tale work hs call) (ht : call.phase = .leading task ∨ call.phase.task? = some task) :
    Course work hs (.running task) := by
  rcases ht with hl | ht
  · cases h with
    | leading hc => cases hl; exact hc
    | arriving => cases hl
    | waiting => cases hl
    | landed => cases hl
    | served => cases hl
    | gaveUp => cases hl
    | dropped => cases hl
  · obtain ⟨rfl, rfl⟩ := h.unbegun ht
    exact .start

/-- One more turn of its work. -/
theorem Tale.next {work : ω} {hs : List (Shift ω α)} {call : Call ω α} {s : Shift ω α}
    (hc : Course work hs (.running s.task)) (hf : s.fired = call.fired) :
    Tale work (s :: hs) { call with phase := s.progress.phase call.fired s.instant } := by
  have hnext := Course.next hc
  cases hp : s.progress with
  | running task => exact .leading (hp ▸ hnext)
  | finished r =>
    rw [← hf]
    exact .landed hc hp

theorem Tale.fire {work : ω} {hs : List (Shift ω α)} {call : Call ω α} (h : Tale work hs call) :
    Tale work hs { call with fired := true } := by
  cases h with
  | arriving => exact .arriving
  | waiting => exact .waiting
  | leading hc => exact .leading hc
  | landed hc hp => exact .landed hc hp
  | served => exact .served
  | gaveUp => exact .gaveUp
  | dropped => exact .dropped

theorem turn_tale (w : Work σ ω ι α) (i : ι) (now c : Nat) {s : Watched σ ω α} {call : Call ω α}
    (hc : s.calls.get? c = some call) {work : ω} (h : Tale work (shiftsOf s c) call) :
    ∃ call', (s.turn w.watched i now c).calls.get? c = some call' ∧ call'.key = call.key ∧
      Tale work (shiftsOf (s.turn w.watched i now c) c) call' := by
  cases turn_cases w.watched i now c s with
  | rest hs =>
    rw [hs]
    exact ⟨call, hc, rfl, h⟩
  | giveUp call₁ task hc₁ ht hf hs =>
    rw [hc] at hc₁; cases hc₁
    rw [hs]
    refine ⟨_, Table.get?_put_self _ _ _, rfl, ?_⟩
    obtain ⟨key, fired, phase⟩ := call
    have hf : fired = true := hf
    subst hf
    show Tale work (shiftsOf s c) _
    rw [(h.unbegun ht).1]
    exact .gaveUp
  | wait call₁ task l hc₁ ht hf _ hl hs =>
    rw [hc] at hc₁; cases hc₁
    rw [hs]
    refine ⟨_, Table.get?_put_self _ _ _, rfl, ?_⟩
    show Tale work (shiftsOf s c) _
    rw [(h.unbegun ht).1, (h.unbegun ht).2]
    exact .waiting
  | serve call₁ task l r hc₁ hp hf _ hs =>
    rw [hc] at hc₁; cases hc₁
    rw [hs]
    refine ⟨_, Table.get?_put_self _ _ _, rfl, ?_⟩
    show Tale work (shiftsOf s c) _
    have ht : call.phase.task? = some task := by rw [hp]; rfl
    rw [(h.unbegun ht).1]
    exact .served
  | work call₁ task s₁ hc₁ hl hs =>
    rw [hc] at hc₁; cases hc₁
    have hcourse : Course work (shiftsOf s c) (.running task) :=
      h.course (hl.imp (fun hl => hl.1) (fun hl => hl.1))
    have hstore : s₁.store = s.store := by rcases hl with ⟨-, rfl⟩ | ⟨-, -, rfl⟩ <;> rfl
    obtain ⟨p, hrec, hcalls⟩ := work_record w i now c call task s₁
    refine ⟨{ call with phase := p.phase call.fired now }, ?_, rfl, ?_⟩
    · rw [hs, hcalls]; exact Table.get?_put_self _ _ _
    have hshifts : shiftsOf (s₁.work w.watched i now c call task) c =
        ⟨c, now, call.fired, task, p⟩ :: shiftsOf s c := by
      unfold shiftsOf
      rw [hrec, hstore, List.filter_cons_of_pos (by simp)]
    rw [hs, hshifts]
    exact Tale.next (s := ⟨c, now, call.fired, task, p⟩) hcourse rfl

/-- Only calls that have come in are on record. -/
theorem step_onRecord {x : World σ ω α}
    (h : ∀ s ∈ x.state.store.2, ∃ call, x.state.calls.get? s.call = some call) (e : Event ω ι) :
    ∀ s ∈ (step w x e).state.store.2, ∃ call, (step w x e).state.calls.get? s.call = some call := by
  have hforward := step_forward (w := w) x e
  have hkept : ∀ c call, x.state.calls.get? c = some call →
      ∃ call, (step w x e).state.calls.get? c = some call := fun c call hc => by
    obtain ⟨call', hc', -⟩ := hforward c call hc
    exact ⟨call', hc'⟩
  intro s hs
  rcases step_record w x e with hsame | ⟨c, i, call, task, p, -, hc, -, hrec⟩
  · rw [hsame] at hs
    obtain ⟨call, hc⟩ := h s hs
    exact hkept _ _ hc
  · rw [hrec] at hs
    rcases List.mem_cons.1 hs with rfl | hs
    · exact hkept _ _ hc
    · obtain ⟨call, hc⟩ := h s hs
      exact hkept _ _ hc

theorem onRecord (w : Work σ ω ι α) (name : String) (store : σ) (now : Nat)
    (es : List (Event ω ι)) (n : Nat) :
    ∀ s ∈ (worldAt w (dawn name store now) es n).state.store.2,
      ∃ call, (worldAt w (dawn name store now) es n).state.calls.get? s.call = some call :=
  Trace.after_invariant (P := fun (y : World σ ω α) => ∀ s ∈ y.state.store.2,
    ∃ call, y.state.calls.get? s.call = some call) (fun s hs => by simp [dawn] at hs)
    (fun _ e _ h => step_onRecord h e) n

/-- How a call came in, and what the record says of it at point `n`. -/
def Origin (w : Work σ ω ι α) (x : World σ ω α) (es : List (Event ω ι)) (n c : Nat)
    (call : Call ω α) : Prop :=
  ∃ m fired work, m < n ∧ es[m]? = some (.start c call.key fired work) ∧
    (worldAt w x es m).state.calls.get? c = none ∧
    Tale work (shiftsOf (worldAt w x es n).state c) call

theorem step_tale {x : World σ ω α} {e : Event ω ι} {c : Nat} {call : Call ω α} {work : ω}
    (hc : x.state.calls.get? c = some call) (h : Tale work (shiftsOf x.state c) call) :
    ∃ call', (step w x e).state.calls.get? c = some call' ∧ call'.key = call.key ∧
      Tale work (shiftsOf (step w x e).state c) call' := by
  -- nobody else's turn is recorded under the name of the call
  have hsame : (∀ i, e ≠ .turn c i) → shiftsOf (step w x e).state c = shiftsOf x.state c := by
    intro hn
    rcases step_record w x e with hrec | ⟨d, i, call, task, p, rfl, -, -, hrec⟩
    · unfold shiftsOf; rw [hrec]
    · have hdc : d ≠ c := fun h => hn i (by rw [h])
      unfold shiftsOf
      rw [hrec, List.filter_cons_of_neg (by simpa using hdc)]
  by_cases hturn : ∃ i, e = .turn c i ∧ c ∈ x.ready
  · obtain ⟨i, rfl, hr⟩ := hturn
    simp only [step, if_pos hr, Clock.World.state_wake]
    exact turn_tale w i x.now c hc h
  · have hrest : shiftsOf (step w x e).state c = shiftsOf x.state c := by
      by_cases hi : ∃ i, e = .turn c i
      · obtain ⟨i, rfl⟩ := hi
        simp only [step, if_neg (fun hr => hturn ⟨i, rfl, hr⟩)]
      · exact hsame (fun i hei => hi ⟨i, hei⟩)
    rw [hrest]
    cases moved (w := w) e hc with
    | same hs => exact ⟨call, hs, rfl, h⟩
    | turn i he hr _ => exact absurd ⟨i, he, hr⟩ hturn
    | fire _ hs => exact ⟨_, hs, rfl, h.fire⟩
    | drop _ _ hs => exact ⟨_, hs, rfl, .dropped⟩

/-- **Every call's record begins with the work that it came in with.** -/
theorem origin (w : Work σ ω ι α) (name : String) (store : σ) (now : Nat)
    (es : List (Event ω ι)) (n c : Nat) (call : Call ω α)
    (hc : (worldAt w (dawn name store now) es n).state.calls.get? c = some call) :
    Origin w (dawn name store now) es n c call := by
  have hrecord := onRecord w name store now es
  induction n generalizing call with
  | zero => simp [worldAt, Trace.after_zero, dawn] at hc
  | succ n ih =>
    rcases worldAt_cases w (dawn name store now) es n with ⟨-, hsame⟩ | ⟨e, he, hstep⟩
    · rw [hsame] at hc
      obtain ⟨m, fired, work, hm, hstart, hfresh, htale⟩ := ih call hc
      exact ⟨m, fired, work, by omega, hstart, hfresh, by rw [hsame]; exact htale⟩
    cases hold : (worldAt w (dawn name store now) es n).state.calls.get? c with
    | some call₀ =>
      obtain ⟨m, fired, work, hm, hstart, hfresh, htale⟩ := ih call₀ hold
      obtain ⟨call', hc', hkey, htale'⟩ := step_tale (e := e) (w := w) hold htale
      rw [← hstep, hc] at hc'
      cases hc'
      exact ⟨m, fired, work, by omega, by rw [hkey]; exact hstart, hfresh,
        by rw [hstep]; exact htale'⟩
    -- the call comes in with this event, and nothing is on record for it
    | none =>
      have hnone : shiftsOf (worldAt w (dawn name store now) es n).state c = [] := by
        refine List.filter_eq_nil_iff.2 (fun s hs hsc => ?_)
        obtain ⟨call, hcall⟩ := hrecord n s hs
        rw [show s.call = c by simpa using hsc, hold] at hcall
        cases hcall
      rw [hstep] at hc
      obtain ⟨key, fired, work, rfl, rfl⟩ := new_of_step hold hc
      refine ⟨n, fired, work, by omega, he, hold, ?_⟩
      rw [hstep]
      simp only [step, hold, Option.isSome_none, Bool.false_eq_true, if_false,
        Clock.World.state_wake]
      show Tale work (shiftsOf (worldAt w (dawn name store now) es n).state c) _
      rw [hnone]
      exact .arriving

theorem ending?_of_forward {s s' : Flights σ ω α} (h : s.Forward s') {c : Nat} {e : Ending α}
    (he : s.ending? c = some e) : s'.ending? c = some e := by
  obtain ⟨key, fired, hc⟩ := ending?_eq_some.1 he
  obtain ⟨⟨key', fired', phase'⟩, hc', hb⟩ := h c _ hc
  have hp : phase' = .ended e := hb.ended e rfl
  subst hp
  exact ending?_eq_some.2 ⟨key', fired', hc'⟩

theorem not_leads_of_ending? {s : Flights σ ω α} {c : Nat} {e : Ending α}
    (he : s.ending? c = some e) (key : String) : ¬ s.Leads key c := by
  obtain ⟨key', fired, hc⟩ := ending?_eq_some.1 he
  exact Over.not_leads ⟨_, hc, Or.inl ⟨e, rfl⟩⟩ key

/-- A call ends in its own turn. -/
theorem end_of_step {x : World σ ω α} {e : Event ω ι} {c : Nat} {e₁ : Ending α}
    (hn : x.state.ending? c ≠ some e₁) (he : (step w x e).state.ending? c = some e₁) :
    ∃ i, e = .turn c i ∧ (x.state.turn w.watched i x.now c).ending? c = some e₁ := by
  obtain ⟨key, fired, hc'⟩ := ending?_eq_some.1 he
  have hold : ∀ {key fired}, x.state.calls.get? c ≠ some ⟨key, fired, .ended e₁⟩ :=
    fun h => hn (ending?_eq_some.2 ⟨_, _, h⟩)
  cases hc : x.state.calls.get? c with
  | none =>
    obtain ⟨_, _, _, -, hcall⟩ := new_of_step hc hc'
    cases hcall
  | some call =>
    cases moved (w := w) e hc with
    | same hs =>
      rw [hs] at hc'; cases hc'
      exact absurd hc hold
    | turn i he' _ hs =>
      rw [hs] at he
      exact ⟨i, he', he⟩
    | fire _ hs =>
      rw [hs] at hc'
      obtain ⟨k, f, p⟩ := call
      cases hc'
      exact absurd hc hold
    | drop _ _ hs => rw [hs] at hc'; cases hc'

theorem ending?_of_landed {s : Flights σ ω α} {l : Nat} {r : Except Failure α}
    (h : s.fate l = .landed r) : ∃ t, s.ending? l = some ⟨r, .leader true, t⟩ := by
  unfold fate at h
  split at h
  · rename_i lead hl
    obtain ⟨key, fired, phase⟩ := lead
    unfold Phase.fate at h
    split at h
    · cases h
    · rename_i r' t hp
      cases h
      have hp : phase = .ended ⟨r, .leader true, t⟩ := hp
      subst hp
      exact ⟨t, ending?_eq_some.2 ⟨key, fired, hl⟩⟩
    · cases h
  · cases h

/-- A call is served in the turn that finds the flight landed that it waits for, and this
flight has landed at the same instant. -/
theorem served_of_turn {x : World σ ω α} (h : Alert x) {i : ι} {c l t : Nat}
    {r : Except Failure α} (hn : x.state.ending? c ≠ some ⟨r, .served l, t⟩)
    (he : (x.state.turn w.watched i x.now c).ending? c = some ⟨r, .served l, t⟩) :
    x.state.WaitsFor c l ∧ x.now = t ∧ x.state.ending? l = some ⟨r, .leader true, t⟩ := by
  obtain ⟨key, fired, hc'⟩ := ending?_eq_some.1 he
  cases turn_cases w.watched i x.now c x.state with
  | rest hs => rw [hs] at he; exact absurd he hn
  | giveUp call task hc ht hf hs => rw [hs, calls_become, Table.get?_put_self] at hc'; cases hc'
  | wait call task l' hc ht hf _ hl hs =>
    rw [hs, calls_become, Table.get?_put_self] at hc'; cases hc'
  | serve call task l' r' hc hp hf hl hs =>
    rw [hs] at hc'
    simp only [calls_become, Table.get?_put_self] at hc'
    obtain ⟨k, f, p⟩ := call
    cases hc'
    have hp : p = .waiting l task := hp
    subst hp
    obtain ⟨t', hlanded⟩ := ending?_of_landed hl
    obtain ⟨kl, fl, hlead⟩ := ending?_eq_some.1 hlanded
    -- time has not passed since the flight landed, because a waiter was ready
    have ht : t' = x.now := h.prompt c _ l task _ _ hc rfl hlead rfl
    rw [ht] at hlanded
    exact ⟨⟨_, _, task, hc⟩, rfl, hlanded⟩
  | work call task s₁ hc hl hs =>
    obtain ⟨p, -, hcalls⟩ := work_record w i x.now c call task s₁
    rw [hs, hcalls, Table.get?_put_self] at hc'
    cases p with
    | running task' => cases hc'
    | finished r' => cases hc'

/-- Call `c` did its own work, once and from the beginning, and returns what it came to. -/
structure DidItsWork (w : Work σ ω ι α) (x : World σ ω α) (es : List (Event ω ι)) (n : Nat)
    (key : String) (c : Nat) (e : Ending α) : Prop where
  own : e.shared = false
  course : ∃ m fired work, m < n ∧ es[m]? = some (.start c key fired work) ∧
    (worldAt w x es m).state.calls.get? c = none ∧
    Course work (shiftsOf (worldAt w x es n).state c) (.finished e.result)

/-- Call `c` never did its work. It waited, without a break, for a call of its key that was at
work when the wait began, and took over its result at the instant at which it ended. -/
structure WasServed (w : Work σ ω ι α) (x : World σ ω α) (es : List (Event ω ι)) (n : Nat)
    (key : String) (c : Nat) (e : Ending α) : Prop where
  shared : e.shared = true
  unworked : shiftsOf (worldAt w x es n).state c = []
  flight : ∃ l m k i fired task, l ≠ c ∧ m < k ∧ k < n ∧
    (worldAt w x es m).state.Leads key l ∧ Joins w x es m c l ∧
    (∀ j, m < j → j ≤ k → (worldAt w x es j).state.WaitsFor c l) ∧
    es[k]? = some (.turn c i) ∧ (worldAt w x es k).now = e.instant ∧
    (worldAt w x es (k + 1)).state.ending? c = some e ∧
    ⟨l, e.instant, fired, task, .finished e.result⟩ ∈ (worldAt w x es k).state.store.2 ∧
    DidItsWork w x es n key l ⟨e.result, .leader true, e.instant⟩ ∧
    (e.result.isOk = true ∨ fired = false)

/-- Call `c` never did its work, and its token has fired. -/
structure GaveUp (w : Work σ ω ι α) (x : World σ ω α) (es : List (Event ω ι)) (n : Nat)
    (key : String) (c : Nat) (e : Ending α) : Prop where
  own : e.shared = false
  unworked : shiftsOf (worldAt w x es n).state c = []
  cancelled : e.result = .error .cancelled
  fired : ∃ phase, (worldAt w x es n).state.calls.get? c = some ⟨key, true, phase⟩

theorem Course.ne_nil {work : ω} {hs : List (Shift ω α)} {r : Except Failure α}
    (h : Course work hs (.finished r)) : hs ≠ [] := by
  rintro rfl
  cases h

theorem worldAt_zero (w : Work σ ω ι α) (x : World σ ω α) (es : List (Event ω ι)) :
    worldAt w x es 0 = x := Trace.after_zero

theorem ending?_dawn (name : String) (store : σ) (now c : Nat) :
    (dawn name store now : World σ ω α).state.ending? c = none := rfl

/-- The turn in which a call ended. -/
theorem turn_of_ending (w : Work σ ω ι α) (name : String) (store : σ) (now : Nat)
    (es : List (Event ω ι)) {n c : Nat} {e : Ending α}
    (he : (worldAt w (dawn name store now) es n).state.ending? c = some e) :
    ∃ k i, k < n ∧ es[k]? = some (.turn c i) ∧
      (worldAt w (dawn name store now) es k).state.ending? c ≠ some e ∧
      (worldAt w (dawn name store now) es (k + 1)).state.ending? c = some e ∧
      ((worldAt w (dawn name store now) es k).state.turn w.watched i
        (worldAt w (dawn name store now) es k).now c).ending? c = some e := by
  have h0 : (worldAt w (dawn name store now) es 0).state.ending? c ≠ some e := by
    rw [worldAt_zero, ending?_dawn]; exact fun h => by cases h
  -- the last point at which it had not ended
  obtain ⟨k, -, hkn, hk, hall⟩ := Trace.turning_point
    (P := fun j => (worldAt w (dawn name store now) es j).state.ending? c = some e)
    (Nat.zero_le n) h0 he
  have hnext := hall (k + 1) (by omega) (by omega)
  rcases worldAt_cases w (dawn name store now) es k with ⟨-, hsame⟩ | ⟨ev, hev, hstep⟩
  · rw [hsame] at hnext; exact absurd hnext hk
  · have hnext' := hnext
    rw [hstep] at hnext'
    obtain ⟨i, rfl, hturn⟩ := end_of_step hk hnext'
    exact ⟨k, i, hkn, hev, hk, hnext, hturn⟩

/-- When a call begins to wait. -/
theorem join_of_waitsFor (w : Work σ ω ι α) (name : String) (store : σ) (now : Nat)
    (es : List (Event ω ι)) {k c l : Nat}
    (hw : (worldAt w (dawn name store now) es k).state.WaitsFor c l) :
    ∃ m, m < k ∧ Joins w (dawn name store now) es m c l ∧
      ∀ j, m < j → j ≤ k → (worldAt w (dawn name store now) es j).state.WaitsFor c l := by
  have h0 : ¬ (worldAt w (dawn name store now) es 0).state.WaitsFor c l := by
    rw [worldAt_zero]
    rintro ⟨key, fired, task, hc⟩
    cases hc
  -- the last point at which it did not wait for this flight
  obtain ⟨m, -, hmk, hm, hall⟩ := Trace.turning_point
    (P := fun j => (worldAt w (dawn name store now) es j).state.WaitsFor c l)
    (Nat.zero_le k) h0 hw
  exact ⟨m, hmk, ⟨hm, hall (m + 1) (by omega) (by omega)⟩, hall⟩

/-- A leader that has ended did its work. -/
theorem didItsWork_of_leader (w : Work σ ω ι α) (name : String) (store : σ) (now : Nat)
    (es : List (Event ω ι)) {n c t : Nat} {key : String} {fired published : Bool}
    {r : Except Failure α} (hc : (worldAt w (dawn name store now) es n).state.calls.get? c =
      some ⟨key, fired, .ended ⟨r, .leader published, t⟩⟩) :
    DidItsWork w (dawn name store now) es n key c ⟨r, .leader published, t⟩ ∧
    ∃ fired task, ⟨c, t, fired, task, .finished r⟩ ∈
      (worldAt w (dawn name store now) es n).state.store.2 ∧ published = !(fired && !r.isOk) := by
  obtain ⟨m, fired', work, hm, hstart, hfresh, htale⟩ := origin w name store now es n c _ hc
  generalize hshifts : shiftsOf (worldAt w (dawn name store now) es n).state c = hs at htale
  cases htale with
  | landed hcourse hp =>
    rename_i h hs
    have hmem : h ∈ shiftsOf (worldAt w (dawn name store now) es n).state c := by
      rw [hshifts]; exact List.mem_cons_self
    obtain ⟨hrec, hcall⟩ := List.mem_filter.1 hmem
    obtain ⟨hcall', inst, hfired, task, prog⟩ := h
    have hcall : hcall' = c := by simpa using hcall
    have hp : prog = .finished r := hp
    subst hcall hp
    refine ⟨⟨rfl, m, fired', work, hm, hstart, hfresh, ?_⟩, hfired, task, hrec, rfl⟩
    rw [hshifts]
    exact Course.next (h := ⟨hcall', inst, hfired, task, .finished r⟩) hcourse

/-- A call that was served has the result of its leader, from the same instant. -/
theorem leader_of_served (w : Work σ ω ι α) (name : String) (store : σ) (now : Nat)
    (es : List (Event ω ι)) {n c l t : Nat} {r : Except Failure α}
    (he : (worldAt w (dawn name store now) es n).state.ending? c = some ⟨r, .served l, t⟩) :
    (worldAt w (dawn name store now) es n).state.ending? l = some ⟨r, .leader true, t⟩ := by
  obtain ⟨k, i, hkn, -, hnot, -, hturn⟩ := turn_of_ending w name store now es he
  obtain ⟨-, -, hlead⟩ :=
    served_of_turn (worldAt_alert w (dawn_alert name store now) es k) hnot hturn
  exact ending?_of_forward
    (worldAt_forward (w := w) (dawn name store now) es (Nat.le_of_lt hkn)) hlead

/-- **A call ends in one of three ways.** -/
theorem ended_cases (w : Work σ ω ι α) (name : String) (store : σ) (now : Nat)
    (es : List (Event ω ι)) {n c : Nat} {key : String} {fired : Bool} {e : Ending α}
    (hc : (worldAt w (dawn name store now) es n).state.calls.get? c =
      some ⟨key, fired, .ended e⟩) :
    DidItsWork w (dawn name store now) es n key c e ∨
      WasServed w (dawn name store now) es n key c e ∨
      GaveUp w (dawn name store now) es n key c e := by
  obtain ⟨m, fired', work, hm, hstart, hfresh, htale⟩ := origin w name store now es n c _ hc
  obtain ⟨r, role, t⟩ := e
  cases role with
  | leader published => exact Or.inl (didItsWork_of_leader w name store now es hc).1
  | gaveUp =>
    generalize hshifts : shiftsOf (worldAt w (dawn name store now) es n).state c = hs at htale
    cases htale
    exact Or.inr (Or.inr ⟨rfl, hshifts, rfl, _, hc⟩)
  | served l =>
    -- a call that was served has no turn of work on record
    have hunworked : shiftsOf (worldAt w (dawn name store now) es n).state c = [] := by
      generalize shiftsOf (worldAt w (dawn name store now) es n).state c = hs at htale
      cases htale
      rfl
    refine Or.inr (Or.inl ⟨rfl, hunworked, ?_⟩)
    have halert := worldAt_alert w (dawn_alert name store now) es
    obtain ⟨k, i, hkn, hk, hnot, hend, hturn⟩ :=
      turn_of_ending w name store now es (ending?_eq_some.2 ⟨key, fired, hc⟩)
    obtain ⟨hwait, hnow, hlead⟩ := served_of_turn (halert k) hnot hturn
    obtain ⟨j, hjk, hjoin, hall⟩ := join_of_waitsFor w name store now es hwait
    obtain ⟨call, task, hcj, -, -, hL, -⟩ := hjoin.real (dawn_alert name store now)
    -- the key is the same at every point
    have hkey : call.key = key := by
      obtain ⟨call', hc', hb⟩ := worldAt_forward (w := w) (dawn name store now) es
        (show j ≤ n by omega) c call hcj
      rw [hc] at hc'; cases hc'
      exact hb.key.symm
    rw [hkey] at hL
    obtain ⟨fl, tl, hLn⟩ := hL
    -- and so is that of the leader
    have hlkey : ∀ {k' fl' : _}, (worldAt w (dawn name store now) es k').state.calls.get? l =
        some fl' → j ≤ k' → fl'.key = key := by
      intro k' lead hl hjk'
      obtain ⟨lead', hl', hb⟩ := worldAt_forward (w := w) (dawn name store now) es hjk' l _ hLn
      rw [hl] at hl'; cases hl'
      exact hb.key
    obtain ⟨kl, fl', hleadk⟩ := ending?_eq_some.1 hlead
    have hkl : kl = key := hlkey hleadk (by omega)
    subst hkl
    obtain ⟨-, lfired, ltask, hrec, hpub⟩ := didItsWork_of_leader w name store now es hleadk
    obtain ⟨kn, fln, hleadn⟩ := ending?_eq_some.1
      (ending?_of_forward
        (worldAt_forward (w := w) (dawn name store now) es (show k ≤ n by omega)) hlead)
    have hkn' : kn = kl := hlkey hleadn (by omega)
    subst hkn'
    have hlc : l ≠ c := by
      rintro rfl
      rw [hc] at hleadn; cases hleadn
    refine ⟨l, j, k, i, lfired, ltask, hlc, hjk, hkn, ⟨fl, tl, hLn⟩, hjoin, hall, hk, hnow, hend,
      hrec, (didItsWork_of_leader w name store now es hleadn).1, ?_⟩
    cases lfired with
    | false => exact Or.inr rfl
    | true => exact Or.inl (by simpa using hpub.symm)

/-- Neither a token that fires nor a call that is dropped. -/
def Event.isCalm : Event ω ι → Bool
  | .start _ _ fired _ => !fired
  | .fire _ => false
  | .drop _ => false
  | _ => true

/-- No token has fired. -/
def Unfired (s : Flights σ ω α) : Prop := ∀ c call, s.calls.get? c = some call → call.fired = false

theorem unfired_step {x : World σ ω α} (h : Unfired x.state) {e : Event ω ι}
    (he : e.isCalm = true) : Unfired (step w x e).state := by
  intro c call' hc'
  cases hc : x.state.calls.get? c with
  | none =>
    obtain ⟨key, fired, work, rfl, rfl⟩ := new_of_step hc hc'
    simpa [Event.isCalm] using he
  | some call =>
    cases moved (w := w) e hc with
    | same hs =>
      rw [hs] at hc'; cases hc'
      exact h c _ hc
    | turn i _ _ hs =>
      rw [hs] at hc'
      rcases calls_turn w.watched i x.now c x.state with ht | ⟨call₁, p, hc₁, ht, -⟩
      · rw [ht] at hc'; exact h c call' hc'
      · rw [ht, Table.get?_put_self] at hc'
        cases hc'
        exact h c call₁ hc₁
    | fire he' _ => rw [he'] at he; cases he
    | drop he' _ _ => rw [he'] at he; cases he

/-- A call is at work for a key, or its result was published. -/
def Flies (s : Flights σ ω α) (l : Nat) : Prop :=
  (∃ key, s.Leads key l) ∨ ∃ r t, s.ending? l = some ⟨r, .leader true, t⟩

theorem Flies.fate_ne_lost {s : Flights σ ω α} {l : Nat} (h : Flies s l) : s.fate l ≠ .lost := by
  rcases h with hL | ⟨r, t, he⟩
  · rw [(fate_flying_iff s l).2 hL]; exact fun h => by cases h
  · obtain ⟨key, fired, hl⟩ := ending?_eq_some.1 he
    rw [fate_of_get? hl]; exact fun h => by cases h

theorem flies_step {x : World σ ω α} (hu : Unfired x.state) {e : Event ω ι} (he : e.isCalm = true)
    {l : Nat} (h : Flies x.state l) : Flies (step w x e).state l := by
  rcases h with ⟨key, fired, task, hl⟩ | ⟨r, t, hend⟩
  swap
  · exact Or.inr ⟨r, t, ending?_of_forward (step_forward x e) hend⟩
  cases moved (w := w) e hl with
  | same hs => exact Or.inl ⟨key, fired, task, hs⟩
  | fire he' _ => rw [he'] at he; cases he
  | drop he' _ _ => rw [he'] at he; cases he
  | turn i _ _ hs =>
    rw [hs]
    cases turn_cases w.watched i x.now l x.state with
    | rest _ _ hn => exact absurd rfl (hn _ task hl)
    | giveUp call t hc ht _ _ => rw [hl] at hc; cases hc; cases ht
    | wait call t m hc ht _ _ _ _ => rw [hl] at hc; cases hc; cases ht
    | serve call t m r hc hp _ _ _ => rw [hl] at hc; cases hc; cases hp
    | work call t s₁ hc _ ht =>
      rw [hl] at hc; cases hc
      -- the token has not fired, so whatever the work comes to is published
      have hf : fired = false := hu l _ hl
      subst hf
      obtain ⟨p, -, hcalls⟩ := work_record w i x.now l ⟨key, false, .leading task⟩ t s₁
      have hself : (x.state.turn w.watched i x.now l).calls.get? l =
          some ⟨key, false, p.phase false x.now⟩ := by
        rw [ht, hcalls]; exact Table.get?_put_self _ _ _
      cases p with
      | running task' => exact Or.inl ⟨key, false, task', hself⟩
      | finished r => exact Or.inr ⟨r, x.now, ending?_eq_some.2 ⟨key, false, hself⟩⟩

/-- A call waits for a leader, or was served by it. -/
def Follows (s : Flights σ ω α) (c l : Nat) : Prop :=
  s.WaitsFor c l ∨ ∃ r t, s.ending? c = some ⟨r, .served l, t⟩

theorem follows_step {x : World σ ω α} (hu : Unfired x.state) {e : Event ω ι}
    (he : e.isCalm = true) {c l : Nat} (hl : Flies x.state l) (h : Follows x.state c l) :
    Follows (step w x e).state c l := by
  rcases h with ⟨key, fired, task, hc⟩ | ⟨r, t, hend⟩
  swap
  · exact Or.inr ⟨r, t, ending?_of_forward (step_forward x e) hend⟩
  cases moved (w := w) e hc with
  | same hs => exact Or.inl ⟨key, fired, task, hs⟩
  | fire he' _ => rw [he'] at he; cases he
  | drop he' _ _ => rw [he'] at he; cases he
  | turn i _ _ hs =>
    rw [hs]
    cases turn_cases w.watched i x.now c x.state with
    | rest ht => rw [ht]; exact Or.inl ⟨key, fired, task, hc⟩
    | giveUp call t hc₁ _ hf _ => rw [hu c call hc₁] at hf; cases hf
    | wait call t m hc₁ _ _ hn _ _ =>
      rw [hc] at hc₁; cases hc₁
      exact absurd (hn l task rfl) hl.fate_ne_lost
    | serve call t m r hc₁ hp _ _ ht =>
      rw [hc] at hc₁; cases hc₁; cases hp
      refine Or.inr ⟨r, x.now, ending?_eq_some.2 ⟨key, fired, ?_⟩⟩
      rw [ht]; exact Table.get?_put_self _ _ _
    | work call t s₁ hc₁ _ _ hn =>
      rw [hc] at hc₁; cases hc₁
      exact absurd (hn l task rfl) hl.fate_ne_lost

/-- Event number `k` is the first turn of call `c`, and call `l` is at work for its key. -/
def BeginsDuring (w : Work σ ω ι α) (x : World σ ω α) (es : List (Event ω ι)) (key : String)
    (l k c : Nat) : Prop :=
  ∃ i fired task, es[k]? = some (.turn c i) ∧ c ∈ (worldAt w x es k).ready ∧
    (worldAt w x es k).state.calls.get? c = some ⟨key, fired, .arriving task⟩ ∧
    (worldAt w x es k).state.Leads key l

theorem BeginsDuring.follows {x : World σ ω α} {es : List (Event ω ι)} {key : String} {l k c : Nat}
    (h : BeginsDuring w x es key l k c) (hs : (worldAt w x es k).state.Sound)
    (hu : Unfired (worldAt w x es k).state) : (worldAt w x es (k + 1)).state.WaitsFor c l := by
  obtain ⟨i, fired, task, he, hr, hc, hL⟩ := h
  rw [worldAt_succ w x he]
  simp only [step, if_pos hr, Clock.World.state_wake]
  cases turn_cases w.watched i (worldAt w x es k).now c (worldAt w x es k).state with
  | rest _ hw _ =>
    obtain ⟨m, hm, -⟩ := hw _ task hc rfl
    cases hm
  | giveUp call t hc₁ ht hf _ => rw [hu c call hc₁] at hf; cases hf
  | wait call t m hc₁ ht _ _ hm hs' =>
    rw [hc] at hc₁; cases hc₁
    have hlm : m = l := by
      have hl := (hs.led key l).2 hL
      rw [show _ = some m from hm] at hl
      exact Option.some.inj hl
    subst hlm
    rw [hs']
    exact ⟨key, fired, t, Table.get?_put_self _ _ _⟩
  | serve call t m r hc₁ hp _ _ _ => rw [hc] at hc₁; cases hc₁; cases hp
  | work call t s₁ hc₁ hl _ =>
    rw [hc] at hc₁; cases hc₁
    rcases hl with ⟨hp, -⟩ | ⟨-, hn, -⟩
    · cases hp
    · have hl := (hs.led key l).2 hL
      rw [show (worldAt w x es k).state.inFlight.get? key = none from hn] at hl
      cases hl

/-- One piece of work, that of call `l`, serves the calls `cs`, as seen at point `n`. -/
structure ServesAll (w : Work σ ω ι α) (x : World σ ω α) (es : List (Event ω ι)) (n : Nat)
    (key : String) (l : Nat) (cs : Set Nat) : Prop where
  once : ∀ e, (worldAt w x es n).state.ending? l = some e → DidItsWork w x es n key l e
  unworked : ∀ c ∈ cs, shiftsOf (worldAt w x es n).state c = []
  same : ∀ c ∈ cs, ∀ e, (worldAt w x es n).state.ending? c = some e →
    ∃ e', (worldAt w x es n).state.ending? l = some e' ∧ e = ⟨e'.result, .served l, e'.instant⟩
  all : ∀ e, (worldAt w x es n).state.ending? l = some e → idle (worldAt w x es n) = true →
    ∀ c ∈ cs, (worldAt w x es n).state.ending? c = some ⟨e.result, .served l, e.instant⟩

/-- What a run says of whose result its calls return. -/
structure Attribution (w : Work σ ω ι α) (x : World σ ω α) (es : List (Event ω ι)) : Prop where
  /-- A call that has ended did so in exactly one of three ways. -/
  ways : ∀ n c key fired e,
    (worldAt w x es n).state.calls.get? c = some ⟨key, fired, .ended e⟩ →
    DidItsWork w x es n key c e ∧ ¬ WasServed w x es n key c e ∧ ¬ GaveUp w x es n key c e ∨
    ¬ DidItsWork w x es n key c e ∧ WasServed w x es n key c e ∧ ¬ GaveUp w x es n key c e ∨
    ¬ DidItsWork w x es n key c e ∧ ¬ WasServed w x es n key c e ∧ GaveUp w x es n key c e
  /-- Without firing tokens and drops, a flight serves all calls of its key that begin during it. -/
  shared : (∀ e ∈ es, e.isCalm = true) → ∀ p key l, (worldAt w x es p).state.Leads key l →
    ∀ cs : Set Nat, (∀ c ∈ cs, ∃ k, BeginsDuring w x es key l k c) → ∀ n,
      ServesAll w x es n key l cs

theorem ways_exclusive {x : World σ ω α} {es : List (Event ω ι)} {n c : Nat} {key : String}
    {e : Ending α} (h : DidItsWork w x es n key c e ∨ WasServed w x es n key c e ∨
      GaveUp w x es n key c e) :
    DidItsWork w x es n key c e ∧ ¬ WasServed w x es n key c e ∧ ¬ GaveUp w x es n key c e ∨
    ¬ DidItsWork w x es n key c e ∧ WasServed w x es n key c e ∧ ¬ GaveUp w x es n key c e ∨
    ¬ DidItsWork w x es n key c e ∧ ¬ WasServed w x es n key c e ∧ GaveUp w x es n key c e := by
  -- two of the ways are told apart by the flag, the third by the record
  have hown : ∀ {p : Prop}, e.shared = false → e.shared = true → p := by
    intro p h1 h2; rw [h1] at h2; cases h2
  have hcourse : DidItsWork w x es n key c e → ¬ GaveUp w x es n key c e := by
    rintro ⟨-, m, fired, work, -, -, -, hcourse⟩ hg
    exact hcourse.ne_nil hg.unworked
  rcases h with hd | hs | hg
  · exact Or.inl ⟨hd, fun hs => hown hd.own hs.shared, hcourse hd⟩
  · exact Or.inr (Or.inl ⟨fun hd => hown hd.own hs.shared, hs, fun hg => hown hg.own hs.shared⟩)
  · exact Or.inr (Or.inr ⟨fun hd => hcourse hd hg, fun hs => hown hg.own hs.shared, hg⟩)

/-- Before its first turn, and while it follows a leader, a call does no work. -/
theorem unworked_of_beginsDuring (name : String) (store : σ) (now : Nat) {es : List (Event ω ι)}
    {key : String} {l k c n : Nat} (hb : BeginsDuring w (dawn name store now) es key l k c)
    (hf : k < n → Follows (worldAt w (dawn name store now) es n).state c l) :
    shiftsOf (worldAt w (dawn name store now) es n).state c = [] := by
  cases hc : (worldAt w (dawn name store now) es n).state.calls.get? c with
  | none =>
    refine List.filter_eq_nil_iff.2 (fun s hs hsc => ?_)
    obtain ⟨call, hcall⟩ := onRecord w name store now es n s hs
    rw [show s.call = c by simpa using hsc, hc] at hcall
    cases hcall
  | some call =>
    obtain ⟨m, fired, work, -, -, -, htale⟩ := origin w name store now es n c call hc
    rcases Nat.lt_or_ge k n with hkn | hkn
    · rcases hf hkn with ⟨_, _, task, hw⟩ | ⟨r, t, he⟩
      · rw [hw] at hc; cases hc
        exact (htale.unbegun rfl).1
      · obtain ⟨_, _, he⟩ := ending?_eq_some.1 he
        rw [he] at hc; cases hc
        generalize shiftsOf (worldAt w (dawn name store now) es n).state c = hs at htale
        cases htale; rfl
    · -- whoever is still arriving later has not done anything yet
      obtain ⟨i, fired', task, -, -, hck, -⟩ := hb
      obtain ⟨call', hc', hbef⟩ := worldAt_forward (w := w) (dawn name store now) es hkn c call hc
      rw [hck] at hc'; cases hc'
      cases ht : call.phase.task? with
      | none => cases hbef.past ht
      | some task' => exact (htale.unbegun ht).1

theorem unfired_worldAt (name : String) (store : σ) (now : Nat) {es : List (Event ω ι)}
    (hcalm : ∀ e ∈ es, e.isCalm = true) (n : Nat) :
    Unfired (worldAt w (dawn name store now) es n).state :=
  Trace.after_invariant (P := fun (y : World σ ω α) => Unfired y.state)
    (fun c call hc => by cases hc) (fun _ e he h => unfired_step h (hcalm e he)) n

/-- A leader goes on until it has done its work. -/
theorem flies_since (name : String) (store : σ) (now : Nat) {es : List (Event ω ι)}
    (hcalm : ∀ e ∈ es, e.isCalm = true) {k n l : Nat} {key : String}
    (hL : (worldAt w (dawn name store now) es k).state.Leads key l) (hkn : k ≤ n) :
    Flies (worldAt w (dawn name store now) es n).state l :=
  Trace.after_since (P := fun (y : World σ ω α) => Flies y.state l) hkn (Or.inl ⟨key, hL⟩)
    (fun i _ e he h => flies_step (unfired_worldAt name store now hcalm i)
      (hcalm e (List.mem_of_getElem? he)) h)

/-- Whoever begins during a flight follows it to its end. -/
theorem follows_since (name : String) (store : σ) (now : Nat) {es : List (Event ω ι)}
    (hcalm : ∀ e ∈ es, e.isCalm = true) {k n l c : Nat} {key : String}
    (hb : BeginsDuring w (dawn name store now) es key l k c) (hkn : k < n) :
    Follows (worldAt w (dawn name store now) es n).state c l := by
  -- it joins the flight in its first turn, and from then on follows it
  have hsound := (worldAt_alert w (dawn_alert name store now) es k).sound
  have hbegins := hb.follows hsound (unfired_worldAt name store now hcalm k)
  refine Trace.after_since (P := fun (y : World σ ω α) => Follows y.state c l) hkn
    (Or.inl hbegins) (fun i hi e he h => ?_)
  obtain ⟨_, _, _, -, -, -, hL⟩ := hb
  exact follows_step (unfired_worldAt name store now hcalm i) (hcalm e (List.mem_of_getElem? he))
    (flies_since name store now hcalm hL (Nat.le_of_succ_le hi)) h

/-- Whoever has not ended at a point ends after it. -/
theorem lt_of_ending? {x : World σ ω α} {es : List (Event ω ι)} {k n c : Nat} {e : Ending α}
    (hk : (worldAt w x es k).state.ending? c = none)
    (hn : (worldAt w x es n).state.ending? c = some e) : k < n := by
  by_contra hkn
  rw [ending?_of_forward (worldAt_forward (w := w) x es (Nat.le_of_not_lt hkn)) hn] at hk
  cases hk

theorem BeginsDuring.ending? {x : World σ ω α} {es : List (Event ω ι)} {key : String}
    {l k c : Nat} (hb : BeginsDuring w x es key l k c) :
    (worldAt w x es k).state.ending? c = none := by
  obtain ⟨i, fired, task, -, -, hc, -⟩ := hb
  unfold Flights.ending?
  rw [hc]

theorem ending?_of_leads {s : Flights σ ω α} {key : String} {c : Nat} (h : s.Leads key c) :
    s.ending? c = none := by
  obtain ⟨fired, task, hc⟩ := h
  unfold Flights.ending?
  rw [hc]

/-- A call that begins during a flight ends with the result of its leader. -/
theorem BeginsDuring.served (name : String) (store : σ) (now : Nat) {es : List (Event ω ι)}
    (hcalm : ∀ e ∈ es, e.isCalm = true) {key : String} {l k c n : Nat}
    (hb : BeginsDuring w (dawn name store now) es key l k c) {e : Ending α}
    (he : (worldAt w (dawn name store now) es n).state.ending? c = some e) :
    ∃ e', (worldAt w (dawn name store now) es n).state.ending? l = some e' ∧
      e = ⟨e'.result, .served l, e'.instant⟩ := by
  rcases follows_since name store now hcalm hb (lt_of_ending? hb.ending? he) with
    ⟨_, _, task, hw⟩ | ⟨r, t, he'⟩
  · unfold Flights.ending? at he
    rw [hw] at he; cases he
  · rw [he] at he'; cases he'
    exact ⟨_, leader_of_served w name store now es he, rfl⟩

/-- A leader ends having done its work. -/
theorem didItsWork_of_leads (name : String) (store : σ) (now : Nat) {es : List (Event ω ι)}
    (hcalm : ∀ e ∈ es, e.isCalm = true) {key : String} {l p n : Nat}
    (hL : (worldAt w (dawn name store now) es p).state.Leads key l) {e : Ending α}
    (he : (worldAt w (dawn name store now) es n).state.ending? l = some e) :
    DidItsWork w (dawn name store now) es n key l e := by
  -- it has led its flight to the end under the same key
  have hpn := lt_of_ending? (ending?_of_leads hL) he
  rcases flies_since name store now hcalm hL (Nat.le_of_lt hpn) with ⟨key', hL'⟩ | ⟨r, t, he'⟩
  · exact absurd hL' (not_leads_of_ending? he key')
  · rw [he] at he'; cases he'
    obtain ⟨kn, fn, hln⟩ := ending?_eq_some.1 he
    obtain ⟨fired, task, hlp⟩ := hL
    obtain ⟨lead', hl', hbef⟩ := worldAt_forward (w := w) (dawn name store now) es
      (Nat.le_of_lt hpn) l _ hlp
    rw [hln] at hl'; cases hl'
    have hkn : kn = key := hbef.key
    subst hkn
    exact (didItsWork_of_leader w name store now es hln).1

theorem servesAll (name : String) (store : σ) (now : Nat) {es : List (Event ω ι)}
    (hcalm : ∀ e ∈ es, e.isCalm = true) {key : String} {l p : Nat}
    (hL : (worldAt w (dawn name store now) es p).state.Leads key l) {cs : Set Nat}
    (hcs : ∀ c ∈ cs, ∃ k, BeginsDuring w (dawn name store now) es key l k c) (n : Nat) :
    ServesAll w (dawn name store now) es n key l cs := by
  refine ⟨fun e he => didItsWork_of_leads name store now hcalm hL he, fun c hc => ?_,
    fun c hc e he => ?_, fun e he hidle c hc => ?_⟩
  · obtain ⟨k, hb⟩ := hcs c hc
    exact unworked_of_beginsDuring name store now hb
      (fun hkn => follows_since name store now hcalm hb hkn)
  · obtain ⟨k, hb⟩ := hcs c hc
    exact hb.served name store now hcalm he
  · obtain ⟨k, hb⟩ := hcs c hc
    have hLk : (worldAt w (dawn name store now) es k).state.Leads key l := by
      obtain ⟨_, _, _, -, -, -, hL⟩ := hb
      exact hL
    -- nothing is ready, so nobody waits for a leader that is over
    rcases follows_since name store now hcalm hb (lt_of_ending? (ending?_of_leads hLk) he) with
      ⟨_, _, task, hw⟩ | ⟨r, t, he'⟩
    · have halert := worldAt_alert w (dawn_alert name store now) es n
      exact absurd (halert.waits hidle hw) (not_leads_of_ending? he _)
    · obtain ⟨e', hl', heq⟩ := hb.served name store now hcalm he'
      rw [he] at hl'; cases hl'
      rw [he', heq]

/-- **Every result is attributed, in every run.** -/
theorem attribution (w : Work σ ω ι α) (name : String) (store : σ) (now : Nat)
    (es : List (Event ω ι)) : Attribution w (dawn name store now) es where
  ways := fun _ _ _ _ _ hc => ways_exclusive (ended_cases w name store now es hc)
  shared := fun hcalm _ _ _ hL _ hcs n => servesAll name store now hcalm hL hcs n

end RegistryLookup.Flight
