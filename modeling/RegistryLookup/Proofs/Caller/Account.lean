import RegistryLookup.Proofs.Caller.Trip

/-!
# What the breaker is told

An event asks the breaker for admission, or it tells the breaker how a call ended, or both, and
nothing else happens to the breaker (`breaker_step_eq`). Each call that leads a flight to its end
tells its result, each call that is served by another flight does so while the circuit is half
open, and no call tells the breaker anything else; a result that is cancelled is not told
(`one_report`).

* `reports`: what a call has told the breaker.
* `landings`: the results of the flights that were led to their end.
-/

namespace RegistryLookup

/-- What a breaker can be told of the registry. -/
inductive Breaker.Report
  | failure
  | sound
  deriving DecidableEq

/-- A breaker after a report, or after none. -/
def Breaker.receive (b : Breaker) (now : Nat) : Option Breaker.Report → Breaker
  | none => b
  | some .failure => b.recordFailure now
  | some .sound => b.recordSuccess

namespace Caller

open Flight

variable {α : Type} {x : World α} {es : List (Event α)}

/-- What a result says of the registry. One that is cancelled says nothing. -/
def reportOf (r : Except Failure α) : Option Breaker.Report :=
  if isCancelled r then none else if isFailure r then some .failure else some .sound

/-- What the end of a call tells a breaker whose circuit is in a position. -/
def reportOn (circuit : Circuit) (E : Ending α) : Option Breaker.Report :=
  match E.role with
  | .leader _ => reportOf E.result
  | .served _ => if circuit = .halfOpen then reportOf E.result else none
  | .gaveUp => none

theorem report_eq (b : Breaker) (now : Nat) (r : Except Failure α) :
    report b now r = b.receive now (reportOf r) := by
  unfold reportOf
  cases report_cases b now r with
  | failure hr hw h =>
    have hc : isCancelled r = false := by
      rw [Bool.eq_false_iff, ne_eq, isCancelled_iff]
      rintro rfl
      cases hr
    rw [h, hc, hr]
    rfl
  | sound hr hw h =>
    have hc : isCancelled r = false := by
      rw [Bool.eq_false_iff, ne_eq, isCancelled_iff]
      rintro rfl
      cases hw
    rw [h, hc, hr]
    rfl
  | nothing hr h =>
    rw [h, (isCancelled_iff r).2 hr]
    rfl

theorem settleReport_eq (b : Breaker) (now : Nat) {E : Ending α}
    (h : E.role = .gaveUp → E.result = .error .cancelled) :
    settleReport b now E = b.receive now (reportOn b.circuit E) := by
  obtain ⟨r, role, t⟩ := E
  unfold settleReport reportOn Ending.shared
  cases role with
  | leader published => exact report_eq b now r
  | served l =>
    cases hb : b.circuit with
    | halfOpen => exact report_eq b now r
    | closed => rfl
    | opened => rfl
  | gaveUp =>
    obtain rfl : r = .error .cancelled := h rfl
    rfl

/-- A call whose token has fired while it waited ends cancelled. -/
theorem Leg.gaveUp {e : Event α} {c : Nat} {call : Call α} {E : Ending α}
    (h : Leg x e c call (.ended E)) (hrole : E.role = .gaveUp) : E.result = .error .cancelled := by
  generalize hp : (Phase.ended E : Phase (Load α) α) = p at h
  cases h with
  | dropped => cases hp
  | waits => cases hp
  | givesUp => cases hp; rfl
  | served => cases hp; cases hrole
  | found => cases hp; cases hrole
  | tries answers fired loop t =>
    cases hrest : t.rest with
    | inl loop' => rw [hrest] at hp; cases hp
    | inr r => rw [hrest] at hp; cases hp; cases hrole

theorem phase?_ne_ended {s : Caller α} {c : Nat} (h : s.flights.ending? c = none) (E : Ending α) :
    phase? s c ≠ some (.ended E) := by
  intro hE
  rw [(ending?_eq_some_iff s c E).2 hE] at h
  cases h

/-- The breaker after the admission in an event, if a call is admitted in it. -/
def asked (x : World α) (e : Event α) : Breaker :=
  if (admittedBy x e).isSome then (x.state.breaker.allow x.now).2 else x.state.breaker

/-- The call that ends among the flights in an event, and how. -/
def endingIn? (x : World α) : Event α → Option (Nat × Ending α)
  | .turn c answers =>
    match x.state.flights.ending? c, (step x (.turn c answers)).state.flights.ending? c with
    | none, some E => some (c, E)
    | _, _ => none
  | _ => none

/-- What the breaker is told in an event, and by which call. -/
def reportIn? (x : World α) (e : Event α) : Option (Nat × Breaker.Report) :=
  (endingIn? x e).bind fun (c, E) => (reportOn (asked x e).circuit E).map (c, ·)

theorem endingIn?_of_some {c : Nat} {answers : Answers α} {E : Ending α}
    (hbefore : x.state.flights.ending? c = none)
    (hafter : (step x (.turn c answers)).state.flights.ending? c = some E) :
    endingIn? x (.turn c answers) = some (c, E) := by
  unfold endingIn?
  simp only [hbefore, hafter]

theorem endingIn?_of_none {c : Nat} {answers : Answers α}
    (hafter : (step x (.turn c answers)).state.flights.ending? c = none) :
    endingIn? x (.turn c answers) = none := by
  unfold endingIn?
  simp only [hafter]
  cases x.state.flights.ending? c <;> rfl

theorem endingIn?_of_same {c : Nat} {answers : Answers α}
    (h : (step x (.turn c answers)).state.flights = x.state.flights) :
    endingIn? x (.turn c answers) = none := by
  unfold endingIn?
  simp only [h]
  cases x.state.flights.ending? c <;> rfl

theorem reportIn?_of_none {e : Event α} (h : endingIn? x e = none) : reportIn? x e = none := by
  unfold reportIn?
  rw [h]
  rfl

theorem reportIn?_of_some {e : Event α} {c : Nat} {E : Ending α} (h : endingIn? x e = some (c, E)) :
    reportIn? x e = (reportOn (asked x e).circuit E).map (c, ·) := by
  unfold reportIn?
  rw [h]
  rfl

theorem endingIn?_spec {e : Event α} {c : Nat} {E : Ending α} (h : endingIn? x e = some (c, E)) :
    (∃ answers, e = .turn c answers) ∧ x.state.flights.ending? c = none ∧
      (step x e).state.flights.ending? c = some E := by
  unfold endingIn? at h
  split at h
  · rename_i d answers
    split at h
    · rename_i hbefore hafter
      cases h
      exact ⟨⟨answers, rfl⟩, hbefore, hafter⟩
    · cases h
  · cases h

theorem asked_of_admitted {c : Nat} {e : Event α} (h : admittedBy x e = some c) :
    asked x e = (x.state.breaker.allow x.now).2 := by
  unfold asked
  rw [h]
  rfl

theorem asked_of_none {e : Event α} (h : admittedBy x e = none) : asked x e = x.state.breaker := by
  unfold asked
  rw [h]
  rfl

section Turn

variable {c : Nat} {answers : Answers α} {call : Call α}

/-- A call that has not just come in, or is refused, is not admitted. -/
theorem admittedBy_eq_none (h : ∀ fired, call.stage = .arriving fired →
      x.state.permits.closed = true ∨ (x.state.breaker.allow x.now).1 = false)
    (hc : x.state.calls.get? c = some call) : admittedBy x (.turn c answers) = none := by
  rcases admittedBy_turn x c answers with ⟨call', fired, hc', hs, -, hclosed, hb, -⟩ | ⟨-, hnone⟩
  · rw [hc] at hc'; cases hc'
    rcases h fired hs with h | h
    · rw [hclosed] at h; cases h
    · rw [hb] at h; cases h
  · exact hnone

/-- The turn of a call among the flights: the breaker is told how it ended, if it has. -/
theorem breaker_proceed (h : x.state.Sound) {s : Caller α}
    (hx : (step x (.turn c answers)).state = s.proceed answers x.now c call)
    (hbefore : x.state.flights.ending? c = none) (hb : s.breaker = asked x (.turn c answers)) :
    (step x (.turn c answers)).state.breaker = (asked x (.turn c answers)).receive x.now
      ((reportIn? x (.turn c answers)).map Prod.snd) := by
  have hflights : (step x (.turn c answers)).state.flights =
      s.flights.turn (loadWork s.policy s.name) answers x.now c := by rw [hx, flights_proceed]
  rcases proceed_cases answers x.now c call s with ⟨hnone, hp⟩ | ⟨E, hE, hp⟩
  · rw [reportIn?_of_none (endingIn?_of_none (by rw [hflights]; exact hnone)), hx, hp]
    exact hb
  · have hafter : (step x (.turn c answers)).state.flights.ending? c = some E := by
      rw [hflights]; exact hE
    obtain ⟨_, -, hleg⟩ := leg_of_ended h (phase?_ne_ended hbefore E)
      ((ending?_eq_some_iff _ _ _).1 hafter)
    rw [reportIn?_of_some (endingIn?_of_some hbefore hafter), hx, hp, ← hb, Option.map_map]
    refine (settleReport_eq s.breaker x.now hleg.gaveUp).trans ?_
    cases reportOn s.breaker.circuit E <;> rfl

/-- The breaker after the turn of a ready call. -/
theorem breaker_turn_eq (h : x.state.Sound) (ha : x.state.Abreast) (hr : .call c ∈ x.ready) :
    (step x (.turn c answers)).state.breaker = (asked x (.turn c answers)).receive x.now
      ((reportIn? x (.turn c answers)).map Prod.snd) := by
  have hx : (step x (.turn c answers)).state = x.state.turn answers x.now c := state_turn hr answers
  -- a turn that changes nothing among the flights reports nothing
  have hquiet : ∀ {b : Breaker}, (x.state.turn answers x.now c).flights = x.state.flights →
      (x.state.turn answers x.now c).breaker = b → asked x (.turn c answers) = b →
      (step x (.turn c answers)).state.breaker = (asked x (.turn c answers)).receive x.now
        ((reportIn? x (.turn c answers)).map Prod.snd) := by
    intro b hflights hbreaker hasked
    rw [reportIn?_of_none (endingIn?_of_same (by rw [hx]; exact hflights)), hx, hbreaker, hasked]
    rfl
  have hashore : ∀ {call : Call α}, x.state.calls.get? c = some call →
      call.stage.isAshore = true → x.state.flights.ending? c = none := by
    intro call hc hs
    unfold Flights.ending?
    rw [h.ashore c call hc hs]
  have hnone : ∀ {call : Call α} {stage : Stage α}, x.state.calls.get? c = some call →
      call.stage = stage → (∀ fired, stage ≠ .arriving fired) →
      admittedBy x (.turn c answers) = none := fun hc hs hn =>
    admittedBy_eq_none (fun fired hs' => absurd (hs.symm.trans hs') (hn fired)) hc
  cases turn_cases answers x.now c x.state with
  | rest hs hno =>
    refine hquiet (by rw [hs]) (by rw [hs]) (asked_of_none ?_)
    rcases admittedBy_turn x c answers with ⟨call, fired, hc, ha, -⟩ | ⟨-, hnone⟩
    · exact absurd ha (hno call fired hc)
    · exact hnone
  | turnedAway call fired p hc _ hclosed _ hs =>
    exact hquiet (by rw [hs]; rfl) (by rw [hs]; rfl)
      (asked_of_none (admittedBy_eq_none (fun _ _ => Or.inl hclosed) hc))
  | refused call fired hc _ _ hb hs =>
    exact hquiet (by rw [hs]; rfl) (by rw [hs]; rfl)
      (asked_of_none (admittedBy_eq_none (fun _ _ => Or.inr hb) hc))
  | cancelled call hc hs' hclosed hb hs =>
    exact hquiet (by rw [hs]; rfl) (by rw [hs]; rfl)
      (asked_of_admitted (admittedBy_of_arriving hr hc hs' hclosed hb))
  | queues call hc hs' hclosed hb hs =>
    exact hquiet (by rw [hs]; rfl) (by rw [hs]; rfl)
      (asked_of_admitted (admittedBy_of_arriving hr hc hs' hclosed hb))
  | boards call hc hs' hclosed hb hs =>
    exact breaker_proceed h (hx.trans hs) (hashore hc (by rw [hs']; rfl))
      (asked_of_admitted (admittedBy_of_arriving hr hc hs' hclosed hb)).symm
  | leaves call hc hs' hs =>
    exact hquiet (by rw [hs]; rfl) (by rw [hs]; rfl)
      (asked_of_none (hnone hc hs' fun _ hn => by cases hn))
  | claims call hc hs' _ hs =>
    exact breaker_proceed h (hx.trans hs) (hashore hc (by rw [hs']; rfl))
      (asked_of_none (hnone hc hs' fun _ hn => by cases hn)).symm
  | proceeds call hc hs' hs =>
    refine breaker_proceed h (hx.trans hs) ?_
      (asked_of_none (hnone hc hs' fun _ hn => by cases hn)).symm
    -- a call with a permit has not ended
    cases hE : x.state.flights.ending? c with
    | none => rfl
    | some E =>
      obtain ⟨call', hc', hover⟩ := ha.landed c E ((ending?_eq_some_iff _ _ _).1 hE)
      rw [hc] at hc'; cases hc'
      rw [hs'] at hover; cases hover

end Turn

/-- **All that an event does to the breaker** is an admission, and then a report. -/
theorem breaker_step_eq (h : x.state.Sound) (ha : x.state.Abreast) (e : Event α) :
    (step x e).state.breaker =
      (asked x e).receive x.now ((reportIn? x e).map Prod.snd) := by
  by_cases hturn : ∃ c answers, e = .turn c answers ∧ .call c ∈ x.ready
  · obtain ⟨c, answers, rfl, hr⟩ := hturn
    exact breaker_turn_eq h ha hr
  -- without a turn nothing is asked and nothing is told
  have hquiet : (step x e).state.breaker = x.state.breaker ∧ admittedBy x e = none ∧
      endingIn? x e = none := by
    by_cases he : ∀ c answers, e ≠ .turn c answers
    · refine ⟨breaker_step he, admittedBy_of_ne_turn x he, ?_⟩
      cases e with
      | turn c answers => exact absurd rfl (he c answers)
      | _ => rfl
    · push Not at he
      obtain ⟨c, answers, rfl⟩ := he
      have hidle : .call c ∉ x.ready := fun hr => hturn ⟨c, answers, rfl, hr⟩
      have hsame : step x (.turn c answers) = x := by simp only [step, if_neg hidle]
      refine ⟨by rw [hsame], ?_, endingIn?_of_same (by rw [hsame])⟩
      rcases admittedBy_turn x c answers with ⟨_, _, -, -, hr, -⟩ | ⟨-, hnone⟩
      · exact absurd hr hidle
      · exact hnone
  rw [hquiet.1, asked_of_none hquiet.2.1, reportIn?_of_none hquiet.2.2]
  rfl

/-- What a call tells the breaker in an event. -/
def tells (c : Nat) (x : World α) (e : Event α) : Option Breaker.Report :=
  (reportIn? x e).bind fun (d, r) => if d = c then some r else none

/-- What a call has told the breaker before event number `n`. -/
def reports (x : World α) (es : List (Event α)) (n c : Nat) : List Breaker.Report :=
  Trace.collected step (tells c) x es 0 n

theorem tells_of_ne {e : Event α} {c : Nat} (h : ∀ E, endingIn? x e ≠ some (c, E)) :
    tells c x e = none := by
  unfold tells reportIn?
  cases hE : endingIn? x e with
  | none => rfl
  | some p =>
    obtain ⟨d, E⟩ := p
    have hdc : d ≠ c := by
      rintro rfl
      exact h E hE
    cases hr : reportOn (asked x e).circuit E with
    | none => simp only [Option.bind_some, hr, Option.map_none, Option.bind_none]
    | some r => simp only [Option.bind_some, hr, Option.map_some, if_neg hdc]

theorem tells_of_some {e : Event α} {c : Nat} {E : Ending α} (h : endingIn? x e = some (c, E)) :
    tells c x e = reportOn (asked x e).circuit E := by
  unfold tells
  rw [reportIn?_of_some h]
  cases reportOn (asked x e).circuit E <;> simp

theorem ending?_step (h : x.state.Sound) (e : Event α) {c : Nat} {E : Ending α}
    (hE : x.state.flights.ending? c = some E) :
    (step x e).state.flights.ending? c = some E :=
  (ending?_eq_some_iff _ _ _).2 (ended_stays h e ((ending?_eq_some_iff _ _ _).1 hE))

/-- A call that ends in an event ends in its own turn. -/
theorem endingIn?_of_ending (h : x.state.Sound) {e : Event α} {c : Nat} {E : Ending α}
    (hbefore : x.state.flights.ending? c = none)
    (hafter : (step x e).state.flights.ending? c = some E) : endingIn? x e = some (c, E) := by
  obtain ⟨-, answers, rfl⟩ := ended_at h (phase?_ne_ended hbefore E)
    ((ending?_eq_some_iff _ _ _).1 hafter)
  exact endingIn?_of_some hbefore hafter

/-- What a call has told the breaker by a point of a run: nothing, unless it has ended, and then
what it told in the event in which it did. -/
inductive Accounted (x : World α) (es : List (Event α)) (n c : Nat) : Prop
  | idle (h : (worldAt x es n).state.flights.ending? c = none) (hr : reports x es n c = [])
  | ended (i : Nat) (e : Event α) (E : Ending α) (hi : i < n) (he : es[i]? = some e)
      (hE : endingIn? (worldAt x es i) e = some (c, E))
      (h : (worldAt x es n).state.flights.ending? c = some E)
      (hr : reports x es n c = (reportOn (asked (worldAt x es i) e).circuit E).toList)

theorem accounted (hx : x.state.Fresh) (es : List (Event α)) (n c : Nat) :
    Accounted x es n c := by
  induction n with
  | zero =>
    refine .idle ?_ (Trace.collected_self (tells c) 0)
    rw [worldAt_zero]
    cases hE : x.state.flights.ending? c with
    | none => rfl
    | some E =>
      obtain ⟨call, hc, -⟩ := hx.abreast.landed c E ((ending?_eq_some_iff _ _ _).1 hE)
      rw [hx.calls] at hc; cases hc
  | succ n ih =>
    have hsound : (worldAt x es n).state.Sound := worldAt_sound hx.sound n
    have hlist : reports x es (n + 1) c =
        reports x es n c ++ (es[n]?.bind (tells c (worldAt x es n))).toList :=
      Trace.collected_succ (tells c) (Nat.zero_le n)
    rcases worldAt_cases x es n with ⟨hnone, hsame⟩ | ⟨e, he, hstep⟩
    · rw [hnone, Option.bind_none, Option.toList_none, List.append_nil] at hlist
      cases ih with
      | idle h hr => exact .idle (by rw [hsame]; exact h) (hlist.trans hr)
      | ended i e E hi he hE h hr =>
        exact .ended i e E (Nat.lt_succ_of_lt hi) he hE (by rw [hsame]; exact h) (hlist.trans hr)
    rw [he, Option.bind_some] at hlist
    cases ih with
    | ended i e' E hi he' hE h hr =>
      -- a call that has ended has told all it will tell
      have hquiet : tells c (worldAt x es n) e = none := tells_of_ne fun E' hE' => by
        rw [(endingIn?_spec hE').2.1] at h; cases h
      rw [hquiet, Option.toList_none, List.append_nil] at hlist
      exact .ended i e' E (Nat.lt_succ_of_lt hi) he' hE (by rw [hstep]; exact ending?_step hsound e h)
        (hlist.trans hr)
    | idle h hr =>
      rw [hr, List.nil_append] at hlist
      cases hafter : (step (worldAt x es n) e).state.flights.ending? c with
      | none =>
        refine .idle (by rw [hstep]; exact hafter) ?_
        rw [hlist, tells_of_ne fun E' hE' => by
          rw [(endingIn?_spec hE').2.2] at hafter; cases hafter]
        rfl
      | some E =>
        have hE := endingIn?_of_ending hsound h hafter
        exact .ended n e E (Nat.lt_succ_self n) he hE (by rw [hstep]; exact hafter)
          (by rw [hlist, tells_of_some hE])

/-- The result of a flight that is led to this end, unless it is cancelled. -/
def landingOf (E : Ending α) : Option (Except Failure α) :=
  match E.role with
  | .leader _ => if isCancelled E.result then none else some E.result
  | _ => none

/-- The result of the flight that is led to its end in an event. -/
def landing? (x : World α) (e : Event α) : Option (Except Failure α) :=
  (endingIn? x e).bind fun (_, E) => landingOf E

/-- The results of the flights that were led to their end before event number `n`, in the order in
which the flights ended. Flights that were cancelled have none. -/
def landings (x : World α) (es : List (Event α)) (n : Nat) : List (Except Failure α) :=
  Trace.collected step landing? x es 0 n

/-- How many results at the end of a list are failures, one after another. -/
def streak (rs : List (Except Failure α)) : Nat := (rs.reverse.takeWhile isFailure).length

theorem streak_concat (rs : List (Except Failure α)) (r : Except Failure α) :
    streak (rs ++ [r]) = if isFailure r then streak rs + 1 else 0 := by
  unfold streak
  rw [List.reverse_append, List.reverse_singleton, List.singleton_append, List.takeWhile_cons]
  cases isFailure r <;> rfl

/-- A closed circuit is told the results of the flights, and nothing else. -/
theorem reportOn_closed (E : Ending α) : reportOn .closed E =
    (landingOf E).map fun r => if isFailure r then .failure else .sound := by
  unfold reportOn landingOf reportOf
  cases E.role with
  | leader published =>
    cases isCancelled E.result with
    | true => rfl
    | false => cases hf : isFailure E.result <;> simp [hf]
  | served l => rfl
  | gaveUp => rfl

theorem asked_of_closed (e : Event α) (h : x.state.breaker.circuit = .closed) :
    asked x e = x.state.breaker := by
  unfold asked Breaker.allow
  simp only [h, ite_self]

/-- What a breaker is told while its circuit is closed. -/
theorem breaker_step_of_closed (h : x.state.Sound) (ha : x.state.Abreast) (e : Event α)
    (hclosed : x.state.breaker.circuit = .closed) : (step x e).state.breaker =
      x.state.breaker.receive x.now
        ((landing? x e).map fun r => if isFailure r then .failure else .sound) := by
  rw [breaker_step_eq h ha e, asked_of_closed e hclosed]
  unfold reportIn? landing?
  rw [asked_of_closed e hclosed, hclosed]
  cases endingIn? x e with
  | none => rfl
  | some p =>
    simp only [Option.bind_some, reportOn_closed, Option.map_map]
    rfl

/-- A circuit that stays closed counts the failures at the end of the results. -/
theorem failures_step (h : x.state.Sound) (ha : x.state.Abreast) {e : Event α}
    (hmost : x.state.breaker.threshold ≤ Breaker.mostFailures)
    {rs : List (Except Failure α)} (hrs : x.state.breaker.failures = streak rs)
    (hbefore : x.state.breaker.circuit = .closed)
    (hafter : (step x e).state.breaker.circuit = .closed) :
    (step x e).state.breaker.failures = streak (rs ++ (landing? x e).toList) := by
  have hstep := breaker_step_of_closed h ha e hbefore
  cases hl : landing? x e with
  | none =>
    rw [hl] at hstep
    rw [hstep, Option.toList_none, List.append_nil]
    exact hrs
  | some r =>
    rw [hl] at hstep
    rw [Option.toList_some, streak_concat]
    cases hr : isFailure r with
    | false =>
      simp only [Option.map_some, hr, Bool.false_eq_true, if_false] at hstep ⊢
      rw [hstep]
      exact Breaker.failures_recordSuccess _
    | true =>
      simp only [Option.map_some, hr, if_true] at hstep ⊢
      rw [hstep] at hafter ⊢
      -- the count is below the threshold, so it has not come to its end
      obtain ⟨-, hcount, hbelow⟩ : _ ∧ (x.state.breaker.receive x.now (some .failure)).failures =
          min (x.state.breaker.failures + 1) Breaker.mostFailures ∧
          (x.state.breaker.receive x.now (some .failure)).failures < x.state.breaker.threshold :=
        Breaker.recordFailure_of_closed hafter
      omega

theorem failures_eq (hx : x.state.Fresh) {threshold : Nat} (ht : 0 < threshold)
    (hmost : threshold ≤ Breaker.mostFailures) (h0 : BelowThreshold threshold x.state.breaker)
    (hfailures : x.state.breaker.failures = 0) {n : Nat}
    (hclosed : ∀ i, i ≤ n → (worldAt x es i).state.breaker.circuit = .closed) :
    (worldAt x es n).state.breaker.failures = streak (landings x es n) := by
  induction n with
  | zero =>
    rw [worldAt_zero, hfailures]
    rfl
  | succ n ih =>
    have ih := ih fun i hi => hclosed i (Nat.le_succ_of_le hi)
    have hlist : landings x es (n + 1) =
        landings x es n ++ (es[n]?.bind (landing? (worldAt x es n))).toList :=
      Trace.collected_succ landing? (Nat.zero_le n)
    rcases worldAt_cases x es n with ⟨hnone, hsame⟩ | ⟨e, he, hstep⟩
    · rw [hlist, hsame, hnone, Option.bind_none, Option.toList_none, List.append_nil]
      exact ih
    · rw [hlist, hstep, he, Option.bind_some]
      have hafter := hclosed (n + 1) (Nat.le_refl _)
      rw [hstep] at hafter
      refine failures_step (worldAt_sound hx.sound n) (worldAt_abreast hx n) ?_ ih
        (hclosed n (Nat.le_succ n)) hafter
      rw [(belowThreshold hx ht h0 n).threshold_eq]
      exact hmost

/-- What the breaker is told in a run of which `n` events have happened. -/
structure OneReport (x : World α) (es : List (Event α)) (n : Nat) : Prop where
  /-- Nothing happens to the breaker but admissions, and what calls tell it. -/
  breaker : ∀ i e, es[i]? = some e → (worldAt x es (i + 1)).state.breaker =
    (asked (worldAt x es i) e).receive (worldAt x es i).now
      ((reportIn? (worldAt x es i) e).map Prod.snd)
  /-- A call that has led its flight to its end has told its result. -/
  leader : ∀ c E published, phase? (worldAt x es n).state c = some (.ended E) →
    E.role = .leader published → reports x es n c = (reportOf E.result).toList
  /-- A call that was served by another flight has told its result just when the circuit was half
  open as it was served. -/
  served : ∀ c E l, phase? (worldAt x es n).state c = some (.ended E) → E.role = .served l →
    ∃ i answers, i < n ∧ es[i]? = some (.turn c answers) ∧
      phase? (worldAt x es (i + 1)).state c = some (.ended E) ∧
      (∃ load, phase? (worldAt x es i).state c = some (.waiting l load)) ∧
      reports x es n c = if (worldAt x es i).state.breaker.circuit = .halfOpen then
        (reportOf E.result).toList else []
  /-- No other call has told anything. -/
  others : ∀ c, (∀ E, phase? (worldAt x es n).state c = some (.ended E) → E.role = .gaveUp) →
    reports x es n c = []
  /-- A circuit that has stayed closed has counted the flights that failed one after another. -/
  counted : (∀ i, i ≤ n → (worldAt x es i).state.breaker.circuit = .closed) →
    (worldAt x es n).state.breaker.failures = streak (landings x es n)

/-- A call that is served waited for the flight, and had been admitted before. -/
theorem Leg.served_from {e : Event α} {c l : Nat} {call : Call α} {E : Ending α}
    (h : Leg x e c call (.ended E)) (hrole : E.role = .served l) :
    ∃ load, phase? x.state c = some (.waiting l load) := by
  generalize hp : (Phase.ended E : Phase (Load α) α) = p at h
  cases h with
  | dropped => cases hp
  | waits => cases hp
  | givesUp => cases hp; cases hrole
  | served answers l' load r he hwait => cases hp; cases hrole; exact ⟨load, hwait⟩
  | found => cases hp; cases hrole
  | tries answers fired loop t =>
    cases hrest : t.rest with
    | inl loop' => rw [hrest] at hp; cases hp
    | inr r => rw [hrest] at hp; cases hp; cases hrole

/-- Whoever is among the flights is not admitted again. -/
theorem admittedBy_of_phase (h : x.state.Sound) {c : Nat} {answers : Answers α}
    {p : Phase (Load α) α} (hp : phase? x.state c = some p) :
    admittedBy x (.turn c answers) = none := by
  rcases admittedBy_turn x c answers with ⟨call, fired, hc, hs, -⟩ | ⟨-, hnone⟩
  · unfold phase? at hp
    rw [h.ashore c call hc (by rw [hs]; rfl)] at hp
    cases hp
  · exact hnone

/-- What a call has told that has ended, and when. -/
theorem reports_of_ended (hx : x.state.Fresh) {n c : Nat} {E : Ending α}
    (hE : phase? (worldAt x es n).state c = some (.ended E)) :
    ∃ i answers, i < n ∧ es[i]? = some (.turn c answers) ∧
      endingIn? (worldAt x es i) (.turn c answers) = some (c, E) ∧
      reports x es n c =
        (reportOn (asked (worldAt x es i) (.turn c answers)).circuit E).toList := by
  have hover := (ending?_eq_some_iff _ _ _).2 hE
  cases accounted hx es n c with
  | idle h => rw [h] at hover; cases hover
  | ended i e E' hi he hE' h hr =>
    rw [h] at hover; cases hover
    obtain ⟨⟨answers, rfl⟩, -, -⟩ := endingIn?_spec hE'
    exact ⟨i, answers, hi, he, hE', hr⟩

theorem reports_of_served (hx : x.state.Fresh) {n c l : Nat} {E : Ending α}
    (hE : phase? (worldAt x es n).state c = some (.ended E)) (hrole : E.role = .served l) :
    ∃ i answers, i < n ∧ es[i]? = some (.turn c answers) ∧
      phase? (worldAt x es (i + 1)).state c = some (.ended E) ∧
      (∃ load, phase? (worldAt x es i).state c = some (.waiting l load)) ∧
      reports x es n c = if (worldAt x es i).state.breaker.circuit = .halfOpen then
        (reportOf E.result).toList else [] := by
  obtain ⟨i, answers, hi, he, hin, hr⟩ := reports_of_ended hx hE
  have hsound : (worldAt x es i).state.Sound := worldAt_sound hx.sound i
  obtain ⟨-, hbefore, hafter⟩ := endingIn?_spec hin
  rw [ending?_eq_some_iff] at hafter
  obtain ⟨call, -, hleg⟩ := leg_of_ended hsound (phase?_ne_ended hbefore E) hafter
  obtain ⟨load, hwait⟩ := hleg.served_from hrole
  refine ⟨i, answers, hi, he, ?_, ⟨load, hwait⟩, ?_⟩
  · rw [worldAt_succ x he]
    exact hafter
  · rw [hr, asked_of_none (admittedBy_of_phase hsound hwait)]
    unfold reportOn
    rw [hrole]
    simp only
    split <;> rfl

theorem threshold_le_mostFailures (settings : Config.Settings) :
    max 1 settings.breaker.failureThreshold.toNat ≤ Breaker.mostFailures := by
  have hlt : settings.breaker.failureThreshold.toNat < UInt32.size :=
    settings.breaker.failureThreshold.toNat_lt_size
  have hsize : UInt32.size = 4294967296 := rfl
  unfold Breaker.mostFailures
  omega

/-- **One flight is one report.** The breaker is told the result of each flight by the call that
led it, and by the calls that were served by it while the circuit was half open; and while the
circuit stays closed, it counts the flights that failed one after another. -/
theorem one_report (name : String) (settings : Config.Settings) (now : Nat) (es : List (Event α))
    (n : Nat) : OneReport (dawn name settings now) es n := by
  have hx : (dawn name settings now : World α).state.Fresh := make_fresh name settings now
  have ht : 0 < max 1 settings.breaker.failureThreshold.toNat := by omega
  refine ⟨fun i e he => ?_, fun c E published hE hrole => ?_, fun c E l => reports_of_served hx,
    fun c hno => ?_, ?_⟩
  · rw [worldAt_succ _ he]
    exact breaker_step_eq (worldAt_sound hx.sound i) (worldAt_abreast hx i) e
  · obtain ⟨i, answers, -, -, -, hr⟩ := reports_of_ended hx hE
    rw [hr]
    unfold reportOn
    rw [hrole]
  · cases accounted hx es n c with
    | idle _ hr => exact hr
    | ended i e E hi he hE h hr =>
      rw [hr]
      unfold reportOn
      rw [hno E ((ending?_eq_some_iff _ _ _).1 h)]
      rfl
  · exact failures_eq hx ht (threshold_le_mostFailures settings) ⟨rfl, fun _ => ht⟩ rfl

/-- A call comes in while the flight for its key is under way, and the flight fails. -/
def coalesced : List (Event Nat) :=
  [.call 0 "k" 60 false,
    .turn 0 (fun _ => { takes := some 5, result := .error (.serverError 503 "down") }),
    .call 1 "k" 60 false, .turn 1 silence, .pass 5, .turn 0 silence, .turn 1 silence]

example : (worldAt (dawn "r" twoFailures 0) coalesced 7).state.isDone = true ∧
    reports (dawn "r" twoFailures 0) coalesced 7 0 = [.failure] ∧
    reports (dawn "r" twoFailures 0) coalesced 7 1 = [] ∧
    (worldAt (dawn "r" twoFailures 0) coalesced 7).state.breaker.failures = 1 := by
  decide

end Caller

end RegistryLookup
