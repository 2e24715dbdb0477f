import RegistryLookup.Proofs.Caller.Cancellation
import RegistryLookup.Proofs.Caller.Unclosed

/-!
# Closing a caller

A caller that is closed turns away every call that has its first turn afterwards, and sends away
those that wait for a permit; such a call changes nothing but its own entry and its place in the
queue. The calls with a permit go on as if the caller were not closed, and give their permits back.

* `sentAway`: what becomes of a call without a permit.
* `closed_caller`: all of this, in every run.
-/

namespace RegistryLookup.Caller

open Flight

variable {α : Type} {x : World α} {es : List (Event α)} {limit m n c : Nat}

/-- A call that does this has no permit. -/
def Doing.isAshore : Doing α → Bool
  | .arriving => true
  | .queued => true
  | _ => false

theorem ashore_of_doing {s : Caller α} {d : Doing α} (hd : doing? s c = some d)
    (hs : d.isAshore = true) : ∃ call, s.calls.get? c = some call ∧ call.stage.isAshore = true := by
  obtain ⟨call, hc, hopen⟩ := open_of_doing hd
  refine ⟨call, hc, ?_⟩
  cases hstage : call.stage with
  | arriving fired => rfl
  | queued fired => rfl
  | admitted =>
    rw [doing?_of_admitted hc hstage] at hd
    obtain ⟨p, -, hp⟩ := Option.bind_eq_some_iff.1 hd
    obtain ⟨harriving, hqueued⟩ := ne_of_phaseDoing hp
    cases d with
    | arriving => exact absurd rfl harriving
    | queued => exact absurd rfl hqueued
    | _ => cases hs
  | ended r t => unfold Call.isOpen at hopen; rw [hstage] at hopen; cases hopen
  | dropped => unfold Call.isOpen at hopen; rw [hstage] at hopen; cases hopen

/-- What a closed caller tells a call that does this; the token of a call in the queue is looked at
first. -/
def farewell (name : String) : Doing α → Bool → Failure
  | .queued, true => .cancelled
  | _, _ => closedFailure name

/-- What has become by event `n` of a call that has been about to be sent away since event `m`. -/
inductive SentAway (x : World α) (es : List (Event α)) (m n c : Nat) (d : Doing α) : Prop
  /-- Its next turn will be its last. -/
  | pending (h : AtHand x es m n c) (hd : doing? (worldAt x es n).state c = some d)
      (hnext : ∀ answers, (step (worldAt x es n) (.turn c answers)).state.ending? c = some (.error
        (farewell x.state.name d (fired? (worldAt x es n).state c)), (worldAt x es n).now))
  /-- Its first turn has been its last. -/
  | ended (k : Nat) (answers : Answers α) (hmk : m < k) (hk : k < n) (h : AtHand x es m k c)
      (he : es[k]? = some (.turn c answers))
      (hend : (worldAt x es n).state.ending? c = some (.error
        (farewell x.state.name d (fired? (worldAt x es k).state c)), (worldAt x es k).now))
  | dropped (k : Nat) (hmk : m < k) (hk : k < n) (h : AtHand x es m k c)
      (he : es[k]? = some (.abort c)) (hend : IsDropped (worldAt x es n).state c)

theorem AtHand.succ (h : AtHand x es m n c) (hm : ∀ limit, es[m]? ≠ some (.pass limit))
    (hmn : m < n) (hno : ∀ answers, es[n]? ≠ some (.turn c answers))
    (hr : .call c ∈ (worldAt x es (n + 1)).ready) : AtHand x es m (n + 1) c := by
  have hready : ∀ i, m < i → i ≤ n + 1 → .call c ∈ (worldAt x es i).ready := by
    intro i hmi hi
    rcases Nat.lt_or_eq_of_le hi with hlt | rfl
    · exact h.ready i hmi (Nat.le_of_lt_succ hlt)
    · exact hr
  refine ⟨hready, fun i answers hmi hi => ?_, now_of_ready hm (by omega) hready⟩
  rcases Nat.lt_or_eq_of_le (Nat.le_of_lt_succ hi) with hlt | rfl
  · exact h.noTurn i answers hmi hlt
  · exact hno answers

/-- A closed caller, with what holds of it at every point of a run. -/
structure Shut (x : World α) (limit : Nat) : Prop where
  wakeful : Wakeful x
  attended : Attended x limit
  closed : x.state.permits.closed = true

/-- A call without a permit is about to have its turn. -/
theorem Shut.ready (h : Shut x limit) {d : Doing α} (hd : doing? x.state c = some d)
    (hs : d.isAshore = true) : .call c ∈ x.ready := by
  cases d with
  | arriving =>
    rcases h.wakeful.woken c _ hd with hr | hmay
    · exact hr
    · cases hmay
  | queued => exact h.attended.called c (waits_iff_doing.2 hd) (Or.inr h.closed)
  | _ => cases hs

/-- **Its turn is its last.** -/
theorem Shut.turn (h : Shut x limit) {d : Doing α} (hd : doing? x.state c = some d)
    (hs : d.isAshore = true) (answers : Answers α) :
    (step x (.turn c answers)).state.ending? c =
      some (.error (farewell x.state.name d (fired? x.state c)), x.now) := by
  obtain ⟨call, hc, hashore⟩ := ashore_of_doing hd hs
  rw [state_turn (h.ready hd hs)]
  cases hstage : call.stage with
  | arriving fired =>
    rw [doing?_of_arriving hc hstage] at hd; cases hd
    rw [turn_of_arriving h.closed hc hstage]
    exact ending?_eq_some.2 ⟨_, Table.get?_put_self _ _ _, rfl⟩
  | queued fired =>
    rw [doing?_of_queued hc hstage] at hd; cases hd
    rw [turn_of_queued h.closed hc hstage, fired?_of_queued hc hstage]
    refine ending?_eq_some.2 ⟨_, Table.get?_put_self _ _ _, ?_⟩
    cases fired <;> rfl
  | _ => rw [hstage] at hashore; cases hashore

/-- **What becomes of a call without a permit.** -/
theorem sentAway (h : ∀ i, m < i → Shut (worldAt x es i) limit)
    (hm : ∀ limit, es[m]? ≠ some (.pass limit)) {d : Doing α}
    (hd : doing? (worldAt x es (m + 1)).state c = some d) (hs : d.isAshore = true) (hmn : m < n) :
    SentAway x es m n c d := by
  have hnext : ∀ {k}, m < k → doing? (worldAt x es k).state c = some d → ∀ answers,
      (step (worldAt x es k) (.turn c answers)).state.ending? c = some (.error
        (farewell x.state.name d (fired? (worldAt x es k).state c)), (worldAt x es k).now) := by
    intro k hk hdk answers
    rw [← (settings_worldAt x es k).1]
    exact (h k hk).turn hdk hs answers
  -- by induction on the events since then: it does the same up to its last turn
  induction hmn with
  | refl =>
    have hready : ∀ i, m < i → i ≤ m + 1 → .call c ∈ (worldAt x es i).ready := by
      intro i hmi hi
      rw [show i = m + 1 by omega]
      exact (h (m + 1) (Nat.lt_succ_self m)).ready hd hs
    refine .pending ⟨hready, fun i _ hmi hi => ?_, ?_⟩ hd (hnext (Nat.lt_succ_self m) hd)
    · rw [Nat.succ_eq_add_one] at hi
      omega
    · exact now_of_ready hm (Nat.le_succ m) hready
  | @step n hmn ih =>
    have hmn : m < n := hmn
    cases ih with
    | ended k answers hmk hk hh he hend =>
      exact .ended k answers hmk (Nat.lt_succ_of_lt hk) hh he (ending?_mono (Nat.le_succ n) hend)
    | dropped k hmk hk hh he hend =>
      exact .dropped k hmk (Nat.lt_succ_of_lt hk) hh he (hend.mono (Nat.le_succ n))
    | pending hhand hdn hlast =>
      have hshut := h n hmn
      have hgoes : (∀ answers, es[n]? ≠ some (.turn c answers)) →
          doing? (worldAt x es (n + 1)).state c = some d → SentAway x es m (n + 1) c d := by
        intro hno hd'
        have hr := (h (n + 1) (Nat.lt_succ_of_lt hmn)).ready hd' hs
        exact .pending (hhand.succ hm hmn hno hr) hd' (hnext (Nat.lt_succ_of_lt hmn) hd')
      rcases worldAt_cases x es n with ⟨hnone, hsame⟩ | ⟨e, he, hstep⟩
      · exact hgoes (fun _ hn => by rw [hnone] at hn; cases hn) (by rw [hsame]; exact hdn)
      by_cases hdrop : e = .abort c
      · refine .dropped n hmn (Nat.lt_succ_self n) hhand (by rw [he, hdrop]) ?_
        rw [hstep, hdrop]
        exact .of_doing hdn
      rcases turn_or_noTurn (worldAt x es n) e c with ⟨answers, rfl, -⟩ | hno
      · exact .ended n answers hmn (Nat.lt_succ_self n) hhand he (by rw [hstep]; exact hlast answers)
      · refine hgoes (fun answers hn => ?_) ?_
        · rw [he] at hn
          exact hno answers (Option.some.inj hn) (hshut.ready hdn hs)
        · rw [hstep]
          exact doing?_after hshut.attended.sound hno hdrop hdn

/-- A call has not come in, has not had its first turn, or waits for a permit. -/
def Outside (s : Caller α) (c : Nat) : Prop :=
  s.calls.get? c = none ∨ ∃ d, doing? s c = some d ∧ d.isAshore = true

theorem phase_of_outside {s : Caller α} (h : s.Sound) (hc : s.Outside c) : phase? s c = none := by
  rcases hc with hnone | ⟨d, hd, hs⟩
  · by_contra hphase
    obtain ⟨call, hknown, -⟩ := h.known_among hphase
    rw [hnone] at hknown; cases hknown
  · obtain ⟨call, hknown, hashore⟩ := ashore_of_doing hd hs
    unfold phase?
    rw [h.ashore c call hknown hashore]
    rfl

/-- What holds at every point after the close. -/
structure After (x : World α) (es : List (Event α)) (m limit : Nat) : Prop where
  steady : ∀ i, Steady (worldAt x es i) limit
  close : es[m]? = some .close
  shut : ∀ i, m < i → Shut (worldAt x es i) limit

/-- Nobody comes among the flights after the close. -/
theorem After.phase (h : After x es m limit) (hc : phase? (worldAt x es m).state c = none)
    (hmn : m ≤ n) : phase? (worldAt x es n).state c = none := by
  refine Trace.after_since (P := fun (y : World α) => phase? y.state c = none) hmn hc ?_
  intro i hmi e he hi
  rcases Nat.lt_or_eq_of_le hmi with hlt | rfl
  · exact ashore_stays (h.steady i).placed (h.shut i hlt).closed e hi
  · rw [h.close] at he; cases he
    exact hi

/-- **The events of a call without a permit are not noticed.** -/
theorem After.untouched (h : After x es m limit) (hc : phase? (worldAt x es m).state c = none)
    {i : Nat} {e : Event α} (hmi : m < i) (he : es[i]? = some e) (hcall : e.call? = some c) :
    Alike id (worldAt x es i) (worldAt x es (i + 1)) := by
  rw [worldAt_succ x he]
  exact alike_of_ashore (h.steady i).placed (h.steady i).metered hcall
    (h.phase hc (Nat.le_of_lt hmi)) fun _ _ => (h.shut i hmi).closed

/-- Whoever is among the flights stays there. -/
theorem phase?_stays (h : x.state.Sound) (e : Event α) (hc : phase? x.state c ≠ none) :
    phase? (step x e).state c ≠ none := by
  cases voyage h e with
  | calm _ hphase => rw [hphase c]; exact hc
  | moved d call p _ hself hothers _ =>
    by_cases hcd : c = d
    · rw [hcd, hself]; exact Option.some_ne_none p
    · rw [hothers c hcd]; exact hc

theorem After.phase_stays (h : After x es m limit) (hc : phase? (worldAt x es m).state c ≠ none)
    (hmn : m ≤ n) : phase? (worldAt x es n).state c ≠ none :=
  Trace.after_since (P := fun (y : World α) => phase? y.state c ≠ none) hmn hc
    fun i _ e _ hi => phase?_stays (h.steady i).placed.sound e hi

theorem After.untried (h : After x es m limit) (hx : x.state.Fresh)
    (hc : phase? (worldAt x es m).state c = none) (hmn : m ≤ n) : Untried x es m n c := by
  refine untried_of_ashore hx (h.phase hc hmn) fun i answers hmi he => ?_
  rcases Nat.lt_or_eq_of_le hmi with hlt | rfl
  · exact (h.untouched hc hlt he rfl).state.flights.symm
  · rw [h.close] at he; cases he

/-- To close a closed caller changes nothing. -/
theorem close_again {s : Caller α} (hclosed : s.permits.closed = true) (hfair : s.permits.Fair)
    (hcache : s.cache.closed = true) : s.close = s := by
  obtain ⟨name, policy, breaker, ⟨plimit, free, queue, granted, closed⟩, flights, calls⟩ := s
  obtain rfl : closed = true := hclosed
  obtain rfl : queue = [] := hfair.shut rfl
  obtain ⟨fname, fcalls, inFlight, ⟨⟨cache, interval, tick⟩, record, journal⟩, fjournal⟩ := flights
  have hsame : cache.close = cache := by
    obtain ⟨⟩ := cache
    cases hcache
    rfl
  simp only [close, Permits.close, withCache, Store.withCache, Caller.cache, hsame]

/-- The run in which the caller is not closed, where it is when the caller is at event `n`. -/
def beside (x : World α) (es : List (Event α)) (m n : Nat) : World α :=
  worldAt x (unclosed x es m n) (unclosed x es m n).length

theorem After.paired (h : After x es m limit) (hmn : m < n) :
    Paired limit (worldAt x es n) (beside x es m n) :=
  paired_unclosed (h.steady 0) h.close hmn

/-- Whoever held a permit fares alike in both runs. -/
theorem After.holder (h : After x es m limit) (hc : c ∈ (worldAt x es m).state.holders)
    (hmn : m < n) :
    (worldAt x es n).state.calls.get? c = (beside x es m n).state.calls.get? c := by
  obtain ⟨p, _, hp, -⟩ := doing_of_holder (h.steady m).placed (h.steady m).metered hc
  have hphase : phase? (worldAt x es m).state c ≠ none := by
    rw [hp]
    exact Option.some_ne_none p
  exact ((h.paired hmn).alike.state.calls c (h.phase_stays hphase (Nat.le_of_lt hmn))).symm

theorem After.comes (h : After x es m limit) {i : Nat} {key : String} {ttl : Nat} {fired : Bool}
    (hmi : m < i) (hin : i < n) (he : es[i]? = some (.call c key ttl fired))
    (hnone : (worldAt x es i).state.calls.get? c = none) : SentAway x es i n c .arriving := by
  refine sentAway (fun j hij => h.shut j (Nat.lt_trans hmi hij))
    (fun _ hn => by rw [he] at hn; cases hn) ?_ rfl hin
  rw [worldAt_succ x he]
  simp only [step, hnone, Option.isSome_none, Bool.false_eq_true, if_false, Clock.World.state_wake]
  exact doing?_start _ _ _ _ _

theorem After.ashore (h : After x es m limit) {d : Doing α} (hmn : m < n)
    (hd : doing? (worldAt x es m).state c = some d) (hs : d.isAshore = true) :
    SentAway x es m n c d := by
  refine sentAway h.shut (fun _ hn => by rw [h.close] at hn; cases hn) ?_ hs hmn
  rw [worldAt_succ x h.close]
  exact hd

theorem After.again (h : After x es m limit) {i : Nat} (hmi : m < i) (he : es[i]? = some .close) :
    worldAt x es (i + 1) = worldAt x es i := by
  have hfair := (h.steady i).metered.fair
  have hclosed := (h.shut i hmi).closed
  have hsame : (worldAt x es i).state.close = (worldAt x es i).state :=
    close_again hclosed hfair (by rw [(h.paired hmi).alike.state.cache]; rfl)
  rw [worldAt_succ x he]
  simp only [step, closeAndWake, hsame, hfair.shut hclosed]
  rfl

theorem dawn_after (name : String) (settings : Config.Settings) (now : Nat)
    (he : es[m]? = some .close) :
    After (dawn name settings now) es m (permitsOf settings) := by
  have hwakeful : ∀ i, Wakeful (worldAt (dawn name settings now) es i) :=
    worldAt_wakeful (dawn_wakeful name settings now)
  have hattended : ∀ i, Attended (worldAt (dawn name settings now) es i) (permitsOf settings) :=
    worldAt_attended (dawn_attended name settings now)
  refine ⟨fun i => ⟨(hwakeful i).placed, (hattended i).metered⟩, he,
    fun i hmi => ⟨hwakeful i, hattended i, ?_⟩⟩
  refine Trace.after_since (P := fun (y : World α) => y.state.permits.closed = true) hmi ?_
    fun _ _ e _ hy => closed_stays hy e
  show (worldAt (dawn name settings now) es (m + 1)).state.permits.closed = true
  rw [worldAt_succ _ he]
  rfl

/-- What becomes of a caller that is closed in event `m`. -/
structure ClosedFrom (x : World α) (es : List (Event α)) (m limit : Nat) : Prop where
  /-- A call that comes in afterwards is turned away in its first turn. -/
  comes : ∀ i n c key ttl fired, m < i → i < n → es[i]? = some (.call c key ttl fired) →
    (worldAt x es i).state.calls.get? c = none → SentAway x es i n c .arriving
  /-- So is a call that has come in before and not had its first turn; a call that waits for a permit
  is sent away, or cancelled if its token has fired. -/
  ashore : ∀ n c d, m < n → doing? (worldAt x es m).state c = some d → d.isAshore = true →
    SentAway x es m n c d
  /-- What they do leaves the breaker, the cache and the flights as they are. -/
  untouched : ∀ i e c, m < i → es[i]? = some e → e.call? = some c →
    Outside (worldAt x es m).state c →
    (worldAt x es (i + 1)).state.breaker = (worldAt x es i).state.breaker ∧
      (worldAt x es (i + 1)).state.flights = (worldAt x es i).state.flights
  /-- They make no attempt, look nothing up, and report nothing. -/
  untried : ∀ n c, m ≤ n → Outside (worldAt x es m).state c → Untried x es m n c
  /-- For the calls with a permit everything is as in a run in which the caller is not closed: the
  instant, the breaker, the flights with their calls, the cache but for the mark that its cleanup has
  stopped, all that was noticed about attempts, and how they end. -/
  instant : ∀ n, m < n → (worldAt x es n).now = (beside x es m n).now
  breaker : ∀ n, m < n → (worldAt x es n).state.breaker = (beside x es m n).state.breaker
  flights : ∀ n, m < n → (worldAt x es n).state.flights =
    (beside x es m n).state.flights.mapStore Store.shut
  holders : ∀ n c, m < n → c ∈ (worldAt x es m).state.holders →
    (worldAt x es n).state.calls.get? c = (beside x es m n).state.calls.get? c
  /-- That run is one run, and the caller is not closed in it from then on. -/
  grows : ∀ n n', n ≤ n' → unclosed x es m n <+: unclosed x es m n'
  never : (∀ e ∈ es.take m, e.isClose = false) → ∀ n, ∀ e ∈ unclosed x es m n, e.isClose = false
  /-- Nobody is given a permit any more, and none is lost. -/
  permits : ∀ n, m < n → (worldAt x es n).state.permits.queue = [] ∧
    (worldAt x es n).state.permits.free + (worldAt x es n).state.permits.granted.length +
      (worldAt x es n).state.holders.length = limit
  returned : ∀ n, (∀ c, doing? (worldAt x es n).state c = none) →
    (worldAt x es n).state.permits.free = limit
  again : ∀ i, m < i → es[i]? = some .close → worldAt x es (i + 1) = worldAt x es i

theorem unclosed_isPrefix {n' : Nat} (h : n ≤ n') : unclosed x es m n <+: unclosed x es m n' := by
  unfold unclosed
  exact (List.prefix_append_right_inj _).2 (Trace.echoed_isPrefix (by omega))

/-- Nothing closes the caller in the other run. -/
theorem carried_open (x : World α) (e : Event α) : ∀ e' ∈ carried x e, e'.isClose = false := by
  intro e' he'
  have hsame : e.isClose = false →
      e' ∈ (if e.call?.all (fun c => (phase? x.state c).isSome) then [e] else []) →
      e'.isClose = false := by
    intro he hmem
    split at hmem
    · rw [List.mem_singleton.1 hmem]; exact he
    · cases hmem
  cases e with
  | call c key ttl fired => cases he'
  | close => cases he'
  | chore chore timerFirst =>
    cases chore with
    | tick =>
      simp only [carried] at he'
      split at he'
      · rw [List.mem_singleton.1 he']; rfl
      · cases he'
    | sweep => exact hsame rfl he'
  | pass limit =>
    rcases List.mem_cons.1 he' with rfl | hmem
    · rfl
    · rw [List.mem_singleton.1 hmem]; rfl
  | _ => exact hsame rfl he'

theorem unclosed_open (hes : ∀ e ∈ es.take m, e.isClose = false) (n : Nat) :
    ∀ e ∈ unclosed x es m n, e.isClose = false := by
  intro e he
  unfold unclosed at he
  rcases List.mem_append.1 he with he | he
  · rcases List.mem_append.1 he with he | he
    · exact hes e he
    · obtain ⟨c, -, rfl⟩ := List.mem_map.1 he
      rfl
  · obtain ⟨_, e₀, -, -, hmem⟩ := Trace.mem_echoed he
    exact carried_open _ e₀ e hmem

/-- **To close a caller** sends away the calls without a permit, whatever comes afterwards, and they
leave everything as it is; the calls with a permit go on as if the caller were not closed, no permit
is lost, and closing it again changes nothing. -/
theorem closed_caller (name : String) (settings : Config.Settings) (now : Nat)
    (es : List (Event α)) (m : Nat) (he : es[m]? = some .close) :
    ClosedFrom (dawn name settings now) es m (permitsOf settings) := by
  have hafter : After (dawn name settings now) es m (permitsOf settings) :=
    dawn_after name settings now he
  have hplaced : Placed (worldAt (dawn name settings now) es m).state := (hafter.steady m).placed
  constructor
  case comes => exact fun i n c key ttl fired hmi hin hi hnone => hafter.comes hmi hin hi hnone
  case ashore => exact fun n c d hmn hd hs => hafter.ashore hmn hd hs
  case untouched =>
    intro i e c hmi hi hcall hc
    have hsame := (hafter.untouched (phase_of_outside hplaced.sound hc) hmi hi hcall).state
    exact ⟨hsame.breaker, hsame.flights.symm⟩
  case untried =>
    intro n c hmn hc
    exact hafter.untried (make_fresh name settings now) (phase_of_outside hplaced.sound hc) hmn
  case instant => exact fun n hmn => (hafter.paired hmn).alike.now.symm
  case breaker => exact fun n hmn => (hafter.paired hmn).alike.state.breaker.symm
  case flights => exact fun n hmn => (hafter.paired hmn).alike.state.flights
  case holders => exact fun n c hmn hc => hafter.holder hc hmn
  case grows => exact fun n n' => unclosed_isPrefix
  case never => exact fun hes n => unclosed_open hes n
  case permits =>
    intro n hmn
    have hmetered := (hafter.steady n).metered
    exact ⟨hmetered.fair.shut (hafter.shut n hmn).closed, hmetered.balance⟩
  case returned =>
    intro n hidle
    have hattended : Attended (worldAt (dawn name settings now) es n) (permitsOf settings) :=
      worldAt_attended (dawn_attended name settings now) n
    exact hattended.all_free (hafter.steady n).placed hidle
  case again => exact fun i hmi hi => hafter.again hmi hi

/-- Two calls hold the permits, one of them waiting for the flight of the other, and two wait for a
permit. The token of one of these fires, and the caller is closed; then another call comes in. -/
def closedMidway : List (Event Nat) :=
  [.call 0 "k" 60 false, .turn 0 (fun _ => { takes := some 5, result := .ok 7 }),
    .call 1 "k" 60 false, .turn 1 silence, .call 2 "m" 60 false, .turn 2 silence,
    .call 3 "m" 60 false, .turn 3 silence, .fire 3, .close, .turn 2 silence, .turn 3 silence,
    .call 4 "k" 60 false, .turn 4 silence, .pass 9, .turn 0 silence, .turn 1 silence, .close]

theorem closedMidway_closed : closedMidway[9]? = some .close ∧
    ClosedFrom (dawn "r" twoPermits 0) closedMidway 9 2 ∧
    [0, 1, 2, 3, 4].map (worldAt (dawn "r" twoPermits 0) closedMidway 18).state.ending? =
      [some (.ok 7, 5), some (.ok 7, 5), some (.error (closedFailure "r"), 0),
        some (.error .cancelled, 0), some (.error (closedFailure "r"), 0)] :=
  ⟨rfl, closed_caller "r" twoPermits 0 closedMidway 9 rfl, rfl⟩

end RegistryLookup.Caller
