import RegistryLookup.Proofs.Breaker.Run

/-!
# The books of a breaker

Reports may come in at any time and in any position of the circuit. Whatever their order, the
breaker counts the failures since the last success, up to the largest word, and keeps the date of
the last failure. A closed circuit is below the threshold, and a half-open one has waited out the
reset time (`Session.Sound`).

* `step_sound`, `sessionAt_sound`: every operation keeps that.
* `failures_eq`, `lastFailure_eq`: the books say what the operations say.
* `opened_iff`: a closed circuit opens exactly with the failure that reaches the threshold.
* `admitted_late`: a circuit that is not closed admits nobody before the reset time is over.
* `books_kept`: all of it, at every point of every run.
-/

namespace RegistryLookup.Breaker

/-- What every operation keeps. -/
structure Session.Sound (s : Session) : Prop where
  positive : 0 < s.breaker.threshold
  /-- The count does not stop before it has reached the threshold. -/
  reachable : s.breaker.threshold ≤ mostFailures
  below : s.breaker.circuit = .closed → s.breaker.failures < s.breaker.threshold
  dated : s.breaker.circuit ≠ .closed → ∃ t, s.breaker.lastFailure = some t
  waited : s.breaker.circuit = .halfOpen →
    ∀ t, s.breaker.lastFailure = some t → s.breaker.resetTimeout < s.now - t

theorem dawn_sound (name : String) (settings : Config.BreakerSettings) (now : Nat) :
    (dawn name settings now).Sound := by
  have hword : settings.failureThreshold.toNat < UInt32.size := settings.failureThreshold.toNat_lt
  have hsize : UInt32.size = 4294967296 := rfl
  have hpositive : 0 < max 1 settings.failureThreshold.toNat := by omega
  refine ⟨hpositive, ?_, fun _ => hpositive, fun h => absurd rfl h, fun h => by cases h⟩
  show max 1 settings.failureThreshold.toNat ≤ UInt32.size - 1
  omega

/-- An open circuit that turns half open has cooled down. -/
theorem cooledDown_of_allow {b : Breaker} {now : Nat} (hb : b.circuit = .opened)
    (h : (b.allow now).2.circuit = .halfOpen) : b.cooledDown now = true := by
  cases hc : b.cooledDown now with
  | true => rfl
  | false =>
    have hsame : (b.allow now).2 = b := by simp [allow, hb, hc]
    rw [hsame, hb] at h
    cases h

theorem waited_of_cooledDown {b : Breaker} {now t : Nat} (hc : b.cooledDown now = true)
    (ht : b.lastFailure = some t) : b.resetTimeout < now - t := by
  unfold cooledDown at hc
  rw [ht] at hc
  exact of_decide_eq_true hc

theorem allow_sound {s : Session} (h : s.Sound) : (s.step .allow).Sound := by
  have hcase : Allowed s.breaker (s.breaker.allow s.now).2 := allow_cases s.breaker s.now
  obtain ⟨-, hlast, hreset⟩ := hcase.books
  have hthreshold := hcase.threshold
  refine ⟨?_, ?_, fun hclosed => ?_, fun hopen => ?_, fun hhalf t ht => ?_⟩
  · exact Nat.lt_of_lt_of_eq h.positive hthreshold.symm
  · exact Nat.le_trans (Nat.le_of_eq hthreshold) h.reachable
  · have hsame : (s.step .allow).breaker = s.breaker := hcase.of_closed hclosed
    rw [hsame] at hclosed ⊢
    exact h.below hclosed
  · have hwas : s.breaker.circuit ≠ .closed := by
      intro hclosed
      have hsame : (s.breaker.allow s.now).2 = s.breaker := by simp [allow, hclosed]
      exact hopen ((congrArg circuit hsame).trans hclosed)
    obtain ⟨t, ht⟩ := h.dated hwas
    exact ⟨t, hlast.trans ht⟩
  · have hdate : s.breaker.lastFailure = some t := hlast.symm.trans ht
    have hlate : s.breaker.resetTimeout < s.now - t := by
      rcases hcase.of_halfOpen hhalf with hopened | hwas
      · exact waited_of_cooledDown (cooledDown_of_allow hopened hhalf) hdate
      · exact h.waited hwas t hdate
    exact Nat.lt_of_le_of_lt (Nat.le_of_eq hreset) hlate

theorem success_sound {s : Session} (h : s.Sound) : (s.step .success).Sound := by
  obtain ⟨hlast, -⟩ := books_recordSuccess s.breaker
  have hthreshold := threshold_recordSuccess s.breaker
  have hcircuit := circuit_recordSuccess s.breaker
  refine ⟨?_, ?_, fun _ => ?_, fun hopen => ?_, fun hhalf => ?_⟩
  · exact Nat.lt_of_lt_of_eq h.positive hthreshold.symm
  · exact Nat.le_trans (Nat.le_of_eq hthreshold) h.reachable
  · show s.breaker.recordSuccess.failures < s.breaker.recordSuccess.threshold
    rw [failures_recordSuccess, hthreshold]
    exact h.positive
  · have hwas : s.breaker.circuit ≠ .closed := by
      intro hclosed
      rw [hclosed] at hcircuit
      exact hopen hcircuit
    obtain ⟨t, ht⟩ := h.dated hwas
    exact ⟨t, hlast.trans ht⟩
  · -- a success leaves no circuit half open
    have hno : s.breaker.recordSuccess.circuit ≠ .halfOpen := by
      rw [hcircuit]
      split
      · decide
      · assumption
    exact absurd hhalf hno

theorem failure_sound {s : Session} (h : s.Sound) : (s.step .failure).Sound := by
  obtain ⟨hfailures, hlast, -⟩ := books_recordFailure s.breaker s.now
  have hthreshold := threshold_recordFailure s.breaker s.now
  have hcircuit := circuit_recordFailure s.breaker s.now
  refine ⟨?_, ?_, fun hclosed => ?_, fun _ => ⟨s.now, hlast⟩, fun hhalf => ?_⟩
  · exact Nat.lt_of_lt_of_eq h.positive hthreshold.symm
  · exact Nat.le_trans (Nat.le_of_eq hthreshold) h.reachable
  · show (s.breaker.recordFailure s.now).failures < (s.breaker.recordFailure s.now).threshold
    rw [hthreshold]
    exact (recordFailure_of_closed hclosed).2.2
  · have hno : (s.breaker.recordFailure s.now).circuit ≠ .halfOpen := by
      rw [hcircuit]
      split <;> decide
    exact absurd hhalf hno

/-- **Every operation keeps it.** -/
theorem step_sound {s : Session} (h : s.Sound) (op : Operation) : (s.step op).Sound := by
  cases op with
  | allow => exact allow_sound h
  | success => exact success_sound h
  | failure => exact failure_sound h
  | state => exact h
  | name => exact h
  | advance d =>
    refine ⟨h.positive, h.reachable, h.below, h.dated, fun hhalf t ht => ?_⟩
    have hwaited := h.waited hhalf t ht
    show s.breaker.resetTimeout < s.now + d - t
    omega

theorem sessionAt_sound {x : Session} (h : x.Sound) (ops : List Operation) (n : Nat) :
    (sessionAt x ops n).Sound :=
  Trace.after_invariant h (fun _ op _ hs => step_sound hs op) n

theorem failures_step (s : Session) (op : Operation) : (s.step op).breaker.failures =
    if op.isSuccess then 0
    else if op.isFailure then min (s.breaker.failures + 1) mostFailures
    else s.breaker.failures := by
  cases op with
  | allow => exact (allow_cases s.breaker s.now).books.1
  | success => exact failures_recordSuccess s.breaker
  | failure => exact (books_recordFailure s.breaker s.now).1
  | _ => rfl

theorem lastFailure_step (s : Session) (op : Operation) : (s.step op).breaker.lastFailure =
    if op.isFailure then some s.now else s.breaker.lastFailure := by
  cases op with
  | allow => exact (allow_cases s.breaker s.now).books.2.1
  | success => exact (books_recordSuccess s.breaker).1
  | failure => exact (books_recordFailure s.breaker s.now).2.1
  | _ => rfl

variable {x : Session} {ops : List Operation}

theorem take_succ_of_getElem? {n : Nat} {op : Operation} (hop : ops[n]? = some op) :
    ops.take (n + 1) = ops.take n ++ [op] := by
  rw [List.take_add_one, hop, Option.toList_some]

/-- **The count of failures is what the operations say.** -/
theorem failures_eq (hx : x.breaker.failures = 0) (ops : List Operation) (n : Nat) :
    (sessionAt x ops n).breaker.failures = min mostFailures (failureStreak (ops.take n)) := by
  induction n with
  | zero => rw [sessionAt_zero, hx, List.take_zero, failureStreak_nil, Nat.min_zero]
  | succ n ih =>
    rcases sessionAt_cases x ops n with ⟨hnone, hsame⟩ | ⟨op, hop, hstep⟩
    · have hlen : ops.length ≤ n := List.getElem?_eq_none_iff.1 hnone
      have htake : ops.take (n + 1) = ops.take n := by
        rw [List.take_of_length_le hlen, List.take_of_length_le (by omega)]
      rw [hsame, ih, htake]
    · rw [hstep, failures_step, ih, take_succ_of_getElem? hop, failureStreak_concat]
      cases op.isSuccess with
      | true => simp
      | false =>
        cases op.isFailure with
        | true => simp only [Bool.false_eq_true, if_false, if_true, Bool.toNat_true]; omega
        | false => simp

/-- **The date of the last failure is what the operations say.** -/
theorem lastFailure_eq (hx : x.breaker.lastFailure = none) (ops : List Operation) (n : Nat) :
    (sessionAt x ops n).breaker.lastFailure = (failureTimes x ops n).getLast? := by
  induction n with
  | zero => rw [sessionAt_zero, hx, failureTimes_zero, List.getLast?_nil]
  | succ n ih =>
    rcases sessionAt_cases x ops n with ⟨hnone, hsame⟩ | ⟨op, hop, hstep⟩
    · rw [hsame, ih, failureTimes_of_none hnone]
    · rw [hstep, lastFailure_step, ih, failureTimes_succ hop]
      cases op.isFailure with
      | true => simp
      | false => simp

/-- A closed circuit opens exactly with the failure that reaches the threshold. -/
theorem opened_iff {s : Session} (h : s.Sound) (hclosed : s.breaker.circuit = .closed)
    (op : Operation) : (s.step op).breaker.circuit = .opened ↔
      op = .failure ∧ (s.step op).breaker.failures = s.breaker.threshold := by
  have hbelow : s.breaker.failures < s.breaker.threshold := h.below hclosed
  have hreachable := h.reachable
  by_cases hop : op = .failure
  · subst hop
    have hfailures : (s.step .failure).breaker.failures = s.breaker.failures + 1 := by
      have hcount : (s.step .failure).breaker.failures = min (s.breaker.failures + 1) mostFailures :=
        (books_recordFailure s.breaker s.now).1
      omega
    have hcircuit : (s.step .failure).breaker.circuit =
        if s.breaker.circuit = .closed ∧ min (s.breaker.failures + 1) mostFailures <
          s.breaker.threshold then .closed else .opened :=
      circuit_recordFailure s.breaker s.now
    rw [hcircuit, hfailures]
    by_cases hreach : s.breaker.failures + 1 = s.breaker.threshold
    · have hno : ¬ min (s.breaker.failures + 1) mostFailures < s.breaker.threshold := by omega
      rw [if_neg (fun hand => hno hand.2)]
      exact ⟨fun _ => ⟨rfl, hreach⟩, fun _ => rfl⟩
    · have hyes : min (s.breaker.failures + 1) mostFailures < s.breaker.threshold := by omega
      rw [if_pos ⟨hclosed, hyes⟩]
      exact ⟨fun hne => (by cases hne), fun hand => absurd hand.2 hreach⟩
  · -- nothing else opens a closed circuit
    have hstays : (s.step op).breaker.circuit = .closed := by
      cases op with
      | failure => exact absurd rfl hop
      | allow =>
        have hsame : (s.breaker.allow s.now).2 = s.breaker := by simp [allow, hclosed]
        exact (congrArg circuit hsame).trans hclosed
      | success =>
        have hcircuit := circuit_recordSuccess s.breaker
        rw [hclosed] at hcircuit
        exact hcircuit
      | _ => exact hclosed
    rw [hstays]
    simp [hop]

/-- A circuit that is not closed admits nobody before the reset time is over. -/
theorem admitted_late {s : Session} (h : s.Sound) (hopen : s.breaker.circuit ≠ .closed)
    (hadmits : (s.breaker.allow s.now).1 = true) :
    ∃ t, s.breaker.lastFailure = some t ∧ s.breaker.resetTimeout < s.now - t := by
  obtain ⟨t, ht⟩ := h.dated hopen
  refine ⟨t, ht, ?_⟩
  cases hc : s.breaker.circuit with
  | closed => exact absurd hc hopen
  | halfOpen => exact h.waited hc t ht
  | opened =>
    have hcool : s.breaker.cooledDown s.now = true := by
      cases hcool : s.breaker.cooledDown s.now with
      | true => rfl
      | false => simp [allow, hc, hcool] at hadmits
    exact waited_of_cooledDown hcool ht

theorem settings_step (s : Session) (op : Operation) :
    (s.step op).breaker.threshold = s.breaker.threshold ∧
      (s.step op).breaker.resetTimeout = s.breaker.resetTimeout := by
  cases op with
  | allow =>
    have hcase : Allowed s.breaker (s.breaker.allow s.now).2 := allow_cases s.breaker s.now
    exact ⟨hcase.threshold, hcase.books.2.2⟩
  | success => exact ⟨threshold_recordSuccess _, (books_recordSuccess s.breaker).2⟩
  | failure => exact ⟨threshold_recordFailure _ _, (books_recordFailure s.breaker s.now).2.2⟩
  | _ => exact ⟨rfl, rfl⟩

theorem settings_sessionAt (x : Session) (ops : List Operation) (n : Nat) :
    (sessionAt x ops n).breaker.threshold = x.breaker.threshold ∧
      (sessionAt x ops n).breaker.resetTimeout = x.breaker.resetTimeout := by
  refine Trace.after_invariant (P := fun s : Session =>
    s.breaker.threshold = x.breaker.threshold ∧ s.breaker.resetTimeout = x.breaker.resetTimeout)
    ⟨rfl, rfl⟩ ?_ n
  intro s op _ h
  have hstep := settings_step s op
  exact ⟨hstep.1.trans h.1, hstep.2.trans h.2⟩

/-- What holds of a breaker with some settings after the first `n` operations of a run. -/
structure Books (settings : Config.BreakerSettings) (x : Session) (ops : List Operation)
    (n : Nat) : Prop where
  /-- The failures since the last success are counted, up to the largest word. -/
  failures : (sessionAt x ops n).breaker.failures = min (UInt32.size - 1) (failureStreak (ops.take n))
  lastFailure : (sessionAt x ops n).breaker.lastFailure = (failureTimes x ops n).getLast?
  below : (sessionAt x ops n).breaker.circuit = .closed →
    (sessionAt x ops n).breaker.failures < max 1 settings.failureThreshold.toNat
  /-- The next operation opens a closed circuit exactly if it is the failure that makes the count
  reach the threshold. -/
  opens : (sessionAt x ops n).breaker.circuit = .closed →
    ((sessionAt x ops (n + 1)).breaker.circuit = .opened ↔ ops[n]? = some .failure ∧
      (sessionAt x ops (n + 1)).breaker.failures = max 1 settings.failureThreshold.toNat)
  dated : (sessionAt x ops n).breaker.circuit ≠ .closed →
    ∃ t, (sessionAt x ops n).breaker.lastFailure = some t
  waited : (sessionAt x ops n).breaker.circuit = .halfOpen →
    ∃ t, (sessionAt x ops n).breaker.lastFailure = some t ∧
      Duration.ofMillis settings.resetTimeoutMs.toNat < (sessionAt x ops n).now - t
  /-- Whoever is let through by a circuit that is not closed comes late enough. -/
  admits : (sessionAt x ops n).breaker.circuit ≠ .closed →
    ((sessionAt x ops n).breaker.allow (sessionAt x ops n).now).1 = true →
    ∃ t, (sessionAt x ops n).breaker.lastFailure = some t ∧
      Duration.ofMillis settings.resetTimeoutMs.toNat < (sessionAt x ops n).now - t

/-- **A breaker keeps its books, whatever is reported and when.** -/
theorem books_kept (name : String) (settings : Config.BreakerSettings) (now : Nat)
    (ops : List Operation) (n : Nat) : Books settings (dawn name settings now) ops n := by
  have hsound : (sessionAt (dawn name settings now) ops n).Sound :=
    sessionAt_sound (dawn_sound name settings now) ops n
  obtain ⟨hthreshold, hreset⟩ := settings_sessionAt (dawn name settings now) ops n
  have hlimit : (sessionAt (dawn name settings now) ops n).breaker.threshold =
      max 1 settings.failureThreshold.toNat := hthreshold
  have htimeout : (sessionAt (dawn name settings now) ops n).breaker.resetTimeout =
      Duration.ofMillis settings.resetTimeoutMs.toNat := hreset
  refine ⟨failures_eq rfl ops n, lastFailure_eq rfl ops n, fun hclosed => ?_, fun hclosed => ?_,
    hsound.dated, fun hhalf => ?_, fun hopen hadmits => ?_⟩
  · rw [← hlimit]
    exact hsound.below hclosed
  · rcases sessionAt_cases (dawn name settings now) ops n with
      ⟨hnone, hsame⟩ | ⟨op, hop, hstep⟩
    · rw [hsame, hnone, hclosed]
      exact ⟨fun hne => (by cases hne), fun hand => (by cases hand.1)⟩
    · rw [hstep, hop, Option.some.injEq, ← hlimit]
      exact opened_iff hsound hclosed op
  · obtain ⟨t, ht⟩ := hsound.dated (by rw [hhalf]; decide)
    refine ⟨t, ht, ?_⟩
    rw [← htimeout]
    exact hsound.waited hhalf t ht
  · rw [← htimeout]
    exact admitted_late hsound hopen hadmits

end RegistryLookup.Breaker
