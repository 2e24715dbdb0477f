import RegistryLookup.Caller.Basic

/-!
# How a breaker moves

* `allow_cases`: admission changes the breaker only by a probe, or by making it half open.
* `circuit_recordFailure`, `recordFailure_of_closed`: a failure leaves a circuit closed only below
  the threshold.
* `books_recordFailure`, `books_recordSuccess`, `Allowed.books`: what is counted and dated.
* `settleReport_cases`: a result counts as a failure, shows that the registry is well, or says
  nothing; and nothing is said by a call that was served while the circuit is not half open.
-/

namespace RegistryLookup

namespace Breaker

/-- What a request for admission makes of a breaker. -/
inductive Allowed (b b' : Breaker) : Prop
  | same (h : b' = b)
  | turns (hb : b.circuit = .opened) (h : b' = { b.moveTo .halfOpen with probes := 0 })
  | probes (hb : b.circuit = .halfOpen) (h : b' = { b with probes := b.probes + 1 })

theorem allow_cases (b : Breaker) (now : Nat) : Allowed b (b.allow now).2 := by
  unfold allow
  cases hb : b.circuit with
  | closed => exact .same rfl
  | opened =>
    cases hc : b.cooledDown now with
    | true => exact .turns hb rfl
    | false => exact .same rfl
  | halfOpen =>
    by_cases hp : b.probes < b.probeLimit
    · exact .probes hb (by simp [hp, hb])
    · exact .same (by simp [hp])

/-- Admission never closes the circuit. -/
theorem Allowed.of_closed {b b' : Breaker} (h : Allowed b b') (hb : b'.circuit = .closed) :
    b' = b := by
  cases h with
  | same h => exact h
  | turns _ h => rw [h] at hb; cases hb
  | probes hhalf h =>
    rw [h] at hb
    rw [show b.circuit = .closed from hb] at hhalf; cases hhalf

theorem Allowed.of_halfOpen {b b' : Breaker} (h : Allowed b b') (hb : b'.circuit = .halfOpen) :
    b.circuit = .opened ∨ b.circuit = .halfOpen := by
  cases h with
  | same h => rw [h] at hb; exact Or.inr hb
  | turns hopen _ => exact Or.inl hopen
  | probes hhalf _ => exact Or.inr hhalf

theorem circuit_recordSuccess (b : Breaker) :
    b.recordSuccess.circuit = if b.circuit = .halfOpen then .closed else b.circuit := by
  unfold recordSuccess
  cases hb : b.circuit <;> simp [moveTo]

theorem failures_recordSuccess (b : Breaker) : b.recordSuccess.failures = 0 := by
  unfold recordSuccess
  cases b.circuit <;> rfl

/-- A failure leaves a circuit closed that was closed before and has not seen enough of them. -/
theorem recordFailure_of_closed {b : Breaker} {now : Nat}
    (h : (b.recordFailure now).circuit = .closed) : b.circuit = .closed ∧
      (b.recordFailure now).failures = min (b.failures + 1) mostFailures ∧
      (b.recordFailure now).failures < b.threshold := by
  unfold recordFailure at h ⊢
  cases hb : b.circuit with
  | opened => simp [hb] at h
  | halfOpen => simp [hb, moveTo] at h
  | closed =>
    simp only [hb] at h ⊢
    by_cases ht : b.threshold ≤ min (b.failures + 1) mostFailures
    · simp [ht, moveTo] at h
    · simp only [if_neg ht]
      exact ⟨trivial, trivial, Nat.lt_of_not_le ht⟩

@[simp] theorem threshold_recordSuccess (b : Breaker) : b.recordSuccess.threshold = b.threshold := by
  unfold recordSuccess
  cases b.circuit <;> rfl

@[simp] theorem threshold_recordFailure (b : Breaker) (now : Nat) :
    (b.recordFailure now).threshold = b.threshold := by
  unfold recordFailure
  cases b.circuit with
  | closed => simp only; split <;> rfl
  | opened => rfl
  | halfOpen => rfl

theorem Allowed.threshold {b b' : Breaker} (h : Allowed b b') : b'.threshold = b.threshold := by
  cases h with
  | same h => rw [h]
  | turns _ h => rw [h]; rfl
  | probes _ h => rw [h]

/-- A failure opens every circuit but a closed one that has not seen enough of them. -/
theorem circuit_recordFailure (b : Breaker) (now : Nat) : (b.recordFailure now).circuit =
    if b.circuit = .closed ∧ min (b.failures + 1) mostFailures < b.threshold then .closed
    else .opened := by
  unfold recordFailure
  cases hb : b.circuit with
  | opened => simp
  | halfOpen => simp [moveTo]
  | closed =>
    by_cases ht : b.threshold ≤ min (b.failures + 1) mostFailures
    · have hno : ¬ min (b.failures + 1) mostFailures < b.threshold := Nat.not_lt.2 ht
      simp only [ht, hno, if_true, and_false, if_false]
      rfl
    · have hyes : min (b.failures + 1) mostFailures < b.threshold := Nat.lt_of_not_le ht
      simp only [ht, hyes, if_false, and_self, if_true]

/-- A failure is counted and dated. -/
theorem books_recordFailure (b : Breaker) (now : Nat) :
    (b.recordFailure now).failures = min (b.failures + 1) mostFailures ∧
      (b.recordFailure now).lastFailure = some now ∧
      (b.recordFailure now).resetTimeout = b.resetTimeout := by
  unfold recordFailure
  cases b.circuit with
  | closed => simp only; split <;> exact ⟨rfl, rfl, rfl⟩
  | opened => exact ⟨rfl, rfl, rfl⟩
  | halfOpen => exact ⟨rfl, rfl, rfl⟩

/-- A success does not touch the date of the last failure. -/
theorem books_recordSuccess (b : Breaker) : b.recordSuccess.lastFailure = b.lastFailure ∧
    b.recordSuccess.resetTimeout = b.resetTimeout := by
  unfold recordSuccess
  cases b.circuit <;> exact ⟨rfl, rfl⟩

/-- Admission leaves the count of failures and what it is judged by. -/
theorem Allowed.books {b b' : Breaker} (h : Allowed b b') : b'.failures = b.failures ∧
    b'.lastFailure = b.lastFailure ∧ b'.resetTimeout = b.resetTimeout := by
  cases h with
  | same h => rw [h]; exact ⟨rfl, rfl, rfl⟩
  | turns _ h => rw [h]; exact ⟨rfl, rfl, rfl⟩
  | probes _ h => rw [h]; exact ⟨rfl, rfl, rfl⟩

end Breaker

namespace Caller

variable {α : Type}

/-- The result says nothing of the registry. -/
def isCancelled : Except Failure α → Bool
  | .error .cancelled => true
  | _ => false

/-- The result counts against the registry. -/
def isFailure : Except Failure α → Bool
  | .ok _ => false
  | .error e => e.countsAsFailure

/-- The result shows that the registry is well. -/
def isSound : Except Failure α → Bool
  | .ok _ => true
  | .error .cancelled => false
  | .error e => !e.countsAsFailure

/-- What a result does to a breaker. -/
inductive Reported (b : Breaker) (now : Nat) (r : Except Failure α) (b' : Breaker) : Prop
  | failure (hr : isFailure r = true) (hw : isSound r = false) (h : b' = b.recordFailure now)
  | sound (hr : isFailure r = false) (hw : isSound r = true) (h : b' = b.recordSuccess)
  | nothing (hr : r = .error .cancelled) (h : b' = b)

theorem isCancelled_iff (r : Except Failure α) : isCancelled r = true ↔ r = .error .cancelled := by
  unfold isCancelled
  split
  · simp
  · rename_i hno
    simpa using hno

theorem report_cases (b : Breaker) (now : Nat) (r : Except Failure α) :
    Reported b now r (report b now r) := by
  cases r with
  | ok v => exact .sound rfl rfl rfl
  | error e =>
    by_cases hc : e = .cancelled
    · subst hc
      exact .nothing rfl rfl
    · have hreport : report b now (.error e : Except Failure α) =
          if e.countsAsFailure then b.recordFailure now else b.recordSuccess := by
        cases e <;> first | rfl | exact absurd rfl hc
      have hsound : isSound (.error e : Except Failure α) = !e.countsAsFailure := by
        cases e <;> first | rfl | exact absurd rfl hc
      cases hf : e.countsAsFailure with
      | true => exact .failure hf (by rw [hsound, hf]; rfl) (by rw [hreport, hf]; rfl)
      | false => exact .sound hf (by rw [hsound, hf]; rfl) (by rw [hreport, hf]; rfl)

/-- What the end of a call does to a breaker. -/
theorem settleReport_cases (b : Breaker) (now : Nat) (E : Flight.Ending α) :
    (E.shared = true ∧ b.circuit ≠ .halfOpen ∧ settleReport b now E = b) ∨
      ((E.shared = true → b.circuit = .halfOpen) ∧
        Reported b now E.result (settleReport b now E)) := by
  unfold settleReport
  split
  · rename_i h
    obtain ⟨hs, hb⟩ := Bool.and_eq_true_iff.1 h
    exact Or.inl ⟨hs, by simpa using hb, rfl⟩
  · rename_i h
    exact Or.inr ⟨fun hs => by simpa [hs] using h, report_cases b now E.result⟩

end Caller

end RegistryLookup
