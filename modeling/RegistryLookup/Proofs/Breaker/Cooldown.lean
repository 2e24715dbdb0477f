import Mathlib.Data.List.Induction
import RegistryLookup.Proofs.Breaker.Books

/-!
# How long a refused caller waits

A breaker that refuses a call can say how long its circuit stays open. The time that it tells ends
with the reset time, and the breaker admits a probe only after that: at the very instant to which
the time leads, it still refuses.

* `dated_past`: the last failure is never in the future.
* `allow_iff_of_refused`: after a refusal the breaker admits a call exactly when more than the time
  that it told has passed.
* `stands_still`: requests and questions before that change nothing.
* `wait_told`: both, at every open point of every run.
* `refused_on_time`: a caller that comes back at the instant it was told is refused.
-/

namespace RegistryLookup.Breaker

/-- Whether an operation reports how a call went. -/
def Operation.isReport (op : Operation) : Bool := op.isSuccess || op.isFailure

/-- The time that an operation lets pass. -/
def Operation.duration : Operation → Nat
  | .advance d => d
  | _ => 0

/-- The time that operations let pass. -/
def elapsed : List Operation → Nat
  | [] => 0
  | op :: ops => op.duration + elapsed ops

theorem elapsed_append (ops more : List Operation) :
    elapsed (ops ++ more) = elapsed ops + elapsed more := by
  induction ops with
  | nil => exact (Nat.zero_add _).symm
  | cons op ops ih =>
    rw [List.cons_append, elapsed, elapsed, ih, Nat.add_assoc]

theorem now_step (s : Session) (op : Operation) : (s.step op).now = s.now + op.duration := by
  cases op <;> rfl

/-- **The last failure is never in the future.** -/
theorem dated_past {x : Session} (hx : x.breaker.lastFailure = none) (ops : List Operation)
    (n : Nat) : ∀ t, (sessionAt x ops n).breaker.lastFailure = some t →
      t ≤ (sessionAt x ops n).now := by
  refine Trace.after_invariant
    (P := fun s : Session => ∀ t, s.breaker.lastFailure = some t → t ≤ s.now) ?_ ?_ n
  · intro t ht
    rw [hx] at ht
    cases ht
  · intro s op _ h t ht
    have hnow := now_step s op
    rw [lastFailure_step] at ht
    split at ht
    · cases ht
      omega
    · have hpast : t ≤ s.now := h t ht
      omega

/-- An open breaker that refuses has not waited out the reset time. -/
theorem dated_of_refused {b : Breaker} {now : Nat} (hopen : b.circuit = .opened)
    (hrefused : (b.allow now).1 = false) :
    ∃ t, b.lastFailure = some t ∧ now - t ≤ b.resetTimeout := by
  have hcool : b.cooledDown now = false := by
    cases hc : b.cooledDown now with
    | false => rfl
    | true => simp [allow, hopen, hc] at hrefused
  unfold cooledDown at hcool
  cases ht : b.lastFailure with
  | none => simp [ht] at hcool
  | some t =>
    simp only [ht, decide_eq_false_iff_not, Nat.not_lt] at hcool
    exact ⟨t, rfl, hcool⟩

/-- What an open breaker says to a call. -/
theorem allow_of_opened {b : Breaker} {now t : Nat} (hopen : b.circuit = .opened)
    (ht : b.lastFailure = some t) : (b.allow now).1 = decide (b.resetTimeout < now - t) := by
  have hcool : b.cooledDown now = decide (b.resetTimeout < now - t) := by
    unfold cooledDown
    rw [ht]
  by_cases hlate : b.resetTimeout < now - t
  · simp [allow, hopen, hcool, hlate]
  · simp [allow, hopen, hcool, hlate]

/-- **After a refusal a call is admitted exactly when more than the time that was told has
passed.** -/
theorem allow_iff_of_refused {b : Breaker} {now : Nat} (hopen : b.circuit = .opened)
    (hpast : ∀ t, b.lastFailure = some t → t ≤ now) (hrefused : (b.allow now).1 = false)
    {later : Nat} (hlater : now ≤ later) :
    (b.allow later).1 = true ↔ now + b.retryAfter now < later := by
  obtain ⟨t, ht, hwaited⟩ := dated_of_refused hopen hrefused
  have hdate : t ≤ now := hpast t ht
  have htold : b.retryAfter now = b.resetTimeout - (now - t) := by
    unfold retryAfter
    rw [hopen, ht]
  rw [allow_of_opened hopen ht, decide_eq_true_iff, htold]
  omega

/-- A request that is refused leaves the breaker as it is. -/
theorem allow_of_refused {b : Breaker} {now : Nat} (hopen : b.circuit = .opened)
    (hrefused : (b.allow now).1 = false) : (b.allow now).2 = b := by
  have hcase : Allowed b (b.allow now).2 := allow_cases b now
  cases hcase with
  | same h => exact h
  | turns _ h =>
    have hcool : b.cooledDown now = true := cooledDown_of_allow hopen (by rw [h]; rfl)
    simp [allow, hopen, hcool] at hrefused
  | probes hhalf _ => rw [hopen] at hhalf; cases hhalf

/-- **Nothing that is asked before the time is over changes the breaker.** -/
theorem stands_still {s : Session} (hopen : s.breaker.circuit = .opened)
    (hpast : ∀ t, s.breaker.lastFailure = some t → t ≤ s.now)
    (hrefused : (s.breaker.allow s.now).1 = false) {asked : List Operation}
    (hquiet : ∀ op ∈ asked, op.isReport = false)
    (htime : elapsed asked ≤ s.breaker.retryAfter s.now) :
    asked.foldl Session.step s = { s with now := s.now + elapsed asked } := by
  -- by induction on the operations, from the last one back
  induction asked using List.reverseRecOn with
  | nil => rfl
  | append_singleton asked op ih =>
    have hsum : elapsed (asked ++ [op]) = elapsed asked + op.duration := elapsed_append asked [op]
    rw [hsum] at htime
    have hbefore := ih (fun o ho => hquiet o (List.mem_append_left _ ho)) (by omega)
    have hop : op.isReport = false := hquiet op (by simp)
    rw [List.foldl_append, hbefore, hsum]
    cases op with
    | success => cases hop
    | failure => cases hop
    | advance d => simp [Session.step, Session.perform, Operation.duration, Nat.add_assoc]
    | state => rfl
    | name => rfl
    | allow =>
      -- it is still too early
      have hnot : ¬ (s.breaker.allow (s.now + elapsed asked)).1 = true := by
        rw [allow_iff_of_refused hopen hpast hrefused (Nat.le_add_right _ _)]
        omega
      have hsame := allow_of_refused hopen (Bool.eq_false_iff.2 hnot)
      simp only [List.foldl_cons, List.foldl_nil, Session.step, Session.perform, hsame]
      rfl

/-- **A refused caller is admitted as soon as more than the time that it was told has passed, and
not before.** Whoever asks in the meantime is refused too, and changes nothing. -/
theorem wait_told (name : String) (settings : Config.BreakerSettings) (now : Nat)
    (ops : List Operation) (n : Nat) {s : Session}
    (hs : sessionAt (dawn name settings now) ops n = s) (hopen : s.breaker.circuit = .opened)
    (hrefused : (s.breaker.allow s.now).1 = false) :
    (∀ later, s.now ≤ later →
      ((s.breaker.allow later).1 = true ↔ s.now + s.breaker.retryAfter s.now < later)) ∧
    ∀ asked : List Operation, (∀ op ∈ asked, op.isReport = false) →
      elapsed asked ≤ s.breaker.retryAfter s.now →
      asked.foldl Session.step s = { s with now := s.now + elapsed asked } := by
  have hpast : ∀ t, s.breaker.lastFailure = some t → t ≤ s.now := by
    rw [← hs]
    exact dated_past rfl ops n
  refine ⟨?_, ?_⟩
  · intro later hlater
    exact allow_iff_of_refused hopen hpast hrefused hlater
  · intro asked hquiet htime
    exact stands_still hopen hpast hrefused hquiet htime

/-- One failure opens the circuit for ten milliseconds. -/
def brittle : Config.BreakerSettings where
  failureThreshold := 1
  resetTimeoutMs := 10
  halfOpenMax := 1

/-- A failure that is reported while the circuit is open moves the end of the wait. -/
def lateFailure : List Operation := [.failure, .advance 4000000, .failure, .advance 3000000]

/-- Seven of the ten milliseconds are left. -/
theorem lateFailure_told :
    (sessionAt (dawn "b" brittle 0) lateFailure 4).breaker.circuit = .opened ∧
    ((sessionAt (dawn "b" brittle 0) lateFailure 4).breaker.allow 7000000).1 = false ∧
    (sessionAt (dawn "b" brittle 0) lateFailure 4).breaker.retryAfter 7000000 = 7000000 ∧
    ∀ later, 7000000 ≤ later →
      (((sessionAt (dawn "b" brittle 0) lateFailure 4).breaker.allow later).1 = true ↔
        14000000 < later) := by
  have hopen : (sessionAt (dawn "b" brittle 0) lateFailure 4).breaker.circuit = .opened := by decide
  have hrefused :
      ((sessionAt (dawn "b" brittle 0) lateFailure 4).breaker.allow 7000000).1 = false := by decide
  have htold :
      (sessionAt (dawn "b" brittle 0) lateFailure 4).breaker.retryAfter 7000000 = 7000000 := by
    decide
  exact ⟨hopen, hrefused, htold, (wait_told "b" brittle 0 lateFailure 4 rfl hopen hrefused).1⟩

/-- **A caller that comes back at the instant that it was told is refused**, and then is told to
wait no longer. -/
theorem refused_on_time :
    (sessionAt (dawn "b" brittle 0) [.failure] 1).breaker.circuit = .opened ∧
    ((sessionAt (dawn "b" brittle 0) [.failure] 1).breaker.allow 0).1 = false ∧
    (sessionAt (dawn "b" brittle 0) [.failure] 1).breaker.retryAfter 0 = 10000000 ∧
    ((sessionAt (dawn "b" brittle 0) [.failure] 1).breaker.allow (0 + 10000000)).1 = false ∧
    (sessionAt (dawn "b" brittle 0) [.failure] 1).breaker.retryAfter (0 + 10000000) = 0 := by
  decide

end RegistryLookup.Breaker
