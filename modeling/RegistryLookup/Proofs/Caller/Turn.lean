import RegistryLookup.Caller.Task
import RegistryLookup.Table

/-!
# What a turn of a call can do

* `turn_cases`: the first turn of a call passes the breaker or not, then asks for a permit; a call
  with a permit goes on among the flights.
* `proceed_cases`: a call that ends among the flights reports and gives its permit back.
-/

namespace RegistryLookup.Caller

variable {α : Type}

/-- What the turn of a call makes of a caller. -/
inductive Turned (answers : Answers α) (now c : Nat) (s s' : Caller α) : Prop
  | rest (h : s' = s)
    (ho : ∀ call fired, s.calls.get? c = some call → call.stage ≠ .arriving fired)
    (hq : ∀ call fired, s.calls.get? c = some call → call.stage = .queued fired →
      fired = false ∧ s.permits.closed = false ∧ c ∉ s.permits.granted)
  /-- The caller is closed. -/
  | turnedAway (call : Call α) (fired : Bool) (p : Permits) (hc : s.calls.get? c = some call)
    (hs : call.stage = .arriving fired ∨ call.stage = .queued fired)
    (hclosed : s.permits.closed = true)
    (hp : call.stage = .arriving fired ∧ p = s.permits ∨
      call.stage = .queued fired ∧ p = s.permits.leave c)
    (h : s' = { s with permits := p }.become c call (.ended (.error (closedFailure s.name)) now))
  /-- The breaker refuses the call. -/
  | refused (call : Call α) (fired : Bool) (hc : s.calls.get? c = some call)
    (hs : call.stage = .arriving fired) (hclosed : s.permits.closed = false)
    (hb : (s.breaker.allow now).1 = false)
    (h : s' = s.become c call (.ended (.error
      (.circuitOpen s.breaker.circuit s.breaker.failures (s.breaker.retryAfter now))) now))
  /-- The breaker admits the call, but its token has fired. -/
  | cancelled (call : Call α) (hc : s.calls.get? c = some call)
    (hs : call.stage = .arriving true) (hclosed : s.permits.closed = false)
    (hb : (s.breaker.allow now).1 = true)
    (h : s' = { s with breaker := (s.breaker.allow now).2 }.become c call
      (.ended (.error .cancelled) now))
  /-- The breaker admits the call, and it has to wait for a permit. -/
  | queues (call : Call α) (hc : s.calls.get? c = some call)
    (hs : call.stage = .arriving false) (hclosed : s.permits.closed = false)
    (hb : (s.breaker.allow now).1 = true)
    (h : s' = { s with
      breaker := (s.breaker.allow now).2
      permits := (s.permits.request c).2 }.become c call (.queued false))
    (hg : (s.permits.request c).1 = false)
  /-- The breaker admits the call, and it gets a permit. -/
  | boards (call : Call α) (hc : s.calls.get? c = some call)
    (hs : call.stage = .arriving false) (hclosed : s.permits.closed = false)
    (hb : (s.breaker.allow now).1 = true)
    (h : s' = board answers now c call false { s with
      breaker := (s.breaker.allow now).2
      permits := (s.permits.request c).2 })
    (hg : (s.permits.request c).1 = true)
  /-- Its token has fired while it waited for a permit. -/
  | leaves (call : Call α) (hc : s.calls.get? c = some call) (hs : call.stage = .queued true)
    (h : s' = { s with permits := s.permits.leave c }.become c call
      (.ended (.error .cancelled) now))
  /-- It has been given a permit. -/
  | claims (call : Call α) (hc : s.calls.get? c = some call) (hs : call.stage = .queued false)
    (hg : c ∈ s.permits.granted)
    (h : s' = board answers now c call false { s with permits := s.permits.claim c })
  /-- It has had a permit already. -/
  | proceeds (call : Call α) (hc : s.calls.get? c = some call) (hs : call.stage = .admitted)
    (h : s' = proceed answers now c call s)

theorem allow_of_refused {b : Breaker} {now : Nat} (h : (b.allow now).1 = false) :
    (b.allow now).2 = b := by
  unfold Breaker.allow at h ⊢
  split
  · rfl
  · split
    · rename_i h1 h2
      simp [h1, h2] at h
    · rfl
  · split
    · rename_i h1 h2
      simp [h1, h2] at h
    · rfl

theorem arrive_cases (answers : Answers α) (now c : Nat) {s : Caller α} {call : Call α}
    {fired : Bool} (hc : s.calls.get? c = some call) (hs : call.stage = .arriving fired) :
    Turned answers now c s (s.arrive answers now c call fired) := by
  -- in the order of the checks: closed, refused, cancelled, and last the permit
  unfold arrive
  cases hclosed : s.permits.closed with
  | true => exact .turnedAway call fired s.permits hc (Or.inl hs) hclosed (Or.inl ⟨hs, rfl⟩) rfl
  | false =>
    simp only [Bool.false_eq_true, if_false]
    cases hb : (s.breaker.allow now).1 with
    | false =>
      refine .refused call fired hc hs hclosed hb ?_
      simp only [allow_of_refused hb, Bool.not_false, if_true]
    | true =>
      simp only [Bool.not_true, Bool.false_eq_true, if_false]
      cases fired with
      | true => exact .cancelled call hc hs hclosed hb rfl
      | false =>
        simp only [Bool.false_eq_true, if_false]
        cases hg : (s.permits.request c).1 with
        | false => exact .queues call hc hs hclosed hb (by simp) hg
        | true => exact .boards call hc hs hclosed hb (by simp) hg

theorem await_cases (answers : Answers α) (now c : Nat) {s : Caller α} {call : Call α}
    {fired : Bool} (hc : s.calls.get? c = some call) (hs : call.stage = .queued fired) :
    Turned answers now c s (s.await answers now c call fired) := by
  -- the token comes before the permit, also at the same instant
  unfold await
  cases fired with
  | true => exact .leaves call hc hs rfl
  | false =>
    simp only [Bool.false_eq_true, if_false]
    cases hclosed : s.permits.closed with
    | true =>
      exact .turnedAway call false (s.permits.leave c) hc (Or.inr hs) hclosed
        (Or.inr ⟨hs, rfl⟩) rfl
    | false =>
      simp only [Bool.false_eq_true, if_false]
      split
      · rename_i hg
        exact .claims call hc hs hg rfl
      · rename_i hg
        refine .rest rfl (fun call' fired' h ha => ?_) (fun call' fired' h hq => ?_)
        · rw [hc] at h; cases h
          rw [hs] at ha; cases ha
        · rw [hc] at h; cases h
          rw [hs] at hq; cases hq
          exact ⟨rfl, hclosed, hg⟩

/-- **All that a turn can do.** -/
theorem turn_cases (answers : Answers α) (now c : Nat) (s : Caller α) :
    Turned answers now c s (s.turn answers now c) := by
  unfold turn
  cases hc : s.calls.get? c with
  | none =>
    exact .rest rfl (fun _ _ h => by rw [hc] at h; cases h)
      (fun _ _ h => by rw [hc] at h; cases h)
  | some call =>
    simp only
    cases hs : call.stage with
    | arriving fired => exact arrive_cases answers now c hc hs
    | queued fired => exact await_cases answers now c hc hs
    | admitted => exact .proceeds call hc hs rfl
    | ended r t =>
      exact .rest rfl (fun _ _ h ha => by rw [hc] at h; cases h; rw [hs] at ha; cases ha)
        (fun _ _ h hq => by rw [hc] at h; cases h; rw [hs] at hq; cases hq)
    | dropped =>
      exact .rest rfl (fun _ _ h ha => by rw [hc] at h; cases h; rw [hs] at ha; cases ha)
        (fun _ _ h hq => by rw [hc] at h; cases h; rw [hs] at hq; cases hq)

/-- What becomes of a call among the flights: it goes on, or it reports and gives its permit
back. -/
theorem proceed_cases (answers : Answers α) (now c : Nat) (call : Call α) (s : Caller α) :
    ((s.flights.turn (loadWork s.policy s.name) answers now c).ending? c = none ∧
      s.proceed answers now c call =
        { s with flights := s.flights.turn (loadWork s.policy s.name) answers now c }) ∨
    ∃ e, (s.flights.turn (loadWork s.policy s.name) answers now c).ending? c = some e ∧
      s.proceed answers now c call =
        { s with
          flights := s.flights.turn (loadWork s.policy s.name) answers now c
          breaker := settleReport s.breaker now e
          permits := s.permits.release }.become c call (.ended e.result now) := by
  unfold proceed
  cases he : (s.flights.turn (loadWork s.policy s.name) answers now c).ending? c with
  | none => exact Or.inl ⟨rfl, by simp only [he]⟩
  | some e => exact Or.inr ⟨e, rfl, by simp only [he]⟩

/-- What the token of a call does when it fires. -/
theorem fire_cases (s : Caller α) (c : Nat) : s.fire c = s ∨
    (∃ call fired, s.calls.get? c = some call ∧
      (call.stage = .arriving fired ∧ s.fire c = s.become c call (.arriving true) ∨
        call.stage = .queued fired ∧ s.fire c = s.become c call (.queued true))) ∨
    ∃ call, s.calls.get? c = some call ∧ call.stage = .admitted ∧
      s.fire c = { s with flights := s.flights.fire c } := by
  unfold fire
  cases hc : s.calls.get? c with
  | none => exact Or.inl rfl
  | some call =>
    cases hs : call.stage with
    | arriving fired => exact Or.inr (Or.inl ⟨call, fired, rfl, Or.inl ⟨hs, by simp only [hs]⟩⟩)
    | queued fired => exact Or.inr (Or.inl ⟨call, fired, rfl, Or.inr ⟨hs, by simp only [hs]⟩⟩)
    | admitted => exact Or.inr (Or.inr ⟨call, rfl, hs, by simp only [hs]⟩)
    | ended r t => exact Or.inl (by simp only [hs])
    | dropped => exact Or.inl (by simp only [hs])

/-- What a drop does: only a call with a permit leaves anything among the flights. -/
theorem drop_cases (s : Caller α) (c : Nat) : s.drop c = s ∨ ∃ call, s.calls.get? c = some call ∧
    ((∃ fired p, (call.stage = .arriving fired ∨ call.stage = .queued fired) ∧
      (p = s.permits ∨ p = s.permits.leave c) ∧
      s.drop c = { s with permits := p }.become c call .dropped) ∨
    (call.stage = .admitted ∧ s.drop c = { s with
      flights := s.flights.drop c
      permits := s.permits.release }.become c call .dropped)) := by
  unfold drop
  cases hc : s.calls.get? c with
  | none => exact Or.inl rfl
  | some call =>
    cases hs : call.stage with
    | arriving fired =>
      exact Or.inr ⟨call, rfl, Or.inl ⟨fired, s.permits, Or.inl hs, Or.inl rfl, by simp only [hs]⟩⟩
    | queued fired =>
      exact Or.inr ⟨call, rfl,
        Or.inl ⟨fired, s.permits.leave c, Or.inr hs, Or.inr rfl, by simp only [hs]⟩⟩
    | admitted => exact Or.inr ⟨call, rfl, Or.inr ⟨hs, by simp only [hs]⟩⟩
    | ended r t => exact Or.inl (by simp only [hs])
    | dropped => exact Or.inl (by simp only [hs])

end RegistryLookup.Caller
