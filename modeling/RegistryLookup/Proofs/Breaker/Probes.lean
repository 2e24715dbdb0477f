import RegistryLookup.Proofs.Breaker.Cooldown

/-!
# How many calls a half-open circuit admits

The call that finds an open circuit cooled down turns it half open and is admitted, and as many
probes as the limit says are admitted after it. The count of probes may be left over from a phase
that ended with a failure; the call that begins a phase sets it back.

* `Phase`: the half-open phase to which a point of a run belongs.
* `step_halfOpen`: what an operation that reports nothing does to a half-open circuit.
* `Phase.counted`: the count of probes is that of the requests of the phase, up to the limit.
* `probes_admitted`: who is admitted, at every point of every phase of every run.
-/

namespace RegistryLookup.Breaker

/-- Whether an operation asks for admission. -/
def Operation.isRequest : Operation → Bool
  | .allow => true
  | _ => false

/-- The requests among the operations from number `m` to before number `n`. -/
def requests (ops : List Operation) (m n : Nat) : Nat :=
  ((ops.take n).drop m).countP Operation.isRequest

/-- The point before operation number `n` belongs to the half-open phase that operation number `i`
begins: that one turns the open circuit half open, and nothing has been reported since. -/
structure Phase (x : Session) (ops : List Operation) (i n : Nat) : Prop where
  begun : i ≤ n
  opened : (sessionAt x ops i).breaker.circuit = .opened
  turned : (sessionAt x ops (i + 1)).breaker.circuit = .halfOpen
  unreported : ∀ j op, i < j → j < n → ops[j]? = some op → op.isReport = false

theorem requests_self (ops : List Operation) (m : Nat) : requests ops m m = 0 := by
  have hnil : (ops.take m).drop m = [] := List.drop_eq_nil_of_le (List.length_take_le m ops)
  rw [requests, hnil, List.countP_nil]

theorem requests_succ {ops : List Operation} {m n : Nat} (hmn : m ≤ n) {op : Operation}
    (hop : ops[n]? = some op) : requests ops m (n + 1) = requests ops m n + op.isRequest.toNat := by
  have hlt : n < ops.length := (List.getElem?_eq_some_iff.1 hop).1
  have hlen : m ≤ (ops.take n).length := by rw [List.length_take]; omega
  unfold requests
  rw [take_succ_of_getElem? hop, List.drop_append_of_le_length hlen, List.countP_append,
    List.countP_singleton]
  cases op.isRequest <;> rfl

theorem requests_of_none {ops : List Operation} {m n : Nat} (hop : ops[n]? = none) :
    requests ops m (n + 1) = requests ops m n := by
  have hlen : ops.length ≤ n := List.getElem?_eq_none_iff.1 hop
  unfold requests
  rw [List.take_of_length_le hlen, List.take_of_length_le (by omega)]

theorem probeLimit_step (s : Session) (op : Operation) :
    (s.step op).breaker.probeLimit = s.breaker.probeLimit := by
  cases op with
  | allow =>
    have hcase : Allowed s.breaker (s.breaker.allow s.now).2 := allow_cases s.breaker s.now
    show (s.breaker.allow s.now).2.probeLimit = s.breaker.probeLimit
    cases hcase with
    | same h => rw [h]
    | turns _ h => rw [h]; rfl
    | probes _ h => rw [h]
  | success =>
    show s.breaker.recordSuccess.probeLimit = s.breaker.probeLimit
    unfold recordSuccess
    cases s.breaker.circuit <;> rfl
  | failure =>
    show (s.breaker.recordFailure s.now).probeLimit = s.breaker.probeLimit
    unfold recordFailure
    cases s.breaker.circuit with
    | closed => simp only; split <;> rfl
    | opened => rfl
    | halfOpen => rfl
  | _ => rfl

theorem probeLimit_sessionAt (x : Session) (ops : List Operation) (n : Nat) :
    (sessionAt x ops n).breaker.probeLimit = x.breaker.probeLimit :=
  Trace.after_invariant (P := fun s : Session => s.breaker.probeLimit = x.breaker.probeLimit) rfl
    (fun s op _ h => (probeLimit_step s op).trans h) n

/-- Only a request can turn an open circuit. -/
theorem circuit_step_of_opened {s : Session} (hopen : s.breaker.circuit = .opened) {op : Operation}
    (hop : op ≠ .allow) : (s.step op).breaker.circuit = .opened := by
  cases op with
  | allow => exact absurd rfl hop
  | success =>
    show s.breaker.recordSuccess.circuit = .opened
    rw [circuit_recordSuccess, hopen]
    rfl
  | failure =>
    show (s.breaker.recordFailure s.now).circuit = .opened
    rw [circuit_recordFailure, hopen]
    rfl
  | _ => exact hopen

/-- The request that turns an open circuit half open is admitted, and it sets the count of probes
back. -/
theorem turned_by_request {s : Session} {op : Operation} (hopen : s.breaker.circuit = .opened)
    (hhalf : (s.step op).breaker.circuit = .halfOpen) :
    op = .allow ∧ (s.breaker.allow s.now).1 = true ∧ (s.step op).breaker.probes = 0 := by
  obtain rfl : op = .allow := by
    by_contra hop
    rw [circuit_step_of_opened hopen hop] at hhalf
    cases hhalf
  have hcool : s.breaker.cooledDown s.now = true := cooledDown_of_allow hopen hhalf
  refine ⟨rfl, ?_, ?_⟩
  · simp [allow, hopen, hcool]
  · simp [Session.step, Session.perform, allow, hopen, hcool]

/-- A half-open circuit admits a call below the limit. -/
theorem allow_of_halfOpen {b : Breaker} (hhalf : b.circuit = .halfOpen) (now : Nat) :
    b.allow now = (decide (b.probes < b.probeLimit),
      if b.probes < b.probeLimit then { b with probes := b.probes + 1 } else b) := by
  by_cases hp : b.probes < b.probeLimit
  · simp [allow, hhalf, hp]
  · simp [allow, hhalf, hp]

/-- **An operation that reports nothing leaves a half-open circuit half open**, and a request is
counted up to the limit. -/
theorem step_halfOpen {s : Session} (hhalf : s.breaker.circuit = .halfOpen)
    (hle : s.breaker.probes ≤ s.breaker.probeLimit) {op : Operation} (hop : op.isReport = false) :
    (s.step op).breaker.circuit = .halfOpen ∧ (s.step op).breaker.probes =
      min s.breaker.probeLimit (s.breaker.probes + op.isRequest.toNat) := by
  cases op with
  | allow =>
    have hstep : (s.step .allow).breaker =
        if s.breaker.probes < s.breaker.probeLimit
        then { s.breaker with probes := s.breaker.probes + 1 } else s.breaker :=
      congrArg Prod.snd (allow_of_halfOpen hhalf s.now)
    rw [hstep]
    by_cases hp : s.breaker.probes < s.breaker.probeLimit
    · rw [if_pos hp]
      exact ⟨hhalf, (Nat.min_eq_right hp).symm⟩
    · rw [if_neg hp]
      have hfull : s.breaker.probeLimit ≤ s.breaker.probes + Operation.allow.isRequest.toNat := by
        omega
      refine ⟨hhalf, ?_⟩
      rw [Nat.min_eq_left hfull]
      omega
  | success => cases hop
  | failure => cases hop
  | state => exact ⟨hhalf, (Nat.min_eq_right hle).symm⟩
  | name => exact ⟨hhalf, (Nat.min_eq_right hle).symm⟩
  | advance d => exact ⟨hhalf, (Nat.min_eq_right hle).symm⟩

variable {x : Session} {ops : List Operation} {i n : Nat}

/-- The operation that begins a phase. -/
theorem Phase.first (h : Phase x ops i n) : ops[i]? = some .allow ∧
    ((sessionAt x ops i).breaker.allow (sessionAt x ops i).now).1 = true ∧
      (sessionAt x ops (i + 1)).breaker.probes = 0 := by
  have hturned := h.turned
  rcases sessionAt_cases x ops i with ⟨-, hsame⟩ | ⟨op, hop, hstep⟩
  · rw [hsame, h.opened] at hturned
    cases hturned
  · rw [hstep] at hturned ⊢
    obtain ⟨rfl, hadmitted, hprobes⟩ := turned_by_request h.opened hturned
    exact ⟨hop, hadmitted, hprobes⟩

/-- **The count of probes is that of the requests of the phase**, but for the one that begins it, up
to the limit. -/
theorem Phase.counted (h : Phase x ops i n) (hin : i < n) :
    (sessionAt x ops n).breaker.circuit = .halfOpen ∧
      (sessionAt x ops n).breaker.probes + 1 =
        min (x.breaker.probeLimit + 1) (requests ops i n) := by
  obtain ⟨hfirst, -, hprobes⟩ := h.first
  -- by induction on the operations since the phase began
  induction hin with
  | refl =>
    have hone : requests ops i (i + 1) = 1 := by
      rw [requests_succ (Nat.le_refl i) hfirst, requests_self]
      rfl
    refine ⟨h.turned, ?_⟩
    rw [hprobes, hone]
    omega
  | @step n hin ih =>
    have hbefore : Phase x ops i n := ⟨Nat.le_of_succ_le hin, h.opened, h.turned,
      fun j op hij hj => h.unreported j op hij (Nat.lt_succ_of_lt hj)⟩
    obtain ⟨hhalf, hcount⟩ := ih hbefore
    have hlimit := probeLimit_sessionAt x ops n
    rcases sessionAt_cases x ops n with ⟨hnone, hsame⟩ | ⟨op, hop, hstep⟩
    · rw [hsame, requests_of_none hnone]
      exact ⟨hhalf, hcount⟩
    · have hquiet : op.isReport = false := h.unreported n op hin (Nat.lt_succ_self n) hop
      obtain ⟨hstays, hmoved⟩ := step_halfOpen hhalf (by omega) hquiet
      rw [hstep, requests_succ (Nat.le_of_succ_le hin) hop]
      refine ⟨hstays, ?_⟩
      rw [hmoved, hlimit]
      omega

/-- **A half-open phase admits the call that begins it and as many as the limit says after it, and
then nobody**, however much time passes. The count of probes stays a word. -/
theorem probes_admitted (name : String) (settings : Config.BreakerSettings) (now : Nat)
    (ops : List Operation) {i n : Nat} (h : Phase (dawn name settings now) ops i n) :
    ((sessionAt (dawn name settings now) ops n).perform .allow).1 =
        .admitted (decide (requests ops i n < max 1 settings.halfOpenMax.toNat + 1)) ∧
      (i < n → (sessionAt (dawn name settings now) ops n).breaker.circuit = .halfOpen ∧
        (sessionAt (dawn name settings now) ops n).breaker.probes < UInt32.size) := by
  have hlimit : (sessionAt (dawn name settings now) ops n).breaker.probeLimit =
      max 1 settings.halfOpenMax.toNat := probeLimit_sessionAt _ ops n
  have hword : settings.halfOpenMax.toNat < UInt32.size := settings.halfOpenMax.toNat_lt
  have hsize : UInt32.size = 4294967296 := rfl
  rcases Nat.lt_or_eq_of_le h.begun with hin | rfl
  · obtain ⟨hhalf, hcount⟩ := h.counted hin
    rw [probeLimit_sessionAt _ ops n] at hlimit
    rw [hlimit] at hcount
    refine ⟨?_, fun _ => ⟨hhalf, by omega⟩⟩
    show Answer.admitted (Breaker.allow _ _).1 = _
    rw [allow_of_halfOpen hhalf, probeLimit_sessionAt _ ops n, hlimit]
    refine congrArg Answer.admitted (decide_eq_decide.2 ?_)
    omega
  · -- the call that begins the phase
    obtain ⟨-, hadmitted, -⟩ := h.first
    refine ⟨?_, fun hlt => absurd hlt (Nat.lt_irrefl i)⟩
    show Answer.admitted (Breaker.allow _ _).1 = _
    rw [hadmitted, requests_self, decide_eq_true (Nat.succ_pos _)]

/-- Two failed phases of two calls each, and a third one in which time passes between the calls. -/
def manyPhases : List Operation :=
  [.failure, .advance 11000000, .allow, .allow, .failure, .advance 11000000, .allow, .allow,
    .failure, .advance 11000000, .allow, .allow, .advance 99000000, .allow, .allow]

/-- The limit of two probes. -/
def twoProbes : Config.BreakerSettings where
  failureThreshold := 1
  resetTimeoutMs := 10
  halfOpenMax := 2

/-- In the third phase the third call is admitted and the fourth is not. -/
theorem manyPhases_admitted :
    Phase (dawn "b" twoProbes 0) manyPhases 10 13 ∧ Phase (dawn "b" twoProbes 0) manyPhases 10 14 ∧
    ((sessionAt (dawn "b" twoProbes 0) manyPhases 13).perform .allow).1 = .admitted true ∧
    ((sessionAt (dawn "b" twoProbes 0) manyPhases 14).perform .allow).1 = .admitted false := by
  have hopened : (sessionAt (dawn "b" twoProbes 0) manyPhases 10).breaker.circuit = .opened := by
    decide
  have hturned : (sessionAt (dawn "b" twoProbes 0) manyPhases 11).breaker.circuit = .halfOpen := by
    decide
  have hquiet : ∀ j op, 10 < j → j < 14 → manyPhases[j]? = some op → op.isReport = false := by
    intro j op hj hj' hop
    have hcases : j = 11 ∨ j = 12 ∨ j = 13 := by omega
    rcases hcases with rfl | rfl | rfl <;> cases hop <;> rfl
  have hthird : Phase (dawn "b" twoProbes 0) manyPhases 10 13 :=
    ⟨by decide, hopened, hturned, fun j op hj hj' => hquiet j op hj (by omega)⟩
  have hfourth : Phase (dawn "b" twoProbes 0) manyPhases 10 14 :=
    ⟨by decide, hopened, hturned, hquiet⟩
  exact ⟨hthird, hfourth, (probes_admitted "b" twoProbes 0 manyPhases hthird).1,
    (probes_admitted "b" twoProbes 0 manyPhases hfourth).1⟩

end RegistryLookup.Breaker
