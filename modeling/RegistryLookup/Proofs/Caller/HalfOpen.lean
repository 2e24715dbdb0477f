import RegistryLookup.Proofs.Caller.Step
import RegistryLookup.Proofs.Table

/-!
# When a half-open circuit refuses for good

A half-open circuit counts the calls that it admits. Only a report takes it out of that position,
and a call that is dropped or ends cancelled reports nothing. So once the last failure is long
past and no call is under way, the circuit refuses a new call exactly when it became half open
and everything that it admitted since then came to nothing (`refuses_iff`); and then it refuses
every later call too (`refuses_forever`).
-/

namespace RegistryLookup

namespace Breaker

theorem recordSuccess_not_halfOpen (b : Breaker) : b.recordSuccess.circuit ≠ .halfOpen := by
  unfold recordSuccess
  cases b.circuit <;> simp [moveTo]

theorem recordFailure_not_halfOpen (b : Breaker) (now : Nat) :
    (b.recordFailure now).circuit ≠ .halfOpen := by
  unfold recordFailure
  cases b.circuit with
  | closed =>
    simp only
    split <;> simp [moveTo]
  | opened => simp
  | halfOpen => simp [moveTo]

/-- An admission that leaves the circuit half open is counted. -/
theorem allow_halfOpen {b : Breaker} {now : Nat} (ha : (b.allow now).1 = true)
    (h : (b.allow now).2.circuit = .halfOpen) :
    (b.allow now).2.probeLimit = b.probeLimit ∧
    ((b.circuit = .opened ∧ (b.allow now).2.probes = 0) ∨
      (b.circuit = .halfOpen ∧ b.probes < b.probeLimit ∧
        (b.allow now).2.probes = b.probes + 1)) := by
  unfold allow at ha h ⊢
  cases hb : b.circuit with
  | closed => simp only [hb] at h; cases h
  | opened =>
    simp only [hb] at ha ⊢
    cases hc : b.cooledDown now with
    | false => simp [hc] at ha
    | true => simp [moveTo]
  | halfOpen =>
    simp only [hb] at ha ⊢
    by_cases hp : b.probes < b.probeLimit
    · simp [hp]
    · simp [hp] at ha

/-- Once the last failure is long past, only a half-open circuit that has admitted all it may
refuses. -/
theorem refuses_iff_of_cooledDown {b : Breaker} {now : Nat} (hc : b.cooledDown now = true) :
    (b.allow now).1 = false ↔ b.circuit = .halfOpen ∧ b.probeLimit ≤ b.probes := by
  unfold allow
  cases hb : b.circuit with
  | closed => simp
  | opened => simp [hc]
  | halfOpen =>
    by_cases hp : b.probes < b.probeLimit
    · simp [hp]
    · simp [hp, Nat.le_of_not_lt hp]

end Breaker

namespace Permits

@[simp] theorem closed_request (p : Permits) (c : Nat) : (p.request c).2.closed = p.closed := by
  unfold request; split <;> rfl

@[simp] theorem closed_release (p : Permits) : p.release.closed = p.closed := by
  unfold release; split <;> rfl

@[simp] theorem closed_claim (p : Permits) (c : Nat) : (p.claim c).closed = p.closed := rfl

@[simp] theorem closed_leave (p : Permits) (c : Nat) : (p.leave c).closed = p.closed := by
  unfold leave; split <;> simp

end Permits

namespace Caller

variable {α : Type}

/-- A turn does not close a caller. -/
theorem closed_turn (answers : Answers α) (now c : Nat) (s : Caller α) :
    (s.turn answers now c).permits.closed = s.permits.closed := by
  have hproceed : ∀ (call : Call α) (s : Caller α),
      (s.proceed answers now c call).permits.closed = s.permits.closed := by
    intro call s
    rcases proceed_cases answers now c call s with ⟨-, h⟩ | ⟨e, -, h⟩
    · rw [h]
    · rw [h]; exact Permits.closed_release _
  cases turn_cases answers now c s with
  | rest h => rw [h]
  | turnedAway call fired p hc hs _ hp h =>
    rw [h]
    -- a call that comes too late leaves the queue if it was in it
    rcases hp with ⟨-, rfl⟩ | ⟨-, rfl⟩
    · rfl
    · exact Permits.closed_leave _ _
  | refused call fired hc hs _ _ h => rw [h]; rfl
  | cancelled call hc hs _ _ h => rw [h]; rfl
  | queues call hc hs _ _ h => rw [h]; exact Permits.closed_request _ _
  | boards call hc hs _ _ h =>
    rw [h]
    exact (hproceed _ _).trans (Permits.closed_request _ _)
  | leaves call hc hs h => rw [h]; exact Permits.closed_leave _ _
  | claims call hc hs _ h =>
    rw [h]
    exact (hproceed _ _).trans (Permits.closed_claim _ _)
  | proceeds call hc hs h => rw [h]; exact hproceed call s

/-- A report that leaves the circuit half open was none. -/
theorem settleReport_halfOpen {b : Breaker} {now : Nat} {e : Flight.Ending α}
    (h : (settleReport b now e).circuit = .halfOpen) :
    settleReport b now e = b ∧ e.result = .error .cancelled := by
  unfold settleReport at h ⊢
  split
  · rename_i hs
    rw [if_pos hs] at h
    simp [h] at hs
  · rename_i hs
    rw [if_neg hs] at h
    unfold report at h ⊢
    split
    · rename_i hr
      simp only [hr] at h
      exact absurd h (Breaker.recordSuccess_not_halfOpen b)
    · rename_i hr
      exact ⟨rfl, hr⟩
    · rename_i e' hr
      simp only [hr] at h
      split at h
      · exact absurd h (Breaker.recordFailure_not_halfOpen b now)
      · exact absurd h (Breaker.recordSuccess_not_halfOpen b)

/-- The breaker was asked for admission, and nothing has been reported to it since. -/
def Stage.IsSilent : Stage α → Prop
  | .arriving _ => False
  | .queued _ => True
  | .admitted => True
  | .ended r _ => r = .error .cancelled
  | .dropped => True

/-- A call that has not reported. -/
def Silent (s : Caller α) (c : Nat) : Prop :=
  ∃ call, s.calls.get? c = some call ∧ call.stage.IsSilent

/-- A call that is over and reported nothing: it was dropped, or it ended cancelled. -/
def CameToNothing (s : Caller α) (c : Nat) : Prop :=
  ∃ call, s.calls.get? c = some call ∧
    (call.stage = .dropped ∨ ∃ t, call.stage = .ended (.error .cancelled) t)

theorem Silent.cameToNothing {s : Caller α} {c : Nat} (h : Silent s c) (hd : s.isDone = true) :
    CameToNothing s c := by
  obtain ⟨⟨key, ttl, stage⟩, hc, hs⟩ := h
  have hclosed := List.all_eq_true.1 hd _ (Table.mem_of_get? hc)
  cases stage with
  | arriving fired => exact absurd hs (fun h => h)
  | queued fired => cases hclosed
  | admitted => cases hclosed
  | ended r t =>
    have hs : r = .error .cancelled := hs
    exact ⟨_, hc, Or.inr ⟨t, by rw [hs]⟩⟩
  | dropped => exact ⟨_, hc, Or.inl rfl⟩

theorem silent_of_put {s : Caller α} {calls : Table Nat (Call α)} {c : Nat} {call : Call α}
    (h : s.calls = calls.put c call) (hs : call.stage.IsSilent) : Silent s c :=
  ⟨call, by rw [h]; exact Table.get?_put_self _ _ _, hs⟩

/-- One call takes a stage that is as silent as its last one. -/
theorem Silent.put {s s' : Caller α} {c d : Nat} {dcall : Call α} {stage : Stage α}
    (h : Silent s c) (hd : s.calls.get? d = some dcall)
    (hcalls : s'.calls = s.calls.put d { dcall with stage := stage })
    (hstage : dcall.stage.IsSilent → stage.IsSilent) : Silent s' c := by
  obtain ⟨call, hc, hs⟩ := h
  by_cases hcd : c = d
  · subst hcd
    rw [hc] at hd; cases hd
    exact silent_of_put hcalls (hstage hs)
  · exact ⟨call, by rw [hcalls]; exact (Table.get?_put_of_ne _ _ hcd).trans hc, hs⟩

/-- A call that leaves the circuit half open goes on among the flights, or it ended cancelled. -/
theorem proceed_halfOpen {answers : Answers α} {now c : Nat} {call : Call α} {s : Caller α}
    (h : (s.proceed answers now c call).breaker.circuit = .halfOpen) :
    (s.proceed answers now c call).breaker = s.breaker ∧
      ((s.proceed answers now c call).calls = s.calls ∨
        Silent (s.proceed answers now c call) c) := by
  rcases proceed_cases answers now c call s with ⟨-, hp⟩ | ⟨e, -, hp⟩
  · rw [hp]
    exact ⟨rfl, Or.inl rfl⟩
  · rw [hp] at h ⊢
    have hreport : (settleReport s.breaker now e).circuit = .halfOpen := h
    obtain ⟨hsame, hresult⟩ := settleReport_halfOpen hreport
    exact ⟨hsame, Or.inr (silent_of_put (calls_become _ _ _ _) hresult)⟩

theorem board_halfOpen {answers : Answers α} {now c : Nat} {call : Call α} {fired : Bool}
    {s : Caller α} (h : (s.board answers now c call fired).breaker.circuit = .halfOpen) :
    (s.board answers now c call fired).breaker = s.breaker ∧
      Silent (s.board answers now c call fired) c := by
  unfold board at h ⊢
  obtain ⟨hb, hsame | hs⟩ := proceed_halfOpen h
  · exact ⟨hb, silent_of_put hsame trivial⟩
  · exact ⟨hb, hs⟩

/-- A turn that leaves the circuit half open: of a call that the breaker admits in it, or of one
that leaves the breaker as it is. -/
theorem turn_halfOpen {answers : Answers α} {now c : Nat} {s : Caller α}
    (hopen : s.permits.closed = false)
    (h : (s.turn answers now c).breaker.circuit = .halfOpen) :
    ((∃ call fired, s.calls.get? c = some call ∧ call.stage = .arriving fired) ∧
      (s.breaker.allow now).1 = true ∧
      (s.turn answers now c).breaker = (s.breaker.allow now).2 ∧
      Silent (s.turn answers now c) c) ∨
    (((∃ call fired, s.calls.get? c = some call ∧ call.stage = .arriving fired) →
        (s.breaker.allow now).1 = false) ∧
      (s.turn answers now c).breaker = s.breaker ∧
      (Silent s c → Silent (s.turn answers now c) c)) := by
  -- a call that has been admitted before does not ask again
  have hnot : ∀ {call : Call α}, s.calls.get? c = some call →
      (∀ fired, call.stage ≠ .arriving fired) →
      (∃ call fired, s.calls.get? c = some call ∧ call.stage = .arriving fired) →
      (s.breaker.allow now).1 = false := by
    rintro call hc hn ⟨call', fired, hc', hs'⟩
    rw [hc] at hc'; cases hc'
    exact absurd hs' (hn fired)
  cases turn_cases answers now c s with
  | rest hs ho =>
    right
    rw [hs]
    exact ⟨fun ⟨call, fired, hc, ha⟩ => absurd ha (ho call fired hc), rfl, fun h => h⟩
  | turnedAway call fired p hc _ hclosed => rw [hopen] at hclosed; cases hclosed
  | refused call fired hc hs _ hb ht =>
    right
    rw [ht]
    refine ⟨fun _ => hb, rfl, ?_⟩
    rintro ⟨call', hc', hs'⟩
    rw [hc] at hc'; cases hc'
    rw [hs] at hs'
    exact absurd hs' (fun h => h)
  | cancelled call hc hs _ hb ht =>
    left
    rw [ht]
    exact ⟨⟨call, true, hc, hs⟩, hb, rfl, silent_of_put (calls_become _ _ _ _) rfl⟩
  | queues call hc hs _ hb ht =>
    left
    rw [ht]
    exact ⟨⟨call, false, hc, hs⟩, hb, rfl, silent_of_put (calls_become _ _ _ _) trivial⟩
  | boards call hc hs _ hb ht =>
    left
    rw [ht] at h ⊢
    obtain ⟨hbreaker, hsilent⟩ := board_halfOpen h
    exact ⟨⟨call, false, hc, hs⟩, hb, hbreaker, hsilent⟩
  | leaves call hc hs ht =>
    right
    rw [ht]
    exact ⟨hnot hc (fun f h => by rw [hs] at h; cases h), rfl,
      fun _ => silent_of_put (calls_become _ _ _ _) rfl⟩
  | claims call hc hs _ ht =>
    right
    rw [ht] at h ⊢
    obtain ⟨hbreaker, hsilent⟩ := board_halfOpen h
    exact ⟨hnot hc (fun f h => by rw [hs] at h; cases h), hbreaker, fun _ => hsilent⟩
  | proceeds call hc hs ht =>
    right
    rw [ht] at h ⊢
    obtain ⟨hbreaker, hsame⟩ := proceed_halfOpen h
    refine ⟨hnot hc (fun f h => by rw [hs] at h; cases h), hbreaker, fun hsilent => ?_⟩
    rcases hsame with hsame | hs
    · obtain ⟨call', hc', hs'⟩ := hsilent
      exact ⟨call', by rw [hsame]; exact hc', hs'⟩
    · exact hs

/-- The call that the breaker admits in an event. -/
def admittedBy (x : World α) : Event α → Option Nat
  | .turn c _ =>
    match x.state.calls.get? c with
    | some ⟨_, _, .arriving _⟩ =>
      if .call c ∈ x.ready ∧ x.state.permits.closed = false ∧
        (x.state.breaker.allow x.now).1 = true then some c else none
    | _ => none
  | _ => none

/-- An event after which the caller is closed. -/
def Event.isClose : Event α → Bool
  | .close => true
  | _ => false

theorem closed_step {x : World α} {e : Event α} (he : e.isClose = false) :
    (step x e).state.permits.closed = x.state.permits.closed := by
  cases step_cases x e with
  | same h => rw [h]
  | began c key ttl fired _ _ h => rw [h]; rfl
  | turn c answers _ _ h => rw [h]; exact closed_turn answers x.now c x.state
  | chore chore _ _ _ h => rw [h]; rfl
  | fire c _ h =>
    rw [h]
    rcases fire_cases x.state c with h | ⟨call, fired, -, ⟨-, h⟩ | ⟨-, h⟩⟩ | ⟨call, -, -, h⟩ <;>
      rw [h] <;> rfl
  | drop c _ h =>
    rw [h]
    rcases drop_cases x.state c with h | ⟨call, -, ⟨fired, p, -, rfl | rfl, h⟩ | ⟨-, h⟩⟩
    · rw [h]
    · rw [h]; rfl
    · rw [h]; exact Permits.closed_leave _ _
    · rw [h]; exact Permits.closed_release _
  | close h => rw [h] at he; cases he
  | delete key _ h => rw [h]; rfl
  | deleteStartingWith start _ h => rw [h]; rfl

/-- Only turns change the breaker. -/
theorem breaker_step {x : World α} {e : Event α} (he : ∀ c answers, e ≠ .turn c answers) :
    (step x e).state.breaker = x.state.breaker := by
  cases step_cases x e with
  | same hx => rw [hx]
  | began _ _ _ _ _ _ hx => rw [hx]; rfl
  | turn c answers hturn => exact absurd hturn (he c answers)
  | chore _ _ _ _ hx => rw [hx]; rfl
  | fire c _ hx =>
    rw [hx]
    rcases fire_cases x.state c with h | ⟨call, fired, -, ⟨-, h⟩ | ⟨-, h⟩⟩ | ⟨call, -, -, h⟩ <;>
      rw [h] <;> rfl
  | drop c _ hx =>
    rw [hx]
    rcases drop_cases x.state c with h | ⟨call, -, ⟨fired, p, -, -, h⟩ | ⟨-, h⟩⟩ <;> rw [h] <;> rfl
  | close _ hx => rw [hx]; rfl
  | delete _ _ hx => rw [hx]; rfl
  | deleteStartingWith _ _ hx => rw [hx]; rfl

theorem admittedBy_of_ne_turn (x : World α) {e : Event α} (he : ∀ c answers, e ≠ .turn c answers) :
    admittedBy x e = none := by
  cases e with
  | turn c answers => exact absurd rfl (he c answers)
  | _ => rfl

/-- A turn admits its call if that has just come in and the breaker allows it. -/
theorem admittedBy_turn (x : World α) (c : Nat) (answers : Answers α) :
    (∃ call fired, x.state.calls.get? c = some call ∧ call.stage = .arriving fired ∧
      .call c ∈ x.ready ∧ x.state.permits.closed = false ∧ (x.state.breaker.allow x.now).1 = true ∧
      admittedBy x (.turn c answers) = some c) ∨
    ((.call c ∈ x.ready → x.state.permits.closed = false →
      (∃ call fired, x.state.calls.get? c = some call ∧ call.stage = .arriving fired) →
      (x.state.breaker.allow x.now).1 = false) ∧ admittedBy x (.turn c answers) = none) := by
  simp only [admittedBy]
  split
  · rename_i key ttl fired hc
    by_cases hall : .call c ∈ x.ready ∧ x.state.permits.closed = false ∧
        (x.state.breaker.allow x.now).1 = true
    · rw [if_pos hall]
      exact Or.inl ⟨_, fired, hc, rfl, hall.1, hall.2.1, hall.2.2, rfl⟩
    · rw [if_neg hall]
      refine Or.inr ⟨fun hr hopen _ => ?_, rfl⟩
      simpa [hr, hopen] using hall
  · rename_i hno
    refine Or.inr ⟨?_, rfl⟩
    rintro - - ⟨⟨key, ttl, stage⟩, fired, hc, hs⟩
    have hs : stage = .arriving fired := hs
    subst hs
    exact absurd hc (hno key ttl fired)

/-- A call that has just come in is admitted if the breaker allows it. -/
theorem admittedBy_of_arriving {x : World α} {c : Nat} {answers : Answers α} {call : Call α}
    {fired : Bool} (hr : .call c ∈ x.ready) (hc : x.state.calls.get? c = some call)
    (hs : call.stage = .arriving fired) (hclosed : x.state.permits.closed = false)
    (hb : (x.state.breaker.allow x.now).1 = true) :
    admittedBy x (.turn c answers) = some c := by
  obtain ⟨key, ttl, stage⟩ := call
  cases hs
  unfold admittedBy
  simp only [hc]
  exact if_pos ⟨hr, hclosed, hb⟩

/-- An event that leaves the circuit half open admits a call, or it leaves the breaker as it is. -/
theorem step_halfOpen {x : World α} {e : Event α} (hopen : x.state.permits.closed = false)
    (h : (step x e).state.breaker.circuit = .halfOpen) :
    (∃ c, admittedBy x e = some c ∧ (x.state.breaker.allow x.now).1 = true ∧
      (step x e).state.breaker = (x.state.breaker.allow x.now).2 ∧
      ¬ Silent x.state c ∧ Silent (step x e).state c) ∨
    (admittedBy x e = none ∧ (step x e).state.breaker = x.state.breaker) := by
  by_cases hturn : ∀ c answers, e ≠ .turn c answers
  · exact Or.inr ⟨admittedBy_of_ne_turn x hturn, breaker_step hturn⟩
  push Not at hturn
  obtain ⟨c, answers, rfl⟩ := hturn
  by_cases hr : .call c ∈ x.ready
  · rw [state_turn hr] at h ⊢
    rcases turn_halfOpen hopen h with ⟨hcomes, hb, hbreaker, hsilent⟩ | ⟨hno, hbreaker, -⟩
    · rcases admittedBy_turn x c answers with ⟨call, fired, hc, ha, -, -, -, hadm⟩ | ⟨hnot, -⟩
      · refine Or.inl ⟨c, hadm, hb, hbreaker, ?_, hsilent⟩
        -- whoever has just come in has not been admitted yet
        rintro ⟨call', hc', hs'⟩
        rw [hc] at hc'; cases hc'
        rw [ha] at hs'
        exact hs'
      · rw [hnot hr hopen hcomes] at hb; cases hb
    · rcases admittedBy_turn x c answers with ⟨call, fired, hc, ha, -, -, hb, -⟩ | ⟨-, hadm⟩
      · rw [hno ⟨call, fired, hc, ha⟩] at hb; cases hb
      · exact Or.inr ⟨hadm, hbreaker⟩
  · rcases admittedBy_turn x c answers with ⟨call, fired, -, -, hready, -⟩ | ⟨-, hadm⟩
    · exact absurd hready hr
    · exact Or.inr ⟨hadm, by simp only [step, if_neg hr]⟩

/-- While the circuit stays half open, whoever has not reported does not. -/
theorem silent_step {x : World α} {e : Event α} (hopen : x.state.permits.closed = false)
    (h : (step x e).state.breaker.circuit = .halfOpen) {c : Nat} (hs : Silent x.state c) :
    Silent (step x e).state c := by
  cases step_cases x e with
  | same hx => rw [hx]; exact hs
  | began d key ttl fired _ hd hx =>
    rw [hx]
    obtain ⟨call, hc, hsilent⟩ := hs
    have hcd : c ≠ d := fun h => by rw [h, hd] at hc; cases hc
    exact ⟨call, (Table.get?_put_of_ne _ _ hcd).trans hc, hsilent⟩
  | turn d answers _ _ hx =>
    rw [hx] at h ⊢
    by_cases hcd : c = d
    · subst hcd
      rcases turn_halfOpen hopen h with ⟨-, -, -, hnow⟩ | ⟨-, -, hkeep⟩
      · exact hnow
      · exact hkeep hs
    · obtain ⟨call, hc, hsilent⟩ := hs
      exact ⟨call, ((calls_turn answers x.now d x.state).1 c hcd).trans hc, hsilent⟩
  | chore _ _ _ _ hx => rw [hx]; exact hs
  | fire d _ hx =>
    rw [hx]
    rcases fire_cases x.state d with h | ⟨dcall, fired, hd, ⟨hs', h⟩ | ⟨-, h⟩⟩ | ⟨dcall, -, -, h⟩
    · rw [h]; exact hs
    · rw [h]; exact hs.put hd rfl (fun h => by rw [hs'] at h; exact h)
    · rw [h]; exact hs.put hd rfl (fun _ => trivial)
    · rw [h]; exact hs
  | drop d _ hx =>
    rw [hx]
    rcases drop_cases x.state d with h | ⟨dcall, hd, ⟨fired, p, -, -, h⟩ | ⟨-, h⟩⟩
    · rw [h]; exact hs
    · rw [h]; exact hs.put hd rfl (fun _ => trivial)
    · rw [h]; exact hs.put hd rfl (fun _ => trivial)
  | close _ hx => rw [hx]; exact hs
  | delete _ _ hx => rw [hx]; exact hs
  | deleteStartingWith _ _ hx => rw [hx]; exact hs

/-- The calls that are admitted by the events from number `m` to before number `n`. -/
def admitted (x : World α) (es : List (Event α)) (m n : Nat) : List Nat :=
  (List.range' m (n - m)).filterMap (fun i => es[i]?.bind (admittedBy (worldAt x es i)))

theorem admitted_succ (x : World α) (es : List (Event α)) {m n : Nat} (hmn : m ≤ n) :
    admitted x es m (n + 1) =
      admitted x es m n ++ (es[n]?.bind (admittedBy (worldAt x es n))).toList :=
  Trace.collected_succ admittedBy hmn

theorem admitted_self (x : World α) (es : List (Event α)) (m : Nat) : admitted x es m m = [] :=
  Trace.collected_self admittedBy m

/-- The circuit becomes half open with event number `m` and is so up to point `n`. -/
structure HalfOpenSince (x : World α) (es : List (Event α)) (m n : Nat) : Prop where
  before : m < n
  opened : (worldAt x es m).state.breaker.circuit = .opened
  since : ∀ i, m < i → i ≤ n → (worldAt x es i).state.breaker.circuit = .halfOpen

/-- What the breaker has counted at point `n`. -/
structure Counted (x : World α) (es : List (Event α)) (m n : Nat) : Prop where
  length : (admitted x es m n).length = (worldAt x es n).state.breaker.probes + 1
  bound : (worldAt x es n).state.breaker.probes ≤ (worldAt x es n).state.breaker.probeLimit
  nodup : (admitted x es m n).Nodup
  silent : ∀ c ∈ admitted x es m n, Silent (worldAt x es n).state c

/-- The first call of a half-open circuit is not counted. -/
theorem counted_first {x : World α} {es : List (Event α)}
    (hopen : ∀ n, (worldAt x es n).state.permits.closed = false) {m : Nat}
    (h : HalfOpenSince x es m (m + 1)) : Counted x es m (m + 1) := by
  have hnow : (worldAt x es (m + 1)).state.breaker.circuit = .halfOpen :=
    h.since _ (by omega) (by omega)
  rcases worldAt_cases x es m with ⟨-, hsame⟩ | ⟨e, he, hstep⟩
  · rw [hsame, h.opened] at hnow; cases hnow
  rw [hstep] at hnow
  rcases step_halfOpen (hopen m) hnow with ⟨c, hadm, hb, hbreaker, -, hsilent⟩ | ⟨-, hbreaker⟩
  swap
  · rw [hbreaker, h.opened] at hnow; cases hnow
  have hlist : admitted x es m (m + 1) = [c] := by
    rw [admitted_succ x es (Nat.le_refl m), admitted_self, he]
    simp [hadm]
  rw [hbreaker] at hnow
  obtain ⟨-, ⟨-, hprobes⟩ | ⟨hhalf, -⟩⟩ := Breaker.allow_halfOpen hb hnow
  · refine ⟨?_, ?_, ?_, fun d hd => ?_⟩
    · rw [hlist, hstep, hbreaker, hprobes]; rfl
    · rw [hstep, hbreaker, hprobes]; exact Nat.zero_le _
    · rw [hlist]; simp
    · rw [hlist, List.mem_singleton] at hd
      rw [hd, hstep]; exact hsilent
  · rw [h.opened] at hhalf; cases hhalf

/-- Every further call is counted. -/
theorem Counted.next {x : World α} {es : List (Event α)}
    (hopen : ∀ n, (worldAt x es n).state.permits.closed = false) {m n : Nat} (hmn : m ≤ n)
    (hn : Counted x es m n) (hthen : (worldAt x es n).state.breaker.circuit = .halfOpen)
    (hnow : (worldAt x es (n + 1)).state.breaker.circuit = .halfOpen) :
    Counted x es m (n + 1) := by
  have hlist := admitted_succ x es hmn
  rcases worldAt_cases x es n with ⟨hend, hsame⟩ | ⟨e, he, hstep⟩
  · rw [hend] at hlist
    simp only [Option.bind_none, Option.toList_none, List.append_nil] at hlist
    refine ⟨?_, ?_, ?_, ?_⟩
    · rw [hlist, hsame]; exact hn.length
    · rw [hsame]; exact hn.bound
    · rw [hlist]; exact hn.nodup
    · rw [hlist, hsame]; exact hn.silent
  rw [hstep] at hnow
  rw [he] at hlist
  have hkept : ∀ c ∈ admitted x es m n, Silent (worldAt x es (n + 1)).state c := by
    intro c hc
    rw [hstep]
    exact silent_step (hopen n) hnow (hn.silent c hc)
  rcases step_halfOpen (hopen n) hnow with ⟨c, hadm, hb, hbreaker, hnew, hsilent⟩ | ⟨hadm, hbreaker⟩
  · simp only [Option.bind_some, hadm, Option.toList_some] at hlist
    rw [hbreaker] at hnow
    obtain ⟨hlimit, ⟨hopened, -⟩ | ⟨-, hless, hprobes⟩⟩ := Breaker.allow_halfOpen hb hnow
    · rw [hthen] at hopened; cases hopened
    refine ⟨?_, ?_, ?_, fun d hd => ?_⟩
    · rw [hlist, hstep, hbreaker, hprobes, List.length_append, hn.length]; rfl
    · rw [hstep, hbreaker, hprobes, hlimit]; exact hless
    · -- the call that is admitted now has asked the breaker for the first time
      rw [hlist]
      refine List.nodup_append.2 ⟨hn.nodup, by simp, fun d hd e' he' => ?_⟩
      rw [List.mem_singleton] at he'
      rintro rfl
      exact hnew (he' ▸ hn.silent d hd)
    · rw [hlist] at hd
      rcases List.mem_append.1 hd with hd | hd
      · exact hkept d hd
      · rw [List.mem_singleton.1 hd, hstep]; exact hsilent
  · simp only [Option.bind_some, hadm, Option.toList_none, List.append_nil] at hlist
    refine ⟨?_, ?_, ?_, ?_⟩
    · rw [hlist, hstep, hbreaker]; exact hn.length
    · rw [hstep, hbreaker]; exact hn.bound
    · rw [hlist]; exact hn.nodup
    · rw [hlist]; exact hkept

/-- **While the circuit is half open, the breaker counts the calls that it admits, and none of
them has reported.** -/
theorem counted {x : World α} {es : List (Event α)}
    (hopen : ∀ n, (worldAt x es n).state.permits.closed = false) {m n : Nat}
    (h : HalfOpenSince x es m n) : Counted x es m n := by
  obtain ⟨k, rfl⟩ := Nat.exists_eq_add_of_le h.before
  induction k with
  | zero => exact counted_first hopen h
  | succ k ih =>
    have hk := ih ⟨by omega, h.opened, fun i hi hik => h.since i hi (by omega)⟩
    have hthen := h.since (m + 1 + k) (by omega) (by omega)
    have hnow := h.since (m + 1 + k + 1) (by omega) (by omega)
    have hmk : m ≤ m + 1 + k := by omega
    exact hk.next hopen hmk hthen hnow

theorem open_worldAt (name : String) (settings : Config.Settings) (now : Nat)
    {es : List (Event α)} (hes : ∀ e ∈ es, e.isClose = false) (n : Nat) :
    (worldAt (dawn name settings now) es n).state.permits.closed = false :=
  Trace.after_invariant (P := fun (y : World α) => y.state.permits.closed = false) rfl
    (fun _ e he h => (closed_step (hes e he)).trans h) n

/-- A half-open circuit became so from open. -/
theorem halfOpenSince_of_halfOpen (name : String) (settings : Config.Settings) (now : Nat)
    {es : List (Event α)} (hes : ∀ e ∈ es, e.isClose = false) {n : Nat}
    (h : (worldAt (dawn name settings now) es n).state.breaker.circuit = .halfOpen) :
    ∃ m, HalfOpenSince (dawn name settings now) es m n := by
  -- the circuit is closed at first, so there is a last point at which it was not half open
  have h0 : (worldAt (dawn name settings now : World α) es 0).state.breaker.circuit ≠
      .halfOpen := by
    rw [worldAt_zero]; exact fun h => by cases h
  obtain ⟨m, -, hmn, hm, hall⟩ := Trace.turning_point
    (P := fun i => (worldAt (dawn name settings now) es i).state.breaker.circuit = .halfOpen)
    (Nat.zero_le n) h0 h
  refine ⟨m, hmn, ?_, hall⟩
  have hnext := hall (m + 1) (by omega) (by omega)
  rcases worldAt_cases (dawn name settings now) es m with ⟨-, hsame⟩ | ⟨e, he, hstep⟩
  · rw [hsame] at hnext; exact absurd hnext hm
  rw [hstep] at hnext
  rcases step_halfOpen (open_worldAt name settings now hes m) hnext with
    ⟨c, -, hb, hbreaker, -⟩ | ⟨-, hbreaker⟩
  · rw [hbreaker] at hnext
    obtain ⟨-, ⟨hopened, -⟩ | ⟨hhalf, -⟩⟩ := Breaker.allow_halfOpen hb hnext
    · exact hopened
    · exact absurd hhalf hm
  · rw [hbreaker] at hnext; exact absurd hnext hm

/-- **When a new call is refused although the last failure is long past.** No call is under way;
then the breaker refuses exactly when it has been half open ever since it was open, and the calls
that it admitted in the meantime, one more than its limit of probes, all came to nothing. -/
theorem refuses_iff (name : String) (settings : Config.Settings) (now : Nat)
    (es : List (Event α)) (hes : ∀ e ∈ es, e.isClose = false) (n : Nat)
    (hdone : (worldAt (dawn name settings now) es n).state.isDone = true)
    (hcool : (worldAt (dawn name settings now) es n).state.breaker.cooledDown
      (worldAt (dawn name settings now) es n).now = true) :
    ((worldAt (dawn name settings now) es n).state.breaker.allow
      (worldAt (dawn name settings now) es n).now).1 = false ↔
    ∃ m, HalfOpenSince (dawn name settings now) es m n ∧
      (admitted (dawn name settings now) es m n).Nodup ∧
      (admitted (dawn name settings now) es m n).length =
        (worldAt (dawn name settings now) es n).state.breaker.probeLimit + 1 ∧
      ∀ c ∈ admitted (dawn name settings now) es m n,
        CameToNothing (worldAt (dawn name settings now) es n).state c := by
  -- past the timeout only a half-open circuit refuses, when all its probes are taken
  have hopen := open_worldAt name settings now hes
  rw [Breaker.refuses_iff_of_cooledDown hcool]
  constructor
  · rintro ⟨hhalf, hfull⟩
    obtain ⟨m, hsince⟩ := halfOpenSince_of_halfOpen name settings now hes hhalf
    have hcount := counted hopen hsince
    refine ⟨m, hsince, hcount.nodup, ?_, fun c hc => (hcount.silent c hc).cameToNothing hdone⟩
    rw [hcount.length, Nat.le_antisymm hcount.bound hfull]
  · rintro ⟨m, hsince, -, hlength, -⟩
    have hcount := counted hopen hsince
    rw [hcount.length] at hlength
    exact ⟨hsince.since n hsince.before (Nat.le_refl n), by omega⟩

/-- A breaker that admits one probe, as soon as ten milliseconds have passed since a failure. -/
def oneProbe : Config.Settings where
  breaker := { failureThreshold := 1, resetTimeoutMs := 10, halfOpenMax := 1 }
  retries := { maxAttempts := 1 }

/-- A call fails; later two calls come in whose tokens have fired. -/
def twoCancelled : List (Event Nat) :=
  [.call 0 "k" 60 false, .turn 0 (fun _ => { result := .error (.serverError 503 "down") }),
    .pass (Duration.ofMillis 20), .call 1 "k" 60 true, .turn 1 silence, .call 2 "k" 60 true,
    .turn 2 silence, .pass (Duration.ofMillis 100)]

theorem twoCancelled_refuses :
    (worldAt (dawn "r" oneProbe 0) twoCancelled 8).state.isDone = true ∧
    (worldAt (dawn "r" oneProbe 0) twoCancelled 8).state.breaker.cooledDown
      (worldAt (dawn "r" oneProbe 0) twoCancelled 8).now = true ∧
    ((worldAt (dawn "r" oneProbe 0) twoCancelled 8).state.breaker.allow
      (worldAt (dawn "r" oneProbe 0) twoCancelled 8).now).1 = false := by
  decide

/-- The two calls with a fired token are all that the breaker admitted. -/
theorem twoCancelled_cameToNothing : ∃ m,
    HalfOpenSince (dawn "r" oneProbe 0) twoCancelled m 8 ∧
    (admitted (dawn "r" oneProbe 0) twoCancelled m 8).Nodup ∧
    (admitted (dawn "r" oneProbe 0) twoCancelled m 8).length =
      (worldAt (dawn "r" oneProbe 0) twoCancelled 8).state.breaker.probeLimit + 1 ∧
    ∀ c ∈ admitted (dawn "r" oneProbe 0) twoCancelled m 8,
      CameToNothing (worldAt (dawn "r" oneProbe 0) twoCancelled 8).state c :=
  (refuses_iff "r" oneProbe 0 twoCancelled (by decide) 8 (by decide) (by decide)).1 (by decide)

theorem allow_of_full {b : Breaker} (hhalf : b.circuit = .halfOpen)
    (hfull : b.probeLimit ≤ b.probes) (now : Nat) : (b.allow now).1 = false := by
  unfold Breaker.allow
  rw [hhalf]
  simp only
  rw [if_neg (Nat.not_lt_of_le hfull)]

/-- The breaker stands as before, and whoever is under way has not asked it yet. -/
structure Stuck (b : Breaker) (s : Caller α) : Prop where
  breaker : s.breaker = b
  arriving : ∀ c call, s.calls.get? c = some call → call.isOpen = true →
    ∃ fired, call.stage = .arriving fired

theorem Stuck.put {b : Breaker} {s s' : Caller α} (h : Stuck b s) {c : Nat} {call : Call α}
    (hb : s'.breaker = s.breaker) (hcalls : s'.calls = s.calls.put c call)
    (hc : call.isOpen = true → ∃ fired, call.stage = .arriving fired) : Stuck b s' := by
  refine ⟨hb.trans h.breaker, fun d dcall hd => ?_⟩
  rw [hcalls] at hd
  by_cases hdc : d = c
  · subst hdc
    rw [Table.get?_put_self] at hd; cases hd
    exact hc
  · rw [Table.get?_put_of_ne _ _ hdc] at hd
    exact h.arriving d dcall hd

theorem stuck_turn {b : Breaker} (hhalf : b.circuit = .halfOpen) (hfull : b.probeLimit ≤ b.probes)
    (answers : Answers α) (now c : Nat) {s : Caller α} (h : Stuck b s) :
    Stuck b (s.turn answers now c) := by
  -- nobody is admitted any more
  have hnever : ∀ {p : Prop}, (s.breaker.allow now).1 = true → p := by
    intro p hb
    rw [h.breaker, allow_of_full hhalf hfull] at hb
    cases hb
  -- and nobody who was admitted is still under way
  have hnot : ∀ {p : Prop} {call : Call α}, s.calls.get? c = some call → call.isOpen = true →
      (∀ fired, call.stage ≠ .arriving fired) → p := by
    intro p call hc ho hn
    obtain ⟨fired, ha⟩ := h.arriving c call hc ho
    exact absurd ha (hn fired)
  cases turn_cases answers now c s with
  | rest ht => rw [ht]; exact h
  | turnedAway call fired p hc _ _ _ ht => rw [ht]; exact h.put rfl rfl (fun ho => by cases ho)
  | refused call fired hc _ _ _ ht => rw [ht]; exact h.put rfl rfl (fun ho => by cases ho)
  | cancelled call _ _ _ hb => exact hnever hb
  | queues call _ _ _ hb => exact hnever hb
  | boards call _ _ _ hb => exact hnever hb
  | leaves call hc hs =>
    exact hnot hc (by unfold Call.isOpen; rw [hs]) (fun f h => by rw [hs] at h; cases h)
  | claims call hc hs =>
    exact hnot hc (by unfold Call.isOpen; rw [hs]) (fun f h => by rw [hs] at h; cases h)
  | proceeds call hc hs =>
    exact hnot hc (by unfold Call.isOpen; rw [hs]) (fun f h => by rw [hs] at h; cases h)

theorem stuck_step {b : Breaker} (hhalf : b.circuit = .halfOpen) (hfull : b.probeLimit ≤ b.probes)
    {x : World α} (h : Stuck b x.state) (e : Event α) : Stuck b (step x e).state := by
  cases step_cases x e with
  | same hx => rw [hx]; exact h
  | began c key ttl fired _ _ hx => rw [hx]; exact h.put rfl rfl (fun _ => ⟨fired, rfl⟩)
  | turn c answers _ _ hx => rw [hx]; exact stuck_turn hhalf hfull answers x.now c h
  | chore chore _ _ _ hx => rw [hx]; exact ⟨h.breaker, h.arriving⟩
  | fire c _ hx =>
    rw [hx]
    rcases fire_cases x.state c with hf | ⟨call, fired, hc, ⟨-, hf⟩ | ⟨hs, -⟩⟩ | ⟨call, -, -, hf⟩
    · rw [hf]; exact h
    · rw [hf]; exact h.put rfl rfl (fun _ => ⟨true, rfl⟩)
    · obtain ⟨f, ha⟩ := h.arriving c call hc (by unfold Call.isOpen; rw [hs])
      rw [hs] at ha; cases ha
    · rw [hf]; exact ⟨h.breaker, h.arriving⟩
  | drop c _ hx =>
    rw [hx]
    rcases drop_cases x.state c with hd | ⟨call, -, ⟨fired, p, -, -, hd⟩ | ⟨-, hd⟩⟩
    · rw [hd]; exact h
    · rw [hd]; exact h.put rfl rfl (fun ho => by cases ho)
    · rw [hd]; exact h.put rfl rfl (fun ho => by cases ho)
  | close _ hx => rw [hx]; exact ⟨h.breaker, h.arriving⟩
  | delete _ _ hx => rw [hx]; exact ⟨h.breaker, h.arriving⟩
  | deleteStartingWith _ _ hx => rw [hx]; exact ⟨h.breaker, h.arriving⟩

/-- **A breaker that refuses so refuses for good**, whatever happens and however long it takes. -/
theorem refuses_forever {x : World α} (hdone : x.state.isDone = true)
    (hcool : x.state.breaker.cooledDown x.now = true)
    (hrefuses : (x.state.breaker.allow x.now).1 = false) (es : List (Event α)) (n now : Nat) :
    ((worldAt x es n).state.breaker.allow now).1 = false := by
  obtain ⟨hhalf, hfull⟩ := (Breaker.refuses_iff_of_cooledDown hcool).1 hrefuses
  -- no call is under way at first
  have h0 : Stuck x.state.breaker x.state := by
    refine ⟨rfl, fun c call hc ho => ?_⟩
    have hclosed := List.all_eq_true.1 hdone _ (Table.mem_of_get? hc)
    rw [ho] at hclosed; cases hclosed
  have h : Stuck x.state.breaker (worldAt x es n).state :=
    Trace.after_invariant (P := fun (y : World α) => Stuck x.state.breaker y.state) h0
      (fun _ e _ hy => stuck_step hhalf hfull hy e) n
  rw [h.breaker]
  exact allow_of_full hhalf hfull now

end Caller

end RegistryLookup
