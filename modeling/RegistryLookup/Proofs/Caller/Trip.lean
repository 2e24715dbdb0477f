import RegistryLookup.Proofs.Caller.Recovery

/-!
# When the circuit trips

Flights that reach the upstream have outcomes. As many failures in a row as the threshold says open
the circuit, unless a call that made no attempt of its own reports in between that the registry is
well: one that found its value in the cache, or one that was served while the circuit was half open
(`closed_despite_failures`).
-/

namespace RegistryLookup.Caller

open Flight

variable {α : Type} {x : World α} {es : List (Event α)}

/-- How a flight that has reached the upstream ends in an event. Flights that are cancelled have no
outcome, and a call that is served by a flight has none of its own. -/
def outcome? (x : World α) : Event α → Option (Except Failure α)
  | .turn c answers =>
    let s := (step x (.turn c answers)).state
    match x.state.flights.ending? c, s.flights.ending? c with
    | none, some E =>
      if !E.shared && !isCancelled E.result && 0 < begun c (log s) then some E.result else none
    | _, _ => none
  | _ => none

/-- The outcomes of flights from event number `m` to before event number `n`, in the order in which
the flights end. -/
def outcomes (x : World α) (es : List (Event α)) (m n : Nat) : List (Except Failure α) :=
  Trace.collected step outcome? x es m n

theorem outcome?_eq_none {e : Event α} (h : ∀ c E,
    phase? (step x e).state c = some (.ended E) → phase? x.state c = some (.ended E)) :
    outcome? x e = none := by
  cases e with
  | turn c answers =>
    unfold outcome?
    simp only
    cases hbefore : x.state.flights.ending? c with
    | some E => rfl
    | none =>
      cases hafter : (step x (.turn c answers)).state.flights.ending? c with
      | none => rfl
      | some E =>
        have hE := h c E ((ending?_eq_some_iff _ _ _).1 hafter)
        rw [(ending?_eq_some_iff _ _ _).2 hE] at hbefore
        cases hbefore
  | _ => rfl

/-- A call that reports and has made attempts tells the outcome of its flight, if it has one. -/
theorem Reports.outcome?_eq {e : Event α} {c : Nat} {b : Breaker} {E : Ending α}
    (h : Reports x e c b E) : outcome? x e =
      if !E.shared && !isCancelled E.result && 0 < begun c (log (step x e).state) then
        some E.result else none := by
  obtain ⟨answers, rfl⟩ := h.event
  have hafter := (ending?_eq_some_iff _ _ _).2 h.after
  have hbefore : x.state.flights.ending? c = none := by
    cases hE : x.state.flights.ending? c with
    | none => rfl
    | some E' => exact absurd ((ending?_eq_some_iff _ _ _).1 hE) (h.before E')
  unfold outcome?
  simp only [hafter, hbefore]

theorem begun_pos {c : Nat} {as : List (Retry.Entry α)} {p t : Nat} {j : UInt32}
    (h : as[p]? = some ⟨c, t, .began j⟩) : 0 < begun c as :=
  List.countP_pos_iff.2 ⟨_, List.mem_of_getElem? h, by simp⟩

/-- A closed circuit has seen fewer failures than its threshold. -/
structure BelowThreshold (threshold : Nat) (b : Breaker) : Prop where
  threshold_eq : b.threshold = threshold
  below : b.circuit = .closed → b.failures < threshold

theorem BelowThreshold.settle {threshold : Nat} (ht : 0 < threshold) {b : Breaker} {now : Nat}
    {E : Ending α} (h : BelowThreshold threshold b) :
    BelowThreshold threshold (settleReport b now E) := by
  rcases settleReport_cases b now E with ⟨-, -, hsame⟩ | ⟨-, hreport⟩
  · rw [hsame]; exact h
  · cases hreport with
    | failure _ _ hs =>
      rw [hs]
      refine ⟨by rw [Breaker.threshold_recordFailure]; exact h.threshold_eq, fun hc => ?_⟩
      rw [← h.threshold_eq]
      exact (Breaker.recordFailure_of_closed hc).2.2
    | sound _ _ hs =>
      rw [hs]
      refine ⟨by rw [Breaker.threshold_recordSuccess]; exact h.threshold_eq, fun _ => ?_⟩
      rw [Breaker.failures_recordSuccess]
      exact ht
    | nothing _ hs => rw [hs]; exact h

theorem BelowThreshold.allow {threshold : Nat} {b b' : Breaker} (h : BelowThreshold threshold b)
    (ha : Breaker.Allowed b b') : BelowThreshold threshold b' := by
  refine ⟨ha.threshold.trans h.threshold_eq, fun hc => ?_⟩
  have hsame := ha.of_closed hc
  rw [hsame] at hc ⊢
  exact h.below hc

theorem belowThreshold (hx : x.state.Fresh) {threshold : Nat} (ht : 0 < threshold)
    (h0 : BelowThreshold threshold x.state.breaker) (n : Nat) :
    BelowThreshold threshold (worldAt x es n).state.breaker := by
  induction n with
  | zero => rw [worldAt_zero]; exact h0
  | succ n ih =>
    rcases worldAt_cases x es n with ⟨-, h⟩ | ⟨e, -, h⟩
    · rw [h]; exact ih
    rw [h]
    have hallow := ih.allow (Breaker.allow_cases _ (worldAt x es n).now)
    cases told (worldAt_sound hx.sound n) (worldAt_abreast hx n) e with
    | silent hb => rw [hb]; exact ih
    | admits c answers _ _ _ hb => rw [hb]; exact hallow
    | reports c b E hr =>
      rw [hr.breaker]
      rcases hr.admitted with rfl | ⟨-, -, rfl⟩
      · exact ih.settle ht
      · exact hallow.settle ht

/-- A call that has made no attempt reports in event `n` that the registry is well: it has found its
value in the cache, or it was served while the circuit was half open. -/
structure Hollow (x : World α) (es : List (Event α)) (n c : Nat) (b : Breaker) (E : Ending α) :
    Prop where
  report : ∃ e, es[n]? = some e ∧ Reports (worldAt x es n) e c b E
  sound : isSound E.result = true
  idle : begun c (log (worldAt x es (n + 1)).state) = 0
  occasion : (∃ key v, HasKey (worldAt x es n).state c key ∧ E.result = .ok v ∧
      ((worldAt x es n).state.cache.get (worldAt x es n).now key).1 = some v) ∨
    ((∃ l, E.role = .served l) ∧ b.circuit = .halfOpen)

/-- A report that the registry is well is hollow, or it is the outcome of a flight, or the breaker
does not listen to it. -/
theorem Reports.hollow_or_outcome (hx : x.state.Untouched) {n c : Nat} {e : Event α} {b : Breaker}
    {E : Ending α} (he : es[n]? = some e) (h : Reports (worldAt x es n) e c b E)
    (hw : isSound E.result = true) : Hollow x es n c b E ∨
      outcome? (worldAt x es n) e = some E.result ∨ (E.shared = true ∧ b.circuit ≠ .halfOpen) := by
  have hsound : (worldAt x es n).state.Sound := worldAt_sound hx.sound n
  have hresult : E.result ≠ .error .cancelled := fun hr => by rw [hr] at hw; cases hw
  obtain ⟨call, hc, -⟩ := h.call
  -- a call that has not begun before has made no attempt
  have hidle : Unbegun (worldAt x es n).state c →
      log (worldAt x es (n + 1)).state = log (worldAt x es n).state →
      begun c (log (worldAt x es (n + 1)).state) = 0 := by
    intro hopen hlog
    rw [hlog]
    exact begun_eq_zero ((logged hx.toFresh n).unbegun c hopen)
  rcases (h.leg hsound hc).ending hx he hc hresult with ⟨v, hv, hopen, hlog, hfound⟩ |
    ⟨l, hrole, hopen, hlog, -⟩ | ⟨hrole, i, p, q, s, j, o, hat, -, -⟩
  · exact Or.inl ⟨⟨e, he, h⟩, hw, hidle hopen hlog,
      Or.inl ⟨call.key, v, ⟨call, hc, rfl⟩, hv, hfound⟩⟩
  · by_cases hhalf : b.circuit = .halfOpen
    · exact Or.inl ⟨⟨e, he, h⟩, hw, hidle hopen hlog, Or.inr ⟨⟨l, hrole⟩, hhalf⟩⟩
    · exact Or.inr (Or.inr ⟨by unfold Ending.shared; rw [hrole], hhalf⟩)
  · have hbegun := begun_pos hat.begins.entry
    rw [worldAt_succ x he] at hbegun
    obtain ⟨published, hrole⟩ := hrole
    have hshared : E.shared = false := by unfold Ending.shared; rw [hrole]
    have hsome : isCancelled E.result = false := by
      rw [Bool.eq_false_iff, ne_eq, isCancelled_iff]; exact hresult
    exact Or.inr (Or.inl (by rw [h.outcome?_eq]; simp [hshared, hsome, hbegun]))

theorem outcomes_succ {m n : Nat} (hmn : m ≤ n) : outcomes x es m (n + 1) =
    outcomes x es m n ++ (es[n]?.bind (outcome? (worldAt x es n))).toList :=
  Trace.collected_succ outcome? hmn

/-- A closed circuit has counted all outcomes that are failures, event by event. -/
theorem counted_step (hx : x.state.Untouched) {threshold : Nat} (ht : 0 < threshold)
    (hmost : threshold ≤ Breaker.mostFailures) (h0 : BelowThreshold threshold x.state.breaker)
    {k n : Nat} {e : Event α} (he : es[n]? = some e)
    (hfail : ∀ r, outcome? (worldAt x es n) e = some r → isFailure r = true)
    (hno : ∀ c b E, ¬ Hollow x es n c b E)
    (hk : (worldAt x es n).state.breaker.circuit = .closed →
      k ≤ (worldAt x es n).state.breaker.failures)
    (hclosed : (step (worldAt x es n) e).state.breaker.circuit = .closed) :
    k + (outcome? (worldAt x es n) e).toList.length ≤
      (step (worldAt x es n) e).state.breaker.failures := by
  have hsound : (worldAt x es n).state.Sound := worldAt_sound hx.sound n
  have hallow := Breaker.allow_cases (worldAt x es n).state.breaker (worldAt x es n).now
  cases told hsound (worldAt_abreast hx.toFresh n) e with
  | silent hb hends =>
    rw [hb] at hclosed ⊢
    simpa [outcome?_eq_none hends.phases] using hk hclosed
  | admits c answers _ _ _ hb hends =>
    rw [hb] at hclosed ⊢
    have hkept := hallow.of_closed hclosed
    rw [hkept] at hclosed ⊢
    simpa [outcome?_eq_none hends.phases] using hk hclosed
  | reports c b E hr =>
    rw [hr.breaker] at hclosed ⊢
    -- where there is no outcome there is nothing to count
    have hquiet : outcome? (worldAt x es n) e = none → b.circuit = .closed →
        k + (outcome? (worldAt x es n) e).toList.length ≤ b.failures := by
      intro hnone hb
      have hsame := hr.closed hb
      rw [hsame] at hb ⊢
      simpa [hnone] using hk hb
    rcases settleReport_cases b (worldAt x es n).now E with ⟨hshared, -, hs⟩ | ⟨hlistens, hreport⟩
    · rw [hs] at hclosed ⊢
      exact hquiet (by rw [hr.outcome?_eq, hshared]; rfl) hclosed
    cases hreport with
    | failure _ _ hs =>
      rw [hs] at hclosed ⊢
      obtain ⟨hb, hfailures, -⟩ := Breaker.recordFailure_of_closed hclosed
      have hsame := hr.closed hb
      rw [hsame] at hb
      have hbelow := (belowThreshold hx.toFresh ht h0 n).below hb
      have hold := hk hb
      have hone : (outcome? (worldAt x es n) e).toList.length ≤ 1 := by
        cases outcome? (worldAt x es n) e <;> simp
      rw [hfailures, hsame]
      omega
    | sound hwell hw hs =>
      -- the report is hollow, or the outcome of a flight that has not failed
      rcases hr.hollow_or_outcome hx he hw with hhollow | hout | ⟨hshared, hhalf⟩
      · exact absurd hhollow (hno c b E)
      · have hbad := hfail _ hout
        rw [hwell] at hbad; cases hbad
      · exact absurd (hlistens hshared) hhalf
    | nothing hcancel hs =>
      rw [hs] at hclosed ⊢
      have hc := (isCancelled_iff _).2 hcancel
      exact hquiet (by rw [hr.outcome?_eq, hc]; simp) hclosed

/-- Where no report is hollow, a closed circuit has counted all outcomes that are failures. -/
theorem outcomes_counted (hx : x.state.Untouched) {threshold : Nat} (ht : 0 < threshold)
    (hmost : threshold ≤ Breaker.mostFailures) (h0 : BelowThreshold threshold x.state.breaker)
    {m n : Nat} (hmn : m ≤ n) (hall : ∀ r ∈ outcomes x es m n, isFailure r = true)
    (hno : ∀ i, m ≤ i → i < n → ∀ c b E, ¬ Hollow x es i c b E)
    (hclosed : (worldAt x es n).state.breaker.circuit = .closed) :
    (outcomes x es m n).length ≤ (worldAt x es n).state.breaker.failures := by
  -- by induction on the events of the stretch
  obtain ⟨d, rfl⟩ := Nat.exists_eq_add_of_le hmn
  clear hmn
  induction d with
  | zero =>
    rw [show outcomes x es m (m + 0) = [] from Trace.collected_self outcome? m]
    exact Nat.zero_le _
  | succ d ih =>
    rw [← Nat.add_assoc] at hall hno hclosed ⊢
    have hlist : outcomes x es m (m + d + 1) = outcomes x es m (m + d) ++
        (es[m + d]?.bind (outcome? (worldAt x es (m + d)))).toList :=
      outcomes_succ (Nat.le_add_right m d)
    have ih := ih (fun r hr => hall r (by rw [hlist]; exact List.mem_append_left _ hr))
      (fun i hmi hi => hno i hmi (by omega))
    rcases worldAt_cases x es (m + d) with ⟨hnone, hsame⟩ | ⟨e, he, hstep⟩
    · rw [hsame] at hclosed ⊢
      rw [hlist, hnone]
      simpa using ih hclosed
    · rw [he, Option.bind_some] at hlist
      rw [hstep] at hclosed ⊢
      rw [hlist, List.length_append]
      refine counted_step hx ht hmost h0 he (fun r hr => hall r ?_)
        (hno (m + d) (Nat.le_add_right m d) (Nat.lt_succ_self _)) ih hclosed
      rw [hlist, hr]
      exact List.mem_append_right _ List.mem_cons_self

/-- **Why a circuit is closed despite failures.** Where as many flights as the threshold says have
failed one after another, the circuit is open or half open, unless a call that has made no attempt
has reported in between that the registry is well. -/
theorem closed_despite_failures (name : String) (settings : Config.Settings) (now : Nat)
    (es : List (Event α)) {m n : Nat} (hmn : m ≤ n)
    (hall : ∀ r ∈ outcomes (dawn name settings now) es m n, isFailure r = true)
    (hmany : max 1 settings.breaker.failureThreshold.toNat ≤
      (outcomes (dawn name settings now) es m n).length) :
    (worldAt (dawn name settings now) es n).state.breaker.circuit ≠ .closed ∨
      ∃ i c b E, m ≤ i ∧ i < n ∧ Hollow (dawn name settings now) es i c b E := by
  have hx : (dawn name settings now : World α).state.Untouched := make_untouched name settings now
  have ht : 0 < max 1 settings.breaker.failureThreshold.toNat := by omega
  have hmost : max 1 settings.breaker.failureThreshold.toNat ≤ Breaker.mostFailures := by
    have hlt : settings.breaker.failureThreshold.toNat < UInt32.size :=
      settings.breaker.failureThreshold.toNat_lt_size
    have hsize : UInt32.size = 4294967296 := rfl
    unfold Breaker.mostFailures
    omega
  have h0 : BelowThreshold (max 1 settings.breaker.failureThreshold.toNat)
      (dawn name settings now : World α).state.breaker := ⟨rfl, fun _ => ht⟩
  by_cases hno : ∃ i c b E, m ≤ i ∧ i < n ∧ Hollow (dawn name settings now) es i c b E
  · exact Or.inr hno
  · left
    intro hclosed
    have hcounted := outcomes_counted hx ht hmost h0 hmn hall
      (fun i hmi hin c b E hh => hno ⟨i, c, b, E, hmi, hin, hh⟩) hclosed
    have hbelow := (belowThreshold hx.toFresh ht h0 n).below hclosed
    omega

/-- A breaker that opens at the second failure in a row. -/
def twoFailures : Config.Settings where
  breaker := { failureThreshold := 2 }
  retries := { maxAttempts := 1 }

/-- A value is fetched; then two calls for another key fail, and between them the value is asked for
again. -/
def interleaved : List (Event Nat) :=
  [.call 0 "c" (Duration.ofMillis 1000) false, .turn 0 (fun _ => { result := .ok 7 }),
    .call 1 "k" 60 false, .turn 1 (fun _ => { result := .error (.serverError 503 "down") }),
    .call 2 "c" 60 false, .turn 2 silence,
    .call 3 "k" 60 false, .turn 3 (fun _ => { result := .error (.serverError 503 "down") })]

/-- The two failures in a row do not open the circuit, and the cached value between them is the
reason. -/
theorem interleaved_hollow :
    2 ≤ 8 ∧ (∀ r ∈ outcomes (dawn "r" twoFailures 0) interleaved 2 8, isFailure r = true) ∧
    max 1 twoFailures.breaker.failureThreshold.toNat ≤
      (outcomes (dawn "r" twoFailures 0) interleaved 2 8).length ∧
    ∃ i c b E, 2 ≤ i ∧ i < 8 ∧ Hollow (dawn "r" twoFailures 0) interleaved i c b E := by
  refine ⟨by decide, by decide, by decide, ?_⟩
  rcases closed_despite_failures (m := 2) (n := 8) "r" twoFailures 0 interleaved (by decide)
    (by decide) (by decide) with hopen | hhollow
  · exact absurd (by decide) hopen
  · exact hhollow

/-- **Failures in a row need not open the circuit.** -/
theorem failures_uncounted : ¬ ∀ (es : List (Event Nat)) (m n : Nat), m ≤ n →
    (∀ r ∈ outcomes (dawn "r" twoFailures 0) es m n, isFailure r = true) →
    max 1 twoFailures.breaker.failureThreshold.toNat ≤
      (outcomes (dawn "r" twoFailures 0) es m n).length →
    (worldAt (dawn "r" twoFailures 0) es n).state.breaker.circuit ≠ .closed := by
  intro h
  exact h interleaved 2 8 (by decide) (by decide) (by decide) (by decide)

end RegistryLookup.Caller
