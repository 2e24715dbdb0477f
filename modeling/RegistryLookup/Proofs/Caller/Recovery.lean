import RegistryLookup.Proofs.Breaker.Moves
import RegistryLookup.Proofs.Caller.Invalidation

/-!
# On what evidence a circuit closes again

A half-open circuit closes when a call reports that the registry is well (`recovers_iff`). The
report need not rest on an attempt of the half-open phase: the call may have found its value in
the cache, or the attempt may have begun before the phase (`recovery_evidence`).
-/

namespace RegistryLookup.Caller

open Flight

variable {α : Type} {x : World α} {es : List (Event α)}

/-- The circuit closes in an event: it is half open at some moment of it, and closed at the
end. -/
structure Recovers (x : World α) (e : Event α) : Prop where
  before : x.state.breaker.circuit ≠ .closed
  after : (step x e).state.breaker.circuit = .closed

/-- The breaker to which a call reports is closed only if it was so before the event. -/
theorem Reports.closed {e : Event α} {c : Nat} {b : Breaker} {E : Ending α}
    (h : Reports x e c b E) (hb : b.circuit = .closed) : b = x.state.breaker := by
  rcases h.admitted with rfl | ⟨-, -, rfl⟩
  · rfl
  · exact (Breaker.allow_cases x.state.breaker x.now).of_closed hb

/-- **A circuit closes when, while it is half open, a call reports that the registry is well.** -/
theorem recovers_iff (h : x.state.Sound) (ha : x.state.Abreast) (e : Event α) :
    Recovers x e ↔ ∃ c b E, Reports x e c b E ∧ b.circuit = .halfOpen ∧ isSound E.result = true := by
  constructor
  · rintro ⟨hbefore, hafter⟩
    cases told h ha e with
    | silent hb => rw [hb] at hafter; exact absurd hafter hbefore
    | admits c answers _ _ _ hb =>
      rw [hb] at hafter
      have hsame := (Breaker.allow_cases x.state.breaker x.now).of_closed hafter
      rw [hsame] at hafter
      exact absurd hafter hbefore
    | reports c b E hr =>
      rw [hr.breaker] at hafter
      have hopen : b.circuit ≠ .closed := fun hb => by
        have hsame := hr.closed hb
        rw [← hsame] at hbefore
        exact hbefore hb
      refine ⟨c, b, E, hr, ?_⟩
      rcases settleReport_cases b x.now E with ⟨-, -, hsame⟩ | ⟨-, hreport⟩
      · rw [hsame] at hafter; exact absurd hafter hopen
      · cases hreport with
        | failure _ _ hs =>
          rw [hs] at hafter
          exact absurd (Breaker.recordFailure_of_closed hafter).1 hopen
        | sound _ hw hs =>
          rw [hs, Breaker.circuit_recordSuccess] at hafter
          split at hafter
          · rename_i hhalf; exact ⟨hhalf, hw⟩
          · exact absurd hafter hopen
        | nothing _ hs => rw [hs] at hafter; exact absurd hafter hopen
  · rintro ⟨c, b, E, hr, hhalf, hw⟩
    refine ⟨fun hclosed => ?_, ?_⟩
    · -- a closed circuit does not become half open
      rcases hr.admitted with rfl | ⟨-, -, rfl⟩
      · rw [hclosed] at hhalf; cases hhalf
      · rcases (Breaker.allow_cases x.state.breaker x.now).of_halfOpen hhalf with ho | ho <;>
          rw [hclosed] at ho <;> cases ho
    · rw [hr.breaker]
      rcases settleReport_cases b x.now E with ⟨-, hno, -⟩ | ⟨-, hreport⟩
      · exact absurd hhalf hno
      · cases hreport with
        | failure _ hw' => rw [hw] at hw'; cases hw'
        | sound _ _ hs => rw [hs, Breaker.circuit_recordSuccess, if_pos hhalf]
        | nothing hcancel => rw [hcancel] at hw; cases hw

/-- The circuit becomes half open in event `m`, and is so until event `n`. -/
structure HalfOpenFrom (x : World α) (es : List (Event α)) (m n : Nat) : Prop where
  le : m ≤ n
  opened : (worldAt x es m).state.breaker.circuit = .opened
  since : ∀ i, m < i → i ≤ n → (worldAt x es i).state.breaker.circuit = .halfOpen

/-- A circuit becomes half open only from open. -/
theorem opened_of_halfOpen_step (h : x.state.Sound) (ha : x.state.Abreast) {e : Event α}
    (hafter : (step x e).state.breaker.circuit = .halfOpen) :
    x.state.breaker.circuit = .opened ∨ x.state.breaker.circuit = .halfOpen := by
  have hallow := Breaker.allow_cases x.state.breaker x.now
  cases told h ha e with
  | silent hb => rw [hb] at hafter; exact Or.inr hafter
  | admits c answers _ _ _ hb => rw [hb] at hafter; exact hallow.of_halfOpen hafter
  | reports c b E hr =>
    rw [hr.breaker] at hafter
    obtain ⟨hsame, -⟩ := settleReport_halfOpen hafter
    rw [hsame] at hafter
    rcases hr.admitted with rfl | ⟨-, -, rfl⟩
    · exact Or.inr hafter
    · exact hallow.of_halfOpen hafter

/-- A half-open circuit became so in some event. -/
theorem halfOpenFrom_of_halfOpen (hx : x.state.Fresh) (h0 : x.state.breaker.circuit = .closed)
    {n : Nat} (h : (worldAt x es n).state.breaker.circuit = .halfOpen) :
    ∃ m, HalfOpenFrom x es m n := by
  have hzero : (worldAt x es 0).state.breaker.circuit ≠ .halfOpen := by
    rw [worldAt_zero, h0]; exact fun h => by cases h
  -- the last point at which it was not half open
  obtain ⟨m, -, hmn, hm, hall⟩ := Trace.turning_point
    (P := fun i => (worldAt x es i).state.breaker.circuit = .halfOpen) (Nat.zero_le n) hzero h
  refine ⟨m, Nat.le_of_lt hmn, ?_, hall⟩
  have hnext := hall (m + 1) (Nat.lt_succ_self m) hmn
  rcases worldAt_cases x es m with ⟨-, hsame⟩ | ⟨e, -, hstep⟩
  · rw [hsame] at hnext; exact absurd hnext hm
  · rw [hstep] at hnext
    rcases opened_of_halfOpen_step (worldAt_sound hx.sound m) (worldAt_abreast hx m) hnext with
      ho | hh
    · exact ho
    · exact absurd hh hm

/-- The phase in which a call reports to a half-open circuit. -/
theorem Reports.halfOpenFrom (hx : x.state.Fresh) (h0 : x.state.breaker.circuit = .closed)
    {n c : Nat} {e : Event α} {b : Breaker} {E : Ending α}
    (h : Reports (worldAt x es n) e c b E) (hb : b.circuit = .halfOpen) :
    ∃ m, HalfOpenFrom x es m n := by
  rcases h.admitted with rfl | ⟨-, -, rfl⟩
  · exact halfOpenFrom_of_halfOpen hx h0 hb
  · rcases (Breaker.allow_cases (worldAt x es n).state.breaker (worldAt x es n).now).of_halfOpen hb
      with hopen | hhalf
    · exact ⟨n, Nat.le_refl n, hopen, fun i hi hin => by omega⟩
    · exact halfOpenFrom_of_halfOpen hx h0 hhalf

/-- On what the report of a call for a key rests that ends in event `n`; the circuit has been half
open since event `m`. -/
inductive Evidence (x : World α) (es : List (Event α)) (m n c : Nat) (key : String)
    (E : Ending α) : Prop
  /-- On a value in the cache. -/
  | cached (v : α) (result : E.result = .ok v)
      (found : ((worldAt x es n).state.cache.get (worldAt x es n).now key).1 = some v)
  /-- On an attempt that began in the phase. -/
  | fresh (l i p q s : Nat) (j : UInt32) (o : Retry.Outcome α)
      (attempt : Attempt x es (n + 1) l i p q j o s) (result : o.result = E.result)
      (hkey : HasKey (worldAt x es (n + 1)).state l key) (role : l = c ∨ E.role = .served l)
      (began : mark x es m ≤ p)
  /-- On an attempt whose flight was under way when the phase began. -/
  | late (l i p q s : Nat) (j : UInt32) (o : Retry.Outcome α)
      (attempt : Attempt x es (n + 1) l i p q j o s) (result : o.result = E.result)
      (hkey : HasKey (worldAt x es (n + 1)).state l key) (role : l = c ∨ E.role = .served l)
      (began : p < mark x es m) (underWay : (worldAt x es m).state.flights.Leads key l)
  /-- On an attempt that was over before the phase began; the call had waited for it. -/
  | stale (l i p q s : Nat) (j : UInt32) (o : Retry.Outcome α)
      (attempt : Attempt x es (n + 1) l i p q j o s) (result : o.result = E.result)
      (hkey : HasKey (worldAt x es (n + 1)).state l key) (role : E.role = .served l)
      (gone : q < mark x es m)

/-- How a call comes to an end that says something of the registry. -/
theorem Leg.ending (hx : x.state.Untouched) {n c : Nat} {call : Call α} {e : Event α} {E : Ending α}
    (he : es[n]? = some e) (hc : (worldAt x es n).state.calls.get? c = some call)
    (h : Leg (worldAt x es n) e c call (.ended E)) (hr : E.result ≠ .error .cancelled) :
    (∃ v, E.result = .ok v ∧ Unbegun (worldAt x es n).state c ∧
      log (worldAt x es (n + 1)).state = log (worldAt x es n).state ∧
      ((worldAt x es n).state.cache.get (worldAt x es n).now call.key).1 = some v) ∨
    (∃ l, E.role = .served l ∧ Unbegun (worldAt x es n).state c ∧
      log (worldAt x es (n + 1)).state = log (worldAt x es n).state ∧
      ∃ i p q s j o, Attempt x es (n + 1) l i p q j o s ∧ o.result = E.result ∧
        HasKey (worldAt x es (n + 1)).state l call.key) ∨
    ((∃ published, E.role = .leader published) ∧ ∃ i p q s j o,
      Attempt x es (n + 1) c i p q j o s ∧ o.result = E.result ∧ mark x es n ≤ q) := by
  have hsound : (worldAt x es n).state.Sound := worldAt_sound hx.sound n
  rw [worldAt_succ x he]
  generalize hp : (Phase.ended E : Phase (Load α) α) = p at h
  cases h with
  | dropped => cases hp
  | waits => cases hp
  | givesUp => cases hp; exact absurd rfl hr
  | served answers l load r _ hwait hl hlog =>
    cases hp
    rcases (traced hx n).waiting c l load r hwait hl with hcancel | ⟨i, p, q, s, j, o, hat, ho, -⟩
    · exact absurd hcancel hr
    · have hkey := ((hsound.waits hwait).2 call.key ⟨call, hc, rfl⟩).mono (Nat.le_succ n)
      rw [worldAt_succ x he] at hkey
      refine Or.inr (Or.inl ⟨l, rfl, fun p hp => ?_, hlog, i, p, q, s, j, o,
        hat.mono hx.sound (Nat.le_succ n), ho, hkey⟩)
      rw [hwait] at hp; cases hp
      exact fun hn => by cases hn
  | found answers v _ hopen hv hlog => cases hp; exact Or.inl ⟨v, rfl, hopen, hlog, hv⟩
  | tries answers fired loop t ht =>
    cases hrest : t.rest with
    | inl loop' => rw [hrest] at hp; cases hp
    | inr r =>
      rw [hrest] at hp; cases hp
      rcases attempt_of_tries hx.toFresh he ht hrest with hcancel | ⟨i, p, q, j, o, hat, ho, hq⟩
      · exact absurd hcancel hr
      · exact Or.inr (Or.inr ⟨⟨_, rfl⟩, i, p, q, _, j, o, hat, ho, hq⟩)

/-- A report comes from the end of a call among the flights. -/
theorem Reports.leg (h : x.state.Sound) {e : Event α} {c : Nat} {b : Breaker} {E : Ending α}
    (hr : Reports x e c b E) {call : Call α} (hc : x.state.calls.get? c = some call) :
    Leg x e c call (.ended E) := by
  have hafter := hr.after
  cases voyage h e with
  | calm _ hphase => rw [hphase c] at hafter; exact absurd hafter (hr.before E)
  | moved d dcall p hd hself hothers hleg =>
    by_cases hcd : c = d
    · subst hcd
      rw [hself] at hafter; cases hafter
      rw [hc] at hd; cases hd
      exact hleg
    · rw [hothers c hcd] at hafter; exact absurd hafter (hr.before E)

theorem Reports.evidence (hx : x.state.Untouched) {m n c : Nat} {e : Event α} {b : Breaker}
    {E : Ending α} (he : es[n]? = some e) (h : Reports (worldAt x es n) e c b E)
    (hw : isSound E.result = true) (hmn : m ≤ n) {call : Call α}
    (hc : (worldAt x es n).state.calls.get? c = some call) : Evidence x es m n c call.key E := by
  have hsound : (worldAt x es n).state.Sound := worldAt_sound hx.sound n
  have hresult : E.result ≠ .error .cancelled := fun hr => by rw [hr] at hw; cases hw
  have hmark : mark x es m ≤ mark x es n := mark_mono hx.sound hmn
  rcases (h.leg hsound hc).ending hx he hc hresult with ⟨v, hv, -, -, hfound⟩ |
    ⟨l, hrole, -, -, i, p, q, s, j, o, hat, ho, hkey⟩ |
    ⟨⟨published, hrole⟩, i, p, q, s, j, o, hat, ho, hq⟩
  · exact .cached v hv hfound
  · rcases Nat.lt_or_ge q (mark x es m) with hover | hq
    · exact .stale l i p q s j o hat ho hkey hrole hover
    · rcases Nat.lt_or_ge p (mark x es m) with hp | hp
      · rcases hat.began_after_or_leads hx.sound hkey (by omega) hq with hp' | hleads
        · omega
        · exact .late l i p q s j o hat ho hkey (Or.inr hrole) hp hleads
      · exact .fresh l i p q s j o hat ho hkey (Or.inr hrole) hp
  · have hkey : HasKey (worldAt x es (n + 1)).state c call.key :=
      HasKey.mono ⟨call, hc, rfl⟩ (Nat.le_succ n)
    rcases Nat.lt_or_ge p (mark x es m) with hp | hp
    · rcases hat.began_after_or_leads hx.sound hkey (show m ≤ n + 1 by omega) (by omega) with
        hp' | hleads
      · omega
      · exact .late c i p q s j o hat ho hkey (Or.inl rfl) hp hleads
    · exact .fresh c i p q s j o hat ho hkey (Or.inl rfl) hp

/-- **On what evidence a circuit closes again.** It does so in an event just when a call reports in
it to a half-open circuit that the registry is well; and such a report rests on a value in the
cache, or on an attempt that began in the half-open phase, or on one that began before it. -/
theorem recovery_evidence (name : String) (settings : Config.Settings) (now : Nat)
    (es : List (Event α)) {n : Nat} {e : Event α} (he : es[n]? = some e) :
    (Recovers (worldAt (dawn name settings now) es n) e ↔ ∃ c b E,
      Reports (worldAt (dawn name settings now) es n) e c b E ∧ b.circuit = .halfOpen ∧
        isSound E.result = true) ∧
    ∀ c b E, Reports (worldAt (dawn name settings now) es n) e c b E → b.circuit = .halfOpen →
      isSound E.result = true → ∃ m call, HalfOpenFrom (dawn name settings now) es m n ∧
        (worldAt (dawn name settings now) es n).state.calls.get? c = some call ∧
        Evidence (dawn name settings now) es m n c call.key E := by
  have hx : (dawn name settings now : World α).state.Untouched := make_untouched name settings now
  refine ⟨recovers_iff (worldAt_sound hx.sound n) (worldAt_abreast hx.toFresh n) e, ?_⟩
  intro c b E hr hhalf hw
  obtain ⟨m, hfrom⟩ := hr.halfOpenFrom hx.toFresh rfl hhalf
  obtain ⟨call, hc, -⟩ := hr.call
  exact ⟨m, call, hfrom, hc, hr.evidence hx he hw hfrom.le hc⟩

/-- A value is fetched, another key fails, and when the circuit has cooled down the value is asked
for again. -/
def cachedProbe : List (Event Nat) :=
  [.call 0 "c" (Duration.ofMillis 1000) false, .turn 0 (fun _ => { result := .ok 7 }),
    .call 1 "k" 60 false, .turn 1 (fun _ => { result := .error (.serverError 503 "down") }),
    .pass (Duration.ofMillis 20), .call 2 "c" 60 false, .turn 2 silence]

/-- The circuit closes again, and there is evidence for it: the value in the cache. -/
theorem cachedProbe_evidence :
    cachedProbe[6]? = some (.turn 2 silence) ∧
    Recovers (worldAt (dawn "r" oneProbe 0) cachedProbe 6) (.turn 2 silence) ∧
    ∃ m c call E, HalfOpenFrom (dawn "r" oneProbe 0) cachedProbe m 6 ∧
      (worldAt (dawn "r" oneProbe 0) cachedProbe 6).state.calls.get? c = some call ∧
      Evidence (dawn "r" oneProbe 0) cachedProbe m 6 c call.key E := by
  have hrecovers : Recovers (worldAt (dawn "r" oneProbe 0) cachedProbe 6) (.turn 2 silence) :=
    ⟨by decide, by decide⟩
  obtain ⟨hiff, hevidence⟩ := recovery_evidence (n := 6) "r" oneProbe 0 cachedProbe rfl
  obtain ⟨c, b, E, hr, hhalf, hw⟩ := hiff.1 hrecovers
  obtain ⟨m, call, hfrom, hc, hev⟩ := hevidence c b E hr hhalf hw
  exact ⟨rfl, hrecovers, m, c, call, E, hfrom, hc, hev⟩

/-- **A circuit may close without an attempt**: no attempt need have begun in the half-open phase
and shown that the registry is well. -/
theorem recovery_without_attempt : ¬ ∀ (es : List (Event Nat)) (n : Nat) (e : Event Nat),
    es[n]? = some e → Recovers (worldAt (dawn "r" oneProbe 0) es n) e →
    ∃ m l i p q j o s, HalfOpenFrom (dawn "r" oneProbe 0) es m n ∧
      Attempt (dawn "r" oneProbe 0) es (n + 1) l i p q j o s ∧ isSound o.result = true ∧
      mark (dawn "r" oneProbe 0) es m ≤ p := by
  intro h
  obtain ⟨m, l, i, p, q, j, o, s, hfrom, hat, -, hp⟩ :=
    h cachedProbe 6 (.turn 2 silence) rfl ⟨by decide, by decide⟩
  -- the circuit is open before the last event, so the phase begins and ends in it
  have hm : m = 6 := by
    refine Nat.le_antisymm hfrom.le (Nat.le_of_not_lt fun hlt => ?_)
    exact absurd (hfrom.since 6 hlt (Nat.le_refl 6)) (by decide)
  subst hm
  -- and nothing is attempted in that event
  have hsame : mark (dawn "r" oneProbe 0) cachedProbe 6 = mark (dawn "r" oneProbe 0) cachedProbe 7 :=
    by decide
  have hlt : p < mark (dawn "r" oneProbe 0) cachedProbe 7 := lt_mark hat.begins.entry
  omega

end RegistryLookup.Caller
