import RegistryLookup.Proofs.Caller.Ledger

/-!
# No attempt is made in vain

The log of a caller tells its attempts in the order in which they begin and end. In it, for each
key, an attempt begins only after the one before it is over, and after a success only when the
value has expired or was evicted (`upstream_spared`). If all attempts succeed and nothing makes
the cache forget, every key is attempted at most once.
-/

namespace RegistryLookup.Caller

variable {α : Type} {x : World α} {es : List (Event α)}

/-- After a point of a run time has passed, and what was added to the log came later. -/
theorem log_since (h : x.state.Sound) (hes : ∀ e ∈ es, e.isForgetting = false) {m n : Nat}
    (hmn : m ≤ n) : (worldAt x es m).now ≤ (worldAt x es n).now ∧
      ∃ tail, log (worldAt x es n).state = log (worldAt x es m).state ++ tail ∧
        ∀ a ∈ tail, (worldAt x es m).now ≤ a.instant := by
  refine Trace.after_since (P := fun (y : World α) => (worldAt x es m).now ≤ y.now ∧
    ∃ tail, log y.state = log (worldAt x es m).state ++ tail ∧
      ∀ a ∈ tail, (worldAt x es m).now ≤ a.instant) hmn
    ⟨Nat.le_refl _, [], (List.append_nil _).symm, fun a ha => by cases ha⟩ ?_
  rintro i - e he ⟨hnow, tail, hlog, hlater⟩
  obtain ⟨new, hnew, hinstant⟩ := log_step (worldAt_sound h i) (hes e (List.mem_of_getElem? he))
  refine ⟨Nat.le_trans hnow (now_step _ e), tail ++ new, ?_, fun a ha => ?_⟩
  · rw [hnew, hlog, List.append_assoc]
  · rcases List.mem_append.1 ha with ha | ha
    · exact hlater a ha
    · rw [hinstant a ha]; exact hnow

/-- Instants never go back along the log. -/
theorem log_ordered (hx : x.state.Fresh)
    (hes : ∀ e ∈ es, e.isForgetting = false) (n : Nat) :
    (log (worldAt x es n).state).Pairwise (fun a b => a.instant ≤ b.instant) := by
  -- no entry is later than the clock, so what is added comes last
  have hboth : (worldAt x es n).state.Sound ∧
      (∀ a ∈ log (worldAt x es n).state, a.instant ≤ (worldAt x es n).now) ∧
      (log (worldAt x es n).state).Pairwise (fun a b => a.instant ≤ b.instant) := by
    refine Trace.after_invariant (P := fun (y : World α) => y.state.Sound ∧
      (∀ a ∈ log y.state, a.instant ≤ y.now) ∧
      (log y.state).Pairwise (fun a b => a.instant ≤ b.instant)) ?_ ?_ n
    · exact ⟨hx.sound, by rw [hx.log]; exact fun a ha => (by cases ha), by rw [hx.log]; exact .nil⟩
    · rintro y e he ⟨hy, hpast, hpair⟩
      obtain ⟨new, hnew, hinstant⟩ := log_step hy (hes e he)
      have hnow := now_step y e
      rw [hnew]
      refine ⟨step_sound hy e, fun a ha => ?_,
        List.pairwise_append.2 ⟨hpair, ?_, fun a ha b hb => ?_⟩⟩
      · rcases List.mem_append.1 ha with ha | ha
        · exact Nat.le_trans (hpast a ha) hnow
        · rw [hinstant a ha]; exact hnow
      · exact List.pairwise_of_forall_mem_list
          (fun a ha b hb => Nat.le_of_eq ((hinstant a ha).trans (hinstant b hb).symm))
      · rw [hinstant b hb]; exact hpast a ha
  exact hboth.2.2

/-- What was attempted has succeeded, and what is attempted will. -/
structure Fruitful (s : Caller α) : Prop where
  past : ∀ a ∈ log s, ∀ j r, a.notice = .ended j r → r.isOk = true
  ahead : ∀ key c load loop, s.flights.LeadsWith key c load → load.stage = .trying loop →
    loop.WillSucceed

theorem fruitful_step (h : x.state.Sound) (hx : Fruitful x.state) {e : Event α}
    (he : e.isForgetting = false)
    (ha : ∀ c answers, e = .turn c answers → ∀ j, (answers j).result.isOk = true) :
    Fruitful (step x e).state := by
  cases change h he with
  | rest hlog hleads _ =>
    refine ⟨by rw [hlog]; exact hx.past, fun key c load loop hL => ?_⟩
    exact hx.ahead key c load loop ((hleads key c load).1 hL)
  | drop _ _ _ _ _ hlog hleads _ =>
    refine ⟨by rw [hlog]; exact hx.past, fun key c load loop hL => ?_⟩
    exact hx.ahead key c load loop ((hleads key c load).1 hL).2
  | tried c answers call fired loop hec ht =>
    have hwill : loop.WillSucceed := by
      rcases ht.origin with ⟨load, hL, hstage⟩ | ⟨-, rfl, -⟩
      · exact hx.ahead _ c load loop hL hstage
      · intro since o h; cases h
    obtain ⟨hnotices, hrest⟩ := Retry.turn_ok x.state.policy (ha c answers hec) x.now fired hwill
    refine ⟨fun a hmem j r hr => ?_, fun key d load l hL hstage => ?_⟩
    · rw [ht.logged] at hmem
      rcases List.mem_append.1 hmem with hmem | hmem
      · exact hx.past a hmem j r hr
      · obtain ⟨notice, hn, rfl⟩ := List.mem_map.1 hmem
        cases hr
        exact hnotices j r hn
    · by_cases hd : d = c
      · subst hd
        obtain ⟨-, loop', hloop, rfl⟩ := (ht.leads key load).1 hL
        cases hstage
        exact hrest l hloop
      · exact hx.ahead key d load l ((ht.others key d load hd).1 hL) hstage

/-- Every attempt of a run succeeds, no call is dropped, nothing is evicted, and values are kept
for longer than the run lasts. -/
structure Undisturbed (x : World α) (es : List (Event α)) : Prop where
  answered : ∀ c answers, .turn c answers ∈ es → ∀ j, (answers j).result.isOk = true
  undropped : ∀ c, .abort c ∉ es
  held : ∀ i e key, es[i]? = some e → ¬ Evicts (worldAt x es i) key e
  kept : ∀ c key ttl fired, .call c key ttl fired ∈ es →
    (worldAt x es es.length).now < x.now + min ttl Cache.longestTtl

theorem Fresh.fruitful {s : Caller α} (h : s.Fresh) : Fruitful s where
  past := by rw [h.log]; exact fun a ha => by cases ha
  ahead := by
    rintro key c load loop ⟨fired, hL⟩ -
    obtain ⟨call, hc, -⟩ := h.sound.carried c _ hL
    rw [h.calls] at hc; cases hc

theorem Undisturbed.fruitful (hu : Undisturbed x es) (hx : x.state.Fresh)
    (hes : ∀ e ∈ es, e.isForgetting = false) (n : Nat) : Fruitful (worldAt x es n).state := by
  have hboth : (worldAt x es n).state.Sound ∧ Fruitful (worldAt x es n).state := by
    refine Trace.after_invariant (P := fun (y : World α) => y.state.Sound ∧ Fruitful y.state)
      ⟨hx.sound, hx.fruitful⟩ ?_ n
    rintro y e he ⟨hy, hf⟩
    refine ⟨step_sound hy e, fruitful_step hy hf (hes e he) (fun c answers hec => ?_)⟩
    subst hec
    exact hu.answered c answers he
  exact hboth.2

/-- Calls have come in with the time for which their values are kept. -/
theorem came_in (hx : x.state.Fresh) (n : Nat) {c : Nat} {call : Call α}
    (hc : (worldAt x es n).state.calls.get? c = some call) :
    ∃ fired, .call c call.key call.ttl fired ∈ es := by
  refine Trace.after_invariant (P := fun (y : World α) => ∀ c call,
    y.state.calls.get? c = some call → ∃ fired, .call c call.key call.ttl fired ∈ es) ?_ ?_
      n c call hc
  · intro c call hc
    rw [hx.calls] at hc; cases hc
  · intro y e he hy c call hc
    rcases calls_known y e hc with ⟨stage, hs⟩ | ⟨fired, rfl⟩
    · exact hy c { call with stage := stage } hs
    · exact ⟨fired, he⟩

/-- What a run does for the upstream. -/
structure UpstreamSpared (x : World α) (es : List (Event α)) : Prop where
  /-- Instants never go back along the log. -/
  ordered : ∀ n, (log (worldAt x es n).state).Pairwise (fun a b => a.instant ≤ b.instant)
  /-- An entry that is there at a point of the run is no later, and one that is still to come is
  no earlier. -/
  timed : ∀ (m n p : Nat) (a : Retry.Entry α), (log (worldAt x es n).state)[p]? = some a →
    (p < (log (worldAt x es m).state).length → a.instant ≤ (worldAt x es m).now) ∧
      ((log (worldAt x es m).state).length ≤ p → (worldAt x es m).now ≤ a.instant)
  /-- Of two attempts for one key the first is over when the second begins: it has ended, or its
  call was dropped. -/
  apart : ∀ (n p q c d t t' : Nat) (j k : UInt32) (key : String), p < q →
    (log (worldAt x es n).state)[p]? = some ⟨c, t, .began j⟩ →
    (log (worldAt x es n).state)[q]? = some ⟨d, t', .began k⟩ →
    HasKey (worldAt x es n).state c key → HasKey (worldAt x es n).state d key →
    (∃ i r t₁, p < i ∧ i < q ∧ (log (worldAt x es n).state)[i]? = some ⟨c, t₁, .ended j r⟩) ∨
      DroppedBetween x es p q c
  /-- After a success an attempt for the same key begins when the value has expired, or when the
  key has been evicted since. -/
  spaced : ∀ (n p q d t : Nat) (k : UInt32) (key : String) (limit : Nat),
    Pledge (worldAt x es n).state p key limit → p < q →
    (log (worldAt x es n).state)[q]? = some ⟨d, t, .began k⟩ →
    HasKey (worldAt x es n).state d key → limit ≤ t ∨ EvictedBetween x es p q key
  /-- In a run that nothing disturbs there is one attempt for each key. -/
  once : Undisturbed x es → ∀ (p q c d t t' : Nat) (j k : UInt32) (key : String),
    (log (worldAt x es es.length).state)[p]? = some ⟨c, t, .began j⟩ →
    (log (worldAt x es es.length).state)[q]? = some ⟨d, t', .began k⟩ →
    HasKey (worldAt x es es.length).state c key → HasKey (worldAt x es es.length).state d key →
    p = q

/-- What is in the log at a point of a run is no later, and what is still to come no earlier. -/
theorem log_timed (hx : x.state.Fresh) (hes : ∀ e ∈ es, e.isForgetting = false) (m n : Nat)
    {p : Nat} {a : Retry.Entry α} (ha : (log (worldAt x es n).state)[p]? = some a) :
    (p < (log (worldAt x es m).state).length → a.instant ≤ (worldAt x es m).now) ∧
      ((log (worldAt x es m).state).length ≤ p → (worldAt x es m).now ≤ a.instant) := by
  -- of two points of a run the log of the earlier one is a prefix of the other
  have hpast := fun p a ha => ((ledger hx hes m).known p a ha).1
  rcases Nat.le_total m n with hmn | hnm
  · obtain ⟨-, tail, hlog, hlater⟩ := log_since hx.sound hes hmn
    rw [hlog] at ha
    constructor
    · intro hp
      rw [List.getElem?_append_left hp] at ha
      exact hpast p a ha
    · intro hp
      rw [List.getElem?_append_right hp] at ha
      exact hlater a (List.mem_of_getElem? ha)
  · obtain ⟨-, tail, hlog, -⟩ := log_since hx.sound hes hnm
    have hp := lt_of_getElem?_log ha
    constructor
    · intro _
      refine hpast p a ?_
      rw [hlog, List.getElem?_append_left hp]
      exact ha
    · intro hle
      rw [hlog, List.length_append] at hle
      omega

/-- In a run that nothing disturbs no attempt follows another for the same key. -/
theorem Undisturbed.not_again (hu : Undisturbed x es) (hx : x.state.Fresh)
    (hes : ∀ e ∈ es, e.isForgetting = false) {p q c d t t' : Nat} {j k : UInt32} {key : String}
    (hpq : p < q) (hp : (log (worldAt x es es.length).state)[p]? = some ⟨c, t, .began j⟩)
    (hq : (log (worldAt x es es.length).state)[q]? = some ⟨d, t', .began k⟩)
    (hc : HasKey (worldAt x es es.length).state c key)
    (hd : HasKey (worldAt x es es.length).state d key) : False := by
  -- the first attempt has ended, and it can only have succeeded
  have hl := ledger hx hes es.length
  rcases hl.apart p q c d t t' j k key hpq hp hq hc hd with ⟨i, r, t₁, -, hiq, hi⟩ | hdrop
  · have hok := (hu.fruitful hx hes es.length).past _ (List.mem_of_getElem? hi) j r rfl
    cases r with
    | error e => cases hok
    | ok v =>
      obtain ⟨call, hcall, hkey⟩ := hc
      have hpledge : Pledge (worldAt x es es.length).state i key
          (t₁ + min call.ttl Cache.longestTtl) :=
        ⟨c, t₁, j, v, call, hi, hcall, hkey, rfl⟩
      rcases hl.spaced i q d t' k key _ hpledge hiq hq hd with hlimit | ⟨n, e, he, -, -, hev⟩
      · -- the success came after the start, and the second attempt before the end
        obtain ⟨-, tail, htail, hlater⟩ := log_since hx.sound hes (Nat.zero_le es.length)
        rw [worldAt_zero, hx.log, List.nil_append] at htail
        have hstart : x.now ≤ t₁ := by
          have := hlater _ (by rw [← htail]; exact List.mem_of_getElem? hi)
          rw [worldAt_zero] at this
          exact this
        have hend : t' ≤ (worldAt x es es.length).now := (hl.known q _ hq).1
        obtain ⟨fired, hcame⟩ := came_in hx es.length hcall
        have hkept := hu.kept c call.key call.ttl fired hcame
        omega
      · exact hu.held n e key he hev
  · obtain ⟨n, call, he, -⟩ := hdrop
    exact hu.undropped c (List.mem_of_getElem? he)

/-- **No redundant attempts.** Attempts for one key never overlap, and after a success there is no
attempt for its key until the value has expired, unless the key is evicted. -/
theorem upstream_spared (name : String) (settings : Config.Settings) (now : Nat)
    (es : List (Event α)) (hes : ∀ e ∈ es, e.isForgetting = false) :
    UpstreamSpared (dawn name settings now) es := by
  have hx : (dawn name settings now : World α).state.Fresh := make_fresh name settings now
  refine ⟨log_ordered hx hes, fun m n p a ha => log_timed hx hes m n ha,
    fun n => (ledger hx hes n).apart, fun n => (ledger hx hes n).spaced, ?_⟩
  intro hu p q c d t t' j k key hp hq hc hd
  rcases Nat.lt_trichotomy p q with hpq | hpq | hqp
  · exact (hu.not_again hx hes hpq hp hq hc hd).elim
  · exact hpq
  · exact (hu.not_again hx hes hqp hq hp hd hc).elim

/-- Two calls come in at once. -/
def together : List (Event Nat) :=
  [.call 0 "k" 60 false, .call 1 "k" 60 false,
    .turn 0 (fun _ => { takes := some 5, result := .ok 7 }),
    .turn 1 (fun _ => { result := .ok 8 }), .pass 5, .turn 0 (fun _ => { result := .ok 9 }),
    .turn 1 (fun _ => { result := .ok 8 })]

/-- A third comes in when the value has expired. -/
def expired : List (Event Nat) :=
  together ++ [.pass 65, .call 2 "k" 60 false, .turn 2 (fun _ => { result := .ok 8 })]

/-- Nothing disturbs the two calls. -/
theorem together_undisturbed : Undisturbed (dawn "r" {} 0) together where
  answered := by
    intro c answers h j
    simp only [together, List.mem_cons, List.not_mem_nil, reduceCtorEq, false_or, or_false,
      Event.turn.injEq] at h
    rcases h with ⟨-, rfl⟩ | ⟨-, rfl⟩ | ⟨-, rfl⟩ | ⟨-, rfl⟩ <;> rfl
  undropped := by intro c h; simp [together] at h
  held := by
    intro i e key he hev
    have hmem := List.mem_of_getElem? he
    cases hev <;> simp [together] at hmem
  kept := by
    intro c key ttl fired h
    have hend : (worldAt (dawn "r" {} 0) together together.length).now = 5 := by decide
    rw [hend]
    simp only [together, List.mem_cons, List.not_mem_nil, reduceCtorEq, or_false,
      Event.call.injEq] at h
    rcases h with ⟨-, -, rfl, -⟩ | ⟨-, -, rfl, -⟩ <;> decide

/-- The two calls make one attempt, and the third makes another. -/
theorem expired_spared :
    (∀ e ∈ expired, e.isForgetting = false) ∧
    (log (worldAt (dawn "r" {} 0) expired 10).state).map (fun a => (a.call, a.instant)) =
      [(0, 0), (0, 5), (2, 65), (2, 65)] ∧
    UpstreamSpared (dawn "r" {} 0) expired ∧ UpstreamSpared (dawn "r" {} 0) together :=
  ⟨by decide, by decide, upstream_spared "r" {} 0 expired (by decide),
    upstream_spared "r" {} 0 together (by decide)⟩

end RegistryLookup.Caller
