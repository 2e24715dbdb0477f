import RegistryLookup.Proofs.Caller.Account
import RegistryLookup.Proofs.Caller.Standing

/-!
# Who begins to ask the upstream

The breaker is asked once, before a call asks for a permit. From then on the call queues for a
permit, or waits for the flight of another call, until it begins its first attempt, and the circuit
may open meanwhile (`attempt_while_open`). No other call begins an attempt while the circuit is
open (`first_attempt_admitted`).

* `Pending`: a call that was admitted, and has begun no work.
* `Admitted`: when a pending call was admitted.
-/

namespace RegistryLookup

/-- Nobody is admitted by a circuit that stays open. -/
theorem Breaker.allow_not_opened {b : Breaker} {now : Nat} (h : (b.allow now).1 = true) :
    (b.allow now).2.circuit ≠ .opened := by
  unfold allow at h ⊢
  cases hb : b.circuit with
  | closed => simp [hb]
  | opened =>
    cases hc : b.cooledDown now with
    | true => simp [moveTo]
    | false => simp [hb, hc] at h
  | halfOpen =>
    by_cases hp : b.probes < b.probeLimit
    · simp [hp]
    · simp [hb, hp] at h

namespace Caller

open Flight

variable {α : Type} {x : World α} {es : List (Event α)}

/-- A call queues for a permit, or waits for the flight of another call. -/
def Pending (s : Caller α) (c : Nat) : Prop :=
  doing? s c = some .queued ∨ ∃ l, doing? s c = some (.waiting l)

/-- Call `c` is admitted in event `m`, by a circuit that is not open then, and is pending from then
on until event `n`. -/
structure Admitted (x : World α) (es : List (Event α)) (m n c : Nat) : Prop where
  le : m ≤ n
  event : ∃ answers, es[m]? = some (.turn c answers) ∧
    admittedBy (worldAt x es m) (.turn c answers) = some c ∧
    (asked (worldAt x es m) (.turn c answers)).circuit ≠ .opened
  pending : ∀ i, m < i → i ≤ n → Pending (worldAt x es i).state c

/-- The circuit opens after event `m`, and is still open at event `n`. -/
structure OpenedBetween (x : World α) (es : List (Event α)) (m n : Nat) : Prop where
  lt : m < n
  opens : ∃ j, m < j ∧ j < n ∧ (worldAt x es j).state.breaker.circuit ≠ .opened ∧
    ∀ i, j < i → i ≤ n → (worldAt x es i).state.breaker.circuit = .opened

theorem allow_of_admittedBy {e : Event α} {c : Nat} (h : admittedBy x e = some c) :
    (x.state.breaker.allow x.now).1 = true := by
  cases e with
  | turn d answers =>
    rcases admittedBy_turn x d answers with ⟨_, _, -, -, -, -, hb, -⟩ | ⟨-, hnone⟩
    · exact hb
    · rw [hnone] at h; cases h
  | _ => cases h

theorem asked_not_opened {e : Event α} {c : Nat} (h : admittedBy x e = some c) :
    (asked x e).circuit ≠ .opened := by
  rw [asked_of_admitted h]
  exact Breaker.allow_not_opened (allow_of_admittedBy h)

theorem Pending.of_phase {s : Caller α} {c : Nat} {d : Doing α} (hd : doing? s c = some d)
    (h : Unbegun s c) : d = .arriving ∨ Pending s c := by
  cases d with
  | arriving => exact Or.inl rfl
  | queued => exact Or.inr (Or.inl hd)
  | waiting l => exact Or.inr (Or.inr ⟨l, hd⟩)
  | attempting j since o =>
    obtain ⟨key, ttl, loop, hp, -⟩ := loop_of_doing hd (fun h => by cases h) (fun h => by cases h)
      (fun _ h => by cases h)
    exact absurd rfl (h _ hp)
  | resting wakesAt =>
    obtain ⟨key, ttl, loop, hp, -⟩ := loop_of_doing hd (fun h => by cases h) (fun h => by cases h)
      (fun _ h => by cases h)
    exact absurd rfl (h _ hp)

/-- Whoever makes attempts waits for no flight. -/
theorem loopDoing_ne_waiting (loop : Retry.Loop α) (l : Nat) :
    loopDoing loop ≠ some (.waiting l) := by
  unfold loopDoing
  cases loop.phase <;> exact fun h => by cases h

/-- A call that takes its turn among the flights and waits afterwards has begun no work. -/
theorem Sailed.unbegun {c l : Nat} {answers : Answers α} {call : Call α} {fired : Bool}
    {ns : List (Retry.Notice α)} {p : Phase (Load α) α}
    (h : Sailed x c answers call fired ns p) (hp : phaseDoing p = some (.waiting l)) :
    Unbegun x.state c := by
  cases h with
  | rests l load hwait => exact fun q hq => by rw [hwait] at hq; cases hq; exact fun h => by cases h
  | givesUp => cases hp
  | waits l load hopen => exact hopen
  | served => cases hp
  | found => cases hp
  | begins hopen => exact hopen
  | goesOn fired loop =>
    cases hrest : (loop.turn x.state.policy answers x.now fired).rest with
    | inl loop' => rw [hrest] at hp; exact absurd hp (loopDoing_ne_waiting loop' l)
    | inr r => rw [hrest] at hp; cases hp

/-- A call that is pending after an event was so before, or has just been admitted. -/
theorem pending_before (h : Placed x.state) {e : Event α} {c : Nat}
    (hp : Pending (step x e).state c) :
    Pending x.state c ∨ ∃ answers, e = .turn c answers ∧ admittedBy x e = some c := by
  -- what a pending call does
  obtain ⟨d, hd, hkind⟩ : ∃ d, doing? (step x e).state c = some d ∧
      (d = .queued ∨ ∃ l, d = .waiting l) := by
    rcases hp with hq | ⟨l, hl⟩
    · exact ⟨_, hq, Or.inl rfl⟩
    · exact ⟨_, hl, Or.inr ⟨l, rfl⟩⟩
  have hsame : doing? x.state c = some d → Pending x.state c := by
    rintro hbefore
    rcases hkind with rfl | ⟨l, rfl⟩
    · exact Or.inl hbefore
    · exact Or.inr ⟨l, hbefore⟩
  rcases turn_or_noTurn x e c with ⟨answers, rfl, hr⟩ | hidle
  swap
  · rcases doing?_before h.sound hidle hd with hbefore | ⟨rfl, -⟩
    · exact Or.inl (hsame hbefore)
    · rcases hkind with hk | ⟨l, hk⟩ <;> cases hk
  cases took h answers hr with
  | rests hstay =>
    rw [hstay] at hd
    exact Or.inl (hsame hd)
  | turnedAway _ _ _ _ _ _ hafter => rw [doing?_of_over hafter rfl] at hd; cases hd
  | cancelled _ _ _ _ _ hafter => rw [doing?_of_over hafter rfl] at hd; cases hd
  | queues _ _ _ _ ha => exact Or.inr ⟨answers, rfl, ha⟩
  | flies call fired ns p _ hbefore _ ha hflies hafter =>
    obtain ⟨d₀, hd₀⟩ := hbefore
    rw [hflies.doing_eq hafter] at hd
    -- it waits for a flight, so it has begun no work
    obtain ⟨l, rfl⟩ := hkind.resolve_left (ne_of_phaseDoing hd).2
    rcases Pending.of_phase hd₀ (hflies.sailed.unbegun hd) with rfl | hpending
    · exact Or.inr ⟨answers, rfl, ha hd₀⟩
    · exact Or.inl hpending

theorem Admitted.succ {m n c : Nat} (h : Admitted x es m n c)
    (hp : Pending (worldAt x es (n + 1)).state c) : Admitted x es m (n + 1) c where
  le := Nat.le_succ_of_le h.le
  event := h.event
  pending := fun i hmi hi => by
    rcases Nat.lt_or_eq_of_le hi with hlt | rfl
    · exact h.pending i hmi (Nat.le_of_lt_succ hlt)
    · exact hp

/-- **A pending call was admitted, and has been pending ever since.** -/
theorem admitted_of_pending (hx : Placed x.state) (h0 : x.state.calls = []) {n c : Nat}
    (hp : Pending (worldAt x es n).state c) : ∃ m, m < n ∧ Admitted x es m n c := by
  induction n with
  | zero =>
    -- no call has come in before the first event
    have hnone : doing? (worldAt x es 0).state c = none := by
      unfold doing?
      rw [worldAt_zero, h0]
      rfl
    rcases hp with hq | ⟨l, hl⟩
    · rw [hnone] at hq; cases hq
    · rw [hnone] at hl; cases hl
  | succ n ih =>
    have hkeep : Pending (worldAt x es n).state c → ∃ m, m < n + 1 ∧ Admitted x es m (n + 1) c := by
      intro hbefore
      obtain ⟨m, hm, hadm⟩ := ih hbefore
      exact ⟨m, Nat.lt_succ_of_lt hm, hadm.succ hp⟩
    rcases worldAt_cases x es n with ⟨-, hsame⟩ | ⟨e, he, hstep⟩
    · rw [hsame] at hp
      exact hkeep hp
    · rw [hstep] at hp
      rcases pending_before (worldAt_placed hx n) hp with hbefore | ⟨answers, rfl, ha⟩
      · exact hkeep hbefore
      · refine ⟨n, Nat.lt_succ_self n, Nat.le_succ n, ⟨answers, he, ha, asked_not_opened ha⟩,
          fun i hi hin => ?_⟩
        obtain rfl : i = n + 1 := by omega
        rw [hstep]
        exact hp

/-- A call that is doing something has told the breaker nothing. -/
theorem ending?_of_doing {s : Caller α} (h : s.Abreast) {c : Nat} {d : Doing α}
    (hd : doing? s c = some d) : s.flights.ending? c = none := by
  cases hE : s.flights.ending? c with
  | none => rfl
  | some E =>
    obtain ⟨call, hc, hs⟩ := h.landed c E ((ending?_eq_some_iff _ _ _).1 hE)
    rw [doing?_of_over hc (by unfold Call.isOpen; rw [hs])] at hd
    cases hd

/-- The circuit is not open when the call begins to wait. -/
theorem Admitted.not_opened (hx : x.state.Fresh) {m n c : Nat} (h : Admitted x es m n c)
    (hmn : m < n) : (worldAt x es (m + 1)).state.breaker.circuit ≠ .opened := by
  obtain ⟨answers, he, -, hpassed⟩ := h.event
  have hpending := h.pending (m + 1) (Nat.lt_succ_self m) hmn
  have hnone : (worldAt x es (m + 1)).state.flights.ending? c = none := by
    rcases hpending with hq | ⟨l, hl⟩
    · exact ending?_of_doing (worldAt_abreast hx (m + 1)) hq
    · exact ending?_of_doing (worldAt_abreast hx (m + 1)) hl
  rw [worldAt_succ x he] at hnone ⊢
  rw [breaker_step_eq (worldAt_sound hx.sound m) (worldAt_abreast hx m),
    reportIn?_of_none (endingIn?_of_none hnone)]
  exact hpassed

/-- The beginning of an attempt is in the log after the event that made it. -/
theorem Begins.at_once (hx : x.state.Sound) {n c i p : Nat} {j : UInt32} {o : Retry.Outcome α}
    (h : Begins x es n c i p j o) : Begins x es (i + 1) c i p j o := by
  have hin : i + 1 ≤ n := lt_of_mark_lt hx (Nat.lt_of_le_of_lt h.after (lt_mark h.entry))
  refine ⟨h.turn, h.after, h.before, ?_, ?_⟩
  · rw [← getElem?_log_of_lt hx hin h.before]
    exact h.entry
  · rw [← take_log hx hin (Nat.le_of_lt h.before)]
    exact h.number

/-- A call that begins its first attempt has begun no work before. -/
theorem Begins.unbegun (hx : x.state.Fresh) (hplaced : Placed x.state) {n c p : Nat}
    {o : Retry.Outcome α} (h : Begins x es (n + 1) c n p 1 o) :
    Unbegun (worldAt x es n).state c := by
  obtain ⟨answers, he, -⟩ := h.turn
  have hentry := h.entry
  rw [worldAt_succ x he] at hentry
  rcases log_cases (worldAt_sound hx.sound n) (.turn c answers) with hlog |
    ⟨d, call, answers', fired, loop, t, -, ht⟩
  · rw [hlog, List.getElem?_eq_none h.after] at hentry
    cases hentry
  obtain ⟨notice, hk, heq⟩ := ht.notice h.after hentry
  cases heq
  rcases ht.origin with hlead | ⟨hopen, -⟩
  · -- a call that leads a flight has begun an attempt, so this is not its first
    obtain ⟨hwithin, hbegun⟩ := (worldAt_placed hplaced n).seaworthy c _ loop hlead rfl
    have hpos := UInt32.lt_iff_toNat_lt.1 (hwithin.tries_pos hbegun)
    have hnumber := ht.course.number ((logged hx n).loop_room ht).1 hk
    rw [show (1 : UInt32).toNat = 1 from rfl] at hnumber
    rw [show (0 : UInt32).toNat = 0 from rfl] at hpos
    omega
  · exact hopen

/-- A call that begins its first attempt has just been admitted, or it was pending. -/
theorem Begins.admitted_or_pending (hx : x.state.Fresh) (hplaced : Placed x.state) {n c p : Nat}
    {o : Retry.Outcome α} (h : Begins x es (n + 1) c n p 1 o) :
    ∃ answers, es[n]? = some (.turn c answers) ∧
      (admittedBy (worldAt x es n) (.turn c answers) = some c ∨
        Pending (worldAt x es n).state c) := by
  obtain ⟨answers, he, -⟩ := h.turn
  refine ⟨answers, he, ?_⟩
  rcases quiet_or_flies (worldAt_placed hplaced n) c answers with hflights | ⟨_, _, _, ⟨d, hd⟩, ha, -⟩
  · -- but the turn adds an entry to the log
    have hlt : mark x es n < mark x es (n + 1) := Nat.lt_of_le_of_lt h.after h.before
    unfold mark log at hlt
    rw [worldAt_succ x he, hflights] at hlt
    exact absurd hlt (Nat.lt_irrefl _)
  · rcases Pending.of_phase hd (h.unbegun hx hplaced) with rfl | hpending
    · exact Or.inl (ha hd)
    · exact Or.inr hpending

/-- Where the circuit is open as a pending call takes its turn, it opened while the call was
pending. -/
theorem Admitted.opened_between (hx : x.state.Fresh) {m n c : Nat} (h : Admitted x es m n c)
    (hmn : m < n) (hopen : (worldAt x es n).state.breaker.circuit = .opened) :
    OpenedBetween x es m n := by
  obtain ⟨j, hmj, hjn, hj, hlater⟩ := Trace.turning_point
    (P := fun i => (worldAt x es i).state.breaker.circuit = .opened) hmn (h.not_opened hx hmn) hopen
  exact ⟨hmn, j, hmj, hjn, hj, hlater⟩

/-- A pending call is not admitted again. -/
theorem Pending.admittedBy_eq {c : Nat} (h : Pending x.state c) (answers : Answers α) :
    admittedBy x (.turn c answers) = none := by
  rcases admittedBy_turn x c answers with ⟨call, fired, hc, hs, -⟩ | ⟨-, hnone⟩
  · have harr := doing?_of_arriving hc hs
    rcases h with hq | ⟨l, hl⟩
    · rw [hq] at harr; cases harr
    · rw [hl] at harr; cases harr
  · exact hnone

/-- **Who begins to ask the upstream** was admitted by a circuit that was not open, and has queued
for a permit or waited for the flight of another call since then; if the circuit is open as the
first attempt begins, it has opened during that wait. -/
theorem first_attempt_admitted (name : String) (settings : Config.Settings) (now : Nat)
    (es : List (Event α)) {k n c p : Nat} {o : Retry.Outcome α}
    (h : Begins (dawn name settings now) es k c n p 1 o) :
    ∃ m, Admitted (dawn name settings now) es m n c ∧ ∀ e, es[n]? = some e →
      (asked (worldAt (dawn name settings now) es n) e).circuit = .opened →
        OpenedBetween (dawn name settings now) es m n := by
  have hx : (dawn name settings now : World α).state.Fresh := make_fresh name settings now
  have hplaced : Placed (dawn name settings now : World α).state := make_placed name settings now
  obtain ⟨answers, he, ha | hpending⟩ := (h.at_once hx.sound).admitted_or_pending hx hplaced
  · -- it has just been admitted
    have hpassed := asked_not_opened ha
    refine ⟨n, ⟨Nat.le_refl n, ⟨answers, he, ha, hpassed⟩, fun i hi hin => by omega⟩,
      fun e he' hopen => ?_⟩
    rw [he] at he'; cases he'
    exact absurd hopen hpassed
  · obtain ⟨m, hmn, hadm⟩ := admitted_of_pending hplaced hx.calls hpending
    refine ⟨m, hadm, fun e he' hopen => hadm.opened_between hx hmn ?_⟩
    rw [he] at he'; cases he'
    rw [asked_of_none (hpending.admittedBy_eq answers)] at hopen
    exact hopen

/-- One call at a time, and a breaker that opens at the first failure. -/
def oneAtATime : Config.Settings where
  breaker := { failureThreshold := 1 }
  retries := { maxAttempts := 1 }
  concurrency := { maxConcurrentRequests := 1 }

/-- A call queues for the permit of a call that fails. -/
def queuedBehind : List (Event Nat) :=
  [.call 0 "a" 60 false,
    .turn 0 (fun _ => { takes := some 5, result := .error (.serverError 503 "down") }),
    .call 1 "b" 60 false, .turn 1 silence, .pass 5, .turn 0 silence,
    .turn 1 (fun _ => { result := .ok 8 })]

theorem queuedBehind_begins :
    Begins (dawn "r" oneAtATime 0) queuedBehind 7 1 6 2 1 { result := .ok 8 } where
  turn := ⟨_, rfl, rfl⟩
  after := by decide
  before := by decide
  entry := rfl
  number := by decide

/-- The circuit has opened while the call queued. -/
theorem queuedBehind_admitted :
    Begins (dawn "r" oneAtATime 0) queuedBehind 7 1 6 2 1 { result := .ok 8 } ∧
    ∃ m, Admitted (dawn "r" oneAtATime 0) queuedBehind m 6 1 ∧
      OpenedBetween (dawn "r" oneAtATime 0) queuedBehind m 6 := by
  refine ⟨queuedBehind_begins, ?_⟩
  obtain ⟨m, hadm, hopens⟩ :=
    first_attempt_admitted "r" oneAtATime 0 queuedBehind queuedBehind_begins
  exact ⟨m, hadm, hopens _ rfl rfl⟩

/-- **An open circuit may reach the upstream**: a first attempt may begin while it is open. -/
theorem attempt_while_open : ¬ ∀ (es : List (Event Nat)) (k n c p : Nat) (o : Retry.Outcome Nat)
    (e : Event Nat), es[n]? = some e → Begins (dawn "r" oneAtATime 0) es k c n p 1 o →
    (asked (worldAt (dawn "r" oneAtATime 0) es n) e).circuit ≠ .opened := by
  intro h
  exact h queuedBehind 7 6 1 2 _ _ rfl queuedBehind_begins rfl

end Caller

end RegistryLookup
