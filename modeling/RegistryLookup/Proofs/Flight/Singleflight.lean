import Mathlib.Data.Set.Card
import RegistryLookup.Proofs.Flight.Alert
import RegistryLookup.Proofs.Flight.Step
import RegistryLookup.Proofs.Flight.Watch

/-!
# One piece of work for a key at a time

`singleflight` holds in every run, whatever the calls, the order of their turns, what their work
comes to and when tokens fire or calls are dropped: never are two calls at work for one key; the
table of flights holds exactly the keys that are worked for; a call that waits while nothing is
ready waits for a call at work; and no call joins a flight twice.
-/

namespace RegistryLookup

namespace Flight

open Flights

variable {σ ω ι α : Type} {w : Work σ ω ι α}

/-- A call begins to wait only in its own turn, and then for a flight under way. -/
theorem join_of_step {x : World σ ω α} (h : Alert x) {e : Event ω ι} {c l : Nat}
    (hn : ¬ x.state.WaitsFor c l) (hw : (step w x e).state.WaitsFor c l) :
    ∃ call task, x.state.calls.get? c = some call ∧ call.phase.task? = some task ∧
      call.fired = false ∧ x.state.Leads call.key l ∧
      (step w x e).state.calls.get? c = some { call with phase := .waiting l task } ∧
      (step w x e).state.Leads call.key l := by
  obtain ⟨key, fired, task, hc'⟩ := hw
  -- only the own turn of a call that is there can make it wait
  cases hc : x.state.calls.get? c with
  | none =>
    obtain ⟨_, _, _, -, hcall⟩ := new_of_step hc hc'
    cases hcall
  | some call =>
    cases moved (w := w) e hc with
    | same hs =>
      rw [hs] at hc'; cases hc'
      exact absurd ⟨key, fired, task, hc⟩ hn
    | fire _ hs =>
      rw [hs] at hc'
      obtain ⟨k, f, p⟩ := call
      cases hc'
      exact absurd ⟨k, f, task, hc⟩ hn
    | drop _ _ hs => rw [hs] at hc'; cases hc'
    | turn i _ hr hs =>
      rw [hs] at hc' ⊢
      cases turn_cases w.watched i x.now c x.state with
      | rest ht => rw [ht] at hc'; exact absurd ⟨key, fired, task, hc'⟩ hn
      | giveUp call t _ _ _ ht => rw [ht, calls_become, Table.get?_put_self] at hc'; cases hc'
      | wait call₁ t l' hc₁ htask hf _ hl ht =>
        rw [hc] at hc₁; cases hc₁
        have hself : (x.state.turn w.watched i x.now c).calls.get? c =
            some { call with phase := .waiting l' t } := by
          rw [ht]; exact Table.get?_put_self _ _ _
        rw [hself] at hc'
        cases Option.some.inj hc'
        have hflying : (x.state.turn w.watched i x.now c).inFlight = x.state.inFlight := by
          rw [ht]; rfl
        refine ⟨call, task, rfl, htask, hf, (h.sound.led _ _).1 hl, hself, ?_⟩
        rw [← (turn_sound w.watched i x.now c h.sound).led, hflying]
        exact hl
      | serve call t l' r _ _ _ _ ht =>
        rw [ht] at hc'
        simp only [calls_become, Table.get?_put_self] at hc'
        cases hc'
      | work call t s₁ _ hl ht =>
        obtain ⟨p, -, hcalls⟩ := work_record w i x.now c call t s₁
        rw [ht, hcalls, Table.get?_put_self] at hc'
        cases p with
        | running task' => cases hc'
        | finished r => cases hc'

/-- A call that is over. -/
def Over (s : Flights σ ω α) (c : Nat) : Prop := ∃ call, s.calls.get? c = some call ∧ call.IsOver

/-- A call that has no more use for any flight but its own. -/
def Past (s : Flights σ ω α) (c : Nat) : Prop :=
  ∃ call, s.calls.get? c = some call ∧ call.phase.task? = none

theorem Over.forward {s s' : Flights σ ω α} {c : Nat} (h : Over s c) (hf : s.Forward s') :
    Over s' c := by
  obtain ⟨call, hc, ho⟩ := h
  obtain ⟨call', hc', hb⟩ := hf c call hc
  exact ⟨call', hc', hb.isOver ho⟩

theorem Past.forward {s s' : Flights σ ω α} {c : Nat} (h : Past s c) (hf : s.Forward s') :
    Past s' c := by
  obtain ⟨call, hc, ht⟩ := h
  obtain ⟨call', hc', hb⟩ := hf c call hc
  exact ⟨call', hc', hb.past ht⟩

theorem Over.not_leads {s : Flights σ ω α} {c : Nat} (h : Over s c) (key : String) :
    ¬ s.Leads key c := by
  rintro ⟨f, t, hL⟩
  obtain ⟨call, hc, ho⟩ := h
  rw [hL] at hc; cases hc
  rcases ho with ⟨e, he⟩ | hd
  · cases he
  · cases hd

theorem past_of_put {s : Flights σ ω α} {calls : Table Nat (Call ω α)} {c : Nat} {call : Call ω α}
    (h : s.calls = calls.put c call) (ht : call.phase.task? = none) : Past s c :=
  ⟨call, by rw [h]; exact Table.get?_put_self _ _ _, ht⟩

/-- The leader for whom a call waits is at work or over. -/
theorem over_of_waitsFor {s : Flights σ ω α} (h : s.Sound) {c l : Nat} (hw : s.WaitsFor c l)
    (hf : s.fate l ≠ .flying) : Over s l := by
  obtain ⟨key, fired, task, hc⟩ := hw
  obtain ⟨⟨k, f, p⟩, hl, -, ht⟩ := h.boarded c _ l task hc rfl
  cases p with
  | arriving t => cases ht
  | waiting m t => cases ht
  | leading t => exact absurd ((fate_flying_iff s l).2 ⟨k, f, t, hl⟩) hf
  | ended e => exact ⟨_, hl, Or.inl ⟨e, rfl⟩⟩
  | dropped => exact ⟨_, hl, Or.inr rfl⟩

/-- A call leaves a flight for good, or because the flight is over. -/
theorem leave_of_step {x : World σ ω α} (h : Alert x) (e : Event ω ι) {c l : Nat}
    (hw : x.state.WaitsFor c l) : (step w x e).state.WaitsFor c l ∨ Past (step w x e).state c ∨
      Over (step w x e).state l := by
  obtain ⟨key, fired, task, hc⟩ := hw
  cases moved (w := w) e hc with
  | same hs => exact Or.inl ⟨key, fired, task, hs⟩
  | fire _ hs => exact Or.inl ⟨key, true, task, hs⟩
  | drop _ _ hs => exact Or.inr (Or.inl ⟨_, hs, rfl⟩)
  | turn i _ hr hs =>
    rw [hs]
    cases turn_cases w.watched i x.now c x.state with
    | rest ht => rw [ht]; exact Or.inl ⟨key, fired, task, hc⟩
    | giveUp call t _ _ _ ht =>
      rw [ht]
      exact Or.inr (Or.inl (past_of_put (calls_become _ _ _ _) rfl))
    | wait call t l' hc₁ _ _ hn _ ht =>
      rw [hc] at hc₁; cases hc₁
      -- it competes again because the flight was lost
      have hlost : x.state.fate l = .lost := hn l task rfl
      have ho := over_of_waitsFor h.sound ⟨key, fired, task, hc⟩
        (by rw [hlost]; exact fun h => by cases h)
      exact Or.inr (Or.inr (ho.forward (turn_forward _ _ _ _ _)))
    | serve call t l' r _ _ _ _ ht =>
      rw [ht]
      exact Or.inr (Or.inl (past_of_put (calls_become x.state _ _ _) rfl))
    | work call t s₁ _ _ ht =>
      obtain ⟨p, -, hcalls⟩ := work_record w i x.now c call t s₁
      rw [ht]
      refine Or.inr (Or.inl (past_of_put hcalls ?_))
      cases p with
      | running task' => rfl
      | finished r => rfl

/-- What a call that has joined a flight has behind it, from then on. -/
def Joined (s : Flights σ ω α) (c l : Nat) : Prop := s.WaitsFor c l ∨ Past s c ∨ Over s l

theorem joined_step {x : World σ ω α} (h : Alert x) (e : Event ω ι) {c l : Nat}
    (hj : Joined x.state c l) : Joined (step w x e).state c l := by
  rcases hj with hw | hp | ho
  · exact leave_of_step h e hw
  · exact Or.inr (Or.inl (hp.forward (step_forward x e)))
  · exact Or.inr (Or.inr (ho.forward (step_forward x e)))

/-- Event number `n` makes a call wait for a flight. -/
def Joins (w : Work σ ω ι α) (x : World σ ω α) (es : List (Event ω ι)) (n c l : Nat) : Prop :=
  ¬ (worldAt w x es n).state.WaitsFor c l ∧ (worldAt w x es (n + 1)).state.WaitsFor c l

theorem Joins.joined {x : World σ ω α} (h : Alert x) {es : List (Event ω ι)} {m n c l : Nat}
    (hj : Joins w x es m c l) (hmn : m < n) : Joined (worldAt w x es n).state c l :=
  Trace.after_since (P := fun (y : World σ ω α) => Joined y.state c l) hmn (Or.inl hj.2)
    (fun i _ e _ hy => joined_step (worldAt_alert w h es i) e hy)

/-- A call that joins a flight finds its leader at work. -/
theorem Joins.real {x : World σ ω α} (h : Alert x) {es : List (Event ω ι)} {n c l : Nat}
    (hj : Joins w x es n c l) : ∃ call task,
      (worldAt w x es n).state.calls.get? c = some call ∧ call.phase.task? = some task ∧
      call.fired = false ∧ (worldAt w x es n).state.Leads call.key l ∧
      (worldAt w x es (n + 1)).state.calls.get? c = some { call with phase := .waiting l task } ∧
      (worldAt w x es (n + 1)).state.Leads call.key l := by
  obtain ⟨hn, hw⟩ := hj
  rcases worldAt_cases w x es n with ⟨-, hsame⟩ | ⟨e, -, hstep⟩
  · rw [hsame] at hw; exact absurd hw hn
  · rw [hstep] at hw ⊢
    exact join_of_step (worldAt_alert w h es n) hn hw

theorem Joins.once {x : World σ ω α} (h : Alert x) {es : List (Event ω ι)} {m n c l : Nat}
    (hm : Joins w x es m c l) (hn : Joins w x es n c l) : m = n := by
  have hle : ∀ {m n}, Joins w x es m c l → Joins w x es n c l → ¬ m < n := by
    intro m n hm hn hmn
    obtain ⟨call, task, hc, ht, -, hL, -⟩ := hn.real h
    -- after it has joined, it waits, has no use for a flight, or its leader is over
    rcases hm.joined h hmn with hw | ⟨call', hc', ht'⟩ | ho
    · exact hn.1 hw
    · rw [hc] at hc'; cases hc'
      rw [ht] at ht'; cases ht'
    · exact ho.not_leads _ hL
  exact Nat.le_antisymm (Nat.le_of_not_lt (hle hn hm)) (Nat.le_of_not_lt (hle hm hn))

/-- What holds of one run at all of its points. -/
structure Singleflight (w : Work σ ω ι α) (x : World σ ω α) (es : List (Event ω ι)) : Prop where
  /-- Two calls are never at work for one key. -/
  one : ∀ n key c d, (worldAt w x es n).state.Leads key c → (worldAt w x es n).state.Leads key d →
    c = d
  /-- While one call is at work for a key, no other call's work is given a turn. -/
  alone : ∀ n key c h, (worldAt w x es n).state.Leads key c →
    (worldAt w x es (n + 1)).state.store.2 = h :: (worldAt w x es n).state.store.2 →
    (∃ fired phase, (worldAt w x es n).state.calls.get? h.call = some ⟨key, fired, phase⟩) →
    h.call = c
  /-- The table of flights holds the keys that are worked for. -/
  onTable : ∀ n key, (∃ l, (worldAt w x es n).state.inFlight.get? key = some l) ↔
    ∃ c, (worldAt w x es n).state.Leads key c
  /-- Its length is their number. -/
  count : ∀ n, (worldAt w x es n).state.inFlight.length =
    {key | ∃ c, (worldAt w x es n).state.Leads key c}.ncard
  /-- Nothing is left on it when every call is over. -/
  empty : ∀ n, (∀ c call, (worldAt w x es n).state.calls.get? c = some call → call.IsOver) →
    (worldAt w x es n).state.inFlight.length = 0
  /-- While nothing is ready, whoever waits does so for a call that is at work for its key. -/
  waits : ∀ n c key fired l task, idle (worldAt w x es n) = true →
    (worldAt w x es n).state.calls.get? c = some ⟨key, fired, .waiting l task⟩ →
    (worldAt w x es n).state.Leads key l
  /-- No call joins a flight twice. -/
  once : ∀ m n c l, Joins w x es m c l → Joins w x es n c l → m = n
  /-- After the turn that finds its flight over, a call never waits for it again. -/
  left : ∀ m n c i l, (worldAt w x es m).state.WaitsFor c l → Over (worldAt w x es m).state l →
    es[m]? = some (.turn c i) → c ∈ (worldAt w x es m).ready → m < n →
    ¬ (worldAt w x es n).state.WaitsFor c l

theorem Alert.waits {x : World σ ω α} (h : Alert x) (hi : idle x = true) {c l : Nat} {key : String}
    {fired : Bool} {task : ω}
    (hc : x.state.calls.get? c = some ⟨key, fired, .waiting l task⟩) : x.state.Leads key l := by
  obtain ⟨l', hp, -, hl⟩ := h.flying hi hc rfl
  cases hp
  obtain ⟨k, f, t, hL⟩ := (fate_flying_iff _ _).1 hl
  obtain ⟨lead, hl', hk, -⟩ := h.sound.boarded c _ l task hc rfl
  rw [hL] at hl'; cases hl'
  rw [← show k = key from hk]
  exact ⟨f, t, hL⟩

theorem sound_alone {x : World σ ω α} (h : x.state.Sound) {key : String} {c : Nat}
    (hL : x.state.Leads key c) (e : Event ω ι) {s : Shift ω α}
    (hs : (step w x e).state.store.2 = s :: x.state.store.2)
    (hk : ∃ fired phase, x.state.calls.get? s.call = some ⟨key, fired, phase⟩) : s.call = c := by
  rcases step_record w x e with hsame | ⟨d, i, call, task, p, -, hd, hl, hrec⟩
  · rw [hsame] at hs; exact absurd hs.symm (List.cons_ne_self _ _)
  -- the turn on record is that of a leader, or of a call that found no leader
  rw [hrec] at hs
  obtain ⟨rfl, -⟩ := List.cons.inj hs
  obtain ⟨fired, phase, hk⟩ := hk
  rw [hd] at hk; cases hk
  rcases hl with hp | ⟨-, hn⟩
  · have hp : phase = .leading task := hp
    subst hp
    exact h.leads_inj ⟨fired, task, hd⟩ hL
  · have hon := (h.led key c).2 hL
    rw [show x.state.inFlight.get? key = none from hn] at hon
    cases hon

theorem length_inFlight {s : Flights σ ω α} (h : s.Sound) :
    s.inFlight.length = {key | ∃ c, s.Leads key c}.ncard := by
  have hkeys : {key | ∃ c, s.Leads key c} = ↑s.inFlight.keys.toFinset := by
    ext key
    rw [Finset.mem_coe, List.mem_toFinset, Table.mem_keys_iff]
    exact exists_congr (fun c => (h.led key c).symm)
  rw [hkeys, Set.ncard_coe_finset, List.toFinset_card_of_nodup h.keys, Table.keys, List.length_map]

/-- A call that has competed anew waits for another flight. -/
theorem left_of_turn {x : World σ ω α} (h : Alert x) {c l : Nat} {i : ι}
    (ho : Over x.state l) (hr : c ∈ x.ready) :
    ¬ (step w x (.turn c i)).state.WaitsFor c l := by
  rintro ⟨key, fired, task, hc⟩
  simp only [step, if_pos hr, Clock.World.state_wake] at hc
  obtain ⟨l', hp, -, hl⟩ := turn_settles w.watched i x.now c h.sound hc rfl
  cases hp
  obtain ⟨k, hL⟩ := (fate_flying_iff _ _).1 hl
  exact (ho.forward (turn_forward w.watched i x.now c x.state)).not_leads k hL

/-- **One piece of work for a key at a time, in every run.** -/
theorem singleflight (w : Work σ ω ι α) (name : String) (store : σ) (now : Nat)
    (es : List (Event ω ι)) : Singleflight w (dawn name store now) es := by
  have halert := worldAt_alert w (dawn_alert name store now) es
  refine ⟨?_, ?_, ?_, ?_, ?_, ?_, ?_, ?_⟩
  · intro n key c d hc hd
    exact (halert n).sound.leads_inj hc hd
  · intro n key c h hL hs hk
    rcases worldAt_cases w (dawn name store now) es n with ⟨-, hsame⟩ | ⟨e, -, hstep⟩
    · rw [hsame] at hs; exact absurd hs.symm (List.cons_ne_self _ _)
    · rw [hstep] at hs
      exact sound_alone (halert n).sound hL e hs hk
  · intro n key
    exact exists_congr (fun c => (halert n).sound.led key c)
  · intro n
    exact length_inFlight (halert n).sound
  · intro n hover
    -- nobody is left to lead a flight
    have hnone : {key | ∃ c, (worldAt w (dawn name store now) es n).state.Leads key c} = ∅ := by
      refine Set.eq_empty_iff_forall_notMem.2 ?_
      rintro key ⟨c, f, t, hL⟩
      exact Over.not_leads ⟨_, hL, hover c _ hL⟩ key ⟨f, t, hL⟩
    rw [length_inFlight (halert n).sound, hnone, Set.ncard_empty]
  · intro n c key fired l task hi hc
    exact (halert n).waits hi hc
  · intro m n c l hm hn
    exact hm.once (dawn_alert name store now) hn
  · intro m n c i l hw ho he hr hmn hwn
    -- to wait for it again the call would have to join it, and find its leader at work
    have hnot : ¬ (worldAt w (dawn name store now) es (m + 1)).state.WaitsFor c l := by
      rw [worldAt_succ w _ he]
      exact left_of_turn (halert m) ho hr
    obtain ⟨j, hmj, hjn, hj, hall⟩ := Trace.turning_point (P := fun i =>
      (worldAt w (dawn name store now) es i).state.WaitsFor c l) hmn hnot hwn
    have hjoin : Joins w (dawn name store now) es j c l := ⟨hj, hall (j + 1) (by omega) (by omega)⟩
    obtain ⟨call, task, -, -, -, hL, -⟩ := hjoin.real (dawn_alert name store now)
    exact (ho.forward (worldAt_forward _ es (Nat.le_of_succ_le hmj))).not_leads _ hL

end Flight

end RegistryLookup
