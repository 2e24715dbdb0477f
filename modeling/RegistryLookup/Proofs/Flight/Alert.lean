import RegistryLookup.Proofs.Clock
import RegistryLookup.Proofs.Flight.Forward
import RegistryLookup.Proofs.Flight.Run
import RegistryLookup.Proofs.Table

/-!
# No wake-up is lost

A call that has not led a flight is ready, or it waits for a flight under way and its token has
not fired (`Alert.woken`). So a flight that ends has its waiters at the same instant: time does
not pass before each of them has had a turn (`Alert.prompt`).

* `step_alert`: every event keeps this.
-/

namespace RegistryLookup

namespace Flights

open Flight

variable {σ ω α : Type}

theorem fate_of_get? {s : Flights σ ω α} {l : Nat} {lead : Call ω α}
    (h : s.calls.get? l = some lead) : s.fate l = lead.phase.fate := by
  unfold fate; rw [h]

theorem fate_flying_iff (s : Flights σ ω α) (l : Nat) :
    s.fate l = .flying ↔ ∃ key, s.Leads key l := by
  unfold fate
  cases hl : s.calls.get? l with
  | none => simp [Leads, hl]
  | some lead =>
    obtain ⟨key, fired, phase⟩ := lead
    simp only [Leads, hl, Option.some.injEq, Call.mk.injEq]
    constructor
    · intro h
      unfold Phase.fate at h
      split at h
      · exact ⟨key, fired, _, rfl, rfl, rfl⟩
      · cases h
      · cases h
    · rintro ⟨_, _, task, -, -, rfl⟩
      rfl

theorem mem_waitersOf {s : Flights σ ω α} {c l : Nat} {call : Call ω α} {task : ω}
    (hc : s.calls.get? c = some call) (hp : call.phase = .waiting l task) :
    c ∈ s.waitersOf l := by
  unfold waitersOf
  refine List.mem_filterMap.2 ⟨(c, call), Table.mem_of_get? hc, ?_⟩
  simp [hp]

/-- The waiters are told by their entries. -/
theorem mem_waitersOf_iff {s : Flights σ ω α} (h : s.calls.keys.Nodup) {c l : Nat} :
    c ∈ s.waitersOf l ↔ s.WaitsFor c l := by
  constructor
  · intro hc
    unfold waitersOf at hc
    obtain ⟨⟨d, key, fired, phase⟩, hmem, hd⟩ := List.mem_filterMap.1 hc
    have hget := Table.get?_of_mem h hmem
    cases phase with
    | waiting m task =>
      simp only [Option.ite_none_right_eq_some, Option.some.injEq] at hd
      obtain ⟨rfl, rfl⟩ := hd
      exact ⟨key, fired, task, hget⟩
    | _ => cases hd
  · rintro ⟨key, fired, task, hc⟩
    exact mem_waitersOf hc rfl

/-- Whoever is freed has waited. -/
theorem waitsFor_of_freedBy {s : Flights σ ω α} (h : s.Sound) {c l : Nat}
    (hc : c ∈ s.freedBy l) : s.WaitsFor c l := by
  unfold freedBy at hc
  split at hc
  · cases hc
  · exact (mem_waitersOf_iff h.calls).1 hc

/-- Nobody waits for a call that is not there. -/
theorem freedBy_of_none {s : Flights σ ω α} (h : s.Sound) {l : Nat}
    (hl : s.calls.get? l = none) : s.freedBy l = [] := by
  refine List.eq_nil_iff_forall_not_mem.2 fun c hc => ?_
  obtain ⟨key, fired, task, hw⟩ := waitsFor_of_freedBy h hc
  obtain ⟨lead, hlead, -⟩ := h.boarded c _ l task hw rfl
  rw [hl] at hlead; cases hlead

/-- Whoever waits for a flight that is no longer under way is woken. -/
theorem mem_freedBy {s : Flights σ ω α} {c l : Nat} {call : Call ω α} {task : ω}
    (hc : s.calls.get? c = some call) (hp : call.phase = .waiting l task)
    (hl : s.fate l ≠ .flying) : c ∈ s.freedBy l := by
  unfold freedBy
  split
  · rename_i h; exact absurd h hl
  · exact mem_waitersOf hc hp

end Flights

namespace Flight

open Flights

variable {σ ω ι α : Type}

/-- Every call is ready when it has something to do. -/
structure Alert (x : World σ ω α) : Prop where
  sound : x.state.Sound
  woken : ∀ c call task, x.state.calls.get? c = some call → call.phase.task? = some task →
    c ∈ x.ready ∨ ∃ l, call.phase = .waiting l task ∧ call.fired = false ∧
      x.state.fate l = .flying
  prompt : ∀ c call l task lead e, x.state.calls.get? c = some call →
    call.phase = .waiting l task → x.state.calls.get? l = some lead → lead.phase = .ended e →
    e.instant = x.now

theorem dawn_alert (name : String) (store : σ) (now : Nat) :
    Alert (dawn name store now : World σ ω α) where
  sound := ⟨fun key c => by simp [dawn, Leads], by simp [dawn, Table.keys],
    by simp [dawn, Table.keys], fun c call l task h => by simp [dawn] at h⟩
  woken := fun c call task h => by simp [dawn] at h
  prompt := fun c call l task lead e h => by simp [dawn] at h

theorem isOpen_of_task? {s : Flights σ ω α} {c : Nat} {call : Call ω α} {task : ω}
    (hc : s.calls.get? c = some call) (ht : call.phase.task? = some task) : isOpen s c = true := by
  obtain ⟨key, fired, phase⟩ := call
  unfold isOpen
  rw [hc]
  cases phase with
  | arriving => rfl
  | waiting => rfl
  | leading => cases ht
  | ended => cases ht
  | dropped => cases ht

/-- While no call under way is ready, whoever waits does so for a flight under way. -/
theorem Alert.flying {x : World σ ω α} (h : Alert x) (hi : idle x = true) {c : Nat}
    {call : Call ω α} {task : ω} (hc : x.state.calls.get? c = some call)
    (ht : call.phase.task? = some task) :
    ∃ l, call.phase = .waiting l task ∧ call.fired = false ∧ x.state.fate l = .flying := by
  rcases h.woken c call task hc ht with hr | hl
  · unfold idle at hi
    have := List.all_eq_true.1 hi c hr
    rw [isOpen_of_task? hc ht] at this
    cases this
  · exact hl

/-- An ended call ends at the instant of its turn. -/
theorem instant_of_turn (w : Work σ ω ι α) (i : ι) (now c : Nat) {s : Flights σ ω α}
    {call call' : Call ω α} {e : Ending α} (hc : s.calls.get? c = some call)
    (hc' : (s.turn w i now c).calls.get? c = some call') (hp : ∀ e, call.phase ≠ .ended e)
    (he : call'.phase = .ended e) : e.instant = now := by
  have hput : ∀ {p : Phase ω α}, (s.turn w i now c).calls = s.calls.put c { call with phase := p } →
      call'.phase = p := by
    intro p h
    rw [h, Table.get?_put_self] at hc'
    rw [← Option.some.inj hc']
  cases turn_cases w i now c s with
  | rest hs =>
    rw [hs, hc] at hc'; cases hc'
    exact absurd he (hp e)
  | giveUp call₁ task hc₁ ht _ hs =>
    rw [hc] at hc₁; cases hc₁
    rw [hput (by rw [hs]; rfl)] at he; cases he; rfl
  | wait call₁ task l hc₁ ht _ _ _ hs =>
    rw [hc] at hc₁; cases hc₁
    rw [hput (by rw [hs]; rfl)] at he; cases he
  | serve call₁ task l r hc₁ hp' _ _ hs =>
    rw [hc] at hc₁; cases hc₁
    rw [hput (by rw [hs]; rfl)] at he; cases he; rfl
  | work call₁ task s₁ hc₁ hl hs =>
    rw [hc] at hc₁; cases hc₁
    have hcalls : s₁.calls = s.calls := by rcases hl with ⟨-, rfl⟩ | ⟨-, -, rfl⟩ <;> rfl
    rcases work_cases w i now c call task s₁ with ⟨task', -, hw⟩ | ⟨r, -, hw⟩
    · rw [hput (by rw [hs, hw, ← hcalls]; rfl)] at he; cases he
    · rw [hput (by rw [hs, hw, calls_land, ← hcalls]; rfl)] at he; cases he; rfl

/-- A call that has taken a turn waits for a flight under way, or it has led one. -/
theorem turn_settles (w : Work σ ω ι α) (i : ι) (now c : Nat) {s : Flights σ ω α} (h : s.Sound)
    {call' : Call ω α} {task : ω} (hc' : (s.turn w i now c).calls.get? c = some call')
    (ht' : call'.phase.task? = some task) : ∃ l, call'.phase = .waiting l task ∧
      call'.fired = false ∧ (s.turn w i now c).fate l = .flying := by
  have hput : ∀ (call : Call ω α) {p : Phase ω α},
      (s.turn w i now c).calls = s.calls.put c { call with phase := p } →
      call' = { call with phase := p } := by
    intro call p h
    rw [h, Table.get?_put_self] at hc'
    exact (Option.some.inj hc').symm
  cases turn_cases w i now c s with
  | rest hs hw _ =>
    rw [hs] at hc' ⊢
    exact hw call' task hc' ht'
  | giveUp call task₁ hc ht _ hs =>
    rw [hput call (by rw [hs]; rfl)] at ht'; cases ht'
  | wait call task₁ l hc ht hf _ hl hs =>
    have he := hput call (by rw [hs]; rfl)
    rw [he] at ht' ⊢
    cases ht'
    refine ⟨l, rfl, hf, ?_⟩
    obtain ⟨f, t, hL⟩ := (h.led call.key l).1 hl
    -- the call itself has not begun to work, so it does not wait for itself
    have hlc : l ≠ c := fun hlc => by
      rw [hlc, hc] at hL
      rw [Option.some.inj hL] at ht; cases ht
    rw [← turn_of_ne w i now s hlc] at hL
    rw [fate_of_get? hL]; rfl
  | serve call task₁ l r hc hp _ _ hs =>
    rw [hput call (by rw [hs]; rfl)] at ht'; cases ht'
  | work call task₁ s₁ hc hl hs =>
    have hcalls : s₁.calls = s.calls := by rcases hl with ⟨-, rfl⟩ | ⟨-, -, rfl⟩ <;> rfl
    rcases work_cases w i now c call task₁ s₁ with ⟨task', -, hw⟩ | ⟨r, -, hw⟩
    · rw [hput call (by rw [hs, hw, ← hcalls]; rfl)] at ht'; cases ht'
    · rw [hput call (by rw [hs, hw, calls_land, ← hcalls]; rfl)] at ht'; cases ht'

/-- Another call that waited for a flight under way still does, or it is woken. -/
theorem freed_or_flying {s s' : Flights σ ω α} {c d l : Nat} {dcall : Call ω α} {task : ω}
    (hother : ∀ d, d ≠ c → s'.calls.get? d = s.calls.get? d)
    (hd : s'.calls.get? d = some dcall) (hp : dcall.phase = .waiting l task)
    (hl : s.fate l = .flying) : d ∈ s'.freedBy c ∨ s'.fate l = .flying := by
  -- of all flights only that of `c` can have ended
  by_cases hf : s'.fate l = .flying
  · exact Or.inr hf
  · left
    have hlc : l = c := by
      by_contra hlc
      apply hf
      rw [← hl]
      unfold fate
      rw [hother l hlc]
    subst hlc
    exact mem_freedBy hd hp hf

theorem start_alert {x : World σ ω α} (h : Alert x) {c : Nat}
    (hc : x.state.calls.get? c = none) (key : String) (fired : Bool) (work : ω) :
    Alert ({ x with state := x.state.start c key fired work }.wake [c]) := by
  have hself : (x.state.start c key fired work).calls.get? c = some ⟨key, fired, .arriving work⟩ :=
    Table.get?_put_self _ _ _
  have hother : ∀ d, d ≠ c → (x.state.start c key fired work).calls.get? d = x.state.calls.get? d :=
    fun d hd => Table.get?_put_of_ne _ _ hd
  refine ⟨start_sound h.sound hc key fired work, ?_, ?_⟩
  · intro d dcall task hd ht
    by_cases hdc : d = c
    · left; rw [Clock.World.mem_wake]; right; simp [hdc]
    · rw [Clock.World.state_wake] at hd
      rw [hother d hdc] at hd
      rcases h.woken d dcall task hd ht with hr | ⟨l, hp, hf, hl⟩
      · left; rw [Clock.World.mem_wake]; exact Or.inl hr
      · refine Or.inr ⟨l, hp, hf, ?_⟩
        obtain ⟨k, f, t, hL⟩ := (fate_flying_iff _ _).1 hl
        -- the leader has been there before, so it is not the call that comes in
        have hlc : l ≠ c := fun hlc => by rw [hlc, hc] at hL; cases hL
        rw [← hl]
        show (x.state.start c key fired work).fate l = _
        unfold fate
        rw [hother l hlc]
  · intro d dcall l task lead e hd hp hl he
    rw [Clock.World.state_wake] at hd hl
    by_cases hdc : d = c
    · subst hdc; rw [hself] at hd; cases hd; cases hp
    · by_cases hlc : l = c
      · subst hlc; rw [hself] at hl; cases hl; cases he
      · rw [hother d hdc] at hd
        rw [hother l hlc] at hl
        exact h.prompt d dcall l task lead e hd hp hl he

theorem turn_alert (w : Work (σ × List (Shift ω α)) ω ι α) (i : ι) {x : World σ ω α}
    (h : Alert x) (c : Nat) :
    Alert ({ x with state := x.state.turn w i x.now c,
                    ready := x.ready.filter (· ≠ c) }.wake
      ((x.state.turn w i x.now c).freedBy c)) := by
  have hother := fun d (hd : d ≠ c) => turn_of_ne w i x.now x.state hd
  refine ⟨turn_sound w i x.now c h.sound, ?_, ?_⟩
  · intro d dcall task hd ht
    rw [Clock.World.mem_wake]
    by_cases hdc : d = c
    · subst hdc
      exact Or.inr (turn_settles w i x.now d h.sound hd ht)
    · have hd' : x.state.calls.get? d = some dcall := by rw [← hother d hdc]; exact hd
      rcases h.woken d dcall task hd' ht with hr | ⟨l, hp, hf, hl⟩
      · left; left
        exact List.mem_filter.2 ⟨hr, by simpa using hdc⟩
      -- if the turn has ended the flight that it waits for, it is woken
      · rcases freed_or_flying hother hd hp hl with hr | hl
        · exact Or.inl (Or.inr hr)
        · exact Or.inr ⟨l, hp, hf, hl⟩
  · intro d dcall l task lead e hd hp hl he
    simp only [Clock.World.state_wake] at hd hl
    show e.instant = x.now
    by_cases hdc : d = c
    · -- a call that has just taken its turn waits for a flight under way
      subst hdc
      obtain ⟨l', hp', -, hl'⟩ := turn_settles w i x.now d h.sound hd (by rw [hp]; rfl)
      rw [hp] at hp'; cases hp'
      rw [fate_flying_iff] at hl'
      obtain ⟨k, f, t, hL⟩ := hl'
      rw [hl] at hL; cases hL; cases he
    · rw [hother d hdc] at hd
      by_cases hlc : l = c
      · subst hlc
        obtain ⟨lead₀, hl₀, -, -⟩ := h.sound.boarded d dcall l task hd hp
        -- the leader took this turn: it was over before, or it has ended now
        by_cases hend : ∃ e₀, lead₀.phase = .ended e₀
        · obtain ⟨e₀, he₀⟩ := hend
          obtain ⟨lead', hl', hb⟩ := turn_forward w i x.now l x.state l lead₀ hl₀
          rw [hl] at hl'; cases hl'
          have := hb.ended e₀ he₀
          rw [he] at this; cases this
          exact h.prompt d dcall l task lead₀ e hd hp hl₀ he₀
        · exact instant_of_turn w i x.now l hl₀ hl (fun e₀ h₀ => hend ⟨e₀, h₀⟩) he
      · rw [hother l hlc] at hl
        exact h.prompt d dcall l task lead e hd hp hl he

theorem wake_alert {x : World σ ω α} (h : Alert x) (cs : List Nat) : Alert (x.wake cs) where
  sound := h.sound
  woken := fun d dcall task hd ht => by
    rw [Clock.World.mem_wake]
    exact (h.woken d dcall task hd ht).imp Or.inl (fun hl => hl)
  prompt := h.prompt

theorem fire_alert {x : World σ ω α} (h : Alert x) (c : Nat) :
    Alert ({ x with state := x.state.fire c }.wake [c]) := by
  have hother := fun d (hd : d ≠ c) => fire_of_ne x.state hd
  -- the token of a call is no part of its phase
  have hphase : ∀ d dcall, (x.state.fire c).calls.get? d = some dcall →
      ∃ dcall₀, x.state.calls.get? d = some dcall₀ ∧ dcall.phase = dcall₀.phase := by
    intro d dcall hd
    by_cases hdc : d = c
    · subst hdc
      rcases fire_cases x.state d with ⟨hs, -⟩ | ⟨call, hc, hs⟩
      · rw [hs] at hd; exact ⟨dcall, hd, rfl⟩
      · rw [hs, Table.get?_put_self] at hd; cases hd
        exact ⟨call, hc, rfl⟩
    · rw [hother d hdc] at hd; exact ⟨dcall, hd, rfl⟩
  -- so the flights under way go on
  have hfate : ∀ l, x.state.fate l = .flying → (x.state.fire c).fate l = .flying := by
    intro l hl
    obtain ⟨k, f, t, hL⟩ := (fate_flying_iff _ _).1 hl
    obtain ⟨lead, hl', hb⟩ := fire_forward x.state c l _ hL
    obtain ⟨lead₀, hl₀, hp⟩ := hphase l lead hl'
    rw [hL] at hl₀; cases hl₀
    rw [fate_of_get? hl', hp]; rfl
  refine ⟨fire_sound h.sound c, ?_, ?_⟩
  · intro d dcall task hd ht
    rw [Clock.World.mem_wake]
    by_cases hdc : d = c
    · left; right; simp [hdc]
    · have hd' : x.state.calls.get? d = some dcall := by rw [← hother d hdc]; exact hd
      rcases h.woken d dcall task hd' ht with hr | ⟨l, hp, hf, hl⟩
      · exact Or.inl (Or.inl hr)
      · exact Or.inr ⟨l, hp, hf, hfate l hl⟩
  · intro d dcall l task lead e hd hp hl he
    obtain ⟨dcall₀, hd₀, hp₀⟩ := hphase d dcall hd
    obtain ⟨lead₀, hl₀, he₀⟩ := hphase l lead hl
    exact h.prompt d dcall₀ l task lead₀ e hd₀ (hp₀ ▸ hp) hl₀ (he₀ ▸ he)

theorem drop_alert {x : World σ ω α} (h : Alert x) (c : Nat) :
    Alert ({ x with state := x.state.drop c }.wake ((x.state.drop c).freedBy c)) := by
  rcases drop_cases x.state c with hs | ⟨call, hc, -, hs⟩
  · rw [hs]; exact wake_alert h _
  have hself : (x.state.drop c).calls.get? c = some { call with phase := .dropped } := by
    rw [hs, calls_land]; exact Table.get?_put_self _ _ _
  have hother := fun d (hd : d ≠ c) => drop_of_ne x.state hd
  refine ⟨drop_sound h.sound c, ?_, ?_⟩
  · intro d dcall task hd ht
    rw [Clock.World.mem_wake]
    by_cases hdc : d = c
    · subst hdc
      rw [Clock.World.state_wake, hself] at hd; cases hd; cases ht
    · have hd' : x.state.calls.get? d = some dcall := by rw [← hother d hdc]; exact hd
      rcases h.woken d dcall task hd' ht with hr | ⟨l, hp, hf, hl⟩
      · exact Or.inl (Or.inl hr)
      · rcases freed_or_flying hother hd hp hl with hr | hl
        · exact Or.inl (Or.inr hr)
        · exact Or.inr ⟨l, hp, hf, hl⟩
  · intro d dcall l task lead e hd hp hl he
    rw [Clock.World.state_wake] at hd hl
    by_cases hdc : d = c
    · subst hdc; rw [hself] at hd; cases hd; cases hp
    · by_cases hlc : l = c
      · subst hlc; rw [hself] at hl; cases hl; cases he
      · rw [hother d hdc] at hd
        rw [hother l hlc] at hl
        exact h.prompt d dcall l task lead e hd hp hl he

/-- **Every event leaves each call ready or waiting for a flight under way.** -/
theorem step_alert (w : Work σ ω ι α) {x : World σ ω α} (h : Alert x) (e : Event ω ι) :
    Alert (step w x e) := by
  cases e with
  | start c key fired work =>
    simp only [step]
    split
    · exact h
    · rename_i hc
      exact start_alert h (by simpa using hc) key fired work
  | turn c i =>
    simp only [step]
    split
    · exact turn_alert w.watched i h c
    · exact h
  | wake c => exact wake_alert h [c]
  | fire c => exact fire_alert h c
  | drop c => exact drop_alert h c
  | pass t =>
    simp only [step]
    split
    · rename_i hi
      refine ⟨h.sound, h.woken, ?_⟩
      intro d dcall l task lead e hd hp hl he
      -- nobody is left waiting for a flight that is over
      obtain ⟨l', hp', -, hl'⟩ := h.flying hi.1 hd (by rw [hp]; rfl)
      rw [hp] at hp'; cases hp'
      obtain ⟨k, f, t, hL⟩ := (fate_flying_iff _ _).1 hl'
      rw [hl] at hL; cases hL; cases he
    · exact h

theorem worldAt_alert (w : Work σ ω ι α) {x : World σ ω α} (h : Alert x)
    (es : List (Event ω ι)) (n : Nat) : Alert (worldAt w x es n) :=
  Trace.after_invariant h (fun _ e _ hy => step_alert w hy e) n

end Flight

end RegistryLookup
