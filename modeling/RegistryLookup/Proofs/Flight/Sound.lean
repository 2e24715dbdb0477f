import RegistryLookup.Flight.Basic
import RegistryLookup.Table

/-!
# The flights under way are those that are led

`Flights.Sound` ties the table of flights to the calls: a key is on the table with a call exactly
when that call does its work for the key, and a call waits only for a call of its own key that
has led a flight. Every operation keeps it.

* `turn_cases`: all that a turn can do.
* `start_sound`, `turn_sound`, `fire_sound`, `drop_sound`: the invariant is kept.
-/

namespace RegistryLookup

namespace Flight

variable {σ ω ι α : Type}

/-- The work of a call that does not lead a flight yet. -/
def Phase.task? : Phase ω α → Option ω
  | .arriving task => some task
  | .waiting _ task => some task
  | _ => none

/-- The phase in which a turn of its work leaves a leader. -/
def Progress.phase (fired : Bool) (now : Nat) : Progress ω α → Phase ω α
  | .running task => .leading task
  | .finished r => .ended ⟨r, .leader (!(fired && !r.isOk)), now⟩

end Flight

namespace Flights

open Flight

variable {σ ω ι α : Type}

/-- A call does its work for a key. -/
def Leads (s : Flights σ ω α) (key : String) (c : Nat) : Prop :=
  ∃ fired task, s.calls.get? c = some ⟨key, fired, .leading task⟩

/-- A call waits for the flight of a leader. -/
def WaitsFor (s : Flights σ ω α) (c l : Nat) : Prop :=
  ∃ key fired task, s.calls.get? c = some ⟨key, fired, .waiting l task⟩

/-- The flights under way are those that are led. -/
structure Sound (s : Flights σ ω α) : Prop where
  led : ∀ key c, s.inFlight.get? key = some c ↔ s.Leads key c
  keys : s.inFlight.keys.Nodup
  calls : s.calls.keys.Nodup
  boarded : ∀ c call l task, s.calls.get? c = some call → call.phase = .waiting l task →
    ∃ lead, s.calls.get? l = some lead ∧ lead.key = call.key ∧ lead.phase.task? = none

/-- What the turn of a call makes of the flights. -/
inductive Turned (w : Work σ ω ι α) (i : ι) (now c : Nat) (s s' : Flights σ ω α) : Prop
  /-- There is nothing to do but to wait. -/
  | rest (h : s' = s) (hw : ∀ call task, s.calls.get? c = some call →
      call.phase.task? = some task →
      ∃ l, call.phase = .waiting l task ∧ call.fired = false ∧ s.fate l = .flying)
    (hl : ∀ call task, s.calls.get? c = some call → call.phase ≠ .leading task)
  /-- Its token has fired before it could lead a flight. -/
  | giveUp (call : Call ω α) (task : ω) (hc : s.calls.get? c = some call)
    (ht : call.phase.task? = some task) (hf : call.fired = true)
    (h : s' = s.become c call (.ended ⟨.error .cancelled, .gaveUp, now⟩))
  /-- It begins to wait for the flight under way. -/
  | wait (call : Call ω α) (task : ω) (l : Nat) (hc : s.calls.get? c = some call)
    (ht : call.phase.task? = some task) (hf : call.fired = false)
    (hn : ∀ l' t, call.phase = .waiting l' t → s.fate l' = .lost)
    (hl : s.inFlight.get? call.key = some l) (h : s' = s.become c call (.waiting l task))
  /-- It is given the result of the flight that it waited for. -/
  | serve (call : Call ω α) (task : ω) (l : Nat) (r : Except Failure α)
    (hc : s.calls.get? c = some call) (hp : call.phase = .waiting l task)
    (hf : call.fired = false) (hl : s.fate l = .landed r)
    (h : s' = { s.become c call (.ended ⟨r, .served l, now⟩) with
      journal := .shared s.name :: s.journal })
  /-- It does its work, for a flight that it leads or that it has just been given. -/
  | work (call : Call ω α) (task : ω) (s₁ : Flights σ ω α) (hc : s.calls.get? c = some call)
    (hl : (call.phase = .leading task ∧ s₁ = s) ∨
      (call.phase.task? = some task ∧ s.inFlight.get? call.key = none ∧
        s₁ = { s with inFlight := s.inFlight.put call.key c }))
    (h : s' = s₁.work w i now c call task)
    (hn : ∀ l t, call.phase = .waiting l t → s.fate l = .lost)

theorem join_cases (w : Work σ ω ι α) (i : ι) (now c : Nat) {s : Flights σ ω α}
    {call : Call ω α} {task : ω} (hc : s.calls.get? c = some call)
    (ht : call.phase.task? = some task)
    (hn : ∀ l t, call.phase = .waiting l t → s.fate l = .lost) :
    Turned w i now c s (s.join w i now c call task) := by
  unfold join
  -- nobody works for the key, or the call gives up, or it waits
  cases hk : s.inFlight.get? call.key with
  | none => exact .work call task _ hc (Or.inr ⟨ht, hk, rfl⟩) rfl hn
  | some l =>
    simp only
    split
    · rename_i hf
      exact .giveUp call task hc ht hf rfl
    · rename_i hf
      exact .wait call task l hc ht (by simpa using hf) hn hk rfl

/-- **All that a turn can do.** -/
theorem turn_cases (w : Work σ ω ι α) (i : ι) (now c : Nat) (s : Flights σ ω α) :
    Turned w i now c s (s.turn w i now c) := by
  unfold turn
  cases hc : s.calls.get? c with
  | none =>
    exact .rest rfl (fun call task h => by simp [hc] at h) (fun call task h => by simp [hc] at h)
  | some call =>
    simp only
    cases hp : call.phase with
    | arriving task =>
      exact join_cases w i now c hc (by rw [hp]; rfl) (fun l t h => by rw [hp] at h; cases h)
    | waiting l task =>
      simp only
      split
      · rename_i hf
        exact .giveUp call task hc (by rw [hp]; rfl) hf rfl
      · rename_i hf
        have hf : call.fired = false := by simpa using hf
        cases hl : s.fate l with
        | flying =>
          refine .rest rfl (fun call' task' h ht => ?_) (fun call' task' h => ?_)
          · rw [hc] at h; cases h
            rw [hp] at ht; cases ht
            exact ⟨l, hp, hf, hl⟩
          · rw [hc] at h; cases h
            rw [hp]; exact fun h => by cases h
        | landed r => exact .serve call task l r hc hp hf hl rfl
        | lost =>
          refine join_cases w i now c hc (by rw [hp]; rfl) (fun l' t h => ?_)
          rw [hp] at h; cases h
          exact hl
    | leading task =>
      exact .work call task s hc (Or.inl ⟨hp, rfl⟩) rfl (fun l t h => by rw [hp] at h; cases h)
    | ended e =>
      refine .rest rfl (fun call' task' h ht => ?_) (fun call' task' h => ?_)
      · rw [hc] at h; cases h; rw [hp] at ht; cases ht
      · rw [hc] at h; cases h; rw [hp]; exact fun h => by cases h
    | dropped =>
      refine .rest rfl (fun call' task' h ht => ?_) (fun call' task' h => ?_)
      · rw [hc] at h; cases h; rw [hp] at ht; cases ht
      · rw [hc] at h; cases h; rw [hp]; exact fun h => by cases h

/-- What a turn of the work comes to: it goes on, or the flight is over. -/
theorem work_cases (w : Work σ ω ι α) (i : ι) (now c : Nat) (call : Call ω α) (task : ω)
    (s : Flights σ ω α) :
    (∃ task', (w.turn i now c call.fired task s.store).1 = .running task' ∧
      s.work w i now c call task =
        { s with store := (w.turn i now c call.fired task s.store).2 }.become c call
          (.leading task')) ∨
    (∃ r, (w.turn i now c call.fired task s.store).1 = .finished r ∧
      s.work w i now c call task =
        ({ s with store := (w.turn i now c call.fired task s.store).2 }.become c call
          (.ended ⟨r, .leader (!(call.fired && !r.isOk)), now⟩)).land call.key c) := by
  unfold work
  cases hp : (w.turn i now c call.fired task s.store).1 with
  | running task' =>
    refine Or.inl ⟨task', rfl, ?_⟩
    simp only [hp]
  | finished r =>
    refine Or.inr ⟨r, rfl, ?_⟩
    simp only [hp]

@[simp] theorem calls_become (s : Flights σ ω α) (c : Nat) (call : Call ω α) (p : Phase ω α) :
    (s.become c call p).calls = s.calls.put c { call with phase := p } := rfl

@[simp] theorem calls_land (s : Flights σ ω α) (key : String) (c : Nat) :
    (s.land key c).calls = s.calls := by
  unfold land; split <;> rfl

@[simp] theorem store_land (s : Flights σ ω α) (key : String) (c : Nat) :
    (s.land key c).store = s.store := by
  unfold land; split <;> rfl

/-- A leader's work says in which phase it is left. -/
theorem calls_work (w : Work σ ω ι α) (i : ι) (now c : Nat) (call : Call ω α) (task : ω)
    (s : Flights σ ω α) : (s.work w i now c call task).calls = s.calls.put c { call with
      phase := (w.turn i now c call.fired task s.store).1.phase call.fired now } := by
  rcases work_cases w i now c call task s with ⟨task', hp, h⟩ | ⟨r, hp, h⟩
  · rw [h, hp]; rfl
  · rw [h, hp, calls_land]; rfl

theorem store_work (w : Work σ ω ι α) (i : ι) (now c : Nat) (call : Call ω α) (task : ω)
    (s : Flights σ ω α) :
    (s.work w i now c call task).store = (w.turn i now c call.fired task s.store).2 := by
  rcases work_cases w i now c call task s with ⟨task', -, h⟩ | ⟨r, -, h⟩
  · rw [h]; rfl
  · rw [h, store_land]; rfl

theorem inFlight_land (s : Flights σ ω α) (key : String) (c : Nat) (k : String) :
    (s.land key c).inFlight.get? k =
      if k = key ∧ s.inFlight.get? key = some c then none else s.inFlight.get? k := by
  unfold land
  by_cases hc : s.inFlight.get? key = some c
  · rw [if_pos hc]
    by_cases hk : k = key
    · subst hk; rw [if_pos ⟨rfl, hc⟩]; exact Table.get?_erase_self _ _
    · rw [if_neg (fun h => hk h.1)]; exact Table.get?_erase_of_ne _ hk
  · rw [if_neg hc, if_neg (fun h => hc h.2)]

/-- The table after a call has left its flight. -/
theorem inFlight_leave (s : Flights σ ω α) (c : Nat) (call : Call ω α) (p : Phase ω α)
    (k : String) : ((s.become c call p).land call.key c).inFlight.get? k =
      if k = call.key ∧ s.inFlight.get? call.key = some c then none else s.inFlight.get? k :=
  inFlight_land (s.become c call p) call.key c k

theorem keys_leave {s : Flights σ ω α} (h : s.inFlight.keys.Nodup) (c : Nat) (call : Call ω α)
    (p : Phase ω α) : ((s.become c call p).land call.key c).inFlight.keys.Nodup := by
  unfold land
  split
  · exact Table.nodup_keys_erase h call.key
  · exact h

theorem Sound.leads_inj {s : Flights σ ω α} (h : s.Sound) {key : String} {c d : Nat}
    (hc : s.Leads key c) (hd : s.Leads key d) : c = d := by
  have h1 := (h.led key c).2 hc
  have h2 := (h.led key d).2 hd
  rw [h1] at h2
  exact Option.some.inj h2

/-- One call changes its phase: `s'` is `s` but for the call `c` and the entry of its key. The key
is on the table if the call leads a flight afterwards, and is taken off if it was its own and the
call does not. -/
structure Put (s s' : Flights σ ω α) (c : Nat) (call call' : Call ω α) : Prop where
  was : s.calls.get? c = some call
  calls : s'.calls = s.calls.put c call'
  key : call'.key = call.key
  lead : ∀ task, call'.phase = .leading task → s'.inFlight.get? call.key = some c ∧
    (s.inFlight.get? call.key = none ∨ s.inFlight.get? call.key = some c)
  left : (∀ task, call'.phase ≠ .leading task) → ∀ k, s'.inFlight.get? k =
    if k = call.key ∧ s.inFlight.get? k = some c then none else s.inFlight.get? k
  rest : ∀ k, k ≠ call.key → s'.inFlight.get? k = s.inFlight.get? k

section Put

variable {s s' : Flights σ ω α} {c : Nat} {call call' : Call ω α}

theorem Put.self (h : Put s s' c call call') : s'.calls.get? c = some call' := by
  rw [h.calls]
  exact Table.get?_put_self _ _ _

theorem Put.other (h : Put s s' c call call') {d : Nat} (hd : d ≠ c) :
    s'.calls.get? d = s.calls.get? d := by
  rw [h.calls]
  exact Table.get?_put_of_ne _ _ hd

/-- The call itself leads a flight exactly when the table says so. -/
theorem Put.led_self (h : Put s s' c call call') (hs : s.Sound) (k : String) :
    s'.inFlight.get? k = some c ↔ s'.Leads k c := by
  constructor
  · intro hk
    by_cases hl : ∃ task, call'.phase = .leading task
    · obtain ⟨task, hl⟩ := hl
      by_cases hkk : k = call.key
      · subst hkk
        exact ⟨call'.fired, task, by rw [h.self, ← h.key, ← hl]⟩
      · rw [h.rest k hkk] at hk
        obtain ⟨f, t, hk⟩ := (hs.led k c).1 hk
        rw [h.was] at hk; cases hk
        exact absurd rfl hkk
    · rw [h.left (fun task ht => hl ⟨task, ht⟩)] at hk
      split at hk
      · cases hk
      · rename_i hn
        obtain ⟨f, t, hk'⟩ := (hs.led k c).1 hk
        rw [h.was] at hk'; cases hk'
        exact absurd ⟨rfl, hk⟩ hn
  · rintro ⟨f, t, hk⟩
    rw [h.self] at hk
    have hcall : call' = ⟨k, f, .leading t⟩ := Option.some.inj hk
    have hl := (h.lead t (by rw [hcall])).1
    rw [← h.key, hcall] at hl
    exact hl

/-- So does every other call, as before. -/
theorem Put.led_other (h : Put s s' c call call') (hs : s.Sound) {d : Nat} (hd : d ≠ c)
    (k : String) : s'.inFlight.get? k = some d ↔ s'.Leads k d := by
  have hL : s'.Leads k d ↔ s.Leads k d := by unfold Leads; rw [h.other hd]
  rw [hL, ← hs.led k d]
  by_cases hl : ∃ task, call'.phase = .leading task
  · obtain ⟨task, hl⟩ := hl
    by_cases hkk : k = call.key
    · subst hkk
      obtain ⟨h1, h2⟩ := h.lead task hl
      rw [h1]
      rcases h2 with h2 | h2
      · rw [h2]; simp [Ne.symm hd]
      · rw [h2]
    · rw [h.rest k hkk]
  · rw [h.left (fun task ht => hl ⟨task, ht⟩)]
    split
    · rename_i hk; rw [hk.2]; simp [Ne.symm hd]
    · rfl

/-- **A change of phase keeps the invariant** if a call that has led a flight does not wait again,
and one that waits does so for a call of its key that has led one. -/
theorem Put.sound (h : Put s s' c call call') (hs : s.Sound) (hkeys : s'.inFlight.keys.Nodup)
    (hpast : call.phase.task? = none → call'.phase.task? = none)
    (hwait : ∀ l task, call'.phase = .waiting l task → ∃ lead, s.calls.get? l = some lead ∧
      lead.key = call.key ∧ lead.phase.task? = none) : s'.Sound := by
  -- a settled call of the old table is settled in the new one
  have hsettled : ∀ l lead, s.calls.get? l = some lead → lead.phase.task? = none →
      ∃ lead', s'.calls.get? l = some lead' ∧ lead'.key = lead.key ∧ lead'.phase.task? = none := by
    intro l lead hl ht
    by_cases hlc : l = c
    · subst hlc
      rw [h.was] at hl; cases hl
      exact ⟨call', h.self, h.key, hpast ht⟩
    · exact ⟨lead, by rw [h.other hlc]; exact hl, rfl, ht⟩
  refine ⟨fun k d => ?_, hkeys, ?_, fun d dcall l task hd hp => ?_⟩
  · by_cases hd : d = c
    · subst hd
      exact h.led_self hs k
    · exact h.led_other hs hd k
  · rw [h.calls]
    exact Table.nodup_keys_put hs.calls c call'
  · by_cases hdc : d = c
    · subst hdc
      rw [h.self] at hd; cases hd
      obtain ⟨lead, hl, hk, ht⟩ := hwait l task hp
      obtain ⟨lead', hl', hk', ht'⟩ := hsettled l lead hl ht
      exact ⟨lead', hl', by rw [hk', hk, h.key], ht'⟩
    · rw [h.other hdc] at hd
      obtain ⟨lead, hl, hk, ht⟩ := hs.boarded d dcall l task hd hp
      obtain ⟨lead', hl', hk', ht'⟩ := hsettled l lead hl ht
      exact ⟨lead', hl', by rw [hk', hk], ht'⟩

/-- The table need not change when a call keeps its lead, or never had one. -/
theorem Put.of_same (hs : s.Sound) (hc : s.calls.get? c = some call)
    (hcalls : s'.calls = s.calls.put c call') (hin : s'.inFlight = s.inFlight)
    (hkey : call'.key = call.key)
    (hlead : ∀ task, call'.phase = .leading task → call.phase = .leading task)
    (hleft : (∀ task, call'.phase ≠ .leading task) → ∀ task, call.phase ≠ .leading task) :
    Put s s' c call call' := by
  refine ⟨hc, hcalls, hkey, fun task hp => ?_, fun hn k => ?_, fun k _ => by rw [hin]⟩
  · have hL : s.inFlight.get? call.key = some c :=
      (hs.led call.key c).2 ⟨call.fired, task, by rw [hc, ← hlead task hp]⟩
    rw [hin]
    exact ⟨hL, Or.inr hL⟩
  · rw [hin]
    split
    · rename_i hk
      obtain ⟨f, t, hL⟩ := (hs.led k c).1 hk.2
      rw [hc] at hL; cases hL
      exact absurd rfl (hleft hn t)
    · rfl

end Put

theorem start_sound {s : Flights σ ω α} (h : s.Sound) {c : Nat} (hc : s.calls.get? c = none)
    (key : String) (fired : Bool) (work : ω) : (s.start c key fired work).Sound := by
  have hself : (s.start c key fired work).calls.get? c = some ⟨key, fired, .arriving work⟩ :=
    Table.get?_put_self _ _ _
  have hother : ∀ d, d ≠ c → (s.start c key fired work).calls.get? d = s.calls.get? d :=
    fun d hd => Table.get?_put_of_ne _ _ hd
  refine ⟨fun k d => ?_, h.keys, Table.nodup_keys_put h.calls _ _, fun d call l task hd hp => ?_⟩
  · show s.inFlight.get? k = some d ↔ _
    rw [h.led k d]
    unfold Leads
    by_cases hd : d = c
    · subst hd; rw [hself, hc]; simp
    · rw [hother d hd]
  · by_cases hdc : d = c
    · subst hdc
      rw [hself] at hd; cases hd; cases hp
    · rw [hother d hdc] at hd
      obtain ⟨lead, hl, hk, ht⟩ := h.boarded d call l task hd hp
      refine ⟨lead, ?_, hk, ht⟩
      rw [hother l (fun hlc => by rw [hlc, hc] at hl; cases hl)]
      exact hl

/-- The work of a leader keeps the invariant, and so does that of a call that has just been
given its flight. -/
theorem work_sound (w : Work σ ω ι α) (i : ι) (now c : Nat) {s s₁ : Flights σ ω α} (h : s.Sound)
    {call : Call ω α} {task : ω} (hc : s.calls.get? c = some call)
    (hl : (call.phase = .leading task ∧ s₁ = s) ∨
      (call.phase.task? = some task ∧ s.inFlight.get? call.key = none ∧
        s₁ = { s with inFlight := s.inFlight.put call.key c })) :
    (s₁.work w i now c call task).Sound := by
  have hcalls : s₁.calls = s.calls := by rcases hl with ⟨-, rfl⟩ | ⟨-, -, rfl⟩ <;> rfl
  have hkeys : s₁.inFlight.keys.Nodup := by
    rcases hl with ⟨-, rfl⟩ | ⟨-, -, rfl⟩
    · exact h.keys
    · exact Table.nodup_keys_put h.keys _ _
  -- the flight is on the table under the name of the call before its work takes a turn
  have hown : s₁.inFlight.get? call.key = some c ∧
      (s.inFlight.get? call.key = none ∨ s.inFlight.get? call.key = some c) := by
    rcases hl with ⟨hp, rfl⟩ | ⟨-, hn, rfl⟩
    · have hL : s₁.inFlight.get? call.key = some c :=
        (h.led call.key c).2 ⟨call.fired, task, by rw [hc, ← hp]⟩
      exact ⟨hL, Or.inr hL⟩
    · exact ⟨Table.get?_put_self _ _ _, Or.inl hn⟩
  have hrest : ∀ k, k ≠ call.key → s₁.inFlight.get? k = s.inFlight.get? k := by
    intro k hk
    rcases hl with ⟨-, rfl⟩ | ⟨-, -, rfl⟩
    · rfl
    · exact Table.get?_put_of_ne _ _ hk
  rcases work_cases w i now c call task s₁ with ⟨task', -, hw⟩ | ⟨r, -, hw⟩
  · have hput : Put s (s₁.work w i now c call task) c call
        { call with phase := .leading task' } := by
      refine ⟨hc, by rw [hw, ← hcalls]; rfl, rfl, fun _ _ => by rw [hw]; exact hown, ?_, ?_⟩
      · intro hn; exact absurd rfl (hn task')
      · intro k hk; rw [hw]; exact hrest k hk
    refine hput.sound h (by rw [hw]; exact hkeys) (fun _ => rfl) ?_
    intro l t ht; cases ht
  · have hland : ∀ k, (s₁.work w i now c call task).inFlight.get? k =
        if k = call.key then none else s.inFlight.get? k := by
      intro k
      rw [hw, inFlight_leave]
      by_cases hk : k = call.key
      · rw [if_pos ⟨hk, hown.1⟩, if_pos hk]
      · rw [if_neg (fun hh => hk hh.1), if_neg hk]
        exact hrest k hk
    have hput : Put s (s₁.work w i now c call task) c call { call with
        phase := .ended ⟨r, .leader (!(call.fired && !r.isOk)), now⟩ } := by
      refine ⟨hc, by rw [hw, calls_land, ← hcalls]; rfl, rfl, ?_, ?_, ?_⟩
      · intro t ht; cases ht
      · intro _ k
        rw [hland]
        by_cases hk : k = call.key
        · subst hk
          rcases hown.2 with ho | ho <;> rw [ho] <;> simp
        · rw [if_neg hk, if_neg (fun hh => hk hh.1)]
      · intro k hk
        rw [hland, if_neg hk]
    refine hput.sound h (by rw [hw]; exact keys_leave (by exact hkeys) _ _ _) (fun _ => rfl) ?_
    intro l t ht; cases ht

/-- **A turn keeps the invariant.** -/
theorem turn_sound (w : Work σ ω ι α) (i : ι) (now c : Nat) {s : Flights σ ω α} (h : s.Sound) :
    (s.turn w i now c).Sound := by
  -- a call that has not begun its work leads no flight before the turn and none after it
  have hput : ∀ {s' : Flights σ ω α} {call : Call ω α} {task : ω} {p : Phase ω α},
      s.calls.get? c = some call → call.phase.task? = some task →
      s'.calls = s.calls.put c { call with phase := p } → s'.inFlight = s.inFlight →
      (∀ t, p ≠ .leading t) → Put s s' c call { call with phase := p } := by
    intro s' call task p hc ht hcalls hin hn
    refine .of_same h hc hcalls hin rfl (fun t hp => absurd hp (hn t)) (fun _ t hp => ?_)
    rw [hp] at ht; cases ht
  cases turn_cases w i now c s with
  | rest hs => rw [hs]; exact h
  | giveUp call task hc ht _ hs =>
    rw [hs]
    refine Put.sound (hput hc ht rfl rfl (fun t hp => by cases hp)) h h.keys (fun _ => rfl) ?_
    intro l t hp; cases hp
  | wait call task l hc ht _ _ hl hs =>
    rw [hs]
    refine Put.sound (hput hc ht rfl rfl (fun t hp => by cases hp)) h h.keys ?_ ?_
    · intro hn; rw [ht] at hn; cases hn
    · intro l' t hp
      cases hp
      obtain ⟨f, t, hL⟩ := (h.led call.key l).1 hl
      exact ⟨_, hL, rfl, rfl⟩
  | serve call task l r hc hp _ _ hs =>
    have ht : call.phase.task? = some task := by rw [hp]; rfl
    rw [hs]
    refine Put.sound (hput hc ht rfl rfl (fun t hp => by cases hp)) h h.keys (fun _ => rfl) ?_
    intro l t hp; cases hp
  | work call task s₁ hc hl hs => rw [hs]; exact work_sound w i now c h hc hl

theorem fire_sound {s : Flights σ ω α} (h : s.Sound) (c : Nat) : (s.fire c).Sound := by
  unfold fire
  cases hc : s.calls.get? c with
  | none => exact h
  | some call =>
    have hput : Put s { s with calls := s.calls.put c { call with fired := true } } c call
        { call with fired := true } :=
      .of_same h hc rfl rfl rfl (fun _ hp => hp) (fun hn => hn)
    exact hput.sound h h.keys (fun ht => ht) (fun l task hp => h.boarded c call l task hc hp)

theorem drop_cases (s : Flights σ ω α) (c : Nat) : s.drop c = s ∨ ∃ call,
    s.calls.get? c = some call ∧ (∀ e, call.phase ≠ .ended e) ∧
      s.drop c = (s.become c call .dropped).land call.key c := by
  unfold drop
  cases hc : s.calls.get? c with
  | none => exact Or.inl rfl
  | some call =>
    cases hp : call.phase with
    | ended e => left; simp [hp]
    | _ => right; exact ⟨call, rfl, by simp [hp], by simp [hp]⟩

/-- **A drop keeps the invariant.** -/
theorem drop_sound {s : Flights σ ω α} (h : s.Sound) (c : Nat) : (s.drop c).Sound := by
  rcases drop_cases s c with hs | ⟨call, hc, -, hs⟩
  · rw [hs]; exact h
  rw [hs]
  have hput : Put s ((s.become c call .dropped).land call.key c) c call
      { call with phase := .dropped } := by
    refine ⟨hc, calls_land _ _ _, rfl, ?_, ?_, ?_⟩
    · intro t ht; cases ht
    · intro _ k
      rw [inFlight_leave]
      by_cases hk : k = call.key
      · subst hk; rfl
      · rw [if_neg (fun hh => hk hh.1), if_neg (fun hh => hk hh.1)]
    · intro k hk
      rw [inFlight_leave, if_neg (fun hh => hk hh.1)]
  refine hput.sound h (keys_leave h.keys _ _ _) (fun _ => rfl) ?_
  intro l t ht; cases ht

end Flights

end RegistryLookup
