import RegistryLookup.Proofs.Caller.Step
import RegistryLookup.Proofs.Flight.Forward

/-!
# A caller and its flights

`Caller.Sound` ties the calls of a caller to those among its flights: a call that has not got its
permit is not there, and one that is there carries the load of its call. Every event keeps it.

* `turn_effect`: what a turn does to the store and to the calls that lead a flight.
-/

namespace RegistryLookup

namespace Flights

open Flight

variable {σ ω α : Type}

/-- A call leads a flight and is at this point of its work. -/
def LeadsWith (s : Flights σ ω α) (key : String) (c : Nat) (task : ω) : Prop :=
  ∃ fired, s.calls.get? c = some ⟨key, fired, .leading task⟩

theorem LeadsWith.leads {s : Flights σ ω α} {key : String} {c : Nat} {task : ω}
    (h : s.LeadsWith key c task) : s.Leads key c := by
  obtain ⟨fired, hc⟩ := h
  exact ⟨fired, task, hc⟩

/-- The store is no part of the invariant. -/
theorem Sound.of_eq {s s' : Flights σ ω α} (h : s.Sound) (hcalls : s'.calls = s.calls)
    (hin : s'.inFlight = s.inFlight) : s'.Sound where
  led := fun key c => by rw [hin, h.led key c]; unfold Leads; rw [hcalls]
  keys := by rw [hin]; exact h.keys
  calls := by rw [hcalls]; exact h.calls
  boarded := by rw [hcalls]; exact h.boarded

end Flights

namespace Caller

open Flight

variable {α : Type}

/-- A call among the flights carries a load: it has not begun, or it makes attempts. -/
structure Carries (key : String) (ttl : Nat) (fcall : Flight.Call (Load α) α) : Prop where
  sameKey : fcall.key = key
  waits : ∀ load, fcall.phase.task? = some load → load = { key := key, ttl := ttl }
  leads : ∀ load, fcall.phase = .leading load →
    ∃ loop, load = { key := key, ttl := ttl, stage := .trying loop }

theorem attempt_running {policy : Retry.Policy} {label : String} {answers : Answers α}
    {now c : Nat} {fired : Bool} {load load' : Load α} {loop : Retry.Loop α} {s : Store α}
    (h : (attempt policy label answers now c fired load loop s).1 = .running load') :
    ∃ loop', load' = { load with stage := .trying loop' } := by
  unfold attempt at h
  simp only at h
  split at h
  · rename_i loop' _
    cases h
    exact ⟨loop', rfl⟩
  · cases h
  · cases h

theorem loadWork_running {policy : Retry.Policy} {label : String} {answers : Answers α}
    {now c : Nat} {fired : Bool} {load load' : Load α} {s : Store α}
    (h : ((loadWork policy label).turn answers now c fired load s).1 = .running load') :
    ∃ loop, load' = { load with stage := .trying loop } := by
  unfold loadWork at h
  simp only at h
  split at h
  · split at h
    · cases h
    · exact attempt_running h
  · exact attempt_running h

/-- A turn of the work leaves a load that makes attempts, or none. -/
theorem carries_phase {policy : Retry.Policy} {label : String} {answers : Answers α} {now c : Nat}
    {fired : Bool} {key : String} {ttl : Nat} {load : Load α} {s : Store α}
    (hk : load.key = key) (ht : load.ttl = ttl) :
    Carries key ttl (⟨key, fired,
      ((loadWork policy label).turn answers now c fired load s).1.phase fired now⟩ :
        Flight.Call (Load α) α) := by
  cases hp : ((loadWork policy label).turn answers now c fired load s).1 with
  | running load' =>
    obtain ⟨loop, hload⟩ := loadWork_running hp
    refine ⟨rfl, fun _ h => (by cases h), fun l h => ?_⟩
    cases h
    exact ⟨loop, by rw [hload, hk, ht]⟩
  | finished r => exact ⟨rfl, fun _ h => (by cases h), fun _ h => by cases h⟩

/-- What a turn among the flights does with its call. -/
inductive FlightEffect (policy : Retry.Policy) (label : String) (answers : Answers α)
    (now c : Nat) (key : String) (ttl : Nat) (F : Flights (Store α) (Load α) α) : Prop
  /-- The store is as before, and the call leads a flight only if it did and stands as before. -/
  | quiet (hstore : (F.turn (loadWork policy label) answers now c).store = F.store)
      (hcall : (F.turn (loadWork policy label) answers now c).calls = F.calls ∨ ∃ fcall,
        (F.turn (loadWork policy label) answers now c).calls.get? c = some fcall ∧
        Carries key ttl fcall ∧ (∀ load, fcall.phase ≠ .leading load) ∧
        ∀ load, ¬ F.LeadsWith key c load)
  /-- The work of the call takes a turn. -/
  | worked (fired : Bool) (load : Load α) (hk : load.key = key) (ht : load.ttl = ttl)
      (hl : (load.stage = .lookup ∧ ∀ d, ¬ F.Leads key d) ∨
        (F.LeadsWith key c load ∧ ∃ loop, load.stage = .trying loop))
      (hstore : (F.turn (loadWork policy label) answers now c).store =
        ((loadWork policy label).turn answers now c fired load F.store).2)
      (hcall : (F.turn (loadWork policy label) answers now c).calls.get? c = some ⟨key, fired,
        ((loadWork policy label).turn answers now c fired load F.store).1.phase fired now⟩)

theorem flight_effect (policy : Retry.Policy) (label : String) (answers : Answers α) (now c : Nat)
    {F : Flights (Store α) (Load α) α} (h : F.Sound) {fcall : Flight.Call (Load α) α}
    (hc : F.calls.get? c = some fcall) {key : String} {ttl : Nat} (hcar : Carries key ttl fcall) :
    FlightEffect policy label answers now c key ttl F := by
  have hkey := hcar.sameKey
  -- a call that has not begun its work, and does not begin it now
  have hquiet : ∀ (p : Phase (Load α) α) {load}, fcall.phase.task? = some load →
      (F.turn (loadWork policy label) answers now c).store = F.store →
      (F.turn (loadWork policy label) answers now c).calls =
        F.calls.put c { fcall with phase := p } →
      (∀ load', p.task? = some load' → load' = load) → (∀ load, p ≠ .leading load) →
      FlightEffect policy label answers now c key ttl F := by
    intro p load ht hstore hcalls hwait hlead
    refine .quiet hstore (Or.inr ⟨{ fcall with phase := p }, ?_, ⟨hkey, ?_, ?_⟩, hlead, ?_⟩)
    · rw [hcalls]; exact Table.get?_put_self _ _ _
    · intro load' h
      rw [hwait load' h]
      exact hcar.waits load ht
    · intro load' h
      exact absurd h (hlead load')
    · rintro load' ⟨fired, hL⟩
      rw [hc] at hL; cases hL; cases ht
  cases Flights.turn_cases (loadWork policy label) answers now c F with
  | rest hs => exact .quiet (by rw [hs]) (Or.inl (by rw [hs]))
  | giveUp fcall₁ load hc₁ ht _ hs =>
    rw [hc] at hc₁; cases hc₁
    exact hquiet (.ended ⟨.error .cancelled, .gaveUp, now⟩) ht (by rw [hs]; rfl) (by rw [hs]; rfl)
      (fun _ h => by cases h) (fun _ h => by cases h)
  | wait fcall₁ load l hc₁ ht _ _ _ hs =>
    rw [hc] at hc₁; cases hc₁
    exact hquiet (.waiting l load) ht (by rw [hs]; rfl) (by rw [hs]; rfl)
      (fun _ h => by cases h; rfl) (fun _ h => by cases h)
  | serve fcall₁ load l r hc₁ hp _ _ hs =>
    rw [hc] at hc₁; cases hc₁
    have ht : fcall.phase.task? = some load := by rw [hp]; rfl
    exact hquiet (.ended ⟨r, .served l, now⟩) ht (by rw [hs]; rfl) (by rw [hs]; rfl)
      (fun _ h => by cases h) (fun _ h => by cases h)
  | work fcall₁ load F₁ hc₁ hl hs =>
    rw [hc] at hc₁; cases hc₁
    have hstore : F₁.store = F.store := by rcases hl with ⟨-, rfl⟩ | ⟨-, -, rfl⟩ <;> rfl
    have hcalls : F₁.calls = F.calls := by rcases hl with ⟨-, rfl⟩ | ⟨-, -, rfl⟩ <;> rfl
    have hself : (F.turn (loadWork policy label) answers now c).calls.get? c =
        some ⟨key, fcall.fired, ((loadWork policy label).turn answers now c fcall.fired load
          F.store).1.phase fcall.fired now⟩ := by
      have hw := Flights.calls_work (loadWork policy label) answers now c fcall load F₁
      rw [hs, hw, hcalls, hstore, Table.get?_put_self, hkey]
    have hst : (F.turn (loadWork policy label) answers now c).store =
        ((loadWork policy label).turn answers now c fcall.fired load F.store).2 := by
      rw [hs, Flights.store_work, hstore]
    rcases hl with ⟨hp, -⟩ | ⟨ht, hn, -⟩
    · obtain ⟨loop, hload⟩ := hcar.leads load hp
      refine .worked fcall.fired load (by rw [hload]) (by rw [hload])
        (Or.inr ⟨?_, loop, by rw [hload]⟩) hst hself
      exact ⟨fcall.fired, by rw [hc, ← hp, ← hkey]⟩
    · have hload := hcar.waits load ht
      refine .worked fcall.fired load (by rw [hload]) (by rw [hload]) (Or.inl ⟨by rw [hload], ?_⟩)
        hst hself
      intro d hd
      have hon := (h.led key d).2 hd
      rw [← hkey, hn] at hon
      cases hon

/-- A call that has not got its permit. -/
def Stage.isAshore : Stage α → Bool
  | .arriving _ => true
  | .queued _ => true
  | _ => false

/-- The calls of a caller and those among its flights. -/
structure Sound (s : Caller α) : Prop where
  flights : s.flights.Sound
  carried : ∀ c fcall, s.flights.calls.get? c = some fcall →
    ∃ call, s.calls.get? c = some call ∧ Carries call.key call.ttl fcall
  ashore : ∀ c call, s.calls.get? c = some call → call.stage.isAshore = true →
    s.flights.calls.get? c = none

/-- The flights in which a call takes its turn: a call that has just got its permit comes in. -/
inductive Boarding (s : Caller α) (c : Nat) (call : Call α) : Flights (Store α) (Load α) α → Prop
  | there (fcall : Flight.Call (Load α) α) (hc : s.flights.calls.get? c = some fcall) :
      Boarding s c call s.flights
  | comes (hc : s.flights.calls.get? c = none) :
      Boarding s c call (s.flights.start c call.key false { key := call.key, ttl := call.ttl })

theorem flights_proceed (answers : Answers α) (now c : Nat) (call : Call α) (s : Caller α) :
    (s.proceed answers now c call).flights =
      s.flights.turn (loadWork s.policy s.name) answers now c := by
  rcases proceed_cases answers now c call s with ⟨-, h⟩ | ⟨e, -, h⟩
  · rw [h]
  · rw [h]; rfl

/-- A call that had its permit before a turn has it still. -/
theorem ashore_proceed {answers : Answers α} {now c : Nat} {call : Call α} {s : Caller α}
    (hc : ∀ call, s.calls.get? c = some call → call.stage.isAshore = false) {call' : Call α}
    (hc' : (s.proceed answers now c call).calls.get? c = some call') :
    call'.stage.isAshore = false := by
  rcases proceed_cases answers now c call s with ⟨-, h⟩ | ⟨e, -, h⟩
  · rw [h] at hc'
    exact hc call' hc'
  · rw [h, calls_become, Table.get?_put_self] at hc'
    cases hc'; rfl

/-- A turn takes place among the flights, for a call that has its permit afterwards, or it leaves
them alone. -/
theorem flights_turn {s : Caller α} (h : s.Sound) (answers : Answers α) (now c : Nat) :
    ((s.turn answers now c).flights = s.flights ∧
      ∀ call', (s.turn answers now c).calls.get? c = some call' → call'.stage.isAshore = true →
        ∃ call, s.calls.get? c = some call ∧ call.stage.isAshore = true) ∨
    ∃ call F, s.calls.get? c = some call ∧ Boarding s c call F ∧
      (s.turn answers now c).flights = F.turn (loadWork s.policy s.name) answers now c ∧
      ∀ call', (s.turn answers now c).calls.get? c = some call' → call'.stage.isAshore = false := by
  have hended : ∀ {s₁ : Caller α} {call call' : Call α} {r : Except Failure α} {b : Prop},
      (s₁.become c call (.ended r now)).calls.get? c = some call' →
      call'.stage.isAshore = true → b := by
    intro s₁ call call' r b hc' ha
    rw [calls_become, Table.get?_put_self] at hc'
    cases hc'; cases ha
  have hboard : ∀ {call : Call α} {s₁ : Caller α} {call' : Call α},
      (s₁.board answers now c call false).calls.get? c = some call' →
      call'.stage.isAshore = false := by
    intro call s₁ call' hc'
    refine ashore_proceed (fun call₁ hc₁ => ?_) hc'
    rw [calls_become, Table.get?_put_self] at hc₁
    cases hc₁; rfl
  cases turn_cases answers now c s with
  | rest hs => exact Or.inl ⟨by rw [hs], fun call' hc' ha => ⟨call', by rw [← hs]; exact hc', ha⟩⟩
  | turnedAway call fired p _ _ _ _ hs =>
    exact Or.inl ⟨by rw [hs]; rfl, fun call' hc' ha => by rw [hs] at hc'; exact hended hc' ha⟩
  | refused call fired _ _ _ _ hs =>
    exact Or.inl ⟨by rw [hs]; rfl, fun call' hc' ha => by rw [hs] at hc'; exact hended hc' ha⟩
  | cancelled call _ _ _ _ hs =>
    exact Or.inl ⟨by rw [hs]; rfl, fun call' hc' ha => by rw [hs] at hc'; exact hended hc' ha⟩
  | queues call hc hstage _ _ hs =>
    exact Or.inl ⟨by rw [hs]; rfl, fun _ _ _ => ⟨call, hc, by rw [hstage]; rfl⟩⟩
  | leaves call _ _ hs =>
    exact Or.inl ⟨by rw [hs]; rfl, fun call' hc' ha => by rw [hs] at hc'; exact hended hc' ha⟩
  | boards call hc hstage _ _ hs =>
    exact Or.inr ⟨call, _, hc, .comes (h.ashore c call hc (by rw [hstage]; rfl)),
      by rw [hs]; exact flights_proceed _ _ _ _ _,
      fun call' hc' => by rw [hs] at hc'; exact hboard hc'⟩
  | claims call hc hstage _ hs =>
    exact Or.inr ⟨call, _, hc, .comes (h.ashore c call hc (by rw [hstage]; rfl)),
      by rw [hs]; exact flights_proceed _ _ _ _ _,
      fun call' hc' => by rw [hs] at hc'; exact hboard hc'⟩
  | proceeds call hc hstage hs =>
    have hadm : ∀ call', (s.turn answers now c).calls.get? c = some call' →
        call'.stage.isAshore = false := by
      intro call' hc'
      rw [hs] at hc'
      refine ashore_proceed (fun call₁ hc₁ => ?_) hc'
      rw [hc] at hc₁; cases hc₁
      rw [hstage]; rfl
    cases hf : s.flights.calls.get? c with
    | some fcall =>
      exact Or.inr ⟨call, _, hc, .there fcall hf, by rw [hs]; exact flights_proceed _ _ _ _ _, hadm⟩
    | none =>
      refine Or.inl ⟨?_, fun call' hc' ha => ?_⟩
      · rw [hs, flights_proceed]
        unfold Flights.turn
        rw [hf]
      · rw [hadm call' hc'] at ha; cases ha

theorem Boarding.sound {s : Caller α} (h : s.Sound) {c : Nat} {call : Call α}
    {F : Flights (Store α) (Load α) α} (hb : Boarding s c call F) : F.Sound := by
  cases hb with
  | there => exact h.flights
  | comes hc => exact Flights.start_sound h.flights hc _ _ _

theorem Boarding.carries {s : Caller α} (h : s.Sound) {c : Nat} {call : Call α}
    {F : Flights (Store α) (Load α) α} (hb : Boarding s c call F)
    (hc : s.calls.get? c = some call) :
    ∃ fcall, F.calls.get? c = some fcall ∧ Carries call.key call.ttl fcall := by
  cases hb with
  | there fcall hf =>
    obtain ⟨call', hc', hcar⟩ := h.carried c fcall hf
    rw [hc] at hc'; cases hc'
    exact ⟨fcall, hf, hcar⟩
  | comes =>
    refine ⟨_, Table.get?_put_self _ _ _, rfl, fun load h => ?_, fun load h => by cases h⟩
    cases h
    rfl

theorem Boarding.store {s : Caller α} {c : Nat} {call : Call α}
    {F : Flights (Store α) (Load α) α} (hb : Boarding s c call F) :
    F.store = s.flights.store := by
  cases hb <;> rfl

theorem Boarding.of_ne {s : Caller α} {c d : Nat} {call : Call α}
    {F : Flights (Store α) (Load α) α} (hb : Boarding s c call F) (hd : d ≠ c) :
    F.calls.get? d = s.flights.calls.get? d := by
  cases hb with
  | there => rfl
  | comes => exact Table.get?_put_of_ne _ _ hd

theorem Boarding.leadsWith {s : Caller α} {c d : Nat} {call : Call α}
    {F : Flights (Store α) (Load α) α} (hb : Boarding s c call F) (key : String) (load : Load α) :
    F.LeadsWith key d load ↔ s.flights.LeadsWith key d load := by
  cases hb with
  | there => rfl
  | comes hn =>
    unfold Flights.LeadsWith
    by_cases hd : d = c
    · subst hd
      have hself : (s.flights.start d call.key false
          ({ key := call.key, ttl := call.ttl } : Load α)).calls.get? d =
            some ⟨call.key, false, .arriving { key := call.key, ttl := call.ttl }⟩ :=
        Table.get?_put_self _ _ _
      rw [hself, hn]
      simp
    · have hother : (s.flights.start c call.key false
          ({ key := call.key, ttl := call.ttl } : Load α)).calls.get? d =
            s.flights.calls.get? d := Table.get?_put_of_ne _ _ hd
      rw [hother]

/-- What a turn does to the store and to the calls that lead a flight. -/
inductive Effect (answers : Answers α) (now c : Nat) (s s' : Caller α) : Prop
  /-- The store is as before, and so are the leaders. -/
  | quiet (hstore : s'.flights.store = s.flights.store)
      (hleads : ∀ key d load, s'.flights.LeadsWith key d load ↔ s.flights.LeadsWith key d load)
  /-- The work of the call takes a turn; nobody else leads a flight for its key. -/
  | worked (call : Call α) (fired : Bool) (load : Load α) (hc : s.calls.get? c = some call)
      (hk : load.key = call.key) (ht : load.ttl = call.ttl)
      (hl : (load.stage = .lookup ∧ ∀ d, ¬ s.flights.Leads call.key d) ∨
        (s.flights.LeadsWith call.key c load ∧ ∃ loop, load.stage = .trying loop))
      (hstore : s'.flights.store =
        ((loadWork s.policy s.name).turn answers now c fired load s.flights.store).2)
      (hself : ∀ key load', s'.flights.LeadsWith key c load' ↔ key = call.key ∧
        ((loadWork s.policy s.name).turn answers now c fired load s.flights.store).1 =
          .running load')
      (hne : ∀ key d load', d ≠ c →
        (s'.flights.LeadsWith key d load' ↔ s.flights.LeadsWith key d load'))

/-- **What a turn does to the store and to the leaders.** -/
theorem turn_effect {s : Caller α} (h : s.Sound) (answers : Answers α) (now c : Nat) :
    Effect answers now c s (s.turn answers now c) := by
  -- a call without a permit does nothing among the flights
  rcases flights_turn h answers now c with ⟨hsame, -⟩ | ⟨call, F, hc, hb, hF, -⟩
  · exact .quiet (by rw [hsame]) (fun key d load => by rw [hsame])
  obtain ⟨fcall, hfc, hcar⟩ := hb.carries h hc
  have hne : ∀ key d load, d ≠ c → ((s.turn answers now c).flights.LeadsWith key d load ↔
      s.flights.LeadsWith key d load) := by
    intro key d load hd
    unfold Flights.LeadsWith
    rw [hF, Flights.turn_of_ne _ _ _ _ hd, hb.of_ne hd]
  -- what happens among the flights in which the call takes its turn
  cases flight_effect s.policy s.name answers now c (hb.sound h) hfc hcar with
  | quiet hstore hcall =>
    refine .quiet (by rw [hF, hstore, hb.store]) (fun key d load => ?_)
    by_cases hd : d = c
    swap
    · exact hne key d load hd
    subst hd
    rw [← hb.leadsWith]
    rcases hcall with hsame | ⟨fcall', hself, hcar', hno, hnot⟩
    · unfold Flights.LeadsWith
      rw [hF, hsame]
    · constructor
      · rintro ⟨fired, hL⟩
        rw [hF, hself] at hL
        cases hL
        exact absurd rfl (hno load)
      · rintro ⟨fired, hL⟩
        rw [hfc] at hL
        cases hL
        have hkey : key = call.key := hcar.sameKey
        subst hkey
        exact absurd ⟨fired, hfc⟩ (hnot load)
  | worked fired load hk ht hl hstore hcall =>
    rw [hb.store] at hstore hcall
    refine .worked call fired load hc hk ht ?_ (by rw [hF, hstore]) ?_ hne
    · rcases hl with ⟨hlookup, hfree⟩ | ⟨hL, htry⟩
      · refine Or.inl ⟨hlookup, fun d hd => ?_⟩
        obtain ⟨f, t, hd⟩ := hd
        exact hfree d ((hb.leadsWith call.key t).2 ⟨f, hd⟩).leads
      · exact Or.inr ⟨(hb.leadsWith call.key load).1 hL, htry⟩
    · intro key load'
      unfold Flights.LeadsWith
      rw [hF, hcall]
      cases hp : ((loadWork s.policy s.name).turn answers now c fired load s.flights.store).1 with
      | running load₁ =>
        constructor
        · rintro ⟨f, hL⟩
          cases hL
          exact ⟨rfl, rfl⟩
        · rintro ⟨rfl, hL⟩
          cases hL
          exact ⟨fired, rfl⟩
      | finished r =>
        constructor
        · rintro ⟨f, hL⟩
          cases hL
        · rintro ⟨-, hL⟩
          cases hL

theorem turn_sound {s : Caller α} (h : s.Sound) (answers : Answers α) (now c : Nat) :
    (s.turn answers now c).Sound := by
  obtain ⟨hother, hself⟩ := calls_turn answers now c s
  rcases flights_turn h answers now c with ⟨hsame, hashore⟩ | ⟨call, F, hc, hb, hF, hadm⟩
  · refine ⟨by rw [hsame]; exact h.flights, fun d fcall hd => ?_, fun d dcall hd ha => ?_⟩
    · rw [hsame] at hd
      obtain ⟨dcall, hdc, hcar⟩ := h.carried d fcall hd
      by_cases hdc' : d = c
      · subst hdc'
        obtain ⟨stage, hs, -⟩ := hself dcall hdc
        exact ⟨_, hs, hcar⟩
      · exact ⟨dcall, by rw [hother d hdc']; exact hdc, hcar⟩
    · rw [hsame]
      by_cases hdc : d = c
      · subst hdc
        obtain ⟨call, hc, ha'⟩ := hashore dcall hd ha
        exact h.ashore d call hc ha'
      · rw [hother d hdc] at hd
        exact h.ashore d dcall hd ha
  · obtain ⟨fcall, hfc, hcar⟩ := hb.carries h hc
    refine ⟨?_, fun d dfcall hd => ?_, fun d dcall hd ha => ?_⟩
    · rw [hF]
      exact Flights.turn_sound _ answers now c (hb.sound h)
    · by_cases hdc : d = c
      · subst hdc
        obtain ⟨stage, hs, -⟩ := hself call hc
        refine ⟨_, hs, ?_⟩
        rw [hF] at hd
        cases flight_effect s.policy s.name answers now d (hb.sound h) hfc hcar with
        | quiet _ hcall =>
          rcases hcall with hsame | ⟨fcall', hself', hcar', -⟩
          · rw [hsame, hfc] at hd; cases hd
            exact hcar
          · rw [hself'] at hd; cases hd
            exact hcar'
        | worked fired load hk ht _ _ hcall =>
          rw [hcall] at hd; cases hd
          exact carries_phase hk ht
      · rw [hF, Flights.turn_of_ne _ _ _ _ hdc, hb.of_ne hdc] at hd
        obtain ⟨dcall, hdcall, hcar'⟩ := h.carried d dfcall hd
        exact ⟨dcall, by rw [hother d hdc]; exact hdcall, hcar'⟩
    · by_cases hdc : d = c
      · subst hdc
        rw [hadm dcall hd] at ha; cases ha
      · rw [hother d hdc] at hd
        rw [hF, Flights.turn_of_ne _ _ _ _ hdc, hb.of_ne hdc]
        exact h.ashore d dcall hd ha

/-- One call changes its stage, and its own call among the flights changes with it. -/
theorem Sound.put {s s' : Caller α} (h : s.Sound) {c : Nat} {call : Call α} {stage : Stage α}
    (hc : s.calls.get? c = some call)
    (hcalls : s'.calls = s.calls.put c { call with stage := stage })
    (hflights : s'.flights.Sound)
    (hne : ∀ d, d ≠ c → s'.flights.calls.get? d = s.flights.calls.get? d)
    (hself : ∀ fcall, s'.flights.calls.get? c = some fcall → Carries call.key call.ttl fcall)
    (hashore : stage.isAshore = true → s'.flights.calls.get? c = none) : s'.Sound := by
  refine ⟨hflights, fun d fcall hd => ?_, fun d dcall hd ha => ?_⟩
  · rw [hcalls]
    by_cases hdc : d = c
    · subst hdc
      exact ⟨_, Table.get?_put_self _ _ _, hself fcall hd⟩
    · rw [hne d hdc] at hd
      rw [Table.get?_put_of_ne _ _ hdc]
      exact h.carried d fcall hd
  · rw [hcalls] at hd
    by_cases hdc : d = c
    · subst hdc
      rw [Table.get?_put_self] at hd; cases hd
      exact hashore ha
    · rw [Table.get?_put_of_ne _ _ hdc] at hd
      rw [hne d hdc]
      exact h.ashore d dcall hd ha

/-- What a call carries if it is there. -/
theorem Sound.carries {s : Caller α} (h : s.Sound) {c : Nat} {call : Call α}
    (hc : s.calls.get? c = some call) {fcall : Flight.Call (Load α) α}
    (hf : s.flights.calls.get? c = some fcall) : Carries call.key call.ttl fcall := by
  obtain ⟨call', hc', hcar⟩ := h.carried c fcall hf
  rw [hc] at hc'; cases hc'
  exact hcar

theorem fire_sound {s : Caller α} (h : s.Sound) (c : Nat) : (s.fire c).Sound := by
  rcases fire_cases s c with hs | ⟨call, fired, hc, ⟨hstage, hs⟩ | ⟨hstage, hs⟩⟩ |
    ⟨call, hc, hstage, hs⟩
  · rw [hs]; exact h
  · rw [hs]
    exact h.put hc rfl h.flights (fun _ _ => rfl) (fun fcall hf => h.carries hc hf)
      (fun _ => h.ashore c call hc (by rw [hstage]; rfl))
  · rw [hs]
    exact h.put hc rfl h.flights (fun _ _ => rfl) (fun fcall hf => h.carries hc hf)
      (fun _ => h.ashore c call hc (by rw [hstage]; rfl))
  · rw [hs]
    refine ⟨Flights.fire_sound h.flights c, fun d fcall hd => ?_, fun d dcall hd ha => ?_⟩
    · rcases Flights.fire_cases s.flights c with ⟨hf, -⟩ | ⟨fcall₀, hfc, hf⟩
      · rw [hf] at hd; exact h.carried d fcall hd
      · rw [hf] at hd
        by_cases hdc : d = c
        · subst hdc
          rw [Table.get?_put_self] at hd; cases hd
          obtain ⟨hk, hw, hl⟩ := h.carries hc hfc
          exact ⟨call, hc, hk, hw, hl⟩
        · rw [Table.get?_put_of_ne _ _ hdc] at hd
          exact h.carried d fcall hd
    · by_cases hdc : d = c
      · subst hdc
        rw [show s.calls.get? d = some dcall from hd] at hc; cases hc
        rw [hstage] at ha; cases ha
      · rw [Flights.fire_of_ne s.flights hdc]
        exact h.ashore d dcall hd ha

theorem drop_sound {s : Caller α} (h : s.Sound) (c : Nat) : (s.drop c).Sound := by
  rcases drop_cases s c with hs | ⟨call, hc, ⟨fired, p, -, -, hs⟩ | ⟨hstage, hs⟩⟩
  · rw [hs]; exact h
  · rw [hs]
    exact h.put hc rfl h.flights (fun _ _ => rfl) (fun fcall hf => h.carries hc hf)
      (fun ha => by cases ha)
  · rw [hs]
    refine h.put hc rfl (Flights.drop_sound h.flights c)
      (fun d hd => Flights.drop_of_ne s.flights hd) (fun fcall hf => ?_) (fun ha => by cases ha)
    have hf : (s.flights.drop c).calls.get? c = some fcall := hf
    rcases Flights.drop_cases s.flights c with hd | ⟨fcall₀, hfc, -, hd⟩
    · rw [hd] at hf; exact h.carries hc hf
    · rw [hd, Flights.calls_land, Flights.calls_become, Table.get?_put_self] at hf
      cases hf
      exact ⟨(h.carries hc hfc).sameKey, fun _ h => (by cases h), fun _ h => by cases h⟩

theorem start_sound {s : Caller α} (h : s.Sound) {c : Nat} (hc : s.calls.get? c = none)
    (key : String) (ttl : Nat) (fired : Bool) : (s.start c key ttl fired).Sound := by
  have hself : (s.start c key ttl fired).calls.get? c = some ⟨key, ttl, .arriving fired⟩ :=
    Table.get?_put_self _ _ _
  have hother : ∀ d, d ≠ c → (s.start c key ttl fired).calls.get? d = s.calls.get? d :=
    fun d hd => Table.get?_put_of_ne _ _ hd
  -- only calls that are known can be among the flights
  have hnot : s.flights.calls.get? c = none := by
    cases hf : s.flights.calls.get? c with
    | none => rfl
    | some fcall =>
      obtain ⟨call, hc', -⟩ := h.carried c fcall hf
      rw [hc] at hc'; cases hc'
  refine ⟨h.flights, fun d fcall hd => ?_, fun d dcall hd ha => ?_⟩
  · have hd : s.flights.calls.get? d = some fcall := hd
    have hdc : d ≠ c := fun hdc => by rw [hdc, hnot] at hd; cases hd
    rw [hother d hdc]
    exact h.carried d fcall hd
  · show s.flights.calls.get? d = none
    by_cases hdc : d = c
    · rw [hdc]; exact hnot
    · rw [hother d hdc] at hd
      exact h.ashore d dcall hd ha

/-- What only changes the store keeps the invariant. -/
theorem Sound.of_eq {s s' : Caller α} (h : s.Sound) (hcalls : s'.calls = s.calls)
    (hfcalls : s'.flights.calls = s.flights.calls)
    (hin : s'.flights.inFlight = s.flights.inFlight) : s'.Sound where
  flights := h.flights.of_eq hfcalls hin
  carried := by rw [hcalls, hfcalls]; exact h.carried
  ashore := by rw [hcalls, hfcalls]; exact h.ashore

/-- **Every event keeps the invariant.** -/
theorem step_sound {x : World α} (h : x.state.Sound) (e : Event α) : (step x e).state.Sound := by
  cases step_cases x e with
  | same hx => rw [hx]; exact h
  | began c key ttl fired _ hc hx => rw [hx]; exact start_sound h hc key ttl fired
  | turn c answers _ _ hx => rw [hx]; exact turn_sound h answers x.now c
  | chore chore _ _ _ hx => rw [hx]; exact h.of_eq rfl rfl rfl
  | fire c _ hx => rw [hx]; exact fire_sound h c
  | drop c _ hx => rw [hx]; exact drop_sound h c
  | close _ hx => rw [hx]; exact h.of_eq rfl rfl rfl
  | delete key _ hx => rw [hx]; exact h.of_eq rfl rfl rfl
  | deleteStartingWith start _ hx => rw [hx]; exact h.of_eq rfl rfl rfl

theorem worldAt_sound {x : World α} {es : List (Event α)} (h : x.state.Sound) (n : Nat) :
    (worldAt x es n).state.Sound :=
  Trace.after_invariant (P := fun (y : World α) => y.state.Sound) h
    (fun _ e _ hy => step_sound hy e) n

theorem make_sound (name : String) (settings : Config.Settings) (now : Nat) :
    (make name settings now : Caller α).Sound where
  flights := ⟨fun key c => by simp [make, Flights.Leads], by simp [make, Table.keys],
    by simp [make, Table.keys], fun c call l task h => by simp [make] at h⟩
  carried := fun c fcall h => by simp [make] at h
  ashore := fun c call h => by simp [make] at h

end Caller

end RegistryLookup
