import RegistryLookup.Proofs.Caller.Doing
import RegistryLookup.Proofs.Caller.Provenance
import RegistryLookup.Proofs.Flight.Alert
import RegistryLookup.Proofs.Retry.Stop

/-!
# The turn of a call with a permit

Among the flights a call whose token has fired gives up, or goes on with the attempts that it has
begun. All others may also be served, find their key in the cache, wait for another call, or begin
their first attempt (`Sailed`).

* `Flies`: the turn of a call with a permit, and what it adds to the log.
* `Sailed.left`: it leaves the call over, or with something to wait for.
-/

namespace RegistryLookup

theorem Flights.turn_of_fired {σ ω ι α : Type} (w : Flight.Work σ ω ι α) (i : ι) (now : Nat)
    {s : Flights σ ω α} {c l : Nat} {call : Flight.Call ω α} {task : ω}
    (hc : s.calls.get? c = some call) (hp : call.phase = .waiting l task)
    (hf : call.fired = true) :
    s.turn w i now c = s.become c call (.ended ⟨.error .cancelled, .gaveUp, now⟩) := by
  unfold turn
  simp only [hc, hp, hf, if_true]

namespace Caller

open Flight

variable {α : Type} {x : World α}

/-- A loop of a call that leads a flight: it has begun an attempt, and stays within the limit. -/
def Seaworthy (s : Caller α) (loop : Retry.Loop α) : Prop := loop.Within s.policy ∧ loop.Begun

/-- What the turn of a call with a permit comes to among the flights: what is noticed, and the phase
in which the call is left. The truth value tells whether its token has fired. -/
inductive Sailed (x : World α) (c : Nat) (answers : Answers α) (call : Call α) :
    Bool → List (Retry.Notice α) → Phase (Load α) α → Prop
  /-- The flight that it waits for is under way. -/
  | rests (l : Nat) (load : Load α) (hp : phase? x.state c = some (.waiting l load))
      (hl : x.state.flights.fate l = .flying) :
      Sailed x c answers call false [] (.waiting l load)
  /-- Its token has fired while it waited. -/
  | givesUp (l : Nat) (load : Load α) (hp : phase? x.state c = some (.waiting l load)) :
      Sailed x c answers call true [] (.ended ⟨.error .cancelled, .gaveUp, x.now⟩)
  /-- Another call leads a flight for its key. -/
  | waits (l : Nat) (load : Load α) (hopen : Unbegun x.state c)
      (hl : x.state.flights.Leads call.key l) : Sailed x c answers call false [] (.waiting l load)
  /-- The flight that it waited for has landed. -/
  | served (l : Nat) (load : Load α) (r : Except Failure α)
      (hp : phase? x.state c = some (.waiting l load))
      (hl : x.state.flights.fate l = .landed r) :
      Sailed x c answers call false [] (.ended ⟨r, .served l, x.now⟩)
  /-- Its key is in the cache. -/
  | found (v : α) (hopen : Unbegun x.state c) :
      Sailed x c answers call false [] (.ended ⟨.ok v, .leader true, x.now⟩)
  /-- It is given a flight and begins its first attempt. -/
  | begins (hopen : Unbegun x.state c) : Sailed x c answers call false
      ((({} : Retry.Loop α).turn x.state.policy answers x.now false).notices)
      (afterTurn call false x.now
        (({} : Retry.Loop α).turn x.state.policy answers x.now false).rest)
  /-- It goes on with the attempts for the flight that it leads. -/
  | goesOn (fired : Bool) (loop : Retry.Loop α)
      (hp : phase? x.state c =
        some (.leading { key := call.key, ttl := call.ttl, stage := .trying loop }))
      (hl : Seaworthy x.state loop) : Sailed x c answers call fired
      ((loop.turn x.state.policy answers x.now fired).notices)
      (afterTurn call fired x.now (loop.turn x.state.policy answers x.now fired).rest)

/-- Where a turn leaves a call with a permit. -/
inductive Left (x : World α) (c : Nat) (fired : Bool) : Phase (Load α) α → Prop
  | ended (E : Ending α) : Left x c fired (.ended E)
  | waits (l : Nat) (load : Load α) (hf : fired = false) (hne : l ≠ c)
      (hl : x.state.flights.fate l = .flying) : Left x c fired (.waiting l load)
  | leads (key : String) (ttl : Nat) (loop : Retry.Loop α) (hl : loop.Within x.state.policy)
      (hw : loop.Waits x.now fired) : Left x c fired (.leading ⟨key, ttl, .trying loop⟩)

theorem left_of_turn (c : Nat) (call : Call α) (answers : Answers α) (fired : Bool)
    {loop : Retry.Loop α} (hl : loop.Within x.state.policy) : Left x c fired
      (afterTurn call fired x.now (loop.turn x.state.policy answers x.now fired).rest) := by
  have hhalt := Retry.turn_halted answers x.now fired hl
  generalize (loop.turn x.state.policy answers x.now fired).rest = rest at hhalt
  cases hhalt with
  | waits l hw hl => exact .leads _ _ l hl hw
  | cancelled => exact .ended _
  | settled => exact .ended _

/-- A new loop may make an attempt. -/
theorem within_new {p : Retry.Policy} (h : 0 < p.maxAttempts) :
    ({} : Retry.Loop α).Within p := h

/-- **A call is left over, or with something to wait for.** -/
theorem Sailed.left {c : Nat} {answers : Answers α} {call : Call α} {fired : Bool}
    {ns : List (Retry.Notice α)} {p : Phase (Load α) α}
    (h : Sailed x c answers call fired ns p) (hroom : 0 < x.state.policy.maxAttempts) :
    Left x c fired p := by
  cases h with
  | rests l load hp hl =>
    refine .waits l load rfl (fun hlc => ?_) hl
    rw [hlc, fate_eq, hp] at hl; cases hl
  | givesUp => exact .ended _
  | waits l load hopen hl =>
    obtain ⟨fired, task, hlead⟩ := hl
    refine .waits l load rfl (fun hlc => ?_) (by rw [Flights.fate_of_get? hlead]; rfl)
    rw [hlc] at hlead
    exact hopen _ (phase?_eq hlead) rfl
  | served => exact .ended _
  | found => exact .ended _
  | begins => exact left_of_turn c call answers _ (within_new hroom)
  | goesOn _ loop _ hl => exact left_of_turn c call answers _ hl.1

/-- A call that is left with something to wait for is doing something. -/
theorem Left.doing {c : Nat} {fired : Bool} {p : Phase (Load α) α} (h : Left x c fired p)
    (hp : ∀ E, p ≠ .ended E) : ∃ d, phaseDoing p = some d := by
  cases h with
  | ended E => exact absurd rfl (hp E)
  | waits l load => exact ⟨_, rfl⟩
  | leads key ttl loop _ hw =>
    unfold phaseDoing loopDoing
    cases hw with
    | attempting since o hp' => exact ⟨_, by simp only [hp']; rfl⟩
    | resting wakesAt hp' => exact ⟨_, by simp only [hp']; rfl⟩

/-- The call with which a turn among the flights begins. -/
inductive Ready (x : World α) : Flight.Call (Load α) α → Prop
  | comes (key : String) (load : Load α) : Ready x ⟨key, false, .arriving load⟩
  | waits (key : String) (fired : Bool) (l : Nat) (load : Load α) :
      Ready x ⟨key, fired, .waiting l load⟩
  | leads (key : String) (fired : Bool) (load : Load α)
      (h : ∀ loop, load.stage = .trying loop → Seaworthy x.state loop) :
      Ready x ⟨key, fired, .leading load⟩

/-- The turn of a call among the flights. -/
structure Flies (x : World α) (c : Nat) (answers : Answers α) (call : Call α) (fired : Bool)
    (ns : List (Retry.Notice α)) (p : Phase (Load α) α) : Prop where
  sailed : Sailed x c answers call fired ns p
  logged : log (step x (.turn c answers)).state = log x.state ++ entries c x.now ns
  there : (step x (.turn c answers)).state.flights.calls.get? c = some ⟨call.key, fired, p⟩

namespace Aboard

variable {c : Nat} {answers : Answers α} {call : Call α} {F : Flights (Store α) (Load α) α}
  {fcall : Flight.Call (Load α) α}

/-- The call takes another phase, and nothing is noticed. -/
theorem flies_quiet (h : Aboard x c answers call F fcall) {p : Phase (Load α) α}
    (hcalls : (F.turn (loadWork x.state.policy x.state.name) answers x.now c).calls.get? c =
      some { fcall with phase := p })
    (hkeep : (F.turn (loadWork x.state.policy x.state.name) answers x.now c).store = F.store)
    (hs : Sailed x c answers call fcall.fired [] p) :
    Flies x c answers call fcall.fired [] p := by
  refine ⟨hs, ?_, ?_⟩
  · unfold log
    rw [h.flights, hkeep, h.boarding.store]
    exact (List.append_nil _).symm
  · rw [h.flights, hcalls, ← h.carries.sameKey]

/-- The call does its work. -/
theorem flies_work (h : Aboard x c answers call F fcall) (hready : Ready x fcall) {load : Load α}
    {F₁ : Flights (Store α) (Load α) α}
    (hl : (fcall.phase = .leading load ∧ F₁ = F) ∨ (fcall.phase.task? = some load ∧
      F.inFlight.get? fcall.key = none ∧
      F₁ = { F with inFlight := F.inFlight.put fcall.key c }))
    (hfresh : ∀ load, fcall.phase.task? = some load → fcall.fired = false)
    (hs : F.turn (loadWork x.state.policy x.state.name) answers x.now c =
      F₁.work (loadWork x.state.policy x.state.name) answers x.now c fcall load) :
    ∃ ns p, Flies x c answers call fcall.fired ns p := by
  have hstore : F₁.store = x.state.flights.store := by
    rw [← h.boarding.store]
    rcases hl with ⟨-, rfl⟩ | ⟨-, -, rfl⟩ <;> rfl
  have hcalls : F₁.calls = F.calls := by rcases hl with ⟨-, rfl⟩ | ⟨-, -, rfl⟩ <;> rfl
  -- what the work does to the store and to the call
  have hlog : log (step x (.turn c answers)).state =
      ((loadWork x.state.policy x.state.name).turn answers x.now c fcall.fired load
        x.state.flights.store).2.record.reverse := by
    unfold log
    rw [h.flights, hs, Flights.store_work, hstore]
  have hthere : (step x (.turn c answers)).state.flights.calls.get? c = some ⟨call.key, fcall.fired,
      ((loadWork x.state.policy x.state.name).turn answers x.now c fcall.fired load
        x.state.flights.store).1.phase fcall.fired x.now⟩ := by
    rw [h.flights, hs, Flights.calls_work, hcalls, hstore, Table.get?_put_self, h.carries.sameKey]
  rcases loadWork_cases x.state.policy x.state.name answers x.now c fcall.fired load
    x.state.flights.store with ⟨hstage, v, hv, hout⟩ | ⟨loop, cache₀, hfrom, hout⟩
  · rcases hl with ⟨hp, -⟩ | ⟨ht, -, -⟩
    · -- a leader has looked into the cache before
      obtain ⟨loop, hload⟩ := h.carries.leads load hp
      rw [hload] at hstage; cases hstage
    have hf := hfresh load ht
    rw [hout] at hlog hthere
    refine ⟨[], _, ?_, ?_, hthere⟩
    · have hphase : (Progress.finished (.ok v) : Progress (Load α) α).phase fcall.fired x.now =
          .ended ⟨.ok v, .leader true, x.now⟩ := by
        simp [Progress.phase, Except.isOk, Except.toBool]
      rw [hphase, hf]
      exact .found v (h.boarding.unbegun h.there ht)
    · rw [hlog]
      exact (List.append_nil _).symm
  · have hload : load.key = call.key ∧ load.ttl = call.ttl := by
      rcases hl with ⟨hp, -⟩ | ⟨ht, -, -⟩
      · obtain ⟨loop', rfl⟩ := h.carries.leads load hp
        exact ⟨rfl, rfl⟩
      · rw [h.carries.waits load ht]
        exact ⟨rfl, rfl⟩
    rw [hout, record_attempt] at hlog
    rw [hout, phase_attempt _ _ _ _ _ _ hload.1 hload.2] at hthere
    refine ⟨_, _, ?_, hlog, hthere⟩
    rcases hl with ⟨hp, -⟩ | ⟨ht, -, -⟩
    · obtain ⟨loop', hload'⟩ := h.carries.leads load hp
      obtain ⟨-, hphase⟩ := h.same (fun load' hp' => by rw [hp] at hp'; cases hp')
      obtain rfl : loop = loop' := by
        rcases hfrom with ⟨hlookup, -⟩ | ⟨htry, -⟩
        · rw [hload'] at hlookup; cases hlookup
        · rw [hload'] at htry; cases htry; rfl
      refine .goesOn fcall.fired loop (by rw [hphase, hp, hload']) ?_
      obtain ⟨key, fired, phase⟩ := fcall
      cases hready with
      | comes => cases hp
      | waits => cases hp
      | leads _ _ load' hsea =>
        cases hp
        exact hsea loop (by rw [hload'])
    · obtain rfl : loop = {} := by
        rcases hfrom with ⟨-, -, hloop, -⟩ | ⟨htry, -⟩
        · exact hloop
        · rw [h.carries.waits load ht] at htry; cases htry
      rw [hfresh load ht]
      exact .begins (h.boarding.unbegun h.there ht)

/-- **The turn of a call with a permit**, by its token. -/
theorem flies (h : Aboard x c answers call F fcall) (hready : Ready x fcall) :
    ∃ ns p, Flies x c answers call fcall.fired ns p := by
  -- a call whose token has fired while it waited gives up, whatever became of the flight
  by_cases hgone : ∃ l load, fcall.phase = .waiting l load ∧ fcall.fired = true
  · obtain ⟨l, load, hp, hf⟩ := hgone
    have hs := Flights.turn_of_fired (loadWork x.state.policy x.state.name) answers x.now
      h.there hp hf
    obtain ⟨-, hphase⟩ := h.same (fun load' hp' => by rw [hp] at hp'; cases hp')
    rw [hp] at hphase
    refine ⟨_, _, h.flies_quiet (by rw [hs]; exact Table.get?_put_self _ _ _) (by rw [hs]; rfl) ?_⟩
    rw [hf]
    exact .givesUp l load hphase
  have hfresh : ∀ load, fcall.phase.task? = some load → fcall.fired = false := by
    intro load ht
    obtain ⟨key, fired, phase⟩ := fcall
    cases hready with
    | comes => rfl
    | waits _ _ l load' =>
      cases fired with
      | false => rfl
      | true => exact absurd ⟨l, load', rfl, rfl⟩ hgone
    | leads => cases ht
  cases Flights.turn_cases (loadWork x.state.policy x.state.name) answers x.now c F with
  | rest hs hw hno =>
    obtain ⟨key, fired, phase⟩ := fcall
    cases hready with
    | comes key load =>
      obtain ⟨l, hwait, -⟩ := hw _ load h.there rfl
      cases hwait
    | leads _ _ load => exact absurd rfl (hno _ load h.there)
    | waits _ _ l load =>
      obtain ⟨l', hwait, hf, hl⟩ := hw _ load h.there rfl
      cases hwait
      obtain ⟨hsame, hphase⟩ := h.same (fun load' hp' => by cases hp')
      refine ⟨_, .waiting l load, h.flies_quiet (by rw [hs]; exact h.there) (by rw [hs]) ?_⟩
      rw [show fired = false from hf]
      exact .rests l load hphase (by rw [← hsame]; exact hl)
  | giveUp fcall₁ load hc₁ ht hf hs =>
    rw [h.there] at hc₁; cases hc₁
    rw [hfresh load ht] at hf; cases hf
  | wait fcall₁ load l hc₁ ht hf _ hl hs =>
    rw [h.there] at hc₁; cases hc₁
    refine ⟨_, _, h.flies_quiet (by rw [hs]; exact Table.get?_put_self _ _ _) (by rw [hs]; rfl) ?_⟩
    rw [hf]
    exact .waits l load (h.boarding.unbegun h.there ht) (h.leads_iff.1 hl)
  | serve fcall₁ load l r hc₁ hp hf hl hs =>
    rw [h.there] at hc₁; cases hc₁
    obtain ⟨hsame, hphase⟩ := h.same (fun load' hp' => by rw [hp] at hp'; cases hp')
    rw [hp] at hphase
    rw [hsame] at hl
    refine ⟨_, _, h.flies_quiet (by rw [hs]; exact Table.get?_put_self _ _ _) (by rw [hs]; rfl) ?_⟩
    rw [hf]
    exact .served l load r hphase hl
  | work fcall₁ load F₁ hc₁ hl hs =>
    rw [h.there] at hc₁; cases hc₁
    exact h.flies_work hready hl hfresh hs

end Aboard

end Caller

end RegistryLookup
