import RegistryLookup.Proofs.Caller.HalfOpen
import RegistryLookup.Proofs.Caller.Doing
import RegistryLookup.Proofs.Permits

/-!
# The balance of the permits

A permit is free, on its way to a call that waits for it, or held by a call that has not ended or
been dropped. Every event keeps this balance, whatever becomes of a call: a result, a failure, a
cancellation, a drop, the end of its caller (`Metered`).

* `Metered.retire`, `Metered.leave`, `Metered.release`: a call goes away before it asks for a
  permit, while it waits for one, or with one.
* `turn_metered`, `drop_metered`, `close_metered`: what the operations of a caller keep.
* `step_metered`: every event keeps the balance.
-/

namespace RegistryLookup.Caller

open Flight

variable {α : Type} {x : World α} {es : List (Event α)} {limit : Nat}

/-- Whether a call in this stage has acquired a permit, and not given it back. -/
def Stage.holds : Stage α → Bool
  | .admitted => true
  | _ => false

/-- The calls that have acquired a permit, and have not ended or been dropped. -/
def holders (s : Caller α) : List Nat := (s.calls.filter (fun p => p.2.stage.holds)).map (·.1)

/-- A call waits for a permit. -/
def Waits (s : Caller α) (c : Nat) : Prop :=
  ∃ call fired, s.calls.get? c = some call ∧ call.stage = .queued fired

theorem holders_length (s : Caller α) :
    s.holders.length = s.calls.countP (fun p => p.2.stage.holds) := by
  rw [holders, List.length_map, List.countP_eq_length_filter]

theorem holds_iff (stage : Stage α) : stage.holds = true ↔ stage = .admitted := by
  cases stage <;> simp [Stage.holds]

theorem mem_holders {s : Caller α} (h : s.calls.keys.Nodup) {c : Nat} :
    c ∈ s.holders ↔ ∃ call, s.calls.get? c = some call ∧ call.stage = .admitted := by
  constructor
  · intro hc
    obtain ⟨⟨d, call⟩, hmem, rfl⟩ := List.mem_map.1 hc
    obtain ⟨hmem, hholds⟩ := List.mem_filter.1 hmem
    exact ⟨call, Table.get?_of_mem h hmem, (holds_iff _).1 hholds⟩
  · rintro ⟨call, hc, hs⟩
    exact List.mem_map.2 ⟨(c, call), List.mem_filter.2 ⟨Table.mem_of_get? hc,
      (holds_iff _).2 hs⟩, rfl⟩

theorem nodup_holders {s : Caller α} (h : s.calls.keys.Nodup) : s.holders.Nodup :=
  Table.nodup_keys_filter h _

/-- The stage of a call says whether it waits. -/
theorem waits_iff {s : Caller α} {c : Nat} {call : Call α} (hc : s.calls.get? c = some call) :
    s.Waits c ↔ ∃ fired, call.stage = .queued fired := by
  constructor
  · rintro ⟨call', fired, hc', hs⟩
    rw [hc] at hc'; cases hc'
    exact ⟨fired, hs⟩
  · rintro ⟨fired, hs⟩
    exact ⟨call, fired, hc, hs⟩

theorem waits_congr {s s' : Caller α} {c : Nat} (h : s'.calls.get? c = s.calls.get? c) :
    s'.Waits c ↔ s.Waits c := by
  unfold Waits
  rw [h]

theorem waits_iff_doing {s : Caller α} {c : Nat} : s.Waits c ↔ doing? s c = some .queued := by
  constructor
  · rintro ⟨call, fired, hc, hs⟩
    exact doing?_of_queued hc hs
  · intro hd
    obtain ⟨call, hc, -⟩ := open_of_doing hd
    cases hs : call.stage with
    | arriving fired => rw [doing?_of_arriving hc hs] at hd; cases hd
    | queued fired => exact ⟨call, fired, hc, hs⟩
    | admitted =>
      rw [doing?_of_admitted hc hs] at hd
      obtain ⟨p, -, hp⟩ := Option.bind_eq_some_iff.1 hd
      exact absurd rfl (ne_of_phaseDoing hp).2
    | ended r t => rw [doing?_of_over hc (by unfold Call.isOpen; rw [hs])] at hd; cases hd
    | dropped => rw [doing?_of_over hc (by unfold Call.isOpen; rw [hs])] at hd; cases hd

/-- Every permit is free, on its way to a call that waits for it, or held. -/
structure Metered (s : Caller α) (limit : Nat) : Prop where
  keys : s.calls.keys.Nodup
  fair : s.permits.Fair
  made : s.permits.limit = limit
  balance : s.permits.total + s.holders.length = limit
  waits : ∀ c ∈ s.permits.waiters, s.Waits c
  seated : ∀ c, s.Waits c → c ∈ s.permits.waiters ∨ s.permits.closed = true

/-- The balance is between the permits and the calls. -/
theorem Metered.of_eq {s s' : Caller α} (h : s.Metered limit) (hcalls : s'.calls = s.calls)
    (hpermits : s'.permits = s.permits) : s'.Metered limit where
  keys := by rw [hcalls]; exact h.keys
  fair := by rw [hpermits]; exact h.fair
  made := by rw [hpermits]; exact h.made
  balance := by unfold holders; rw [hcalls, hpermits]; exact h.balance
  waits := fun c hc => (waits_congr (by rw [hcalls])).2 (h.waits c (by rw [← hpermits]; exact hc))
  seated := fun c hc => by
    rw [hpermits]
    exact h.seated c ((waits_congr (by rw [hcalls])).1 hc)

/-- One call changes its stage, and the permits change with it. -/
theorem Metered.put {s s' : Caller α} (h : s.Metered limit) (c : Nat) (call : Call α) (held : Bool)
    (hheld : ((s.calls.get? c).map (fun call => call.stage.holds)).getD false = held)
    (hcalls : s'.calls = s.calls.put c call) (hfair : s'.permits.Fair)
    (hlimit : s'.permits.limit = s.permits.limit)
    (hclosed : s'.permits.closed = s.permits.closed)
    (htotal : s'.permits.total + call.stage.holds.toNat = s.permits.total + held.toNat)
    (hothers : ∀ d, d ≠ c → (d ∈ s'.permits.waiters ↔ d ∈ s.permits.waiters))
    (hwaits : c ∈ s'.permits.waiters → ∃ fired, call.stage = .queued fired)
    (hseated : ∀ fired, call.stage = .queued fired →
      c ∈ s'.permits.waiters ∨ s'.permits.closed = true) : s'.Metered limit := by
  have hself : s'.calls.get? c = some call := by rw [hcalls]; exact Table.get?_put_self _ _ _
  have hne : ∀ {d}, d ≠ c → (s'.Waits d ↔ s.Waits d) := fun hd =>
    waits_congr (by rw [hcalls]; exact Table.get?_put_of_ne _ _ hd)
  refine ⟨?_, hfair, hlimit.trans h.made, ?_, fun d hd => ?_, fun d hd => ?_⟩
  · rw [hcalls]
    exact Table.nodup_keys_put h.keys _ _
  · have hcount := Table.countP_put (fun call : Call α => call.stage.holds) s.calls c call
    have hbalance := h.balance
    rw [hheld] at hcount
    rw [holders_length] at hbalance ⊢
    rw [hcalls]
    omega
  · by_cases hdc : d = c
    · subst hdc
      exact (waits_iff hself).2 (hwaits hd)
    · exact (hne hdc).2 (h.waits d ((hothers d hdc).1 hd))
  · by_cases hdc : d = c
    · subst hdc
      obtain ⟨fired, hs⟩ := (waits_iff hself).1 hd
      exact hseated fired hs
    · rw [hothers d hdc, hclosed]
      exact h.seated d ((hne hdc).1 hd)

section Operations

variable {s : Caller α} {c : Nat} {call : Call α} {answers : Answers α} {now : Nat}

/-- Whoever does not wait for a permit is not among those who do. -/
theorem Metered.not_waiting (h : s.Metered limit) (hc : s.calls.get? c = some call)
    (hs : ∀ fired, call.stage ≠ .queued fired) : c ∉ s.permits.waiters := by
  intro hmem
  obtain ⟨fired, hq⟩ := (waits_iff hc).1 (h.waits c hmem)
  exact hs fired hq

/-- How many permits a caller is made with. -/
def permitsOf (settings : Config.Settings) : Nat :=
  max 1 settings.concurrency.maxConcurrentRequests.toNat

/-- Two permits. -/
def twoPermits : Config.Settings where
  concurrency := { maxConcurrentRequests := 2 }

theorem make_metered (name : String) (settings : Config.Settings) (now : Nat) :
    (make name settings now : Caller α).Metered (permitsOf settings) where
  keys := List.nodup_nil
  fair := Permits.make_fair _
  made := rfl
  balance := rfl
  waits := fun c hc => by cases hc
  seated := fun c hc => by
    obtain ⟨call, fired, hc, -⟩ := hc
    cases hc

theorem start_metered (h : s.Metered limit) (hc : s.calls.get? c = none) (key : String) (ttl : Nat)
    (fired : Bool) : (s.start c key ttl fired).Metered limit := by
  refine h.put c ⟨key, ttl, .arriving fired⟩ false (by rw [hc]; rfl) rfl h.fair rfl rfl rfl
    (fun _ _ => Iff.rfl) (fun hmem => ?_) (fun _ hs => by cases hs)
  obtain ⟨call, _, hknown, -⟩ := h.waits c hmem
  rw [hc] at hknown; cases hknown

/-- A call without a permit ends or is dropped before it has asked for one. -/
theorem Metered.retire (h : s.Metered limit) {s' : Caller α} (hc : s.calls.get? c = some call)
    (hs : call.stage.holds = false) (hwait : ∀ fired, call.stage ≠ .queued fired)
    {stage : Stage α} (hstage : stage.holds = false) (hne : ∀ fired, stage ≠ .queued fired)
    (hcalls : s'.calls = s.calls.put c { call with stage := stage })
    (hpermits : s'.permits = s.permits) : s'.Metered limit := by
  refine h.put c { call with stage := stage } false (by rw [hc]; exact hs) hcalls
    (by rw [hpermits]; exact h.fair) (by rw [hpermits]) (by rw [hpermits])
    (by rw [hpermits]; show _ + stage.holds.toNat = _; rw [hstage]) (fun d _ => by rw [hpermits])
    (fun hmem => ?_) (fun fired hq => absurd hq (hne fired))
  rw [hpermits] at hmem
  exact absurd hmem (h.not_waiting hc hwait)

/-- A call leaves the queue for permits. -/
theorem Metered.leave (h : s.Metered limit) {s' : Caller α} {fired : Bool}
    (hc : s.calls.get? c = some call) (hs : call.stage = .queued fired) {stage : Stage α}
    (hstage : stage.holds = false) (hne : ∀ fired, stage ≠ .queued fired)
    (hcalls : s'.calls = s.calls.put c { call with stage := stage })
    (hpermits : s'.permits = s.permits.leave c) : s'.Metered limit := by
  refine h.put c { call with stage := stage } false (by rw [hc, Option.map_some, hs]; rfl) hcalls
    (by rw [hpermits]; exact h.fair.leave c) (by rw [hpermits, Permits.limit_leave])
    (by rw [hpermits, Permits.closed_leave]) ?_ (fun d hd => ?_) (fun hmem => ?_)
    (fun fired hq => absurd hq (hne fired))
  · show _ + stage.holds.toNat = _
    rw [hpermits, Permits.total_leave, hstage]
  · rw [hpermits, h.fair.mem_leave]
    exact ⟨fun hmem => hmem.2, fun hmem => ⟨hd, hmem⟩⟩
  · rw [hpermits] at hmem
    exact absurd rfl (h.fair.mem_leave.1 hmem).1

/-- A call gives its permit back, and is over. -/
theorem Metered.release (h : s.Metered limit) {s' : Caller α} (hc : s.calls.get? c = some call)
    (hs : call.stage = .admitted) {stage : Stage α} (hstage : stage.holds = false)
    (hne : ∀ fired, stage ≠ .queued fired)
    (hcalls : s'.calls = s.calls.put c { call with stage := stage })
    (hpermits : s'.permits = s.permits.release) : s'.Metered limit := by
  have hmem : ∀ d, d ∈ s'.permits.waiters ↔ d ∈ s.permits.waiters := by
    rw [hpermits]
    exact fun d => (Permits.waiters_release _).mem_iff
  refine h.put c { call with stage := stage } true (by rw [hc, Option.map_some, hs]; rfl) hcalls
    (by rw [hpermits]; exact h.fair.release) (by rw [hpermits, Permits.limit_release])
    (by rw [hpermits, Permits.closed_release]) ?_ (fun d _ => hmem d) (fun hw => ?_)
    (fun fired hq => absurd hq (hne fired))
  · show _ + stage.holds.toNat = _
    rw [hpermits, Permits.total_release, hstage]
    rfl
  · exact absurd ((hmem c).1 hw) (h.not_waiting hc fun fired hq => by rw [hs] at hq; cases hq)

/-- A call with a permit goes on, or it ends and gives the permit back. -/
theorem proceed_metered (h : s.Metered limit)
    (hc : s.calls.get? c = some { call with stage := .admitted }) :
    (s.proceed answers now c call).Metered limit := by
  rcases proceed_cases answers now c call s with ⟨-, hp⟩ | ⟨E, -, hp⟩
  · rw [hp]
    exact h.of_eq rfl rfl
  · rw [hp]
    exact h.release hc rfl rfl (fun _ hq => by cases hq) rfl rfl

/-- A call that has just got its permit goes on to the flights. -/
theorem board_metered (h : s.Metered limit) {s₁ : Caller α} (hc : s.calls.get? c = some call)
    (hs : call.stage.holds = false) (hcalls : s₁.calls = s.calls) (hfair : s₁.permits.Fair)
    (hlimit : s₁.permits.limit = s.permits.limit)
    (hclosed : s₁.permits.closed = s.permits.closed)
    (htotal : s₁.permits.total + 1 = s.permits.total)
    (hothers : ∀ d, d ≠ c → (d ∈ s₁.permits.waiters ↔ d ∈ s.permits.waiters))
    (hself : c ∉ s₁.permits.waiters) : (s₁.board answers now c call false).Metered limit := by
  refine proceed_metered (h.put c { call with stage := .admitted } false
    (by rw [hc]; exact hs) ?_ hfair hlimit hclosed htotal hothers
    (fun hmem => absurd hmem hself) (fun _ hq => by cases hq)) (Table.get?_put_self _ _ _)
  rw [calls_become, hcalls]

/-- **A turn loses no permit and makes none.** -/
theorem turn_metered (h : s.Metered limit) (answers : Answers α) (now c : Nat) :
    (s.turn answers now c).Metered limit := by
  cases turn_cases answers now c s with
  | rest hs => rw [hs]; exact h
  | turnedAway call fired p hc hs hclosed hp ht =>
    rw [ht]
    rcases hp with ⟨hs, rfl⟩ | ⟨hs, rfl⟩
    · exact h.retire hc (by rw [hs]; rfl) (fun _ hq => by rw [hs] at hq; cases hq) rfl
        (fun _ hq => by cases hq) rfl rfl
    · exact h.leave hc hs rfl (fun _ hq => by cases hq) rfl rfl
  | refused call fired hc hs _ _ ht =>
    rw [ht]
    exact h.retire hc (by rw [hs]; rfl) (fun _ hq => by rw [hs] at hq; cases hq) rfl
      (fun _ hq => by cases hq) rfl rfl
  | cancelled call hc hs _ _ ht =>
    rw [ht]
    exact h.retire hc (by rw [hs]; rfl) (fun _ hq => by rw [hs] at hq; cases hq) rfl
      (fun _ hq => by cases hq) rfl rfl
  | queues call hc hs hclosed _ ht hg =>
    have hnew := h.not_waiting hc (fun _ hq => by rw [hs] at hq; cases hq)
    have htotal := Permits.total_request s.permits c
    rw [ht]
    refine h.put c { call with stage := .queued false } false
      (by rw [hc, Option.map_some, hs]; rfl) rfl (h.fair.request hnew hclosed)
      (Permits.limit_request _ _) (Permits.closed_request _ _) ?_ (fun d hd => ?_)
      (fun _ => ⟨false, rfl⟩) (fun _ _ => Or.inl (Permits.mem_request.2 (Or.inr ⟨rfl, hg⟩)))
    · rw [hg] at htotal
      exact htotal
    · refine Permits.mem_request.trans ?_
      exact ⟨fun hmem => hmem.resolve_right fun hdc => hd hdc.1, Or.inl⟩
  | boards call hc hs hclosed _ ht hg =>
    have hnew := h.not_waiting hc (fun _ hq => by rw [hs] at hq; cases hq)
    have htotal := Permits.total_request s.permits c
    have hmem : ∀ d, d ∈ (s.permits.request c).2.waiters ↔ d ∈ s.permits.waiters := by
      intro d
      rw [Permits.mem_request, hg]
      exact ⟨fun hd => hd.resolve_right fun hdc => Bool.noConfusion hdc.2, Or.inl⟩
    rw [ht]
    refine board_metered h hc (by rw [hs]; rfl) rfl (h.fair.request hnew hclosed)
      (Permits.limit_request _ _) (Permits.closed_request _ _) ?_ (fun d _ => hmem d)
      (fun hd => hnew ((hmem c).1 hd))
    rw [hg] at htotal
    exact htotal
  | leaves call hc hs ht =>
    rw [ht]
    exact h.leave hc hs rfl (fun _ hq => by cases hq) rfl rfl
  | claims call hc hs hg ht =>
    rw [ht]
    refine board_metered h hc (by rw [hs]; rfl) rfl (h.fair.claim c) rfl rfl
      (Permits.total_claim hg) (fun d hd => ?_) (fun hd => ?_)
    · exact (h.fair.mem_claim hg).trans ⟨fun hmem => hmem.2, fun hmem => ⟨hd, hmem⟩⟩
    · exact absurd rfl ((h.fair.mem_claim hg).1 hd).1
  | proceeds call hc hs ht =>
    rw [ht]
    refine proceed_metered h ?_
    obtain ⟨key, ttl, stage⟩ := call
    cases hs
    exact hc

theorem fire_metered (h : s.Metered limit) (c : Nat) : (s.fire c).Metered limit := by
  rcases fire_cases s c with hs | ⟨call, fired, hc, ⟨hst, hs⟩ | ⟨hst, hs⟩⟩ | ⟨call, hc, hst, hs⟩
  · rw [hs]; exact h
  · rw [hs]
    exact h.retire hc (by rw [hst]; rfl) (fun _ hq => by rw [hst] at hq; cases hq) rfl
      (fun _ hq => by cases hq) rfl rfl
  · -- it keeps its place in the queue
    rw [hs]
    exact h.put c { call with stage := .queued true } false
      (by rw [hc, Option.map_some, hst]; rfl) rfl h.fair rfl rfl rfl (fun _ _ => Iff.rfl)
      (fun _ => ⟨true, rfl⟩) (fun _ _ => h.seated c ((waits_iff hc).2 ⟨fired, hst⟩))
  · rw [hs]
    exact h.of_eq rfl rfl

theorem drop_queued {fired : Bool} (hc : s.calls.get? c = some call)
    (hs : call.stage = .queued fired) :
    s.drop c = { s with permits := s.permits.leave c }.become c call .dropped := by
  unfold drop
  simp only [hc, hs]

/-- **A call that is dropped gives back what it has.** -/
theorem drop_metered (h : s.Metered limit) (c : Nat) : (s.drop c).Metered limit := by
  rcases drop_cases s c with hs | ⟨call, hc, ⟨fired, p, hst, -, -⟩ | ⟨hst, hs⟩⟩
  · rw [hs]; exact h
  · rcases hst with hst | hst
    · have hs : s.drop c = s.become c call .dropped := by
        unfold drop
        simp only [hc, hst]
      rw [hs]
      exact h.retire hc (by rw [hst]; rfl) (fun _ hq => by rw [hst] at hq; cases hq) rfl
        (fun _ hq => by cases hq) rfl rfl
    · rw [drop_queued hc hst]
      exact h.leave hc hst rfl (fun _ hq => by cases hq) rfl rfl
  · rw [hs]
    exact h.release hc hst rfl (fun _ hq => by cases hq) rfl rfl

/-- **Closing takes no permit from anybody.** -/
theorem close_metered (h : s.Metered limit) : s.close.Metered limit where
  keys := h.keys
  fair := h.fair.close
  made := h.made
  balance := h.balance
  waits := fun c hc => (waits_congr rfl).2 (h.waits c (List.mem_append_right _ hc))
  seated := fun _ _ => Or.inr rfl

end Operations

theorem step_metered (h : x.state.Metered limit) (e : Event α) : (step x e).state.Metered limit := by
  cases step_cases x e with
  | same hx => rw [hx]; exact h
  | began c key ttl fired _ hc hx => rw [hx]; exact start_metered h hc key ttl fired
  | turn c answers _ _ hx => rw [hx]; exact turn_metered h answers x.now c
  | chore _ _ _ _ hx => rw [hx]; exact h.of_eq rfl rfl
  | fire c _ hx => rw [hx]; exact fire_metered h c
  | drop c _ hx => rw [hx]; exact drop_metered h c
  | close _ hx => rw [hx]; exact close_metered h
  | delete _ _ hx => rw [hx]; exact h.of_eq rfl rfl
  | deleteStartingWith _ _ hx => rw [hx]; exact h.of_eq rfl rfl

end RegistryLookup.Caller
