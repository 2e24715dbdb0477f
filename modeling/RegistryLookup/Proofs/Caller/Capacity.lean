import Mathlib.Data.List.Perm.Subperm
import RegistryLookup.Proofs.Caller.Attempts
import RegistryLookup.Proofs.Caller.Balance
import RegistryLookup.Proofs.Caller.Wakeful

/-!
# Attempts in progress, and permits to spare

At every moment no more attempts are in progress than there are permits, and no permit is lost: a
call that was given one while it waited is ready (`Attended`), so that none is on its way to
anybody once nobody can move.

* `waits_turn`, `ready_of_summoned`: whoever has a permit coming is ready.
* `attended_step`: every event leaves it so.
* `permits_balance`: the attempts and the permits at every point of a run.
-/

namespace RegistryLookup.Caller

variable {α : Type} {x : World α} {es : List (Event α)} {limit : Nat}

/-- A call was given a permit while it waited, or the caller was closed. -/
def Summoned (s : Caller α) (c : Nat) : Prop := c ∈ s.permits.granted ∨ s.permits.closed = true

/-- A call that waits for a permit is ready once it has been given one, or sent away. -/
structure Attended (x : World α) (limit : Nat) : Prop where
  sound : x.state.Sound
  metered : x.state.Metered limit
  called : ∀ c, x.state.Waits c → x.state.Summoned c → .call c ∈ x.ready

/-- A call that still waits after its turn has not been summoned. -/
theorem waits_turn {s : Caller α} (h : s.Metered limit) {answers : Answers α} {now c : Nat}
    (hw : (s.turn answers now c).Waits c) : ¬ (s.turn answers now c).Summoned c := by
  -- a call that has ended, or has its permit, does not wait
  have hno : ∀ {s' : Caller α} {call : Call α} {stage : Stage α}, s.turn answers now c = s' →
      s'.calls.get? c = some { call with stage := stage } → (∀ fired, stage ≠ .queued fired) →
      ¬ (s.turn answers now c).Summoned c := by
    intro s' call stage hs hc hne
    rw [hs] at hw
    obtain ⟨fired, hq⟩ := (waits_iff hc).1 hw
    exact absurd hq (hne fired)
  have hproceeds : ∀ {s₁ : Caller α} {call : Call α},
      s.turn answers now c = s₁.proceed answers now c call →
      s₁.calls.get? c = some { call with stage := .admitted } →
      ¬ (s.turn answers now c).Summoned c := by
    intro s₁ call hs hc
    rcases proceed_cases answers now c call s₁ with ⟨-, hp⟩ | ⟨E, -, hp⟩
    · exact hno (hs.trans hp) hc (fun _ hq => by cases hq)
    · exact hno (hs.trans hp) (Table.get?_put_self _ _ _) (fun _ hq => by cases hq)
  cases turn_cases answers now c s with
  | rest hs _ hq =>
    rw [hs] at hw ⊢
    obtain ⟨call, fired, hc, hstage⟩ := hw
    obtain ⟨-, hopen, hg⟩ := hq call fired hc hstage
    rintro (hmem | hclosed)
    · exact hg hmem
    · rw [hopen] at hclosed; cases hclosed
  | turnedAway call fired p _ _ _ _ hs =>
    exact hno hs (Table.get?_put_self _ _ _) (fun _ hq => by cases hq)
  | refused call fired _ _ _ _ hs =>
    exact hno hs (Table.get?_put_self _ _ _) (fun _ hq => by cases hq)
  | cancelled call _ _ _ _ hs =>
    exact hno hs (Table.get?_put_self _ _ _) (fun _ hq => by cases hq)
  | queues call hc hstage hopen _ hs hg =>
    have hnew := h.not_waiting hc (fun _ hq => by rw [hstage] at hq; cases hq)
    have hp : (s.turn answers now c).permits = (s.permits.request c).2 := by rw [hs]; rfl
    unfold Summoned
    rw [hp]
    rintro (hmem | hclosed)
    · rcases Permits.request_cases s.permits c with ⟨-, hreq⟩ | ⟨-, hreq⟩
      · rw [hreq] at hg; cases hg
      · rw [hreq] at hmem
        exact hnew (Permits.mem_waiters.2 (Or.inr hmem))
    · rw [Permits.closed_request, hopen] at hclosed; cases hclosed
  | boards call _ _ _ _ hs => exact hproceeds hs (Table.get?_put_self _ _ _)
  | leaves call _ _ hs => exact hno hs (Table.get?_put_self _ _ _) (fun _ hq => by cases hq)
  | claims call _ _ _ hs => exact hproceeds hs (Table.get?_put_self _ _ _)
  | proceeds call hc hstage hs =>
    refine hproceeds hs ?_
    obtain ⟨key, ttl, stage⟩ := call
    cases hstage
    exact hc

/-- Only a turn of its own makes a call wait for a permit. -/
theorem waits_before (h : x.state.Sound) {e : Event α} {c : Nat} (he : NoTurn x e c)
    (hw : (step x e).state.Waits c) : x.state.Waits c := by
  rcases doing?_before h he (waits_iff_doing.1 hw) with hd | ⟨hd, -⟩
  · exact waits_iff_doing.2 hd
  · cases hd

/-- Whoever is given a permit by what another call does is woken. -/
theorem mem_woken {s s' : Caller α} {c d : Nat} (hg : d ∈ s'.permits.granted)
    (hold : d ∉ s.permits.granted) : .call d ∈ woken s s' c := by
  refine List.mem_append_right _ (List.mem_map.2 ⟨d, List.mem_filter.2 ⟨hg, ?_⟩, rfl⟩)
  simpa using hold

theorem permits_fire (s : Caller α) (c : Nat) : (s.fire c).permits = s.permits := by
  rcases fire_cases s c with hs | ⟨_, _, -, ⟨-, hs⟩ | ⟨-, hs⟩⟩ | ⟨_, -, -, hs⟩ <;> rw [hs] <;> rfl

/-- A call that an event summons is woken by it. -/
theorem ready_of_summoned (h : x.state.Metered limit) {e : Event α} {c : Nat} (hw : x.state.Waits c)
    (hold : ¬ x.state.Summoned c) (hnew : (step x e).state.Summoned c) :
    .call c ∈ (step x e).ready := by
  have hsame : (step x e).state.permits ≠ x.state.permits := by
    intro hp
    unfold Summoned at hold hnew
    rw [hp] at hnew
    exact hold hnew
  -- where the caller is not closed, the call was given a permit
  have hgiven : (step x e).state.permits.closed = x.state.permits.closed →
      c ∈ (step x e).state.permits.granted ∧ c ∉ x.state.permits.granted := by
    intro hclosed
    refine ⟨hnew.resolve_right fun hcl => hold (Or.inr (hclosed.symm.trans hcl)),
      fun hmem => hold (Or.inl hmem)⟩
  cases step_cases x e with
  | same hx => exact absurd (by rw [hx]) hsame
  | began _ _ _ _ _ _ hx => exact absurd (by rw [hx]; rfl) hsame
  | chore _ _ _ _ hx => exact absurd (by rw [hx]; rfl) hsame
  | delete _ _ hx => exact absurd (by rw [hx]; rfl) hsame
  | deleteStartingWith _ _ hx => exact absurd (by rw [hx]; rfl) hsame
  | fire d _ hx => exact absurd (by rw [hx]; exact permits_fire _ _) hsame
  | turn d answers he hr hx =>
    obtain ⟨hg, hno⟩ := hgiven (closed_step (by rw [he]; rfl))
    subst he
    simp only [step, if_pos hr] at hg ⊢
    exact (Clock.World.mem_wake _ _ _).2 (Or.inr (mem_woken hg hno))
  | drop d he hx =>
    obtain ⟨hg, hno⟩ := hgiven (closed_step (by rw [he]; rfl))
    subst he
    exact (Clock.World.mem_wake _ _ _).2 (Or.inr (mem_woken hg hno))
  | close he hx =>
    subst he
    refine (Clock.World.mem_wake _ _ _).2 (Or.inr (List.mem_map.2 ⟨c, ?_, rfl⟩))
    -- it was in the queue, since it had no permit coming
    have hseat := (h.seated c hw).resolve_right fun hcl => hold (Or.inr hcl)
    exact (Permits.mem_waiters.1 hseat).resolve_right fun hg => hold (Or.inl hg)

/-- **Every event leaves whoever has a permit coming ready.** -/
theorem attended_step (h : Attended x limit) (e : Event α) : Attended (step x e) limit := by
  refine ⟨step_sound h.sound e, step_metered h.metered e, fun c hw hs => ?_⟩
  rcases turn_or_noTurn x e c with ⟨answers, rfl, hr⟩ | hno
  · rw [state_turn hr] at hw hs
    exact absurd hs (waits_turn h.metered hw)
  · have hold := waits_before h.sound hno hw
    by_cases hcalled : x.state.Summoned c
    · have hr := h.called c hold hcalled
      exact ready_of_no_turn (fun answers he => hno answers he hr) hr
    · exact ready_of_summoned h.metered hold hcalled hs

theorem worldAt_attended (h : Attended x limit) (n : Nat) : Attended (worldAt x es n) limit :=
  Trace.after_invariant (P := fun y => Attended y limit) h (fun _ e _ hy => attended_step hy e) n

theorem dawn_attended (name : String) (settings : Config.Settings) (now : Nat) :
    Attended (dawn name settings now : World α)
      (permitsOf settings) :=
  ⟨make_sound name settings now, make_metered name settings now, fun c hw => by
    obtain ⟨call, fired, hc, -⟩ := hw
    cases hc⟩

/-- Whether a call that does this makes an attempt. -/
def Doing.isAttempt : Doing α → Bool
  | .attempting _ _ _ => true
  | _ => false

/-- The calls whose attempt is in progress. -/
def attempting (s : Caller α) : List Nat :=
  s.calls.keys.filter (fun c => ((doing? s c).map Doing.isAttempt).getD false)

/-- A call that goes on among the flights holds a permit. -/
theorem admitted_of_doing {s : Caller α} {c : Nat} {d : Doing α} (h : doing? s c = some d)
    (ha : d ≠ .arriving) (hq : d ≠ .queued) :
    ∃ call, s.calls.get? c = some call ∧ call.stage = .admitted := by
  obtain ⟨call, hc, hopen⟩ := open_of_doing h
  refine ⟨call, hc, ?_⟩
  cases hs : call.stage with
  | arriving fired =>
    rw [doing?_of_arriving hc hs] at h
    cases h; exact absurd rfl ha
  | queued fired =>
    rw [doing?_of_queued hc hs] at h
    cases h; exact absurd rfl hq
  | admitted => rfl
  | ended r t =>
    unfold Call.isOpen at hopen
    rw [hs] at hopen; cases hopen
  | dropped =>
    unfold Call.isOpen at hopen
    rw [hs] at hopen; cases hopen

theorem mem_attempting {s : Caller α} {c : Nat} :
    c ∈ attempting s ↔ ∃ j since o, doing? s c = some (.attempting j since o) := by
  constructor
  · intro hc
    have hattempt := (List.mem_filter.1 hc).2
    cases hd : doing? s c with
    | none => rw [hd] at hattempt; cases hattempt
    | some d =>
      rw [hd] at hattempt
      cases d with
      | attempting j since o => exact ⟨j, since, o, rfl⟩
      | _ => cases hattempt
  · rintro ⟨j, since, o, hd⟩
    obtain ⟨call, hc, -⟩ := open_of_doing hd
    exact List.mem_filter.2 ⟨(Table.mem_keys_iff _ _).2 ⟨call, hc⟩, by rw [hd]; rfl⟩

theorem attempting_subset {s : Caller α} (h : s.Metered limit) : attempting s ⊆ s.holders := by
  intro c hc
  obtain ⟨j, since, o, hd⟩ := mem_attempting.1 hc
  exact (mem_holders h.keys).2 (admitted_of_doing hd (fun hn => by cases hn) (fun hn => by cases hn))

/-- The attempts of some calls are no more than these calls hold permits. -/
theorem attempting_length {s : Caller α} (h : s.Metered limit) (f : Nat → Bool) :
    ((attempting s).filter f).length ≤ (s.holders.filter f).length := by
  have hnodup : ((attempting s).filter f).Nodup := (h.keys.filter _).filter _
  refine (hnodup.subperm fun c hc => ?_).length_le
  obtain ⟨hc, hf⟩ := List.mem_filter.1 hc
  exact List.mem_filter.2 ⟨attempting_subset h hc, hf⟩

/-- A call that takes a turn among the flights has a permit that nobody else holds. -/
theorem room_of_turn {s : Caller α} (h : s.Metered limit) (answers : Answers α) (now c : Nat)
    (hflies : (s.turn answers now c).flights ≠ s.flights) :
    (s.holders.filter (· ≠ c)).length + 1 ≤ limit := by
  have hle : (s.holders.filter (· ≠ c)).length ≤ s.holders.length := List.length_filter_le _ _
  have hbalance := h.balance
  -- a permit that nobody holds is taken
  have hspare : 0 < s.permits.total → (s.holders.filter (· ≠ c)).length + 1 ≤ limit := by
    intro hpos
    omega
  cases turn_cases answers now c s with
  | rest hs => exact absurd (by rw [hs]) hflies
  | turnedAway _ _ _ _ _ _ _ hs => exact absurd (by rw [hs]; rfl) hflies
  | refused _ _ _ _ _ _ hs => exact absurd (by rw [hs]; rfl) hflies
  | cancelled _ _ _ _ _ hs => exact absurd (by rw [hs]; rfl) hflies
  | queues _ _ _ _ _ hs => exact absurd (by rw [hs]; rfl) hflies
  | leaves _ _ _ hs => exact absurd (by rw [hs]; rfl) hflies
  | boards call _ _ _ _ _ hg =>
    refine hspare ?_
    have htotal := Permits.total_request s.permits c
    rw [hg] at htotal
    simp only [if_true] at htotal
    omega
  | claims call _ _ hg =>
    refine hspare ?_
    have htotal := Permits.total_claim hg
    omega
  | proceeds call hc hs =>
    -- it held its permit before
    have hmem : c ∈ s.holders := (mem_holders h.keys).2 ⟨call, hc, hs⟩
    have hlt : (s.holders.filter (· ≠ c)).length < s.holders.length :=
      List.length_filter_lt_length_iff_exists.2 ⟨c, hmem, by simp⟩
    omega

/-- Nobody that is under way can move. -/
def Quiescent (x : World α) : Prop := ∀ c, .call c ∈ x.ready → doing? x.state c = none

/-- The attempts and the permits of a caller after `n` events. -/
structure Bounded (x : World α) (es : List (Event α)) (limit n : Nat) : Prop where
  attempts : (attempting (worldAt x es n).state).length ≤ limit
  /-- While a call makes attempts in its turn, the attempts of the others leave room for one. -/
  beside : ∀ c answers, es[n]? = some (.turn c answers) → mark x es n < mark x es (n + 1) →
    ((attempting (worldAt x es n).state).filter (· ≠ c)).length + 1 ≤ limit ∧
      ∀ d, d ≠ c → (d ∈ attempting (worldAt x es (n + 1)).state ↔
        d ∈ attempting (worldAt x es n).state)
  /-- A permit is free, on its way to a call that waits for it, or held. -/
  balance : (worldAt x es n).state.permits.free + (worldAt x es n).state.permits.granted.length +
    (worldAt x es n).state.holders.length = limit
  settled : Quiescent (worldAt x es n) → ((worldAt x es n).state.health (worldAt x es n).now).available +
    (worldAt x es n).state.holders.length = limit
  /-- When no call is in progress, every permit is free. -/
  idle : (∀ c, doing? (worldAt x es n).state c = none) →
    ((worldAt x es n).state.health (worldAt x es n).now).available = limit

/-- No permit is on its way to anybody when nobody can move. -/
theorem Attended.granted_eq_nil (h : Attended x limit) (hq : Quiescent x) :
    x.state.permits.granted = [] := by
  refine List.eq_nil_iff_forall_not_mem.2 fun c hc => ?_
  have hw := h.metered.waits c (Permits.mem_waiters.2 (Or.inr hc))
  have hnone := hq c (h.called c hw (Or.inl hc))
  rw [waits_iff_doing.1 hw] at hnone
  cases hnone

/-- Whoever holds a permit is doing something among the flights. -/
theorem doing_of_holder {s : Caller α} (hp : Placed s) (h : s.Metered limit) {c : Nat}
    (hc : c ∈ s.holders) : ∃ p d, phase? s c = some p ∧ phaseDoing p = some d ∧
      doing? s c = some d := by
  obtain ⟨call, hcall, hs⟩ := (mem_holders h.keys).1 hc
  obtain ⟨p, d, hphase, hd⟩ := hp.aboard c call hcall hs
  refine ⟨p, d, hphase, hd, ?_⟩
  rw [doing?_of_admitted hcall hs, hphase]
  exact hd

theorem holders_eq_nil {s : Caller α} (hp : Placed s) (h : s.Metered limit)
    (hidle : ∀ c, doing? s c = none) : s.holders = [] := by
  refine List.eq_nil_iff_forall_not_mem.2 fun c hc => ?_
  obtain ⟨_, d, -, -, hd⟩ := doing_of_holder hp h hc
  rw [hidle c] at hd
  cases hd

/-- Where nobody can move, every permit is free or held. -/
theorem Attended.settled (h : Attended x limit) (hq : Quiescent x) :
    x.state.permits.free + x.state.holders.length = limit := by
  have hbalance := h.metered.balance
  unfold Permits.total at hbalance
  rw [h.granted_eq_nil hq, List.length_nil, Nat.add_zero] at hbalance
  exact hbalance

/-- Where no call is in progress, every permit is free. -/
theorem Attended.all_free (h : Attended x limit) (hp : Placed x.state)
    (hidle : ∀ c, doing? x.state c = none) : x.state.permits.free = limit := by
  have hsum := h.settled fun c _ => hidle c
  rw [holders_eq_nil hp h.metered hidle] at hsum
  exact hsum

/-- A turn that makes entries in the log takes place among the flights. -/
theorem room_of_entry {n : Nat} (h : (worldAt x es n).state.Metered limit) {c : Nat}
    {answers : Answers α} (he : es[n]? = some (.turn c answers))
    (hmark : mark x es n < mark x es (n + 1)) :
    ((worldAt x es n).state.holders.filter (· ≠ c)).length + 1 ≤ limit := by
  have hlog : log (worldAt x es (n + 1)).state ≠ log (worldAt x es n).state := by
    intro hsame
    unfold mark at hmark
    rw [hsame] at hmark
    exact absurd hmark (Nat.lt_irrefl _)
  rw [worldAt_succ x he] at hlog
  by_cases hr : .call c ∈ (worldAt x es n).ready
  · refine room_of_turn h answers (worldAt x es n).now c fun hflights => hlog ?_
    rw [state_turn hr, log, hflights]
    rfl
  · rw [step_of_idle hr] at hlog
    exact absurd rfl hlog

/-- **The permits bound the attempts, and none is lost.** At every point of every run as many
permits as the caller was made with are free, on their way to a call in the queue, or held by a
call that has not ended or been dropped, and no more attempts are in progress; where no call can
move, every permit is free or held. -/
theorem permits_balance (name : String) (settings : Config.Settings) (now : Nat)
    (es : List (Event α)) (n : Nat) :
    Bounded (dawn name settings now) es (permitsOf settings) n := by
  have hattended : ∀ n, Attended (worldAt (dawn name settings now) es n) (permitsOf settings) :=
    worldAt_attended (dawn_attended name settings now)
  have hplaced : Placed (worldAt (dawn name settings now) es n).state :=
    worldAt_placed (make_placed name settings now) n
  have h := (hattended n).metered
  have hbalance := h.balance
  unfold Permits.total at hbalance
  refine ⟨?_, fun c answers he hmark => ⟨?_, fun d hd => ?_⟩, hbalance, (hattended n).settled,
    (hattended n).all_free hplaced⟩
  · have hle := attempting_length h (fun _ => true)
    rw [List.filter_true, List.filter_true] at hle
    omega
  · exact Nat.le_trans (Nat.add_le_add_right (attempting_length h _) 1) (room_of_entry h he hmark)
  · have hother : Event.call? (.turn c answers : Event α) ≠ some d := fun hn => hd (by cases hn; rfl)
    rw [mem_attempting, mem_attempting, worldAt_succ _ he,
      (doing?_frame (hattended n).sound hother).1]

end RegistryLookup.Caller
