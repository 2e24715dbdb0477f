import RegistryLookup.Proofs.Caller.Capacity
import RegistryLookup.Proofs.Caller.Isolation

/-!
# No deadlock between permits and flights

A call keeps its permit while it waits for the flight of another call, so calls that wait may hold
all permits. They do not wait in a circle: whoever leads a flight holds a permit of its own, and
makes an attempt or rests between two of them.

* `manned_step`: whoever is busy among the flights is a call with a permit.
* `atWork_of_waiting`: the leader for whom a call waits is at work.
* `no_deadlock`: where nobody can move, somebody is at work, and every other call waits for
  somebody who is.
-/

namespace RegistryLookup.Caller

open Flight

variable {α : Type} {x : World α} {es : List (Event α)} {limit : Nat}

/-- What a call does among the flights is what it does as a call of the caller. -/
def Manned (s : Caller α) : Prop :=
  ∀ c p d, phase? s c = some p → phaseDoing p = some d → doing? s c = some d

/-- A call that is dropped among the flights is not busy there. -/
theorem phaseDoing_drop {F : Flights (Store α) (Load α) α} {c : Nat} {p : Phase (Load α) α}
    (h : ((F.drop c).calls.get? c).map (·.phase) = some p) : phaseDoing p = none := by
  unfold Flights.drop at h
  cases hc : F.calls.get? c with
  | none =>
    simp only [hc] at h
    cases h
  | some fcall =>
    have hdropped : (((F.become c fcall .dropped).land fcall.key c).calls.get? c).map (·.phase) =
        some .dropped := by
      rw [Flights.calls_land, Flights.calls_become, Table.get?_put_self]
      rfl
    cases hp : fcall.phase with
    | ended E =>
      simp only [hc, hp, Option.map_some] at h
      cases h; rfl
    | _ =>
      simp only [hc, hp] at h
      rw [hdropped] at h
      cases h; rfl

theorem manned_turn (h : Placed x.state) (hm : Manned x.state) (c : Nat) (answers : Answers α)
    {p : Phase (Load α) α} {d : Doing α}
    (hp : phase? (step x (.turn c answers)).state c = some p) (hd : phaseDoing p = some d) :
    doing? (step x (.turn c answers)).state c = some d := by
  by_cases hr : .call c ∈ x.ready
  swap
  · rw [step_of_idle hr] at hp ⊢
    exact hm c p d hp hd
  -- a call that changes nothing among the flights was not busy there
  have hquiet : (step x (.turn c answers)).state.flights = x.state.flights →
      doing? x.state c = some .arriving ∨ doing? x.state c = some .queued →
      doing? (step x (.turn c answers)).state c = some d := by
    intro hflights hold
    unfold phase? at hp
    rw [hflights] at hp
    have hbusy := hm c p d hp hd
    obtain ⟨ha, hq⟩ := ne_of_phaseDoing hd
    rcases hold with hold | hold
    · rw [hbusy] at hold
      cases hold; exact absurd rfl ha
    · rw [hbusy] at hold
      cases hold; exact absurd rfl hq
  cases took h answers hr with
  | rests hsame =>
    rw [hsame] at hp ⊢
    exact hm c p d hp hd
  | turnedAway _ _ _ hold _ hflights =>
    exact hquiet hflights (hold.imp_right fun hq => hq.1)
  | cancelled _ _ hold _ hflights => exact hquiet hflights hold
  | queues _ _ hold _ _ hflights => exact hquiet hflights (Or.inl hold)
  | flies call fired ns p' _ _ _ _ hflies hafter =>
    rw [phase?_eq hflies.there] at hp
    cases hp
    exact (hflies.doing_eq hafter).trans hd

theorem manned_drop (h : x.state.Sound) (hm : Manned x.state) (c : Nat) {p : Phase (Load α) α}
    {d : Doing α} (hp : phase? (x.state.drop c) c = some p) (hd : phaseDoing p = some d) :
    doing? (x.state.drop c) c = some d := by
  exfalso
  rcases drop_cases x.state c with hs | ⟨call, hc, ⟨fired, q, hst, -, hs⟩ | ⟨-, hs⟩⟩
  · -- nothing to drop, so nothing that was busy
    have hnone := doing?_drop x.state c
    rw [hs] at hp hnone
    rw [hm c p d hp hd] at hnone
    cases hnone
  · have hashore : call.stage.isAshore = true := by
      rcases hst with hst | hst <;> rw [hst] <;> rfl
    rw [hs] at hp
    have hno : phase? x.state c = some p := hp
    unfold phase? at hno
    rw [h.ashore c call hc hashore] at hno
    cases hno
  · rw [hs] at hp
    rw [phaseDoing_drop (F := x.state.flights) (c := c) hp] at hd
    cases hd

/-- **Every event leaves whoever is busy among the flights with a permit.** -/
theorem manned_step (h : Placed x.state) (hm : Manned x.state) (e : Event α) :
    Manned (step x e).state := by
  intro c p d hp hd
  by_cases he : e.call? = some c
  swap
  · -- the events of other calls do not matter
    rw [(doing?_frame h.sound he).1]
    unfold phase? at hp
    rw [(frame h.sound he).2] at hp
    exact hm c p d hp hd
  cases e with
  | call c' key ttl fired =>
    cases he
    cases hc : x.state.calls.get? c with
    | some call =>
      rw [step_of_known hc] at hp ⊢
      exact hm c p d hp hd
    | none =>
      simp only [step, hc, Option.isSome_none, Bool.false_eq_true, if_false,
        Clock.World.state_wake] at hp
      have hold : phase? x.state c = some p := hp
      obtain ⟨call, hknown⟩ := h.sound.known hold
      rw [hc] at hknown; cases hknown
  | turn c' answers =>
    cases he
    exact manned_turn h hm c answers hp hd
  | fire c' =>
    cases he
    have hx : (step x (.fire c)).state = x.state.fire c := rfl
    rw [hx] at hp ⊢
    rw [doing?_fire]
    refine hm c p d ?_ hd
    rcases fire_cases x.state c with hs | ⟨call, fired, -, ⟨-, hs⟩ | ⟨-, hs⟩⟩ | ⟨call, -, -, hs⟩
    · rw [hs] at hp; exact hp
    · rw [hs] at hp; exact hp
    · rw [hs] at hp; exact hp
    · rw [hs, phase?_fire] at hp; exact hp
  | abort c' =>
    cases he
    exact manned_drop h.sound hm c hp hd
  | _ => cases he

theorem worldAt_manned (h : Placed x.state) (hm : Manned x.state) (n : Nat) :
    Manned (worldAt x es n).state := by
  have hboth : Placed (worldAt x es n).state ∧ Manned (worldAt x es n).state :=
    Trace.after_invariant (P := fun (y : World α) => Placed y.state ∧ Manned y.state) ⟨h, hm⟩
      (fun y e _ hy => ⟨placed_step hy.1 e, manned_step hy.1 hy.2 e⟩) n
  exact hboth.2

/-- A call makes an attempt, or rests between two of them. -/
def AtWork (s : Caller α) (c : Nat) : Prop :=
  c ∈ attempting s ∨ ∃ wakesAt, doing? s c = some (.resting wakesAt)

theorem atWork_iff {s : Caller α} {c : Nat} : AtWork s c ↔
    ∃ d, doing? s c = some d ∧ d ≠ .arriving ∧ d ≠ .queued ∧ ∀ l, d ≠ .waiting l := by
  constructor
  · rintro (hc | ⟨wakesAt, hd⟩)
    · obtain ⟨j, since, o, hd⟩ := mem_attempting.1 hc
      exact ⟨_, hd, nofun, nofun, nofun⟩
    · exact ⟨_, hd, nofun, nofun, nofun⟩
  · rintro ⟨d, hd, ha, hq, hw⟩
    cases d with
    | arriving => exact absurd rfl ha
    | queued => exact absurd rfl hq
    | waiting l => exact absurd rfl (hw l)
    | attempting j since o => exact Or.inl (mem_attempting.2 ⟨j, since, o, hd⟩)
    | resting wakesAt => exact Or.inr ⟨wakesAt, hd⟩

/-- Whoever leads a flight is at work. -/
theorem atWork_of_leads {s : Caller α} (h : Placed s) (hm : Manned s) {key : String} {l : Nat}
    (hl : s.flights.Leads key l) : AtWork s l := by
  obtain ⟨fired, load, hlead⟩ := hl
  obtain ⟨call, hc, hcarries⟩ := h.sound.carried l _ hlead
  obtain ⟨loop, hload⟩ := hcarries.leads load rfl
  have hphase : phase? s l = some (.leading load) := phase?_eq hlead
  -- its loop has begun, so it is in an attempt or in a rest
  have hbegun : loop.Begun := (h.seaworthy l load loop hphase (by rw [hload])).2
  have hbusy : ∃ d, phaseDoing (.leading load : Phase (Load α) α) = some d := by
    rw [hload]
    unfold phaseDoing loopDoing
    cases hp : loop.phase with
    | ready => exact absurd hp hbegun
    | attempting since o => exact ⟨_, by simp only [hp]; rfl⟩
    | resting wakesAt => exact ⟨_, by simp only [hp]; rfl⟩
  obtain ⟨d, hd⟩ := hbusy
  have hdoing := hm l _ d hphase hd
  obtain ⟨ha, hq⟩ := ne_of_phaseDoing hd
  refine atWork_iff.2 ⟨d, hdoing, ha, hq, fun l' hw => ?_⟩
  rw [hw] at hdoing
  obtain ⟨load', hwaiting⟩ := phase_of_waiting hdoing
  rw [hphase] at hwaiting
  cases hwaiting

theorem holder_of_atWork {s : Caller α} (h : s.Metered limit) {c : Nat} (hc : AtWork s c) :
    c ∈ s.holders := by
  obtain ⟨d, hd, ha, hq, -⟩ := atWork_iff.1 hc
  exact (mem_holders h.keys).2 (admitted_of_doing hd ha hq)

/-- What a call does that is under way, where nobody can move. -/
theorem mayWait_of_quiescent (h : Wakeful x) (hq : Quiescent x) {c : Nat} {d : Doing α}
    (hd : doing? x.state c = some d) : MayWait x c d := by
  refine (h.woken c d hd).resolve_left fun hr => ?_
  rw [hq c hr] at hd
  cases hd

theorem atWork_of_waiting (h : Wakeful x) (hm : Manned x.state) (hq : Quiescent x) {c l : Nat}
    (hd : doing? x.state c = some (.waiting l)) :
    ∃ key, HasKey x.state c key ∧ x.state.flights.Leads key l ∧ AtWork x.state l := by
  cases mayWait_of_quiescent h hq hd with
  | waiting l _ hl =>
    obtain ⟨key, hkey, hleads⟩ := leads_of_waiting h.placed.sound hd hl
    exact ⟨key, hkey, hleads, atWork_of_leads h.placed hm hleads⟩

/-- A call waits for a permit only while every permit is held. -/
theorem all_held (h : Attended x limit) (hq : Quiescent x) {c : Nat}
    (hd : doing? x.state c = some .queued) : x.state.holders.length = limit := by
  have hw := waits_iff_doing.2 hd
  have hnot : ¬ x.state.Summoned c := by
    intro hs
    rw [hq c (h.called c hw hs)] at hd
    cases hd
  -- it is in the queue, so no permit is free
  have hseat := (h.metered.seated c hw).resolve_right fun hcl => hnot (Or.inr hcl)
  have hqueue := (Permits.mem_waiters.1 hseat).resolve_right fun hg => hnot (Or.inl hg)
  have hfree := h.metered.fair.busy (List.ne_nil_of_mem hqueue)
  have hbalance := h.metered.balance
  unfold Permits.total at hbalance
  rw [hfree, h.granted_eq_nil hq, List.length_nil] at hbalance
  omega

/-- Where nobody can move, everybody waits for somebody who is at work. -/
structure Unblocked (s : Caller α) (limit : Nat) : Prop where
  working : (∃ c, doing? s c ≠ none) → ∃ c, AtWork s c
  /-- All permits are held by calls under way while a call waits for one. -/
  queued : ∀ c, doing? s c = some .queued →
    s.holders.Nodup ∧ s.holders.length = limit ∧ ∀ d ∈ s.holders, doing? s d ≠ none
  /-- The flight that a call waits for has a leader, with a permit and at work. -/
  led : ∀ c l, doing? s c = some (.waiting l) → ∃ key, HasKey s c key ∧
    s.flights.Leads key l ∧ l ∈ s.holders ∧ AtWork s l

/-- **Permits and flights do not lock each other.** At every point of every run where no call can
move: if a call is under way, some call makes an attempt or rests before its next one; a call that
waits for a permit sees all of them held by calls under way; and the leader for whom a call waits
holds a permit and is at work. -/
theorem no_deadlock (name : String) (settings : Config.Settings) (now : Nat)
    (es : List (Event α)) (n : Nat) (hq : Quiescent (worldAt (dawn name settings now) es n)) :
    Unblocked (worldAt (dawn name settings now) es n).state (permitsOf settings) := by
  have hwakeful : Wakeful (worldAt (dawn name settings now) es n) :=
    worldAt_wakeful (dawn_wakeful name settings now) n
  have hattended : Attended (worldAt (dawn name settings now) es n) (permitsOf settings) :=
    worldAt_attended (dawn_attended name settings now) n
  have hmanned : Manned (worldAt (dawn name settings now) es n).state :=
    worldAt_manned (make_placed name settings now) (fun c p d hp => by cases hp) n
  generalize worldAt (dawn name settings now) es n = y at hq hwakeful hattended hmanned ⊢
  have hled : ∀ c l, doing? y.state c = some (.waiting l) → ∃ key, HasKey y.state c key ∧
      y.state.flights.Leads key l ∧ l ∈ y.state.holders ∧ AtWork y.state l := by
    intro c l hd
    obtain ⟨key, hkey, hleads, hwork⟩ := atWork_of_waiting hwakeful hmanned hq hd
    exact ⟨key, hkey, hleads, holder_of_atWork hattended.metered hwork, hwork⟩
  -- whoever has a permit is at work, or waits for somebody who is
  have hbusy : ∀ c d, doing? y.state c = some d → d ≠ .arriving → d ≠ .queued →
      ∃ c, AtWork y.state c := by
    intro c d hd ha hq
    by_cases hw : ∃ l, d = .waiting l
    · obtain ⟨l, rfl⟩ := hw
      obtain ⟨_, _, _, _, hwork⟩ := hled c l hd
      exact ⟨l, hwork⟩
    · exact ⟨c, atWork_iff.2 ⟨d, hd, ha, hq, fun l hl => hw ⟨l, hl⟩⟩⟩
  refine ⟨?_, fun c hd => ⟨nodup_holders hattended.metered.keys, all_held hattended hq hd,
    fun d hmem hnone => ?_⟩, hled⟩
  · rintro ⟨c, hc⟩
    obtain ⟨d, hd⟩ := Option.ne_none_iff_exists'.1 hc
    have harriving : d ≠ .arriving := by
      rintro rfl
      cases mayWait_of_quiescent hwakeful hq hd
    by_cases hqueued : d = .queued
    · -- the permits that it waits for are held
      rw [hqueued] at hd
      have hpos : 0 < y.state.holders.length := by
        rw [all_held hattended hq hd]
        exact Nat.lt_of_lt_of_le Nat.zero_lt_one (Nat.le_max_left _ _)
      obtain ⟨h, hh⟩ := List.exists_mem_of_length_pos hpos
      obtain ⟨p, d', -, hp, hd'⟩ := doing_of_holder hwakeful.placed hattended.metered hh
      obtain ⟨ha, hnq⟩ := ne_of_phaseDoing hp
      exact hbusy h d' hd' ha hnq
    · exact hbusy c d hd harriving hqueued
  · obtain ⟨_, d', -, -, hd'⟩ := doing_of_holder hwakeful.placed hattended.metered hmem
    rw [hnone] at hd'
    cases hd'

/-- A call makes an attempt, one waits for its flight, and one waits for a permit. -/
def allHeld : List (Event Nat) :=
  [.call 0 "k" 60 false, .turn 0 silence, .call 1 "k" 60 false, .turn 1 silence,
    .call 2 "m" 60 false, .turn 2 silence]

/-- The call with the attempt is the one for whom the others wait. -/
theorem allHeld_unblocked : Quiescent (worldAt (dawn "r" twoPermits 0) allHeld 6) ∧
    doing? (worldAt (dawn "r" twoPermits 0) allHeld 6).state 1 = some (.waiting 0) ∧
    doing? (worldAt (dawn "r" twoPermits 0) allHeld 6).state 2 = some .queued ∧
    Unblocked (worldAt (dawn "r" twoPermits 0) allHeld 6).state 2 := by
  have hready : (worldAt (dawn "r" twoPermits 0) allHeld 6).ready = [] := by decide
  have hq : Quiescent (worldAt (dawn "r" twoPermits 0) allHeld 6) := by
    intro c hc
    rw [hready] at hc
    cases hc
  exact ⟨hq, rfl, rfl, no_deadlock "r" twoPermits 0 allHeld 6 hq⟩

end RegistryLookup.Caller
