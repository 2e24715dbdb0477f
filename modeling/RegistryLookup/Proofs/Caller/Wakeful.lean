import RegistryLookup.Proofs.Caller.Standing
import RegistryLookup.Proofs.Clock

/-!
# No call is forgotten

After every event a call that is under way is ready, or what it waits for has not come: its token
has not fired while it waits for a permit, a flight or the end of a rest, the flight that it waits
for is under way, and the end of its attempt or of its rest is yet to come (`Wakeful`). So a call
whose token has fired is ready unless it makes an attempt, and no call waits for a flight that is
over without being ready.

* `ready_step`, `ready_of_freed`: who is ready after an event.
* `worldAt_wakeful`: the invariant holds at every point of a run.
-/

namespace RegistryLookup.Caller

open Flight

variable {α : Type} {x : World α} {es : List (Event α)}

/-- What a call waits for has not come. -/
inductive MayWait (x : World α) (c : Nat) : Doing α → Prop
  | queued (hf : fired? x.state c = false) : MayWait x c .queued
  | waiting (l : Nat) (hf : fired? x.state c = false) (hl : x.state.flights.fate l = .flying) :
      MayWait x c (.waiting l)
  | attempting (j : UInt32) (since : Nat) (o : Retry.Outcome α)
      (h : ∀ d, o.takes = some d → x.now < since + d) : MayWait x c (.attempting j since o)
  | resting (wakesAt : Nat) (hf : fired? x.state c = false) (h : x.now < wakesAt) :
      MayWait x c (.resting wakesAt)

/-- Every call that is under way is ready, or what it waits for has not come. -/
structure Wakeful (x : World α) : Prop where
  placed : Placed x.state
  woken : ∀ c d, doing? x.state c = some d → .call c ∈ x.ready ∨ MayWait x c d

/-- The task that runs in an event. -/
def Event.task? : Event α → Option Task
  | .turn c _ => some (.call c)
  | .chore work _ => some (.chore work)
  | .fire c => some (.fire c)
  | .abort c => some (.abort c)
  | _ => none

/-- **Only what runs in an event is no longer ready after it.** -/
theorem ready_step {e : Event α} {t : Task} (he : e.task? ≠ some t) (h : t ∈ x.ready) :
    t ∈ (step x e).ready := by
  have hwake : ∀ {s : Caller α} {now : Nat} {tasks : List Task},
      t ∈ (Clock.World.wake ⟨now, s, x.ready⟩ tasks).ready :=
    (Clock.World.mem_wake _ _ _).2 (Or.inl h)
  have hkept : ∀ {task : Task}, task ≠ t → t ∈ x.ready.filter (· ≠ task) := fun hne =>
    List.mem_filter.2 ⟨h, decide_eq_true (Ne.symm hne)⟩
  have hrun : ∀ {task : Task} {answers : Answers α}, task ≠ t →
      t ∈ (runTask x task answers).ready := fun hne =>
    (Clock.World.mem_wake _ _ _).2 (Or.inl (hkept hne))
  cases e with
  | call d key ttl fired =>
    simp only [step]
    split
    · exact h
    · exact hwake
  | turn d answers =>
    simp only [step]
    split
    · exact hrun fun hn => he (congrArg some hn)
    · exact h
  | chore chore timerFirst =>
    simp only [step]
    split
    · exact hkept fun hn => he (congrArg some hn)
    · exact h
  | wake d => exact hwake
  | fire d => exact hrun fun hn => he (congrArg some hn)
  | abort d => exact hrun fun hn => he (congrArg some hn)
  | close => exact hwake
  | delete key => exact h
  | deleteStartingWith start => exact h
  | pass limit =>
    show t ∈ (x.pass (system silence) limit).ready
    exact (Clock.World.mem_pass _).2 (Or.inl h)

/-- Only a turn of a call makes it unready. -/
theorem ready_of_no_turn {e : Event α} {c : Nat} (he : ∀ answers, e ≠ .turn c answers)
    (h : .call c ∈ x.ready) : .call c ∈ (step x e).ready := by
  refine ready_step (fun htask => ?_) h
  cases e with
  | turn d answers =>
    cases htask
    exact he answers rfl
  | _ => cases htask

/-- Whoever waits for a flight that is over is ready after the event that ended it. -/
theorem ready_of_freed {e : Event α} {c l : Nat} (he : e = .abort l ∨
      ∃ answers, e = .turn l answers ∧ .call l ∈ x.ready)
    (h : c ∈ (step x e).state.flights.freedBy l) : .call c ∈ (step x e).ready := by
  have hwoken : ∀ {before after : Caller α}, c ∈ after.flights.freedBy l →
      .call c ∈ woken before after l := fun hc =>
    List.mem_append_left _ (List.mem_append_right _ (List.mem_map.2 ⟨c, hc, rfl⟩))
  rcases he with rfl | ⟨answers, rfl, hr⟩
  · exact (Clock.World.mem_wake _ _ _).2 (Or.inr (hwoken h))
  · simp only [step, if_pos hr] at h ⊢
    exact (Clock.World.mem_wake _ _ _).2 (Or.inr (hwoken h))

/-- A flight under way is over only after a turn of its leader, or after its drop. -/
theorem flying_step (h : x.state.Sound) (e : Event α) {l : Nat}
    (hl : x.state.flights.fate l = .flying) : (step x e).state.flights.fate l = .flying ∨
      e = .abort l ∨ ∃ answers, e = .turn l answers ∧ .call l ∈ x.ready := by
  rw [fate_eq] at hl ⊢
  cases voyage h e with
  | calm _ hphase => rw [hphase l]; exact Or.inl hl
  | moved d call p _ _ hothers hleg =>
    by_cases hld : l = d
    swap
    · rw [hothers l hld]; exact Or.inl hl
    subst hld
    have hturn : ∀ {answers : Answers α}, e = .turn l answers →
        (phase? (step x e).state l).elim Fate.lost Phase.fate = .flying ∨ e = .abort l ∨
          ∃ answers, e = .turn l answers ∧ .call l ∈ x.ready := by
      rintro answers rfl
      by_cases hr : .call l ∈ x.ready
      · exact Or.inr (Or.inr ⟨answers, rfl, hr⟩)
      · rw [step_of_idle hr]; exact Or.inl hl
    cases hleg with
    | dropped he => exact Or.inr (Or.inl he)
    | waits answers _ _ he => exact hturn he
    | givesUp answers he => exact hturn he
    | served answers _ _ _ he => exact hturn he
    | found answers _ he => exact hturn he
    | tries answers _ _ _ ht => exact hturn ht.event

/-- **A call that waits for a flight is ready as soon as the flight is over.** -/
theorem flying_or_ready (h : x.state.Sound) (e : Event α) {c l : Nat}
    (hc : doing? (step x e).state c = some (.waiting l))
    (hl : x.state.flights.fate l = .flying) :
    (step x e).state.flights.fate l = .flying ∨ .call c ∈ (step x e).ready := by
  rcases flying_step h e hl with hfly | he
  · exact Or.inl hfly
  by_cases hfly : (step x e).state.flights.fate l = .flying
  · exact Or.inl hfly
  right
  obtain ⟨load, hp⟩ := phase_of_waiting hc
  obtain ⟨fcall, hf, hphase⟩ := Option.map_eq_some_iff.1 hp
  exact ready_of_freed he (Flights.mem_freedBy hf hphase hfly)

/-- The timer of a call that makes attempts is set. -/
theorem mem_timers_of_loop {s : Caller α} {c t : Nat} {d : Doing α} (hd : doing? s c = some d)
    {key : String} {ttl : Nat} {loop : Retry.Loop α}
    (hp : phase? s c = some (.leading ⟨key, ttl, .trying loop⟩)) (ht : loop.timer = some t) :
    (t, .call c) ∈ s.timers [] := by
  obtain ⟨call, hc, ho⟩ := open_of_doing hd
  obtain ⟨⟨fkey, fired, phase⟩, hf, rfl⟩ := Option.map_eq_some_iff.1 hp
  have hwork : s.workTimer c = some t := by
    unfold workTimer
    simp only [hf]
    exact ht
  unfold timers
  refine List.mem_append_left _ (List.mem_flatMap.2 ⟨(c, call), Table.mem_of_get? hc, ?_⟩)
  simp only [ho, if_true, hwork]
  exact List.mem_append_left _ (List.mem_append_left _ (List.mem_singleton.2 rfl))

theorem mem_timers_of_attempting {s : Caller α} {c since d : Nat} {j : UInt32}
    {o : Retry.Outcome α} (h : doing? s c = some (.attempting j since o))
    (ht : o.takes = some d) : (since + d, .call c) ∈ s.timers [] := by
  obtain ⟨key, ttl, loop, hp, hloop⟩ := loop_of_doing h (nofun) (nofun) (nofun)
  refine mem_timers_of_loop h hp ?_
  rcases loopDoing_eq hloop with ⟨since', o', hphase, hd⟩ | ⟨wakesAt, -, hd⟩
  · cases hd
    unfold Retry.Loop.timer
    simp only [hphase, ht, Option.map_some]
  · cases hd

theorem mem_timers_of_resting {s : Caller α} {c wakesAt : Nat}
    (h : doing? s c = some (.resting wakesAt)) : (wakesAt, .call c) ∈ s.timers [] := by
  obtain ⟨key, ttl, loop, hp, hloop⟩ := loop_of_doing h (nofun) (nofun) (nofun)
  refine mem_timers_of_loop h hp ?_
  rcases loopDoing_eq hloop with ⟨since', o', -, hd⟩ | ⟨w, hphase, hd⟩
  · cases hd
  · cases hd
    unfold Retry.Loop.timer
    simp only [hphase]

/-- Time does not pass beyond a timer without making its call ready. -/
theorem timer_pass (limit : Nat) {c t : Nat} (ht : (t, .call c) ∈ x.state.timers [])
    (hlt : x.now < t) :
    (step x (.pass limit)).now < t ∨
      ((step x (.pass limit)).now = t ∧ .call c ∈ (step x (.pass limit)).ready) := by
  have hmem : (t, .call c) ∈ (system (silence : Answers α)).timers x.state := ht
  have hle : (x.pass (system silence) limit).now ≤ t := Clock.World.pass_le _ hmem hlt
  rcases Nat.lt_or_eq_of_le hle with hnow | hnow
  · exact Or.inl hnow
  · refine Or.inr ⟨hnow, ?_⟩
    show .call c ∈ (x.pass (system silence) limit).ready
    refine (Clock.World.mem_pass _).2 (Or.inr ⟨by rw [hnow]; exact hlt, ?_⟩)
    rw [hnow]
    exact hmem

/-- Time stands still but for one kind of event. -/
theorem now_step_of_ne {e : Event α} (he : ∀ limit, e ≠ .pass limit) :
    (step x e).now = x.now := by
  cases e with
  | call c key ttl fired => simp only [step]; split <;> rfl
  | turn c answers => simp only [step]; split <;> rfl
  | chore chore timerFirst => simp only [step]; split <;> rfl
  | pass limit => exact absurd rfl (he limit)
  | _ => rfl

/-- What holds while a call waits for something that is not an instant. -/
theorem MayWait.keep {y : World α} {c : Nat} {d : Doing α} (h : MayWait x c d)
    (hf : fired? y.state c = fired? x.state c) (hnow : y.now = x.now)
    (hl : ∀ l, d = .waiting l → x.state.flights.fate l = .flying →
      y.state.flights.fate l = .flying) : MayWait y c d := by
  cases h with
  | queued h => exact .queued (hf.trans h)
  | waiting l h hfly => exact .waiting l (hf.trans h) (hl l rfl hfly)
  | attempting j since o h => exact .attempting j since o fun d hd => by rw [hnow]; exact h d hd
  | resting wakesAt h hlt => exact .resting wakesAt (hf.trans h) (by rw [hnow]; exact hlt)

/-- Time passes up to the end of what calls wait for. -/
theorem woken_pass (h : Wakeful x) (limit : Nat) {c : Nat} {d : Doing α}
    (hd : doing? x.state c = some d) : .call c ∈ (step x (.pass limit)).ready ∨
      MayWait (step x (.pass limit)) c d := by
  have hstate : (step x (.pass limit)).state = x.state :=
    show (x.pass (system silence) limit).state = x.state from Clock.World.state_pass
  rcases h.woken c d hd with hr | hwait
  · exact Or.inl (ready_of_no_turn (fun _ hn => by cases hn) hr)
  cases hwait with
  | queued hf => exact Or.inr (.queued (by rw [hstate]; exact hf))
  | waiting l hf hl =>
    exact Or.inr (.waiting l (by rw [hstate]; exact hf) (by rw [hstate]; exact hl))
  | attempting j since o hlt =>
    cases ht : o.takes with
    | none => exact Or.inr (.attempting j since o fun d hd => by rw [ht] at hd; cases hd)
    | some d =>
      rcases timer_pass limit (mem_timers_of_attempting hd ht) (hlt d ht) with
        hnow | ⟨-, hr⟩
      · refine Or.inr (.attempting j since o fun d' hd' => ?_)
        rw [ht] at hd'; cases hd'
        exact hnow
      · exact Or.inl hr
  | resting wakesAt hf hlt =>
    rcases timer_pass limit (mem_timers_of_resting hd) hlt with hnow | ⟨-, hr⟩
    · exact Or.inr (.resting wakesAt (by rw [hstate]; exact hf) hnow)
    · exact Or.inl hr

/-- What a call waits for after its turn has not come. -/
theorem mayWait_of_turn (h : Placed x.state) {c : Nat} (answers : Answers α)
    (hr : .call c ∈ x.ready) {d : Doing α}
    (hd : doing? (step x (.turn c answers)).state c = some d) :
    MayWait (step x (.turn c answers)) c d := by
  have hnow : (step x (.turn c answers)).now = x.now := now_step_of_ne (fun _ hn => by cases hn)
  -- a call that has ended does nothing
  have hover : ∀ {call : Call α} {r : Except Failure α} {b : Prop},
      (step x (.turn c answers)).state.calls.get? c =
        some { call with stage := .ended r x.now } → b := by
    intro call r b hc
    rw [doing?_of_over hc rfl] at hd; cases hd
  cases took h answers hr with
  | rests hsame hq =>
    rw [hsame] at hd
    rcases hq with hnone | ⟨hq, hf⟩
    · rw [hnone] at hd; cases hd
    · rw [hq] at hd; cases hd
      exact .queued (by rw [hsame]; exact hf)
  | turnedAway _ _ _ _ _ _ hafter => exact hover hafter
  | cancelled _ _ _ _ _ hafter => exact hover hafter
  | queues _ _ _ _ _ _ hafter =>
    rw [doing?_of_queued hafter rfl] at hd; cases hd
    exact .queued (fired?_of_queued hafter rfl)
  | flies call fired ns p _ _ _ _ hflies hafter =>
    rw [hflies.doing_eq hafter] at hd
    cases hflies.sailed.left h.room with
    | ended E => cases hd
    | waits l load hf hne hl =>
      cases hd
      refine .waiting l (by rw [fired?_of_admitted hafter rfl hflies.there]; exact hf) ?_
      rcases flying_step h.sound (.turn c answers) hl with hfly | he | ⟨_, he, -⟩
      · exact hfly
      · cases he
      · cases he; exact absurd rfl hne
    | leads key ttl loop _ hw =>
      rcases loopDoing_eq hd with ⟨since, o, hp, rfl⟩ | ⟨wakesAt, hp, rfl⟩
      · cases hw with
        | attempting since' o' hp' hlt =>
          rw [hp] at hp'; cases hp'
          exact .attempting _ since o fun d hd => by rw [hnow]; exact hlt d hd
        | resting wakesAt hp' => rw [hp] at hp'; cases hp'
      · cases hw with
        | attempting since' o' hp' => rw [hp] at hp'; cases hp'
        | resting wakesAt' hp' hf hlt =>
          rw [hp] at hp'; cases hp'
          refine .resting wakesAt ?_ (by rw [hnow]; exact hlt)
          rw [fired?_of_admitted hafter rfl hflies.there]
          exact hf

/-- An event of another call, or of none. -/
theorem woken_frame (h : Wakeful x) {e : Event α} {c : Nat} (he : e.call? ≠ some c)
    (hpass : ∀ limit, e ≠ .pass limit) {d : Doing α} (hd : doing? (step x e).state c = some d) :
    .call c ∈ (step x e).ready ∨ MayWait (step x e) c d := by
  obtain ⟨hdoing, hfired⟩ := doing?_frame h.placed.sound he
  have hd' := hd
  rw [hdoing] at hd'
  rcases h.woken c d hd' with hr | hwait
  · refine Or.inl (ready_of_no_turn (fun answers hn => he ?_) hr)
    rw [hn]; rfl
  · by_cases hr : .call c ∈ (step x e).ready
    · exact Or.inl hr
    · refine Or.inr (hwait.keep hfired (now_step_of_ne hpass) fun l hl hfly => ?_)
      subst hl
      exact (flying_or_ready h.placed.sound e hd hfly).resolve_right hr

/-- **Every event leaves the calls under way ready, or waiting for what has not come.** -/
theorem wakeful_step (h : Wakeful x) (e : Event α) : Wakeful (step x e) := by
  refine ⟨placed_step h.placed e, fun c d hd => ?_⟩
  by_cases hpass : ∃ limit, e = .pass limit
  · obtain ⟨limit, rfl⟩ := hpass
    have hstate : (step x (.pass limit)).state = x.state :=
      show (x.pass (system silence) limit).state = x.state from Clock.World.state_pass
    rw [hstate] at hd
    exact woken_pass h limit hd
  by_cases he : e.call? = some c
  swap
  · exact woken_frame h he (fun limit hn => hpass ⟨limit, hn⟩) hd
  cases e with
  | call c' key ttl fired =>
    cases he
    cases hc : x.state.calls.get? c with
    | some call => rw [step_of_known hc] at hd ⊢; exact h.woken c d hd
    | none =>
      simp only [step, hc, Option.isSome_none, Bool.false_eq_true, if_false]
      exact Or.inl ((Clock.World.mem_wake _ _ _).2 (Or.inr (List.mem_singleton.2 rfl)))
  | turn c' answers =>
    cases he
    by_cases hr : .call c ∈ x.ready
    · exact Or.inr (mayWait_of_turn h.placed answers hr hd)
    · rw [step_of_idle hr] at hd ⊢; exact h.woken c d hd
  | fire c' =>
    cases he
    exact Or.inl ((Clock.World.mem_wake _ _ _).2 (Or.inr (List.mem_singleton.2 rfl)))
  | abort c' =>
    cases he
    rw [show (step x (.abort c)).state = x.state.drop c from rfl, doing?_drop] at hd
    cases hd
  | _ => cases he

theorem worldAt_wakeful (h : Wakeful x) (n : Nat) : Wakeful (worldAt x es n) :=
  Trace.after_invariant h (fun _ e _ hy => wakeful_step hy e) n

theorem dawn_wakeful (name : String) (settings : Config.Settings) (now : Nat) :
    Wakeful (dawn name settings now : World α) :=
  ⟨make_placed name settings now, fun c d hd => by cases hd⟩

end RegistryLookup.Caller
