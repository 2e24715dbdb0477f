import RegistryLookup.Proofs.Caller.Account
import RegistryLookup.Proofs.Caller.Token
import RegistryLookup.Proofs.Caller.Wakeful

/-!
# What becomes of a call whose token has fired

A call that waits when its token fires is about to have its turn from then on, and is cancelled in
that turn (`CutShort`). A call that makes an attempt goes on until the attempt is over, and then has its
result, unless another attempt would follow (`LastAttempt`). A call that has not had its first turn
does not get among the flights (`Untried`).

* `turn_of_fired`: the turn of a call whose token has fired.
* `aftermath`: it does what it did when the token fired, up to its last turn.
* `cancellation_final`: all of this, in every run.
-/

namespace RegistryLookup.Caller

open Flight

variable {α : Type} {x : World α} {es : List (Event α)}

/-- A call queues for a permit, waits for the flight of another call, or rests between two
attempts. -/
def Doing.isWait : Doing α → Bool
  | .queued => true
  | .waiting _ => true
  | .resting _ => true
  | _ => false

/-- With what a call ends in a turn that did something when its token fired. -/
inductive EndsWith (x : World α) : Doing α → Except Failure α → Prop
  | arriving (f : Failure) : EndsWith x .arriving (.error f)
  | waits (d : Doing α) (hd : d.isWait = true) : EndsWith x d (.error .cancelled)
  | attempting (j : UInt32) (since took : Nat) (o : Retry.Outcome α) (ht : o.takes = some took)
      (hover : since + took ≤ x.now) :
      EndsWith x (.attempting j since o) (x.state.policy.lastWord j o.result)

/-- What the turn of a call comes to whose token has fired. -/
inductive FiredTurn (x : World α) (c : Nat) (answers : Answers α) (d : Doing α) : Prop
  /-- Its attempt is not over. -/
  | goesOn (j : UInt32) (since : Nat) (o : Retry.Outcome α) (hd : d = .attempting j since o)
      (h : doing? (step x (.turn c answers)).state c = some d)
  | ends (r : Except Failure α) (hr : EndsWith x d r)
      (h : (step x (.turn c answers)).state.ending? c = some (r, x.now))

/-- The turn among the flights of a call whose token has fired. -/
theorem Flies.fired {c : Nat} {answers : Answers α} {call : Call α} {fired : Bool}
    {ns : List (Retry.Notice α)} {p : Phase (Load α) α} {d : Doing α}
    (h : Flies x c answers call fired ns p) (hfired : fired = true) (hsound : x.state.Sound)
    (hd : doing? x.state c = some d)
    (hafter : (step x (.turn c answers)).state.calls.get? c =
      some { call with stage := afterwards x.now p }) : FiredTurn x c answers d := by
  have hdoing := h.doing_eq hafter
  have hending : ∀ {r : Except Failure α} {role : Role}, p = .ended ⟨r, role, x.now⟩ →
      (step x (.turn c answers)).state.ending? c = some (r, x.now) := by
    rintro r role rfl
    exact ending?_eq_some.2 ⟨_, hafter, rfl⟩
  cases h.sailed with
  | givesUp l load hp =>
    cases phaseDoing_of_doing hsound hd hp
    exact .ends _ (.waits _ rfl) (hending rfl)
  | goesOn _ loop hp hl =>
    subst hfired
    have hturn := Retry.turn_fired x.state.policy answers x.now hl.2
    rcases loopDoing_eq (phaseDoing_of_doing hsound hd hp) with ⟨since, o, hphase, rfl⟩ |
      ⟨wakesAt, hphase, rfl⟩
    · cases hturn with
      | waits since' o' _ _ hstays =>
        refine .goesOn loop.tries since o rfl (hdoing.trans ?_)
        rw [hstays]
        exact phaseDoing_of_doing hsound hd hp
      | spoken since' took o' hphase' ht hover hrest =>
        rw [hphase] at hphase'; cases hphase'
        exact .ends _ (.attempting loop.tries since took o ht hover) (hending (by rw [hrest]; rfl))
      | cut wakesAt hphase' => rw [hphase] at hphase'; cases hphase'
    · cases hturn with
      | waits since' o' hphase' => rw [hphase] at hphase'; cases hphase'
      | spoken since' took o' hphase' => rw [hphase] at hphase'; cases hphase'
      | cut wakesAt' _ hcut => exact .ends _ (.waits _ rfl) (hending (by rw [hcut]; rfl))
  | _ => cases hfired

/-- **The turn of a call whose token has fired.** -/
theorem turn_of_fired (h : Placed x.state) {c : Nat} (answers : Answers α)
    (hr : .call c ∈ x.ready) (hf : fired? x.state c = true) {d : Doing α}
    (hd : doing? x.state c = some d) : FiredTurn x c answers d := by
  cases took h answers hr with
  | rests _ hq =>
    rcases hq with hnone | ⟨-, hno⟩
    · rw [hnone] at hd; cases hd
    · rw [hf] at hno; cases hno
  | turnedAway call f _ hq _ _ hafter =>
    rcases hq with harr | ⟨-, hno⟩
    · rw [harr] at hd; cases hd
      exact .ends _ (.arriving f) (ending?_eq_some.2 ⟨_, hafter, rfl⟩)
    · rw [hf] at hno; cases hno
  | cancelled call _ hq _ _ hafter =>
    have hending := ending?_eq_some.2 ⟨_, hafter, rfl⟩
    rcases hq with harr | hqueued
    · rw [harr] at hd; cases hd
      exact .ends _ (.arriving .cancelled) hending
    · rw [hqueued] at hd; cases hd
      exact .ends _ (.waits _ rfl) hending
  | queues _ _ _ hno => rw [hf] at hno; cases hno
  | flies call fired ns p _ _ hfired _ hflies hafter =>
    exact hflies.fired (hfired.symm.trans hf) h.sound hd hafter

/-- The turn of a call that waits. -/
theorem ending?_of_wait (h : Placed x.state) {c : Nat} (answers : Answers α)
    (hr : .call c ∈ x.ready) (hf : fired? x.state c = true) {d : Doing α}
    (hwait : d.isWait = true) (hd : doing? x.state c = some d) :
    (step x (.turn c answers)).state.ending? c = some (.error .cancelled, x.now) := by
  cases turn_of_fired h answers hr hf hd with
  | goesOn _ _ _ hattempt => rw [hattempt] at hwait; cases hwait
  | ends r hends hending =>
    cases hends with
    | arriving => cases hwait
    | waits => exact hending
    | attempting => cases hwait

/-- The turn of a call whose attempt is over. -/
theorem ending?_of_attempt (h : Placed x.state) {c : Nat} (answers : Answers α)
    (hr : .call c ∈ x.ready) (hf : fired? x.state c = true) {j : UInt32} {since took : Nat}
    {o : Retry.Outcome α} (ht : o.takes = some took) (hover : since + took ≤ x.now)
    (hd : doing? x.state c = some (.attempting j since o)) :
    (step x (.turn c answers)).state.ending? c =
      some (x.state.policy.lastWord j o.result, x.now) := by
  cases turn_of_fired h answers hr hf hd with
  | goesOn _ _ _ _ hgoes =>
    -- an attempt that goes on after a turn is not over
    cases mayWait_of_turn h answers hr hgoes with
    | attempting _ _ _ hlt =>
      rw [now_step_of_ne fun _ hn => by cases hn] at hlt
      exact absurd (hlt took ht) (Nat.not_lt.2 hover)
  | ends r hends hending =>
    cases hends with
    | waits _ hwait => cases hwait
    | attempting => exact hending

/-- From after event `m` to event `n` a call does the same. -/
structure Since (x : World α) (es : List (Event α)) (m n c : Nat) (d : Doing α) : Prop where
  lt : m < n
  doing : ∀ i, m < i → i ≤ n → doing? (worldAt x es i).state c = some d

/-- What has become by event `n` of a call that did something when its token fired in event `m`. -/
inductive Aftermath (x : World α) (es : List (Event α)) (m n c : Nat) (d : Doing α) : Prop
  /-- It still does it. -/
  | goesOn (h : Since x es m n c d)
  /-- It has ended in a turn. -/
  | ended (k : Nat) (answers : Answers α) (r : Except Failure α) (hk : k < n)
      (h : Since x es m k c d) (he : es[k]? = some (.turn c answers))
      (hr : EndsWith (worldAt x es k) d r)
      (hend : (worldAt x es n).state.ending? c = some (r, (worldAt x es k).now))
  | dropped (k : Nat) (hk : k < n) (h : Since x es m k c d) (he : es[k]? = some (.abort c))
      (hend : IsDropped (worldAt x es n).state c)

theorem IsDropped.mono {m n c : Nat} (hmn : m ≤ n) (h : IsDropped (worldAt x es m).state c) :
    IsDropped (worldAt x es n).state c :=
  Trace.after_since (P := fun (y : World α) => IsDropped y.state c) hmn h
    fun _ _ e _ ⟨call, hc, hs⟩ => ⟨call, over_step _ e hc (by unfold Call.isOpen; rw [hs]), hs⟩

theorem Since.succ {m n c : Nat} {d : Doing α} (h : Since x es m n c d)
    (hd : doing? (worldAt x es (n + 1)).state c = some d) : Since x es m (n + 1) c d where
  lt := Nat.lt_succ_of_lt h.lt
  doing := fun i hmi hi => by
    rcases Nat.lt_or_eq_of_le hi with hlt | rfl
    · exact h.doing i hmi (Nat.le_of_lt_succ hlt)
    · exact hd

section Fires

variable {m n c : Nat} {d : Doing α}

/-- The token of a call that is under way has fired ever since it fired. -/
theorem fired?_of_fire (hx : Placed x.state) (he : es[m]? = some (.fire c))
    (hd : doing? (worldAt x es m).state c = some d) (hmn : m < n) :
    fired? (worldAt x es n).state c = true := by
  obtain ⟨call, hc, -⟩ := open_of_doing hd
  refine Trace.after_since (P := fun (y : World α) => fired? y.state c = true) hmn ?_
    fun i _ e _ hi => fired?_mono (worldAt_placed hx i) e hi
  show fired? (worldAt x es (m + 1)).state c = true
  rw [worldAt_succ x he]
  exact fired?_fire (worldAt_placed hx m) hc

theorem Since.aftermath_succ (hx : Placed x.state) (h : Since x es m n c d)
    (hf : fired? (worldAt x es n).state c = true) : Aftermath x es m (n + 1) c d := by
  have hplaced : Placed (worldAt x es n).state := worldAt_placed hx n
  have hd := h.doing n h.lt (Nat.le_refl n)
  rcases worldAt_cases x es n with ⟨-, hsame⟩ | ⟨e, he, hstep⟩
  · exact .goesOn (h.succ (by rw [hsame]; exact hd))
  have hgoes : doing? (step (worldAt x es n) e).state c = some d → Aftermath x es m (n + 1) c d :=
    fun hd' => .goesOn (h.succ (by rw [hstep]; exact hd'))
  by_cases hdrop : e = .abort c
  · refine .dropped n (Nat.lt_succ_self n) h (by rw [he, hdrop]) ?_
    rw [hstep, hdrop]
    exact .of_doing hd
  rcases turn_or_noTurn (worldAt x es n) e c with ⟨answers, rfl, hr⟩ | hidle
  swap
  · exact hgoes (doing?_after hplaced.sound hidle hdrop hd)
  cases turn_of_fired hplaced answers hr hf hd with
  | goesOn _ _ _ _ hd' => exact hgoes hd'
  | ends r hr hend =>
    exact .ended n answers r (Nat.lt_succ_self n) h he hr (by rw [hstep]; exact hend)

/-- **A call does what it did when its token fired, up to its last turn.** -/
theorem aftermath (hx : Placed x.state) (he : es[m]? = some (.fire c))
    (hd : doing? (worldAt x es m).state c = some d) (hmn : m < n) : Aftermath x es m n c d := by
  -- by induction on the events since the token fired
  induction hmn with
  | refl =>
    refine .goesOn ⟨Nat.lt_succ_self m, fun i hmi him => ?_⟩
    rw [Nat.le_antisymm him hmi, worldAt_succ x he]
    exact (doing?_fire _ c).trans hd
  | @step n hmn ih =>
    cases ih with
    | goesOn h => exact h.aftermath_succ hx (fired?_of_fire hx he hd hmn)
    | ended k answers r hk h he hr hend =>
      exact .ended k answers r (Nat.lt_succ_of_lt hk) h he hr (ending?_mono (Nat.le_succ n) hend)
    | dropped k hk h he hend =>
      exact .dropped k (Nat.lt_succ_of_lt hk) h he (hend.mono (Nat.le_succ n))

end Fires

/-- Time does not pass while a call is about to have its turn. -/
def Prompt (x : World α) (es : List (Event α)) (c : Nat) : Prop :=
  ∀ i limit, es[i]? = some (.pass limit) → .call c ∉ (worldAt x es i).ready

/-- From after event `m` to event `n` a call is about to have its turn. -/
structure AtHand (x : World α) (es : List (Event α)) (m n c : Nat) : Prop where
  ready : ∀ i, m < i → i ≤ n → .call c ∈ (worldAt x es i).ready
  noTurn : ∀ i answers, m < i → i < n → es[i]? ≠ some (.turn c answers)
  instant : Prompt x es c → (worldAt x es n).now = (worldAt x es m).now

/-- What has become by event `n` of a call that waited when its token fired in event `m`. -/
inductive CutShort (x : World α) (es : List (Event α)) (m n c : Nat) : Prop
  /-- Its next turn will be its last. -/
  | pending (h : AtHand x es m n c)
      (hnext : ∀ answers, (step (worldAt x es n) (.turn c answers)).state.ending? c =
        some (.error .cancelled, (worldAt x es n).now))
  /-- Its first turn has been its last. -/
  | ended (k : Nat) (answers : Answers α) (hmk : m < k) (hk : k < n) (h : AtHand x es m k c)
      (he : es[k]? = some (.turn c answers))
      (hend : (worldAt x es n).state.ending? c = some (.error .cancelled, (worldAt x es k).now))
  | dropped (k : Nat) (hmk : m < k) (hk : k < n) (h : AtHand x es m k c)
      (he : es[k]? = some (.abort c)) (hend : IsDropped (worldAt x es n).state c)

/-- If an attempt has taken its time by event `n`, its call is about to have its turn. -/
structure InTime (x : World α) (es : List (Event α)) (n c since : Nat) (o : Retry.Outcome α) :
    Prop where
  ready : ∀ took, o.takes = some took →
    (worldAt x es n).now < since + took ∨ .call c ∈ (worldAt x es n).ready
  instant : Prompt x es c → ∀ took, o.takes = some took → (worldAt x es n).now ≤ since + took

/-- What has become by event `n` of a call that made an attempt when its token fired in event
`m`. -/
inductive LastAttempt (x : World α) (es : List (Event α)) (m n c : Nat) (j : UInt32) (since : Nat)
    (o : Retry.Outcome α) : Prop
  /-- The turn after the attempt will be its last. -/
  | goesOn (hd : doing? (worldAt x es n).state c = some (.attempting j since o))
      (h : InTime x es n c since o)
      (hnext : ∀ took answers, o.takes = some took → since + took ≤ (worldAt x es n).now →
        (step (worldAt x es n) (.turn c answers)).state.ending? c =
          some (x.state.policy.lastWord j o.result, (worldAt x es n).now))
  /-- It has ended with what came of the attempt. -/
  | ended (k took : Nat) (answers : Answers α) (hmk : m < k) (hk : k < n)
      (h : InTime x es k c since o) (he : es[k]? = some (.turn c answers))
      (ht : o.takes = some took) (hover : since + took ≤ (worldAt x es k).now)
      (hend : (worldAt x es n).state.ending? c =
        some (x.state.policy.lastWord j o.result, (worldAt x es k).now))
  | dropped (k : Nat) (hmk : m < k) (hk : k < n) (h : InTime x es k c since o)
      (he : es[k]? = some (.abort c)) (hend : IsDropped (worldAt x es n).state c)

/-- A call that waits although its token has fired is about to have its turn. -/
theorem Wakeful.ready_of_fired (h : Wakeful x) {c : Nat} {d : Doing α} (hwait : d.isWait = true)
    (hf : fired? x.state c = true) (hd : doing? x.state c = some d) : .call c ∈ x.ready := by
  rcases h.woken c d hd with hr | hmay
  · exact hr
  · cases hmay with
    | queued hno => rw [hf] at hno; cases hno
    | waiting l hno => rw [hf] at hno; cases hno
    | attempting => cases hwait
    | resting wakesAt hno => rw [hf] at hno; cases hno

section Fires

variable {m n c : Nat} {d : Doing α}

/-- Where time passes only when a call is not about to have its turn, it does not pass while the
call is at hand. -/
theorem now_of_ready (he : ∀ limit, es[m]? ≠ some (.pass limit)) (hmn : m ≤ n)
    (hready : ∀ i, m < i → i ≤ n → .call c ∈ (worldAt x es i).ready) (hprompt : Prompt x es c) :
    (worldAt x es n).now = (worldAt x es m).now := by
  induction hmn with
  | refl => rfl
  | @step n hmn ih =>
    rw [Nat.succ_eq_add_one, ← ih fun i hmi hin => hready i hmi (Nat.le_succ_of_le hin)]
    rcases worldAt_cases x es n with ⟨-, hsame⟩ | ⟨e, hn, hstep⟩
    · rw [hsame]
    · rw [hstep]
      refine now_step_of_ne fun limit hpass => ?_
      rcases Nat.lt_or_eq_of_le hmn with hlt | rfl
      · exact hprompt n limit (by rw [hn, hpass]) (hready n hlt (Nat.le_succ n))
      · exact he limit (by rw [hn, hpass])

/-- **A call that waits when its token fires is about to have its turn until it has it.** -/
theorem Since.atHand (hx : Wakeful x) (he : es[m]? = some (.fire c)) (h : Since x es m n c d)
    (hwait : d.isWait = true) (hf : ∀ i, m < i → fired? (worldAt x es i).state c = true) :
    AtHand x es m n c := by
  have hready : ∀ i, m < i → i ≤ n → .call c ∈ (worldAt x es i).ready := fun i hmi hin =>
    (worldAt_wakeful hx i).ready_of_fired hwait (hf i hmi) (h.doing i hmi hin)
  refine ⟨hready, fun i answers hmi hin hi => ?_,
    now_of_ready (fun _ hn => by rw [he] at hn; cases hn) (Nat.le_of_lt h.lt) hready⟩
  -- a turn would have been its last
  have hafter := h.doing (i + 1) (Nat.lt_succ_of_lt hmi) hin
  rw [worldAt_succ x hi] at hafter
  obtain ⟨call, hc, hs⟩ := ending?_eq_some.1 (ending?_of_wait (worldAt_placed hx.placed i) answers
    (hready i hmi (Nat.le_of_lt hin)) (hf i hmi) hwait (h.doing i hmi (Nat.le_of_lt hin)))
  rw [doing?_of_over hc (by unfold Call.isOpen; rw [hs])] at hafter
  cases hafter

/-- What becomes of a call that waits when its token fires. -/
theorem cutShort (hx : Wakeful x) (he : es[m]? = some (.fire c))
    (hd : doing? (worldAt x es m).state c = some d) (hwait : d.isWait = true) (hmn : m < n) :
    CutShort x es m n c := by
  have hhand : ∀ {k : Nat}, Since x es m k c d → AtHand x es m k c := fun h =>
    h.atHand hx he hwait fun i => fired?_of_fire hx.placed he hd
  cases aftermath hx.placed he hd hmn with
  | goesOn h =>
    exact .pending (hhand h) fun answers => ending?_of_wait (worldAt_placed hx.placed n) answers
      ((hhand h).ready n hmn (Nat.le_refl n)) (fired?_of_fire hx.placed he hd hmn) hwait
      (h.doing n hmn (Nat.le_refl n))
  | ended k answers r hk h hturn hr hend =>
    cases hr with
    | arriving => cases hwait
    | waits => exact .ended k answers h.lt hk (hhand h) hturn hend
    | attempting => cases hwait
  | dropped k hk h hdrop hend => exact .dropped k h.lt hk (hhand h) hdrop hend

/-- Time does not pass beyond an attempt whose call is not about to have its turn. -/
theorem now_pass_of_attempting (h : Wakeful x) (hidle : .call c ∉ x.ready)
    {limit since took : Nat} {j : UInt32} {o : Retry.Outcome α} (ht : o.takes = some took)
    (hd : doing? x.state c = some (.attempting j since o)) :
    (step x (.pass limit)).now ≤ since + took := by
  cases (h.woken c _ hd).resolve_left hidle with
  | attempting _ _ _ hlt =>
    rcases timer_pass limit (mem_timers_of_attempting hd ht) (hlt took ht) with hnow | ⟨hnow, -⟩
    · exact Nat.le_of_lt hnow
    · exact Nat.le_of_eq hnow

/-- Where time passes only when a call is not about to have its turn, it does not pass beyond the
attempt of the call. -/
theorem now_le_of_attempting (hx : Wakeful x) (h0 : doing? x.state c = none)
    (hprompt : Prompt x es c) {since took : Nat} {j : UInt32} {o : Retry.Outcome α}
    (ht : o.takes = some took)
    (hd : doing? (worldAt x es n).state c = some (.attempting j since o)) :
    (worldAt x es n).now ≤ since + took := by
  induction n with
  | zero => rw [worldAt_zero, h0] at hd; cases hd
  | succ n ih =>
    have hwakeful : Wakeful (worldAt x es n) := worldAt_wakeful hx n
    rcases worldAt_cases x es n with ⟨-, hsame⟩ | ⟨e, he, hstep⟩
    · rw [hsame] at hd ⊢
      exact ih hd
    rw [hstep] at hd ⊢
    rcases turn_or_noTurn (worldAt x es n) e c with ⟨answers, rfl, hr⟩ | hidle
    · -- the attempt is not over after a turn
      cases mayWait_of_turn hwakeful.placed answers hr hd with
      | attempting _ _ _ hlt => exact Nat.le_of_lt (hlt took ht)
    obtain hbefore | ⟨hno, -⟩ := doing?_before hwakeful.placed.sound hidle hd
    swap
    · cases hno
    by_cases hpass : ∃ limit, e = .pass limit
    · obtain ⟨limit, rfl⟩ := hpass
      exact now_pass_of_attempting hwakeful (hprompt n limit he) ht hbefore
    · rw [now_step_of_ne fun limit h => hpass ⟨limit, h⟩]
      exact ih hbefore

/-- **The call that makes an attempt is ready in time.** -/
theorem inTime (hx : Wakeful x) (h0 : doing? x.state c = none) {since : Nat} {j : UInt32}
    {o : Retry.Outcome α}
    (hd : doing? (worldAt x es n).state c = some (.attempting j since o)) :
    InTime x es n c since o := by
  refine ⟨fun took ht => ?_, fun hprompt took ht => now_le_of_attempting hx h0 hprompt ht hd⟩
  rcases (worldAt_wakeful hx n).woken c _ hd with hr | hmay
  · exact Or.inr hr
  · cases hmay with
    | attempting _ _ _ hlt => exact Or.inl (hlt took ht)

/-- What becomes of a call that makes an attempt when its token fires. -/
theorem lastAttempt (hx : Wakeful x) (h0 : doing? x.state c = none)
    (he : es[m]? = some (.fire c)) {j : UInt32} {since : Nat} {o : Retry.Outcome α}
    (hd : doing? (worldAt x es m).state c = some (.attempting j since o)) (hmn : m < n) :
    LastAttempt x es m n c j since o := by
  have hin : ∀ {k : Nat}, Since x es m k c (.attempting j since o) → InTime x es k c since o :=
    fun h => inTime hx h0 (h.doing _ h.lt (Nat.le_refl _))
  cases aftermath hx.placed he hd hmn with
  | goesOn h =>
    have hgoes := h.doing n hmn (Nat.le_refl n)
    refine .goesOn hgoes (hin h) fun took answers ht hover => ?_
    have hr := ((hin h).ready took ht).resolve_left (Nat.not_lt.2 hover)
    rw [ending?_of_attempt (worldAt_placed hx.placed n) answers hr
      (fired?_of_fire hx.placed he hd hmn) ht hover hgoes, policy_worldAt]
  | ended k answers r hk h hturn hr hend =>
    cases hr with
    | waits _ hwait => cases hwait
    | attempting _ _ took _ ht hover =>
      rw [policy_worldAt] at hend
      exact .ended k took answers h.lt hk (hin h) hturn ht hover hend
  | dropped k hk h hdrop hend => exact .dropped k h.lt hk (hin h) hdrop hend

end Fires

/-- By event `n` a call has made no attempt and has told the breaker nothing, and its turns since
event `m` have changed nothing among the flights, nor in the cache. -/
structure Untried (x : World α) (es : List (Event α)) (m n c : Nat) : Prop where
  attempts : ∀ a ∈ log (worldAt x es n).state, a.call ≠ c
  flights : ∀ i answers, m ≤ i → i < n → es[i]? = some (.turn c answers) →
    (worldAt x es (i + 1)).state.flights = (worldAt x es i).state.flights
  reports : reports x es n c = []

/-- A call is not among the flights, and its token has fired. -/
structure Stranded (s : Caller α) (c : Nat) : Prop where
  fired : fired? s c = true
  phase : phase? s c = none

theorem Stranded.turn (h : Placed x.state) {c : Nat} (hs : Stranded x.state c)
    (answers : Answers α) : (step x (.turn c answers)).state.flights = x.state.flights := by
  rcases quiet_or_flies h c answers with hflights | ⟨call, ns, p, -, -, hflies⟩
  · exact hflights
  · -- a call whose token has fired does not begin to wait or to work
    rw [hs.fired] at hflies
    cases hflies.sailed with
    | givesUp _ _ hp => rw [hs.phase] at hp; cases hp
    | goesOn _ _ hp => rw [hs.phase] at hp; cases hp

theorem Stranded.step (h : Placed x.state) {c : Nat} (hs : Stranded x.state c) (e : Event α) :
    Stranded (step x e).state c := by
  refine ⟨fired?_mono h e hs.fired, ?_⟩
  by_cases he : e.call? = some c
  swap
  · unfold phase?
    rw [(frame h.sound he).2]
    exact hs.phase
  cases e with
  | call c' key ttl fired =>
    cases he
    cases hc : x.state.calls.get? c with
    | none =>
      have hf := hs.fired
      rw [fired?_of_unknown hc] at hf; cases hf
    | some call => rw [step_of_known hc]; exact hs.phase
  | turn c' answers =>
    cases he
    unfold phase?
    rw [hs.turn h answers]
    exact hs.phase
  | fire c' =>
    cases he
    show phase? (x.state.fire c) c = none
    rcases fire_cases x.state c with hf | ⟨_, _, -, ⟨-, hf⟩ | ⟨-, hf⟩⟩ | ⟨_, -, -, hf⟩
    · rw [hf]; exact hs.phase
    · rw [hf]; exact hs.phase
    · rw [hf]; exact hs.phase
    · rw [hf, phase?_fire]; exact hs.phase
  | abort c' =>
    cases he
    show phase? (x.state.drop c) c = none
    rcases drop_cases x.state c with hd | ⟨call, hc, ⟨_, _, -, -, hd⟩ | ⟨hadmitted, -⟩⟩
    · rw [hd]; exact hs.phase
    · rw [hd]; exact hs.phase
    · obtain ⟨p, _, hp, -⟩ := h.aboard c call hc hadmitted
      rw [hs.phase] at hp; cases hp
  | _ => cases he

/-- A call that is not among the flights and changes nothing there makes nothing happen. -/
theorem untried_of_ashore (hx : x.state.Fresh) {m n c : Nat}
    (hphase : phase? (worldAt x es n).state c = none)
    (hflights : ∀ i answers, m ≤ i → es[i]? = some (.turn c answers) →
      (worldAt x es (i + 1)).state.flights = (worldAt x es i).state.flights) :
    Untried x es m n c := by
  refine ⟨(logged hx n).unbegun c fun p hp => ?_, fun i answers hmi _ he => hflights i answers hmi he,
    ?_⟩
  · rw [hphase] at hp; cases hp
  · cases accounted hx es n c with
    | idle _ hr => exact hr
    | ended i e E _ _ _ hE =>
      rw [(ending?_eq_some_iff _ _ _).1 hE] at hphase; cases hphase

/-- A call that is not among the flights when its token has fired makes nothing happen. -/
theorem Stranded.untried (hx : x.state.Fresh) (hplaced : Placed x.state) {m n c : Nat}
    (hmn : m ≤ n) (h : Stranded (worldAt x es m).state c) : Untried x es m n c := by
  have hstranded : ∀ i, m ≤ i → Stranded (worldAt x es i).state c := fun i hmi =>
    Trace.after_since (P := fun (y : World α) => Stranded y.state c) hmi h
      fun k _ e _ hk => hk.step (worldAt_placed hplaced k) e
  refine untried_of_ashore hx (hstranded n hmn).phase fun i answers hmi he => ?_
  rw [worldAt_succ x he]
  exact (hstranded i hmi).turn (worldAt_placed hplaced i) answers

/-- What becomes in a run of the calls whose tokens fire while they are under way. -/
structure CancellationFinal (x : World α) (es : List (Event α)) : Prop where
  /-- A call that is under way is doing something. -/
  doing : ∀ m c call, (worldAt x es m).state.calls.get? c = some call → call.isOpen = true →
    ∃ d, doing? (worldAt x es m).state c = some d
  noAttempt : ∀ m n c d p t j, es[m]? = some (.fire c) →
    doing? (worldAt x es m).state c = some d →
    (log (worldAt x es n).state)[p]? = some ⟨c, t, .began j⟩ → p < mark x es m
  waiting : ∀ m n c d, es[m]? = some (.fire c) → doing? (worldAt x es m).state c = some d →
    d.isWait = true → m < n → CutShort x es m n c
  attempting : ∀ m n c j since o, es[m]? = some (.fire c) →
    doing? (worldAt x es m).state c = some (.attempting j since o) → m < n →
    LastAttempt x es m n c j since o
  /-- The token has fired before the first turn of the call, or before the call came in. -/
  arriving : ∀ m n c, doing? (worldAt x es m).state c = some .arriving →
    fired? (worldAt x es m).state c = true → m ≤ n → Untried x es m n c

/-- A call that has not had its first turn is not among the flights. -/
theorem phase?_of_arriving {s : Caller α} (h : s.Sound) {c : Nat}
    (hd : doing? s c = some .arriving) : phase? s c = none := by
  cases hp : phase? s c with
  | none => rfl
  | some p => exact absurd rfl (ne_of_phaseDoing (phaseDoing_of_doing h hd hp)).1

/-- Nothing comes into the log as a token fires. -/
theorem mark_of_fire (h : x.state.Sound) {m c : Nat} (he : es[m]? = some (.fire c)) :
    mark x es (m + 1) = mark x es m := by
  unfold mark
  rw [worldAt_succ x he]
  rcases log_cases (worldAt_sound h m) (.fire c) with hlog | ⟨_, _, _, _, _, _, -, ht⟩
  · rw [hlog]
  · cases ht.event

/-- **Cancellation is final.** A call whose token fires begins no other attempt. If it waits, it is
about to have its turn and is cancelled in it; if it makes an attempt, it ends with what comes of
that, as soon as that is over; and if it has not had its first turn, it makes nothing happen. -/
theorem cancellation_final (name : String) (settings : Config.Settings) (now : Nat)
    (es : List (Event α)) : CancellationFinal (dawn name settings now) es where
  doing := fun m _ _ hc ho =>
    (worldAt_placed (make_placed name settings now) m).doing hc ho
  noAttempt := fun m n c d p t j he hd hp => by
    have hplaced : Placed (dawn name settings now : World α).state :=
      make_placed name settings now
    rw [← mark_of_fire hplaced.sound he]
    exact no_attempt_after hplaced (fired?_of_fire hplaced he hd (Nat.lt_succ_self m)) hp
  waiting := fun _ _ _ _ he hd hwait hmn =>
    cutShort (dawn_wakeful name settings now) he hd hwait hmn
  attempting := fun _ _ _ _ _ _ he hd hmn =>
    lastAttempt (dawn_wakeful name settings now) rfl he hd hmn
  arriving := fun m _ _ hd hf hmn =>
    Stranded.untried (make_fresh name settings now) (make_placed name settings now) hmn
      ⟨hf, phase?_of_arriving (worldAt_sound (make_sound name settings now) m) hd⟩

/-- The token of a call fires during its first attempt, after which it would make another. -/
def firedInAttempt : List (Event Nat) :=
  [.call 0 "k" 60 false,
    .turn 0 (fun _ => { takes := some 5, result := .error (.serverError 503 "down") }), .fire 0,
    .turn 0 silence, .pass 9, .turn 0 silence]

example : (worldAt (dawn "r" {} 0) firedInAttempt 6).state.ending? 0 =
    some (.error .cancelled, 5) := rfl

end RegistryLookup.Caller
