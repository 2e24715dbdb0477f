import RegistryLookup.Proofs.Retry.Delay
import RegistryLookup.Proofs.Retry.Run

/-!
# How long a run rests

A loop rests between two attempts, so it rests less often than it may make attempts, and never
longer than the larger cap of its policy. This holds of every run of a loop, with attempts that
never end and with a token that fires at any instant (`delays_exact`).

* `rested`: how long a loop has rested, read off its record.
* `Spared`: a loop that will not have rested too long when its rest is over.
* `Spared.move`, `Spared.turn`: what it does keeps it so.
* `Sparing`: the same of a session on the clock.
-/

namespace RegistryLookup.Retry

open Clock (World)

variable {α : Type}

/-- Whether a notice tells that the loop is going to rest. -/
def Notice.isRetried : Notice α → Bool
  | .retried _ => true
  | _ => false

/-- How long a loop has rested by an instant: from each failure behind which it goes to rest up to
what is noticed next. -/
def rested (instant : Nat) : List (Entry α) → Nat
  | [] => 0
  | e :: record => (if e.notice.isRetried then instant - e.instant else 0) + rested e.instant record

/-- How long a run has rested until it was over, or until the instant up to which it was let run. -/
def Session.restedBy (x : Session α) (limit : Nat) : Nat :=
  match x.result with
  | some (_, instant) => rested instant x.record
  | none => rested limit x.record

variable {p : Policy} {answers : UInt32 → Outcome α} {now : Nat} {fired : Bool}

theorem Policy.delayFor_le_largerCap (p : Policy) (n : UInt32) (e : Failure) :
    p.delayFor n e ≤ p.largerCap :=
  Nat.le_trans (p.delayFor_le n e) (p.cap_le_largerCap e)

theorem delay_le_of_verdict {n : UInt32} {r : Except Failure α} {e : Failure} {delay : Nat}
    (h : p.verdict n r = .rest e delay) : delay ≤ p.largerCap := by
  obtain rfl : r = .error e := verdict_rest h
  rw [verdict_error] at h
  split at h
  · cases h
  · cases h
    exact p.delayFor_le_largerCap n e

/-- The longest time that a run may rest. -/
def Policy.allowance (p : Policy) : Nat := (p.maxAttempts.toNat - 1) * p.largerCap

theorem mul_largerCap_le_allowance {n : Nat} (h : n ≤ p.maxAttempts.toNat - 1) :
    n * p.largerCap ≤ p.allowance :=
  Nat.mul_le_mul_right _ h

/-- A loop that has rested once for each attempt behind which another one was to come, and never
longer than the larger cap. The rest under way counts as if it were over. -/
inductive Spared (p : Policy) (now : Nat) : Loop α → List (Entry α) → Prop
  | ready {n : UInt32} {record : List (Entry α)} (hn : n.toNat ≤ p.maxAttempts.toNat - 1)
      (h : rested now record ≤ n.toNat * p.largerCap) : Spared p now ⟨n, .ready⟩ record
  | attempting {n : UInt32} {k since : Nat} {o : Outcome α} {record : List (Entry α)}
      (hn : n.toNat = k + 1) (hk : k ≤ p.maxAttempts.toNat - 1)
      (h : ∀ t, rested t record ≤ k * p.largerCap) :
      Spared p now ⟨n, .attempting since o⟩ record
  | resting {n : UInt32} {wakesAt : Nat} {record : List (Entry α)} (hpos : 0 < n)
      (hn : n < p.maxAttempts) (hnow : now ≤ wakesAt)
      (h : ∀ t, t ≤ wakesAt → rested t record ≤ n.toNat * p.largerCap) :
      Spared p now ⟨n, .resting wakesAt⟩ record

/-- A move of such a loop. -/
inductive Spared.Moved (p : Policy) (now : Nat) (record : List (Entry α)) : Move α → Prop
  | wait : Spared.Moved p now record .wait
  | step {ns : List (Notice α)} {l : Loop α} (h : Spared p now l (enter 0 now ns record)) :
      Spared.Moved p now record (.step ns l)
  | finish {ns : List (Notice α)} {r : Except Failure α}
      (h : rested now (enter 0 now ns record) ≤ p.allowance) :
      Spared.Moved p now record (.finish ns r)

/-- **A move does not make a loop rest too long.** -/
theorem Spared.move {l : Loop α} {record : List (Entry α)} (h : Spared p now l record) :
    Spared.Moved p now record (l.move p answers now fired) := by
  cases h with
  | @ready n record hn h =>
    have hsucc : (n + 1).toNat = n.toNat + 1 := by
      have hmax : p.maxAttempts.toNat < UInt32.size := p.maxAttempts.toNat_lt_size
      have hsize : UInt32.size = 4294967296 := rfl
      have hone : (1 : UInt32).toNat = 1 := rfl
      rw [UInt32.toNat_add, hone]
      exact Nat.mod_eq_of_lt (by omega)
    refine .step (.attempting hsucc hn fun t => ?_)
    have hbegan : rested t (enter 0 now [.began (n + 1)] record) = rested now record :=
      Nat.zero_add _
    rw [hbegan]
    exact h
  | @attempting n k since o record hn hk h =>
    have hended : ∀ t, rested t (enter 0 now [.ended n o.result] record) = rested now record :=
      fun t => Nat.zero_add _
    unfold Loop.move
    simp only
    split
    · exact .wait
    · split
      · exact .wait
      · split
        · refine .finish ?_
          rw [hended]
          exact Nat.le_trans (h now) (mul_largerCap_le_allowance hk)
        · -- one more rest is planned, and it is no longer than the cap
          rename_i e delay hverdict
          have hlt : n < p.maxAttempts := lt_of_verdict_rest hverdict
          have hdelay : delay ≤ p.largerCap := delay_le_of_verdict hverdict
          have hpos : 0 < n := by
            rw [UInt32.lt_iff_toNat_lt, hn]
            exact Nat.succ_pos k
          refine .step (.resting hpos hlt (Nat.le_add_right now delay) fun t ht => ?_)
          have hretried : rested t (enter 0 now [.ended n o.result, .retried e] record) =
              t - now + rested now record := by simp [enter, rested, Notice.isRetried]
          have hbefore : rested now record ≤ k * p.largerCap := h now
          rw [hretried, hn, Nat.succ_mul]
          omega
  | @resting n wakesAt record hpos hn hnow h =>
    have hlt : n.toNat < p.maxAttempts.toNat := UInt32.lt_iff_toNat_lt.1 hn
    unfold Loop.move
    simp only
    split
    · refine .finish ?_
      exact Nat.le_trans (h now hnow) (mul_largerCap_le_allowance (by omega))
    · split
      · exact .wait
      · exact .step (.ready (by omega) (h now hnow))

/-- Where a turn leaves such a loop. -/
inductive Spared.Turned (p : Policy) (now : Nat) (record : List (Entry α)) :
    Loop α ⊕ Except Failure α → Prop
  | on {l : Loop α} (h : Spared p now l record) : Spared.Turned p now record (.inl l)
  | ended {r : Except Failure α} (h : rested now record ≤ p.allowance) :
      Spared.Turned p now record (.inr r)

theorem Spared.turnFor (fuel : Nat) {l : Loop α} {record : List (Entry α)}
    (h : Spared p now l record) :
    Spared.Turned p now (enter 0 now (l.turnFor p answers now fired fuel).notices record)
      (l.turnFor p answers now fired fuel).rest := by
  -- by induction on the moves that may still be made
  induction fuel generalizing l record with
  | zero => exact .on h
  | succ fuel ih =>
    unfold Loop.turnFor
    have hm : Spared.Moved p now record (l.move p answers now fired) := h.move
    generalize l.move p answers now fired = m at hm
    cases hm with
    | wait => exact .on h
    | finish hrested => exact .ended hrested
    | step hnext =>
      simp only [enter_append]
      exact ih hnext

/-- A policy that allows no attempts lets a loop make one. -/
theorem waits_of_turn_of_zero (hp : p.maxAttempts.toNat = 0) {l : Loop α} {record : List (Entry α)}
    (h : Spared p now l record) {l' : Loop α}
    (hl' : (l.turn p answers now fired).rest = .inl l') : l'.Waits now fired := by
  -- an attempt is not followed by a rest
  have hattempting : ∀ (fuel : Nat) (n : UInt32) (since : Nat) (o : Outcome α),
      ((⟨n, .attempting since o⟩ : Loop α).turnFor p answers now fired (fuel + 1)).rest = .inl l' →
        l'.Waits now fired := by
    intro fuel n since o hrest
    unfold Loop.turnFor at hrest
    cases hm : (⟨n, .attempting since o⟩ : Loop α).move p answers now fired with
    | wait =>
      rw [hm] at hrest
      cases hrest
      exact waits_of_move hm
    | finish ns r =>
      rw [hm] at hrest
      cases hrest
    | step ns next =>
      have hlt : n.toNat < p.maxAttempts.toNat := UInt32.lt_iff_toNat_lt.1 (lt_of_move rfl hm)
      omega
  unfold Loop.turn at hl'
  cases h with
  | ready hn h => exact hattempting _ _ _ _ hl'
  | attempting hn hk h => exact hattempting _ _ _ _ hl'
  | resting hpos hn hnow h =>
    rw [UInt32.lt_iff_toNat_lt] at hn
    omega

theorem Spared.within (hp : 0 < p.maxAttempts.toNat) {l : Loop α} {record : List (Entry α)}
    (h : Spared p now l record) : l.Within p := by
  unfold Loop.Within
  cases h with
  | @ready n _ hn h =>
    have hlt : n.toNat < p.maxAttempts.toNat := by omega
    exact UInt32.lt_iff_toNat_lt.2 hlt
  | @attempting n k _ _ _ hn hk h =>
    have hpos : 0 < n.toNat := by omega
    have hle : n.toNat ≤ p.maxAttempts.toNat := by omega
    exact ⟨UInt32.lt_iff_toNat_lt.2 hpos, UInt32.le_iff_toNat_le.2 hle⟩
  | resting hpos hn hnow h => exact ⟨hpos, hn⟩

/-- **A turn leaves such a loop waiting**, or it is over. -/
theorem Spared.turn {l : Loop α} {record : List (Entry α)} (h : Spared p now l record)
    (answers : UInt32 → Outcome α) (fired : Bool) :
    Spared.Turned p now (enter 0 now (l.turn p answers now fired).notices record)
        (l.turn p answers now fired).rest ∧
      ∀ l', (l.turn p answers now fired).rest = .inl l' → l'.Waits now fired := by
  refine ⟨h.turnFor _, fun l' hl' => ?_⟩
  rcases Nat.eq_zero_or_pos p.maxAttempts.toNat with hzero | hpos
  · exact waits_of_turn_of_zero hzero h hl'
  · have hhalted := turn_halted answers now fired (h.within hpos)
    rw [hl'] at hhalted
    cases hhalted with
    | waits _ hw _ => exact hw

/-- A loop for which nothing is due. -/
def Loop.Idle (now : Nat) (l : Loop α) : Prop :=
  l.Begun ∧ ∀ wakesAt, l.phase = .resting wakesAt → now < wakesAt

theorem Loop.Waits.idle {l : Loop α} (h : l.Waits now fired) : l.Idle now := by
  refine ⟨h.begun, fun wakesAt hp => ?_⟩
  cases h with
  | attempting since o hp' =>
    rw [hp'] at hp
    cases hp
  | resting wakesAt' hp' hf hlt =>
    rw [hp'] at hp
    cases hp
    exact hlt

/-- Such a loop does not rest too long while time passes, up to the end of its rest. -/
theorem Spared.later {l : Loop α} {record : List (Entry α)} (h : Spared p now l record)
    (hl : l.Begun) {now' : Nat} (hle : ∀ wakesAt, l.phase = .resting wakesAt → now' ≤ wakesAt) :
    Spared p now' l record := by
  cases h with
  | ready hn h => exact absurd rfl hl
  | attempting hn hk h => exact .attempting hn hk h
  | resting hpos hn hnow h => exact .resting hpos hn (hle _ rfl) h

/-- A session whose loop does not rest too long, and is woken when its rest is over. -/
structure Sparing (p : Policy) (w : World (Session α) Session.Task) : Prop where
  policy_eq : w.state.policy = p
  nodup : w.ready.Nodup
  live : w.state.result = none → Spared p w.now w.state.loop w.state.record
  idle : w.state.result = none → w.state.loop.Idle w.now ∨ Session.Task.go ∈ w.ready
  ended : ∀ r instant, w.state.result = some (r, instant) →
    rested instant w.state.record ≤ p.allowance

/-- A session that begins. -/
theorem sparing_start (p : Policy) (label : String) (answers : UInt32 → Outcome α)
    (token : Option Nat) (fired : Bool) :
    Sparing p { state := { policy := p, label, answers, cancelAt := token, fired }, ready := [.go] }
    where
  policy_eq := rfl
  nodup := List.pairwise_singleton _ _
  live := fun _ => .ready (Nat.zero_le _) (Nat.zero_le _)
  idle := fun _ => Or.inr (List.mem_singleton_self _)
  ended := fun r instant h => by cases h

theorem Sparing.go {w : World (Session α) Session.Task} (h : Sparing p w) :
    Sparing p { w with
      state := w.state.go w.now
      ready := w.ready.filter (· ≠ .go) } := by
  have hpolicy : w.state.policy = p := h.policy_eq
  cases hr : w.state.result with
  | some ended =>
    rw [go_of_some hr]
    refine ⟨hpolicy, h.nodup.filter _, fun hnone => ?_, fun hnone => ?_, h.ended⟩
    · rw [hr] at hnone
      cases hnone
    · rw [hr] at hnone
      cases hnone
  | none =>
    obtain ⟨hturned, hwaits⟩ := (h.live hr).turn w.state.answers w.state.fired
    rw [← hpolicy] at hturned hwaits
    cases hrest : (w.state.loop.turn w.state.policy w.state.answers w.now w.state.fired).rest with
    | inl l =>
      rw [hrest, hpolicy] at hturned
      rw [go_of_inl hr hrest]
      cases hturned with
      | on hnext =>
        refine ⟨hpolicy, h.nodup.filter _, fun _ => ?_, fun _ => Or.inl (hwaits l hrest).idle,
          fun r instant hsome => ?_⟩
        · rw [hpolicy]
          exact hnext
        · have hsome : w.state.result = some (r, instant) := hsome
          rw [hr] at hsome
          cases hsome
    | inr r =>
      rw [hrest, hpolicy] at hturned
      rw [go_of_inr hr hrest]
      cases hturned with
      | ended hrested =>
        refine ⟨hpolicy, h.nodup.filter _, fun hnone => (by cases hnone),
          fun hnone => (by cases hnone), fun r' instant hsome => ?_⟩
        cases hsome
        rw [hpolicy]
        exact hrested

/-- **A turn does not make a session rest too long.** -/
theorem sparing_turn {w : World (Session α) Session.Task} (h : Sparing p w) :
    Sparing p (w.turn Session.system) := by
  cases hr : w.ready with
  | nil =>
    have hrest : w.turn Session.system = w := by
      unfold World.turn
      simp only [hr]
    rw [hrest]
    exact h
  | cons task rest =>
    rw [World.turn_of_ready h.nodup hr]
    cases task with
    | go => exact h.go
    | fire =>
      refine ⟨h.policy_eq, World.nodup_wake (by exact h.nodup.filter _) _, h.live, fun _ => ?_,
        h.ended⟩
      right
      rw [World.mem_wake]
      exact Or.inr (List.mem_singleton_self _)

/-- **Nor does the passing of time**, if nobody is ready. -/
theorem sparing_pass {w : World (Session α) Session.Task} (h : Sparing p w)
    (hready : w.ready = []) (limit : Nat) : Sparing p (w.pass Session.system limit) := by
  have hstate : (w.pass Session.system limit).state = w.state := World.state_pass
  have hnow : w.now ≤ (w.pass Session.system limit).now := World.le_pass
  have hnoGo : Session.Task.go ∉ w.ready := by
    rw [hready]
    exact List.not_mem_nil
  have hidle : w.state.result = none → w.state.loop.Idle w.now :=
    fun hr => (h.idle hr).resolve_right hnoGo
  have hend : w.state.result = none → ∀ wakesAt, w.state.loop.phase = .resting wakesAt →
      (w.pass Session.system limit).now ≤ wakesAt ∧ ((w.pass Session.system limit).now < wakesAt ∨
        Session.Task.go ∈ (w.pass Session.system limit).ready) := by
    intro hr wakesAt hp
    have htimer : (wakesAt, Session.Task.go) ∈ Session.system.timers w.state := by
      rw [mem_timers_go, Loop.timer, hp]
    have hlt : w.now < wakesAt := (hidle hr).2 wakesAt hp
    have hle : (w.pass Session.system limit).now ≤ wakesAt := World.pass_le _ htimer hlt
    refine ⟨hle, (Nat.lt_or_eq_of_le hle).imp_right fun heq => ?_⟩
    rw [World.mem_pass, heq]
    exact Or.inr ⟨hlt, htimer⟩
  refine ⟨?_, World.nodup_pass h.nodup, fun hr => ?_, fun hr => ?_, ?_⟩
  · rw [hstate]
    exact h.policy_eq
  · rw [hstate] at hr ⊢
    exact (h.live hr).later (hidle hr).1 fun wakesAt hp => (hend hr wakesAt hp).1
  · rw [hstate] at hr ⊢
    by_cases hgo : Session.Task.go ∈ (w.pass Session.system limit).ready
    · exact Or.inr hgo
    · exact Or.inl ⟨(hidle hr).1, fun wakesAt hp => (hend hr wakesAt hp).2.resolve_right hgo⟩
  · rw [hstate]
    exact h.ended

/-- A session for which nothing is due until an instant has not rested too long by then. -/
theorem Sparing.restedBy_le {w : World (Session α) Session.Task} (h : Sparing p w)
    (hready : w.ready = []) {limit : Nat}
    (hstop : w.state.result.isSome = true ∨ w.nextTimer Session.system limit = none) :
    w.state.restedBy limit ≤ p.allowance := by
  unfold Session.restedBy
  cases hr : w.state.result with
  | some ended => exact h.ended _ _ hr
  | none =>
    have hnone : w.nextTimer Session.system limit = none := by
      rcases hstop with hdone | hnone
      · rw [hr] at hdone
        cases hdone
      · exact hnone
    have hnoGo : Session.Task.go ∉ w.ready := by
      rw [hready]
      exact List.not_mem_nil
    have hidle : w.state.loop.Idle w.now := (h.idle hr).resolve_right hnoGo
    have hlive : Spared p w.now w.state.loop w.state.record := h.live hr
    simp only
    generalize hl : w.state.loop = l at hidle hlive
    cases hlive with
    | ready hn h => exact absurd rfl hidle.1
    | attempting hn hk h => exact Nat.le_trans (h limit) (mul_largerCap_le_allowance hk)
    | @resting n wakesAt _ hpos hn hnow h =>
      have htimer : (wakesAt, Session.Task.go) ∈ Session.system.timers w.state := by
        rw [mem_timers_go, hl]
        rfl
      have hlt : limit < wakesAt := World.nextTimer_eq_none hnone _ htimer (hidle.2 _ rfl)
      have hcount : n.toNat < p.maxAttempts.toNat := UInt32.lt_iff_toNat_lt.1 hn
      exact Nat.le_trans (h limit (Nat.le_of_lt hlt)) (mul_largerCap_le_allowance (by omega))

/-- **No run rests longer than its policy allows.** -/
theorem restedBy_le_allowance (p : Policy) (label : String) (answers : UInt32 → Outcome α)
    (token : Option Nat) (fired : Bool) (limit : Nat) :
    (Session.runUntil { policy := p, label, answers, cancelAt := token, fired } limit).restedBy
      limit ≤ p.allowance := by
  have hstart : Sparing p (World.mk 0
      ({ policy := p, label, answers, cancelAt := token, fired } : Session α) [.go]) :=
    sparing_start p label answers token fired
  have hsettled := World.settle_keeps (P := Sparing p) (fun _ => sparing_turn) hstart
  unfold Session.runUntil
  obtain ⟨w, h, hready, hstop, hstate⟩ := World.advanceUntil_stops
    (P := Sparing p) (fun _ => sparing_turn) (fun _ h => Session.ready_settle h.nodup)
    (fun _ hw hready => sparing_pass hw hready limit) hsettled
    (Session.ready_settle hstart.nodup)
  rw [hstate]
  exact h.restedBy_le hready hstop

/-- **Delays are exact, and grow with what they depend on.** The backoff is the product of natural
numbers that it stands for, at the limits of the words too. A delay is the longer, the later the
retry, the larger the base and the caps, and the longer the wait that a registry asks for. It is
never longer than its cap, so that a run, however it goes, rests no longer than the larger cap as
many times as there may be attempts behind the first one. -/
theorem delays_exact (p q : Policy) (n : UInt32) (e : Failure) :
    (∀ base cap : UInt64, Backoff.delay n base cap =
      Duration.ofMillis (min (n.toNat ^ 2 * base.toNat) cap.toNat)) ∧
    (p.AtMost q → ∀ n', n ≤ n' → p.delayFor n e ≤ q.delayFor n' e) ∧
    (∀ e' after after', e.asked = some after → e'.asked = some after' → after ≤ after' →
      p.delayFor n e ≤ p.delayFor n e') ∧
    (p.delayFor n e ≤ match e.asked with
      | some _ => p.maxRetryAfter
      | none => Duration.ofMillis p.maxDelayMs.toNat) ∧
    ∀ (label : String) (answers : UInt32 → Outcome α) (token : Option Nat) (fired : Bool)
      (limit : Nat),
      (Session.runUntil { policy := p, label, answers, cancelAt := token, fired } limit).restedBy
        limit ≤ (p.maxAttempts.toNat - 1) *
          max (Duration.ofMillis p.maxDelayMs.toNat) p.maxRetryAfter :=
  ⟨Backoff.delay_eq n, fun hpq _ hn => Policy.delayFor_mono hpq hn e,
    fun _ _ _ he he' hle => p.delayFor_mono_asked n he he' hle, p.delayFor_le n e,
    restedBy_le_allowance p⟩

end RegistryLookup.Retry
