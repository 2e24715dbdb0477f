import Mathlib.Data.Nat.Find
import RegistryLookup.Proofs.Retry.Stop
import RegistryLookup.Retry.Trial

/-!
# The timeline of a retry loop

What each attempt comes to says when each attempt begins and ends, and which one is the last. A loop
that is given a turn whenever something is due keeps to that timeline.

* `Script.IsLast`, `exists_isLast`: the first attempt that no other follows.
* `Script.wakes`, `Script.ends`: when the wait after an attempt is over, and when an attempt ends.
* `Stage.move`: what a loop on its timeline does in a move.
* `Stage.turn`: a turn leaves a loop on its timeline, with something to wait for, or over.
* `trials_log`: the attempts that the timeline shows.
-/

namespace RegistryLookup.Retry

variable {α : Type}

/-- What attempts come to, one after another: how long each takes, and then its result. The first
one has number one. -/
structure Script (α : Type) where
  takes : Nat → Nat
  result : Nat → Except Failure α

namespace Script

/-- What a loop is told of its attempts. -/
def answers (s : Script α) (n : UInt32) : Outcome α := ⟨some (s.takes n.toNat), s.result n.toNat⟩

/-- No attempt follows attempt number `i` if there are at most `m`: it is a success, a failure for
good, or the last one allowed. -/
def Settles (s : Script α) (m i : Nat) : Prop :=
  ∀ e, s.result i = .error e → e.isRetryable = false ∨ m ≤ i

/-- The first attempt that no other follows. -/
structure IsLast (s : Script α) (m k : Nat) : Prop where
  pos : 0 < k
  settles : s.Settles m k
  before : ∀ i, 0 < i → i < k → ¬ s.Settles m i

variable {s : Script α} {m k : Nat}

theorem IsLast.le (h : s.IsLast m k) (hm : 0 < m) : k ≤ m := by
  refine Nat.le_of_not_lt fun hlt => ?_
  exact h.before m hm hlt fun _ _ => Or.inr (Nat.le_refl m)

/-- An attempt that another follows fails in a way that is worth another attempt. -/
theorem IsLast.error_of_lt (h : s.IsLast m k) {i : Nat} (hi : 0 < i) (hlt : i < k) :
    ∃ e, s.result i = .error e ∧ e.isRetryable = true ∧ i < m := by
  have hno : ∃ e, s.result i = .error e ∧ ¬ (e.isRetryable = false ∨ m ≤ i) := by
    by_contra hno
    refine h.before i hi hlt fun e he => ?_
    by_contra hor
    exact hno ⟨e, he, hor⟩
  obtain ⟨e, he, hor⟩ := hno
  simp only [not_or, Bool.not_eq_false, Nat.not_le] at hor
  exact ⟨e, he, hor.1, hor.2⟩

/-- The wait that is due after attempt number `i`. -/
def delay (s : Script α) (p : Policy) (i : Nat) : Nat :=
  match s.result i with
  | .ok _ => 0
  | .error e => p.delayFor (.ofNat i) e

/-- When the wait after attempt number `i` is over and the next attempt begins; the first attempt
begins at zero. -/
def wakes (s : Script α) (p : Policy) : Nat → Nat
  | 0 => 0
  | i + 1 => s.wakes p i + s.takes (i + 1) + s.delay p (i + 1)

/-- When attempt number `i` ends. -/
def ends (s : Script α) (p : Policy) (i : Nat) : Nat := s.wakes p (i - 1) + s.takes i

variable {p : Policy}

theorem ends_succ (s : Script α) (p : Policy) (i : Nat) :
    s.ends p (i + 1) = s.wakes p i + s.takes (i + 1) := rfl

theorem wakes_succ (s : Script α) (p : Policy) (i : Nat) :
    s.wakes p (i + 1) = s.ends p (i + 1) + s.delay p (i + 1) := rfl

theorem wakes_mono (s : Script α) (p : Policy) {i j : Nat} (h : i ≤ j) :
    s.wakes p i ≤ s.wakes p j := by
  induction h with
  | refl => exact Nat.le_refl _
  | step _ ih =>
    rw [wakes_succ, ends_succ]
    omega

theorem wakes_le_ends (s : Script α) (p : Policy) {i j : Nat} (h : i < j) :
    s.wakes p i ≤ s.ends p j := by
  have hmono : s.wakes p i ≤ s.wakes p (j - 1) := s.wakes_mono p (by omega)
  unfold ends
  omega

theorem ends_mono (s : Script α) (p : Policy) {i j : Nat} (h : i ≤ j) (hi : 0 < i) :
    s.ends p i ≤ s.ends p j := by
  rcases Nat.lt_or_eq_of_le h with hlt | rfl
  · have hwake : s.ends p i ≤ s.wakes p i := by
      obtain ⟨n, rfl⟩ : ∃ n, i = n + 1 := ⟨i - 1, by omega⟩
      exact Nat.le_add_right _ _
    exact Nat.le_trans hwake (s.wakes_le_ends p hlt)
  · exact Nat.le_refl _

/-- An instant lies in one wait, or the attempt before it, at most. -/
theorem eq_of_between (s : Script α) (p : Policy) {f i j : Nat} (hi : s.wakes p (i - 1) ≤ f)
    (hfi : f < s.wakes p i) (hj : s.wakes p (j - 1) ≤ f) (hfj : f < s.wakes p j) : i = j := by
  rcases Nat.lt_trichotomy i j with hlt | heq | hgt
  · have hmono : s.wakes p i ≤ s.wakes p (j - 1) := s.wakes_mono p (by omega)
    omega
  · exact heq
  · have hmono : s.wakes p j ≤ s.wakes p (i - 1) := s.wakes_mono p (by omega)
    omega

/-- What is noticed of attempt number `i`, newest first. -/
def attempt (s : Script α) (p : Policy) (i : Nat) : List (Entry α) :=
  [⟨0, s.ends p i, .ended (.ofNat i) (s.result i)⟩, ⟨0, s.wakes p (i - 1), .began (.ofNat i)⟩]

/-- What is noticed of the wait after attempt number `i`. -/
def retry (s : Script α) (p : Policy) (i : Nat) : List (Entry α) :=
  match s.result i with
  | .ok _ => []
  | .error e => [⟨0, s.ends p i, .retried e⟩]

theorem retry_of_error {i : Nat} {e : Failure} (h : s.result i = .error e) :
    s.retry p i = [⟨0, s.ends p i, .retried e⟩] := by
  unfold retry
  rw [h]

/-- What is noticed of the first attempts and of the waits behind them, newest first. -/
def log (s : Script α) (p : Policy) : Nat → List (Entry α)
  | 0 => []
  | i + 1 => s.retry p (i + 1) ++ s.attempt p (i + 1) ++ s.log p i

theorem log_succ (s : Script α) (p : Policy) (i : Nat) :
    s.log p (i + 1) = s.retry p (i + 1) ++ s.attempt p (i + 1) ++ s.log p i := rfl

/-- What is noticed up to the end of attempt number `k`. -/
def logUpTo (s : Script α) (p : Policy) (k : Nat) : List (Entry α) :=
  s.attempt p k ++ s.log p (k - 1)

end Script

variable {p : Policy} {s : Script α} {k : Nat}

theorem toNat_ofNat_of_le {i : Nat} (h : i ≤ p.maxAttempts.toNat) :
    (UInt32.ofNat i).toNat = i :=
  UInt32.toNat_ofNat_of_lt' (Nat.lt_of_le_of_lt h p.maxAttempts.toNat_lt_size)

theorem answers_ofNat {i : Nat} (h : i ≤ p.maxAttempts.toNat) :
    s.answers (.ofNat i) = ⟨some (s.takes i), s.result i⟩ := by
  unfold Script.answers
  rw [toNat_ofNat_of_le h]

theorem maxAttempts_le_ofNat {i : Nat} (h : i ≤ p.maxAttempts.toNat) :
    p.maxAttempts ≤ UInt32.ofNat i ↔ p.maxAttempts.toNat ≤ i := by
  rw [UInt32.le_iff_toNat_le, toNat_ofNat_of_le h]

/-- The last attempt ends the loop with its result. -/
theorem verdict_last (hlast : s.IsLast p.maxAttempts.toNat k) (hk : k ≤ p.maxAttempts.toNat) :
    p.verdict (.ofNat k) (s.result k) = .finish (s.result k) := by
  cases hr : s.result k with
  | ok v => rfl
  | error e =>
    rw [verdict_error, if_pos]
    rcases hlast.settles e hr with hfinal | hle
    · simp [hfinal]
    · simp [(maxAttempts_le_ofNat hk).2 hle]

/-- Every other attempt is followed by a wait. -/
theorem verdict_of_lt (hlast : s.IsLast p.maxAttempts.toNat k) {i : Nat} (hi : 0 < i)
    (hlt : i < k) :
    ∃ e, s.result i = .error e ∧ p.verdict (.ofNat i) (s.result i) = .rest e (s.delay p i) := by
  obtain ⟨e, he, hretry, hroom⟩ := hlast.error_of_lt hi hlt
  have hmore : ¬ p.maxAttempts ≤ UInt32.ofNat i := by
    rw [maxAttempts_le_ofNat (Nat.le_of_lt hroom)]
    omega
  refine ⟨e, he, ?_⟩
  unfold Script.delay
  rw [he, verdict_error, if_neg (by simp [hretry, hmore])]

/-- A timeline with its last attempt, and a token that does not fire at the very end of a wait. -/
structure Timetable (s : Script α) (p : Policy) (token : Option Nat) (k : Nat) : Prop where
  last : s.IsLast p.maxAttempts.toNat k
  room : k ≤ p.maxAttempts.toNat
  edge : ∀ f ∈ token, ∀ i, 0 < i → i < k → f ≠ s.wakes p i

/-- Where a loop stands on its timeline: since when, until when, and with what behind it. The token
has not fired before the attempt under way, or the one before the rest, began. -/
inductive Stage (s : Script α) (p : Policy) (token : Option Nat) (k : Nat) :
    Loop α → Nat → Nat → List (Entry α) → Prop
  | ready {i : Nat} (hi : i < k) (ht : ∀ f ∈ token, s.wakes p i ≤ f) :
      Stage s p token k ⟨.ofNat i, .ready⟩ (s.wakes p i) (s.wakes p i) (s.log p i)
  | attempting {i : Nat} (hi : i < k) (ht : ∀ f ∈ token, s.wakes p i ≤ f) :
      Stage s p token k
        ⟨.ofNat (i + 1), .attempting (s.wakes p i) ⟨some (s.takes (i + 1)), s.result (i + 1)⟩⟩
        (s.wakes p i) (s.ends p (i + 1)) (⟨0, s.wakes p i, .began (.ofNat (i + 1))⟩ :: s.log p i)
  | resting {i : Nat} (hi : i + 1 < k) (ht : ∀ f ∈ token, s.wakes p i ≤ f) :
      Stage s p token k ⟨.ofNat (i + 1), .resting (s.wakes p (i + 1))⟩
        (s.ends p (i + 1)) (s.wakes p (i + 1)) (s.log p (i + 1))

/-- How a loop on its timeline ends: with its last attempt, or in the first wait that is not over
when its token fires. -/
inductive Final (s : Script α) (p : Policy) (token : Option Nat) (k : Nat) :
    Except Failure α → Nat → List (Entry α) → Prop
  | settled (ht : ∀ f ∈ token, s.wakes p (k - 1) ≤ f) :
      Final s p token k (s.result k) (s.ends p k) (s.logUpTo p k)
  | cut {j f : Nat} (hj : 0 < j) (hjk : j < k) (hf : token = some f)
      (hpassed : s.wakes p (j - 1) ≤ f) (hcut : f < s.wakes p j) :
      Final s p token k (.error .cancelled) (max f (s.ends p j)) (s.log p j)

/-- What is known of a token at an instant: whether it has fired. At the very instant at which it
fires it may be known or not. -/
structure Told (token : Option Nat) (now : Nat) (fired : Bool) : Prop where
  past : fired = true → ∃ f, token = some f ∧ f ≤ now
  ahead : fired = false → ∀ f ∈ token, now ≤ f

variable {token : Option Nat} {now : Nat} {fired : Bool}

/-- A loop that rests although its token has fired has learnt so just now. -/
def Prompt (token : Option Nat) (now : Nat) (fired : Bool) (l : Loop α) (since : Nat) : Prop :=
  ∀ wakesAt, l.phase = .resting wakesAt → fired = true → ∀ f ∈ token, now = max f since

/-- A move of a loop on its timeline. -/
inductive Stage.Moved (s : Script α) (p : Policy) (token : Option Nat) (k now : Nat)
    (log : List (Entry α)) : Move α → Prop
  | wait : Stage.Moved s p token k now log .wait
  | step {ns : List (Notice α)} {l : Loop α} {due : Nat}
      (h : Stage s p token k l now due (enter 0 now ns log)) (hdue : now ≤ due) :
      Stage.Moved s p token k now log (.step ns l)
  | finish {ns : List (Notice α)} {r : Except Failure α}
      (h : Final s p token k r now (enter 0 now ns log)) :
      Stage.Moved s p token k now log (.finish ns r)

theorem Stage.move (hs : Timetable s p token k) (htold : Told token now fired) {l : Loop α}
    {since due : Nat} {log : List (Entry α)} (h : Stage s p token k l since due log)
    (hsince : since ≤ now) (hdue : now ≤ due) (hprompt : Prompt token now fired l since) :
    Stage.Moved s p token k now log (l.move p s.answers now fired) := by
  have hroom : k ≤ p.maxAttempts.toNat := hs.room
  cases h with
  | @ready i hi ht =>
    have hnow : now = s.wakes p i := by omega
    have hnumber : UInt32.ofNat i + 1 = UInt32.ofNat (i + 1) := (UInt32.ofNat_add i 1).symm
    subst hnow
    unfold Loop.move
    simp only [hnumber]
    rw [answers_ofNat (p := p) (by omega)]
    exact .step (.attempting hi ht) (by rw [Script.ends_succ]; omega)
  | @attempting i hi ht =>
    unfold Loop.move
    simp only
    split
    · exact .wait
    · rename_i hover
      have hnow : now = s.ends p (i + 1) := by
        rw [Script.ends_succ] at hdue ⊢
        omega
      subst hnow
      rcases Nat.lt_or_ge (i + 1) k with hlt | hge
      · -- another attempt follows
        obtain ⟨e, he, hverdict⟩ := verdict_of_lt hs.last (Nat.succ_pos i) hlt
        rw [hverdict]
        have hlog : enter 0 (s.ends p (i + 1)) [.ended (.ofNat (i + 1)) (s.result (i + 1)),
            .retried e] (⟨0, s.wakes p i, .began (.ofNat (i + 1))⟩ :: s.log p i) =
              s.log p (i + 1) := by
          rw [Script.log_succ, Script.retry_of_error he]
          rfl
        refine .step ?_ (Nat.le_add_right _ (s.delay p (i + 1)))
        rw [hlog]
        exact .resting hlt ht
      · have hik : i + 1 = k := by omega
        subst hik
        rw [verdict_last hs.last hroom]
        exact .finish (.settled ht)
  | @resting i hi ht =>
    unfold Loop.move
    simp only
    split
    · -- the token cuts the rest short
      rename_i hfired
      obtain ⟨f, hf, hle⟩ := htold.past hfired
      have hnow : now = max f (s.ends p (i + 1)) := hprompt _ rfl hfired f hf
      have hne : f ≠ s.wakes p (i + 1) := hs.edge f hf (i + 1) (Nat.succ_pos i) hi
      rw [hnow]
      exact .finish (.cut (Nat.succ_pos i) hi hf (ht f hf) (by omega))
    · rename_i hfired
      split
      · exact .wait
      · have hnow : now = s.wakes p (i + 1) := by omega
        subst hnow
        exact .step (.ready hi fun f hf => htold.ahead (by simpa using hfired) f hf)
          (Nat.le_refl _)

theorem Stage.within (hroom : k ≤ p.maxAttempts.toNat) {l : Loop α} {since due : Nat}
    {log : List (Entry α)} (h : Stage s p token k l since due log) : l.Within p := by
  have hlt : ∀ i, i < k → UInt32.ofNat i < p.maxAttempts := by
    intro i hi
    rw [UInt32.lt_iff_toNat_lt, toNat_ofNat_of_le (p := p) (by omega)]
    omega
  have hpos : ∀ i, i < k → 0 < UInt32.ofNat (i + 1) := by
    intro i hi
    rw [UInt32.lt_iff_toNat_lt, toNat_ofNat_of_le (p := p) (by omega)]
    exact Nat.succ_pos i
  unfold Loop.Within
  cases h with
  | ready hi ht => exact hlt _ hi
  | @attempting i hi ht =>
    refine ⟨hpos i hi, ?_⟩
    rw [UInt32.le_iff_toNat_le, toNat_ofNat_of_le (p := p) (by omega)]
    omega
  | @resting i hi ht => exact ⟨hpos i (by omega), hlt _ hi⟩

theorem enter_append (call now : Nat) (ns ms : List (Notice α)) (record : List (Entry α)) :
    enter call now (ns ++ ms) record = enter call now ms (enter call now ns record) := by
  simp [enter]

/-- Where a turn leaves a loop that is on its timeline. -/
inductive Stage.Turned (s : Script α) (p : Policy) (token : Option Nat) (k now : Nat)
    (log : List (Entry α)) : Loop α ⊕ Except Failure α → Prop
  | on {l : Loop α} {since due : Nat} (h : Stage s p token k l since due log)
      (hsince : since ≤ now) (hdue : now ≤ due) : Stage.Turned s p token k now log (.inl l)
  | ended {r : Except Failure α} (h : Final s p token k r now log) :
      Stage.Turned s p token k now log (.inr r)

theorem Stage.turnFor (hs : Timetable s p token k) (htold : Told token now fired) (fuel : Nat)
    {l : Loop α} {since due : Nat} {log : List (Entry α)} (h : Stage s p token k l since due log)
    (hsince : since ≤ now) (hdue : now ≤ due) (hprompt : Prompt token now fired l since) :
    Stage.Turned s p token k now
      (enter 0 now (l.turnFor p s.answers now fired fuel).notices log)
      (l.turnFor p s.answers now fired fuel).rest := by
  -- by induction on the moves that may still be made, each of which is made on time
  induction fuel generalizing l since due log with
  | zero => exact .on h hsince hdue
  | succ fuel ih =>
    unfold Loop.turnFor
    have hm := h.move hs htold hsince hdue hprompt
    generalize l.move p s.answers now fired = m at hm
    cases hm with
    | wait => exact .on h hsince hdue
    | finish hfinal => exact .ended hfinal
    | step hnext hdue' =>
      simp only [enter_append]
      refine ih hnext (Nat.le_refl now) hdue' fun _ _ hfired f hf => ?_
      obtain ⟨g, hg, hle⟩ := htold.past hfired
      rw [hg] at hf
      cases hf
      omega

/-- **A turn leaves a loop on its timeline**, waiting for what has not come, or it is over. -/
theorem Stage.turn (hs : Timetable s p token k) (htold : Told token now fired) {l : Loop α}
    {since due : Nat} {log : List (Entry α)} (h : Stage s p token k l since due log)
    (hsince : since ≤ now) (hdue : now ≤ due) (hprompt : Prompt token now fired l since) :
    Stage.Turned s p token k now (enter 0 now (l.turn p s.answers now fired).notices log)
        (l.turn p s.answers now fired).rest ∧
      ∀ l', (l.turn p s.answers now fired).rest = .inl l' → l'.Waits now fired := by
  refine ⟨h.turnFor hs htold _ hsince hdue hprompt, fun l' hl' => ?_⟩
  have hhalted := turn_halted s.answers now fired (h.within hs.room)
  rw [hl'] at hhalted
  cases hhalted with
  | waits _ hw _ => exact hw

/-- When an attempt ended, if its number is known. -/
theorem finishOf_attempt (s : Script α) (p : Policy) {i n : Nat} (hi : i ≤ p.maxAttempts.toNat)
    (hn : n ≤ p.maxAttempts.toNat) (rest : List (Entry α)) :
    finishOf (s.attempt p i ++ rest) 0 (.ofNat n) =
      if n = i then some (s.ends p i) else finishOf rest 0 (.ofNat n) := by
  have hiff : UInt32.ofNat i = UInt32.ofNat n ↔ n = i := by
    constructor
    · intro h
      rw [← toNat_ofNat_of_le (p := p) hn, ← h, toNat_ofNat_of_le (p := p) hi]
    · rintro rfl
      rfl
  unfold finishOf Script.attempt
  simp only [List.cons_append, List.nil_append, List.findSome?_cons, true_and, hiff]
  by_cases h : n = i
  · simp [h]
  · simp [h]

theorem finishOf_retry (s : Script α) (p : Policy) (i : Nat) (n : UInt32) (rest : List (Entry α)) :
    finishOf (s.retry p i ++ rest) 0 n = finishOf rest 0 n := by
  unfold Script.retry finishOf
  split
  · rfl
  · rfl

theorem finishOf_log (s : Script α) (p : Policy) {i n : Nat} (hi : i ≤ p.maxAttempts.toNat)
    (hn : 0 < n) (hni : n ≤ i) : finishOf (s.log p i) 0 (.ofNat n) = some (s.ends p n) := by
  induction i with
  | zero => omega
  | succ i ih =>
    rw [Script.log_succ, List.append_assoc, finishOf_retry, finishOf_attempt s p hi (by omega)]
    split
    · rename_i heq
      rw [heq]
    · exact ih (by omega) (by omega)

/-- The attempts of a record, if the ends of attempts are looked up in another one. -/
def trialsIn (whole record : List (Entry α)) : List Trial :=
  record.reverse.filterMap (fun e => match e.notice with
    | .began n => some ⟨e.call, n.toNat, e.instant, finishOf whole e.call n⟩
    | _ => none)

theorem trialsIn_append (whole xs ys : List (Entry α)) :
    trialsIn whole (xs ++ ys) = trialsIn whole ys ++ trialsIn whole xs := by
  simp [trialsIn]

theorem trialsIn_retry (whole : List (Entry α)) (s : Script α) (p : Policy) (i : Nat) :
    trialsIn whole (s.retry p i) = [] := by
  unfold Script.retry
  split
  · rfl
  · rfl

/-- The trial that attempt number `i` makes. -/
def Script.trial (s : Script α) (p : Policy) (i : Nat) : Trial :=
  ⟨0, i, s.wakes p (i - 1), some (s.ends p i)⟩

theorem trialsIn_attempt {whole : List (Entry α)} (s : Script α) {i : Nat}
    (hi : i ≤ p.maxAttempts.toNat) (hend : finishOf whole 0 (.ofNat i) = some (s.ends p i)) :
    trialsIn whole (s.attempt p i) = [s.trial p i] := by
  unfold trialsIn Script.attempt Script.trial
  simp [toNat_ofNat_of_le hi, hend]

theorem trialsIn_log {whole : List (Entry α)} (s : Script α) {i : Nat}
    (hi : i ≤ p.maxAttempts.toNat)
    (hends : ∀ n, 0 < n → n ≤ i → finishOf whole 0 (.ofNat n) = some (s.ends p n)) :
    trialsIn whole (s.log p i) = (List.range i).map (fun n => s.trial p (n + 1)) := by
  induction i with
  | zero => rfl
  | succ i ih =>
    have hlast : finishOf whole 0 (.ofNat (i + 1)) = some (s.ends p (i + 1)) :=
      hends (i + 1) (Nat.succ_pos i) (Nat.le_refl _)
    rw [Script.log_succ, trialsIn_append, trialsIn_append, trialsIn_retry,
      trialsIn_attempt s hi hlast, ih (by omega) (fun n hn hni => hends n hn (by omega)),
      List.range_succ, List.map_append, List.append_nil]
    rfl

/-- **The attempts that the timeline shows** up to the wait after one of them. -/
theorem trials_log (s : Script α) {i : Nat} (hi : i ≤ p.maxAttempts.toNat) :
    trials (s.log p i) = (List.range i).map (fun n => s.trial p (n + 1)) :=
  trialsIn_log s hi fun _ hn hni => finishOf_log s p hi hn hni

/-- The same up to the end of an attempt. -/
theorem trials_logUpTo (s : Script α) {k : Nat} (hpos : 0 < k) (hk : k ≤ p.maxAttempts.toNat) :
    trials (s.logUpTo p k) = (List.range k).map (fun n => s.trial p (n + 1)) := by
  obtain ⟨i, rfl⟩ : ∃ i, k = i + 1 := ⟨k - 1, by omega⟩
  have hends : ∀ n, 0 < n → n ≤ i + 1 →
      finishOf (s.logUpTo p (i + 1)) 0 (.ofNat n) = some (s.ends p n) := by
    intro n hn hni
    unfold Script.logUpTo
    rw [finishOf_attempt s p hk (by omega)]
    split
    · rename_i heq
      rw [heq]
    · exact finishOf_log s p (by simp; omega) hn (by simp; omega)
  have hsplit : trials (s.logUpTo p (i + 1)) =
      trialsIn (s.logUpTo p (i + 1)) (s.attempt p (i + 1) ++ s.log p i) := rfl
  rw [hsplit, trialsIn_append, trialsIn_attempt s hk (hends _ (Nat.succ_pos i) (Nat.le_refl _)),
    trialsIn_log s (by omega) (fun n hn hni => hends n hn (by omega)), List.range_succ,
    List.map_append]
  rfl

end RegistryLookup.Retry
