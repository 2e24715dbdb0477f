import Mathlib.Data.List.Basic
import RegistryLookup.Proofs.Retry.Delay
import RegistryLookup.Proofs.Retry.Timeline

/-!
# Timelines that begin later

A loop that is started at another instant does the same at instants that are as much later, and only
the attempts that it has not made yet matter to it (`Loop.turn_later`). So the timeline of a loop
that begins at zero tells of any loop what it does, and when.

* `trialsOf_later`: the attempts on the record of a call that began later.
* `Stage.begun`: a loop has counted the attempts that its record shows.
* `Script.ends_le`: a bound on the time that a loop takes.
-/

namespace RegistryLookup.Retry

variable {α : Type} {p : Policy}

/-- The same phase, begun later. -/
def Phase.later (t : Nat) : Phase α → Phase α
  | .ready => .ready
  | .attempting since outcome => .attempting (t + since) outcome
  | .resting wakesAt => .resting (t + wakesAt)

/-- The same loop, begun later. -/
def Loop.later (t : Nat) (l : Loop α) : Loop α := ⟨l.tries, l.phase.later t⟩

/-- The same move, made later. -/
def Move.later (t : Nat) : Move α → Move α
  | .wait => .wait
  | .step notices next => .step notices (next.later t)
  | .finish notices result => .finish notices result

/-- The same turn, taken later. -/
def Turn.later (t : Nat) (u : Turn α) : Turn α := ⟨u.notices, u.rest.map (Loop.later t) id⟩

/-- The attempts that a loop has not made come to the same. -/
def AgreeBeyond (l : Loop α) (answers answers' : UInt32 → Outcome α) : Prop :=
  ∀ n : UInt32, l.tries.toNat < n.toNat → answers' n = answers n

variable {answers answers' : UInt32 → Outcome α} {now t : Nat} {fired : Bool}

theorem Loop.move_later {l : Loop α} (hl : l.Within p) (h : AgreeBeyond l answers answers') :
    (l.later t).move p answers' (t + now) fired = (l.move p answers now fired).later t := by
  obtain ⟨tries, phase⟩ := l
  cases phase with
  | ready =>
    have hnext : answers' (tries + 1) = answers (tries + 1) := by
      refine h _ ?_
      rw [(Loop.hasRoom_of_lt hl (.ready : Phase α)).toNat_succ rfl]
      exact Nat.lt_succ_self _
    simp only [Loop.move, Loop.later, Phase.later, Move.later, hnext]
  | attempting since o =>
    cases ho : o.takes with
    | none => simp only [Loop.move, Loop.later, Phase.later, Move.later, ho]
    | some d =>
      have hiff : t + now < t + since + d ↔ now < since + d := by omega
      simp only [Loop.move, Loop.later, Phase.later, ho, hiff]
      by_cases hlt : now < since + d
      · simp only [if_pos hlt, Move.later]
      · simp only [if_neg hlt]
        cases p.verdict tries o.result with
        | finish r => rfl
        | rest e delay => simp only [Move.later, Loop.later, Phase.later, Nat.add_assoc]
  | resting wakesAt =>
    have hiff : t + now < t + wakesAt ↔ now < wakesAt := by omega
    simp only [Loop.move, Loop.later, Phase.later, hiff]
    cases fired with
    | true => rfl
    | false =>
      by_cases hlt : now < wakesAt
      · simp only [Bool.false_eq_true, if_false, if_pos hlt, Move.later]
      · simp only [Bool.false_eq_true, if_false, if_neg hlt, Move.later, Loop.later, Phase.later]

/-- A loop that goes on has made no fewer attempts. -/
theorem tries_le_of_move {l l' : Loop α} {ns : List (Notice α)} (hl : l.Within p)
    (h : l.move p answers now fired = .step ns l') : l.tries.toNat ≤ l'.tries.toNat := by
  have hm := move_cases p answers now fired l
  rw [h] at hm
  cases hm with
  | begin hp =>
    unfold Loop.Within at hl
    rw [hp] at hl
    have hsucc := (Loop.hasRoom_of_lt hl (.ready : Phase α)).toNat_succ rfl
    simp only at hsucc ⊢
    omega
  | fail => exact Nat.le_refl _
  | resume => exact Nat.le_refl _

theorem Loop.turnFor_later (fuel : Nat) {l : Loop α} (hl : l.Within p)
    (h : AgreeBeyond l answers answers') :
    (l.later t).turnFor p answers' (t + now) fired fuel =
      (l.turnFor p answers now fired fuel).later t := by
  -- by induction on the moves that may still be made, each of which is made as much later
  induction fuel generalizing l with
  | zero => rfl
  | succ fuel ih =>
    unfold Loop.turnFor
    rw [Loop.move_later hl h]
    cases hm : l.move p answers now fired with
    | wait => rfl
    | finish ns r => rfl
    | step ns next =>
      have hnext : AgreeBeyond next answers answers' := fun n hn =>
        h n (Nat.lt_of_le_of_lt (tries_le_of_move hl hm) hn)
      simp only [Move.later, ih (within_of_move hl hm).1 hnext, Turn.later]

/-- **A loop that begins later does the same later.** -/
theorem Loop.turn_later {l : Loop α} (hl : l.Within p) (h : AgreeBeyond l answers answers') :
    (l.later t).turn p answers' (t + now) fired = (l.turn p answers now fired).later t :=
  Loop.turnFor_later _ hl h

theorem Loop.timer_later (t : Nat) (l : Loop α) : (l.later t).timer = l.timer.map (t + ·) := by
  obtain ⟨tries, phase⟩ := l
  cases phase with
  | ready => rfl
  | attempting since o =>
    cases ho : o.takes with
    | none => simp [Loop.timer, Loop.later, Phase.later, ho]
    | some d => simp [Loop.timer, Loop.later, Phase.later, ho, Nat.add_assoc]
  | resting wakesAt => rfl

/-- What is noticed of a call that began later. -/
def Entry.later (call t : Nat) (e : Entry α) : Entry α := ⟨call, t + e.instant, e.notice⟩

theorem enter_later (call t now : Nat) (ns : List (Notice α)) (log rest : List (Entry α)) :
    enter call (t + now) ns (log.map (Entry.later call t) ++ rest) =
      (enter 0 now ns log).map (Entry.later call t) ++ rest := by
  simp [enter, Entry.later, Function.comp_def]

/-- How many attempts a record shows. -/
def begunIn (log : List (Entry α)) : Nat := log.countP (fun e => e.notice.isBegan)

theorem begunIn_append (xs ys : List (Entry α)) : begunIn (xs ++ ys) = begunIn xs + begunIn ys :=
  List.countP_append

theorem begunIn_enter (call now : Nat) (ns : List (Notice α)) (log : List (Entry α)) :
    begunIn (enter call now ns log) = ns.countP Notice.isBegan + begunIn log := by
  unfold enter
  rw [begunIn_append, begunIn, List.countP_reverse, List.countP_map]
  rfl

/-- The attempts of a call on a record. -/
def trialsOf (call : Nat) (record : List (Entry α)) : List Trial :=
  (trials record).filter (fun trial => trial.call = call)

/-- The same attempt of a call that began later. -/
def Trial.later (call t : Nat) (trial : Trial) : Trial :=
  ⟨call, trial.number, t + trial.start, trial.finish.map (t + ·)⟩

theorem finishOf_later {call : Nat} (t : Nat) {log rest : List (Entry α)}
    (hlog : ∀ e ∈ log, e.call = 0) (hrest : ∀ e ∈ rest, e.call ≠ call) (n : UInt32) :
    finishOf (log.map (Entry.later call t) ++ rest) call n = (finishOf log 0 n).map (t + ·) := by
  induction log with
  | nil =>
    refine List.findSome?_eq_none_iff.2 fun e he => ?_
    have hne := hrest e he
    split
    · rw [if_neg fun h => hne h.1]
    · rfl
  | cons e log ih =>
    have hcall : e.call = 0 := hlog e List.mem_cons_self
    have hih := ih fun e' he' => hlog e' (List.mem_cons_of_mem e he')
    unfold finishOf at hih ⊢
    rw [List.map_cons, List.cons_append, List.findSome?_cons, List.findSome?_cons]
    cases hn : e.notice with
    | ended m r =>
      by_cases hm : m = n
      · simp [Entry.later, hn, hm, hcall]
      · simp [Entry.later, hn, hm, hih]
    | _ => simp [Entry.later, hn, hih]

theorem trialsIn_later {call : Nat} {t : Nat} {whole whole' part : List (Entry α)}
    (hfinish : ∀ n, finishOf whole' call n = (finishOf whole 0 n).map (t + ·))
    (hpart : ∀ e ∈ part, e.call = 0) :
    trialsIn whole' (part.map (Entry.later call t)) =
      (trialsIn whole part).map (Trial.later call t) := by
  unfold trialsIn
  rw [← List.map_reverse, List.filterMap_map, List.map_filterMap]
  refine List.filterMap_congr fun e he => ?_
  have hcall : e.call = 0 := hpart e (List.mem_reverse.1 he)
  obtain ⟨c, instant, notice⟩ := e
  cases hcall
  cases notice with
  | began n => simp only [Function.comp_apply, Entry.later, hfinish, Option.map_some, Trial.later]
  | _ => rfl

theorem filter_trialsIn_of_ne {call : Nat} (whole : List (Entry α)) {rest : List (Entry α)}
    (hrest : ∀ e ∈ rest, e.call ≠ call) :
    (trialsIn whole rest).filter (fun trial => trial.call = call) = [] := by
  refine List.filter_eq_nil_iff.2 fun trial htrial => ?_
  obtain ⟨⟨c, instant, notice⟩, he, heq⟩ := List.mem_filterMap.1 htrial
  have hne : c ≠ call := hrest _ (List.mem_reverse.1 he)
  cases notice with
  | began n => cases heq; simpa using hne
  | _ => cases heq

/-- **The attempts on the record of a call that began later.** -/
theorem trialsOf_later {call : Nat} (t : Nat) {log rest : List (Entry α)}
    (hlog : ∀ e ∈ log, e.call = 0) (hrest : ∀ e ∈ rest, e.call ≠ call) :
    trialsOf call (log.map (Entry.later call t) ++ rest) =
      (trials log).map (Trial.later call t) := by
  have hsplit : trials (log.map (Entry.later call t) ++ rest) =
      trialsIn (log.map (Entry.later call t) ++ rest) (log.map (Entry.later call t) ++ rest) := rfl
  rw [trialsOf, hsplit, trialsIn_append, List.filter_append, filter_trialsIn_of_ne _ hrest,
    List.nil_append, trialsIn_later (finishOf_later t hlog hrest) hlog]
  refine List.filter_eq_self.2 fun trial htrial => decide_eq_true ?_
  obtain ⟨_, -, rfl⟩ := List.mem_map.1 htrial
  rfl

variable {s : Script α} {token : Option Nat} {k : Nat}

theorem Script.call_of_mem_log {i : Nat} {e : Entry α} (h : e ∈ s.log p i) : e.call = 0 := by
  induction i with
  | zero => cases h
  | succ i ih =>
    rw [Script.log_succ, Script.retry, Script.attempt] at h
    split at h <;> simp only [List.nil_append, List.cons_append, List.mem_cons] at h
    · rcases h with rfl | rfl | h
      · rfl
      · rfl
      · exact ih h
    · rcases h with rfl | rfl | rfl | h
      · rfl
      · rfl
      · rfl
      · exact ih h

theorem Script.call_of_mem_logUpTo {i : Nat} {e : Entry α} (h : e ∈ s.logUpTo p i) :
    e.call = 0 := by
  rcases List.mem_append.1 h with hattempt | hlog
  · simp only [Script.attempt, List.mem_cons, List.not_mem_nil, or_false] at hattempt
    rcases hattempt with rfl | rfl
    · rfl
    · rfl
  · exact Script.call_of_mem_log hlog

theorem Script.begunIn_log (s : Script α) (p : Policy) (i : Nat) : begunIn (s.log p i) = i := by
  induction i with
  | zero => rfl
  | succ i ih =>
    have hretry : begunIn (s.retry p (i + 1)) = 0 := by
      unfold Script.retry
      split <;> rfl
    have hattempt : begunIn (s.attempt p (i + 1)) = 1 := rfl
    rw [Script.log_succ, begunIn_append, begunIn_append, ih, hretry, hattempt]
    omega

theorem Script.begunIn_logUpTo (s : Script α) (p : Policy) {i : Nat} (hi : 0 < i) :
    begunIn (s.logUpTo p i) = i := by
  have hattempt : begunIn (s.attempt p i) = 1 := rfl
  rw [Script.logUpTo, begunIn_append, Script.begunIn_log, hattempt]
  omega

/-- **A loop has counted the attempts that its record shows.** -/
theorem Stage.begun (hroom : k ≤ p.maxAttempts.toNat) {l : Loop α} {since due : Nat}
    {log : List (Entry α)} (h : Stage s p token k l since due log) :
    begunIn log = l.tries.toNat := by
  cases h with
  | ready hi ht => rw [Script.begunIn_log, toNat_ofNat_of_le (p := p) (by omega)]
  | @attempting i hi ht =>
    have hcons : begunIn (⟨0, s.wakes p i, .began (.ofNat (i + 1))⟩ :: s.log p i) =
        begunIn (s.log p i) + 1 := List.countP_cons_of_pos rfl
    rw [hcons, Script.begunIn_log, toNat_ofNat_of_le (p := p) (by omega)]
  | resting hi ht => rw [Script.begunIn_log, toNat_ofNat_of_le (p := p) (by omega)]

/-- A wait is no longer than the longest backoff, or the longest wait that is accepted. -/
theorem Script.delay_le (s : Script α) (p : Policy) (i : Nat) :
    s.delay p i ≤ Duration.ofMillis p.maxDelayMs.toNat + p.maxRetryAfter := by
  have hsum : p.largerCap ≤ Duration.ofMillis p.maxDelayMs.toNat + p.maxRetryAfter := by
    unfold Policy.largerCap
    omega
  unfold Script.delay
  cases s.result i with
  | ok v => exact Nat.zero_le _
  | error e =>
    have hcap : p.delayFor (.ofNat i) e ≤ p.largerCap :=
      Nat.le_trans (p.delayFor_le _ e) (p.cap_le_largerCap e)
    exact Nat.le_trans hcap hsum

end RegistryLookup.Retry
