import RegistryLookup.Proofs.Retry.Course

/-!
# Where a turn of a loop stops

A loop takes its turn until there is something to wait for, or until it is over. The moves that a
turn may take are enough for that, since each attempt takes three of them and the attempts of a
loop are numbered (`turn_halted`). A token that has fired ends a rest, and lets an attempt that is
under way come to its end (`turn_fired`).

* `Loop.Waits`: what a loop waits for has not come.
* `Loop.Within`: the attempts of a loop stay within the limit.
* `Policy.Settles`: no attempt follows.
* `Policy.lastWord`: what the end of an attempt comes to when no other may follow.
-/

namespace RegistryLookup.Retry

variable {α : Type} {p : Policy} {answers : UInt32 → Outcome α} {now : Nat} {fired : Bool}

/-- What a loop waits for has not come: its attempt is not over, or its rest is not over and its
token has not fired. -/
inductive Loop.Waits (now : Nat) (fired : Bool) (l : Loop α) : Prop
  | attempting (since : Nat) (o : Outcome α) (hp : l.phase = .attempting since o)
      (h : ∀ d, o.takes = some d → now < since + d)
  | resting (wakesAt : Nat) (hp : l.phase = .resting wakesAt) (hf : fired = false)
      (h : now < wakesAt)

/-- The attempts of a loop stay within the limit of a policy. -/
def Loop.Within (p : Policy) (l : Loop α) : Prop :=
  match l.phase with
  | .ready => l.tries < p.maxAttempts
  | .attempting _ _ => 0 < l.tries ∧ l.tries ≤ p.maxAttempts
  | .resting _ => 0 < l.tries ∧ l.tries < p.maxAttempts

/-- No attempt follows attempt number `n` with a result: it is a success, a failure for good, or
that of the last attempt allowed. -/
def Policy.Settles (p : Policy) (n : UInt32) (r : Except Failure α) : Prop :=
  ∀ e, r = .error e → e.isRetryable = false ∨ p.maxAttempts ≤ n

/-- What attempt number `n` comes to when no other may follow, because the token has fired. -/
def Policy.lastWord (p : Policy) (n : UInt32) : Except Failure α → Except Failure α
  | .ok v => .ok v
  | .error e => if !e.isRetryable || p.maxAttempts ≤ n then .error e else .error .cancelled

theorem verdict_error (p : Policy) (n : UInt32) (e : Failure) :
    p.verdict n (.error e : Except Failure α) =
      if !e.isRetryable || p.maxAttempts ≤ n then .finish (.error e) else .rest e (p.delayFor n e) :=
  rfl

theorem settles_of_finish {n : UInt32} {r r' : Except Failure α}
    (h : p.verdict n r = .finish r') : p.Settles n r := by
  rintro e rfl
  rw [verdict_error] at h
  split at h
  · rename_i hc
    simpa using hc
  · cases h

theorem lastWord_of_finish {n : UInt32} {r r' : Except Failure α}
    (h : p.verdict n r = .finish r') : p.lastWord n r = r' := by
  cases r with
  | ok v => cases h; rfl
  | error e =>
    rw [verdict_error] at h
    split at h
    · rename_i hc
      cases h
      exact if_pos hc
    · cases h

theorem lastWord_of_rest {n : UInt32} {r : Except Failure α} {e : Failure} {delay : Nat}
    (h : p.verdict n r = .rest e delay) : p.lastWord n r = .error .cancelled := by
  cases r with
  | ok v => cases h
  | error e' =>
    rw [verdict_error] at h
    split at h
    · cases h
    · rename_i hc
      exact if_neg hc

/-- A loop that does not go on has something to wait for. -/
theorem waits_of_move {l : Loop α} (h : l.move p answers now fired = .wait) :
    l.Waits now fired := by
  unfold Loop.move at h
  split at h
  · cases h
  · rename_i since o hp
    refine .attempting since o hp fun d hd => ?_
    simp only [hd] at h
    split at h
    · assumption
    · split at h <;> cases h
  · rename_i wakesAt hp
    split at h
    · cases h
    · rename_i hf
      split at h
      · rename_i hlt
        exact .resting wakesAt hp (by simpa using hf) hlt
      · cases h

theorem Loop.Waits.move {l : Loop α} (h : l.Waits now fired) :
    l.move p answers now fired = .wait := by
  unfold Loop.move
  cases h with
  | attempting since o hp h =>
    simp only [hp]
    cases hd : o.takes with
    | none => rfl
    | some d => simp only [if_pos (h d hd)]
  | resting wakesAt hp hf h =>
    simp only [hp, hf, Bool.false_eq_true, if_false, if_pos h]

/-- A loop that is over was cut short in a rest, or its last attempt settles the matter. -/
theorem result_of_move {l : Loop α} {ns : List (Notice α)} {r : Except Failure α}
    (h : l.move p answers now fired = .finish ns r) :
    (fired = true ∧ r = .error .cancelled) ∨ (ns = [.ended l.tries r] ∧ p.Settles l.tries r) := by
  unfold Loop.move at h
  split at h
  · cases h
  · split at h
    · cases h
    · split at h
      · cases h
      · split at h
        · rename_i r' hv
          cases h
          obtain rfl := verdict_finish hv
          exact Or.inr ⟨rfl, settles_of_finish hv⟩
        · cases h
  · split at h
    · rename_i hf
      cases h
      exact Or.inl ⟨hf, rfl⟩
    · split at h <;> cases h

/-- A bound on the moves that a loop can make without waiting. -/
def Loop.movesLeft (p : Policy) (l : Loop α) : Nat :=
  3 * (p.maxAttempts.toNat - l.tries.toNat) + match l.phase with
    | .ready => 0
    | .attempting _ _ => 2
    | .resting _ => 1

/-- A loop that goes on stays within the limit, and has one move less. -/
theorem within_of_move {l l' : Loop α} {ns : List (Notice α)} (hl : l.Within p)
    (h : l.move p answers now fired = .step ns l') :
    l'.Within p ∧ l'.movesLeft p < l.movesLeft p := by
  unfold Loop.Within at hl ⊢
  unfold Loop.movesLeft
  have hm := move_cases p answers now fired l
  rw [h] at hm
  cases hm with
  | begin hp =>
    rw [hp] at hl ⊢
    have hlt := UInt32.lt_iff_toNat_lt.1 hl
    have hsucc := (Loop.hasRoom_of_lt hl (.ready : Phase α)).toNat_succ rfl
    simp only at hsucc
    refine ⟨⟨UInt32.lt_iff_toNat_lt.2 ?_, UInt32.le_iff_toNat_le.2 ?_⟩, ?_⟩
    · rw [hsucc]; exact Nat.succ_pos _
    · rw [hsucc]; exact hlt
    · simp only [hsucc]; omega
  | fail since o e wakesAt hp hr =>
    have hlt := lt_of_move hp h
    rw [hp] at hl ⊢
    exact ⟨⟨hl.1, hlt⟩, by simp⟩
  | resume wakesAt hp =>
    rw [hp] at hl ⊢
    exact ⟨hl.2, by simp⟩

/-- Where a turn with these notices leaves a loop. -/
inductive Halted (p : Policy) (now : Nat) (fired : Bool) (ns : List (Notice α)) :
    Loop α ⊕ Except Failure α → Prop
  | waits (l : Loop α) (hw : l.Waits now fired) (hl : l.Within p) : Halted p now fired ns (.inl l)
  | cancelled (hf : fired = true) : Halted p now fired ns (.inr (.error .cancelled))
  | settled (j : UInt32) (r : Except Failure α) (hlast : ns.getLast? = some (.ended j r))
      (h : p.Settles j r) : Halted p now fired ns (.inr r)

/-- What is noticed before does not matter. -/
theorem Halted.append {ns : List (Notice α)} {rest : Loop α ⊕ Except Failure α}
    (h : Halted p now fired ns rest) (ms : List (Notice α)) :
    Halted p now fired (ms ++ ns) rest := by
  cases h with
  | waits l hw hl => exact .waits l hw hl
  | cancelled hf => exact .cancelled hf
  | settled j r hlast h =>
    refine .settled j r ?_ h
    rw [List.getLast?_append, hlast, Option.some_or]

theorem turnFor_halted (fuel : Nat) {l : Loop α} (hl : l.Within p) (hfuel : l.movesLeft p < fuel) :
    Halted p now fired (l.turnFor p answers now fired fuel).notices
      (l.turnFor p answers now fired fuel).rest := by
  -- by induction on the moves that may still be made; no more are needed than are left
  induction fuel generalizing l with
  | zero => exact absurd hfuel (Nat.not_lt_zero _)
  | succ fuel ih =>
    unfold Loop.turnFor
    cases hm : l.move p answers now fired with
    | wait => exact .waits l (waits_of_move hm) hl
    | step ns next =>
      obtain ⟨hnext, hless⟩ := within_of_move hl hm
      exact (ih hnext (by omega)).append ns
    | finish ns r =>
      rcases result_of_move hm with ⟨hf, rfl⟩ | ⟨rfl, hs⟩
      · exact .cancelled hf
      · exact .settled l.tries r rfl hs

theorem movesLeft_lt (p : Policy) (l : Loop α) :
    l.movesLeft p < 3 * (p.maxAttempts.toNat - l.tries.toNat) + 3 := by
  unfold Loop.movesLeft
  split <;> omega

/-- **A turn leaves a loop waiting, or it is over.** -/
theorem turn_halted (answers : UInt32 → Outcome α) (now : Nat) (fired : Bool) {l : Loop α}
    (hl : l.Within p) :
    Halted p now fired (l.turn p answers now fired).notices (l.turn p answers now fired).rest :=
  turnFor_halted _ hl (movesLeft_lt p l)

theorem Loop.Waits.turn {l : Loop α} (h : l.Waits now fired) :
    l.turn p answers now fired = ⟨[], .inl l⟩ := by
  unfold Loop.turn Loop.turnFor
  simp only [h.move]

/-- A loop that has begun its first attempt, and is not about to make another. -/
def Loop.Begun (l : Loop α) : Prop := l.phase ≠ .ready

/-- It has begun its first attempt. -/
theorem Loop.Within.tries_pos {l : Loop α} (h : l.Within p) (hb : l.Begun) : 0 < l.tries := by
  unfold Loop.Within at h
  cases hp : l.phase with
  | ready => exact absurd hp hb
  | attempting since o => rw [hp] at h; exact h.1
  | resting wakesAt => rw [hp] at h; exact h.1

theorem Loop.Waits.begun {l : Loop α} (h : l.Waits now fired) : l.Begun := by
  unfold Loop.Begun
  cases h with
  | attempting since o hp => rw [hp]; exact fun h => by cases h
  | resting wakesAt hp => rw [hp]; exact fun h => by cases h

theorem turn_of_resting {l : Loop α} {wakesAt : Nat} (hp : l.phase = .resting wakesAt) :
    l.turn p answers now true = ⟨[], .inr (.error .cancelled)⟩ := by
  have hm : l.move p answers now true = .finish [] (.error .cancelled) := by
    unfold Loop.move
    simp only [hp, if_true]
  unfold Loop.turn Loop.turnFor
  simp only [hm]

/-- An attempt that has taken its time is the last one. -/
theorem turn_of_over (p : Policy) (answers : UInt32 → Outcome α) {l : Loop α} {since d : Nat}
    {o : Outcome α} (hp : l.phase = .attempting since o) (ht : o.takes = some d)
    (hd : since + d ≤ now) :
    (l.turn p answers now true).rest = .inr (p.lastWord l.tries o.result) ∧
      ∀ n ∈ (l.turn p answers now true).notices, n.isBegan = false := by
  have hover : ¬ now < since + d := Nat.not_lt.2 hd
  unfold Loop.turn Loop.turnFor
  cases hv : p.verdict l.tries o.result with
  | finish r =>
    have hmove : l.move p answers now true = .finish [.ended l.tries o.result] r := by
      unfold Loop.move
      simp only [hp, ht, if_neg hover, hv]
    simp only [hmove]
    exact ⟨by rw [lastWord_of_finish hv], fun n hn => by rw [List.mem_singleton.1 hn]; rfl⟩
  | rest e delay =>
    have hmove : l.move p answers now true = .step [.ended l.tries o.result, .retried e]
        ⟨l.tries, .resting (now + delay)⟩ := by
      unfold Loop.move
      simp only [hp, ht, if_neg hover, hv]
    -- the rest that would follow is cut short at once
    have hcut : (⟨l.tries, .resting (now + delay)⟩ : Loop α).move p answers now true =
        .finish [] (.error .cancelled) := by
      unfold Loop.move
      simp only [if_true]
    simp only [hmove]
    unfold Loop.turnFor
    simp only [hcut]
    refine ⟨by rw [lastWord_of_rest hv], fun n hn => ?_⟩
    rcases List.mem_cons.1 hn with rfl | hn
    · rfl
    · rw [List.mem_singleton.1 hn]; rfl

/-- A turn of a loop whose token has fired. -/
inductive Fired (p : Policy) (now : Nat) (l : Loop α) (t : Turn α) : Prop
  /-- The attempt is not over. -/
  | waits (since : Nat) (o : Outcome α) (hp : l.phase = .attempting since o)
      (hw : l.Waits now true) (h : t = ⟨[], .inl l⟩)
  /-- The attempt is over. -/
  | spoken (since d : Nat) (o : Outcome α) (hp : l.phase = .attempting since o)
      (ht : o.takes = some d) (hd : since + d ≤ now)
      (h : t.rest = .inr (p.lastWord l.tries o.result)) (hns : ∀ n ∈ t.notices, n.isBegan = false)
  /-- The rest is cut short. -/
  | cut (wakesAt : Nat) (hp : l.phase = .resting wakesAt) (h : t = ⟨[], .inr (.error .cancelled)⟩)

/-- **After its token has fired a loop begins no attempt**, and ends with its rest or with the
attempt that is under way. -/
theorem turn_fired (p : Policy) (answers : UInt32 → Outcome α) (now : Nat) {l : Loop α}
    (hl : l.Begun) : Fired p now l (l.turn p answers now true) := by
  cases hp : l.phase with
  | ready => exact absurd hp hl
  | resting wakesAt => exact .cut wakesAt hp (turn_of_resting hp)
  | attempting since o =>
    by_cases hover : ∃ d, o.takes = some d ∧ since + d ≤ now
    · obtain ⟨d, ht, hd⟩ := hover
      obtain ⟨hrest, hns⟩ := turn_of_over p answers hp ht hd
      exact .spoken since d o hp ht hd hrest hns
    · have hw : l.Waits now true := .attempting since o hp fun d ht =>
        Nat.lt_of_not_le fun hd => hover ⟨d, ht, hd⟩
      exact .waits since o hp hw hw.turn

theorem Fired.not_began {l : Loop α} {t : Turn α} (h : Fired p now l t) :
    ∀ n ∈ t.notices, n.isBegan = false := by
  cases h with
  | waits _ _ _ _ h => rw [h]; exact fun n hn => by cases hn
  | spoken _ _ _ _ _ _ _ hns => exact hns
  | cut _ _ h => rw [h]; exact fun n hn => by cases hn

end RegistryLookup.Retry
