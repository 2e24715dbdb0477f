import RegistryLookup.Proofs.Retry.Walk

/-!
# The course of a turn

A turn of a loop with all that it rests on: what each attempt that begins in it comes to, and for
each attempt that ends in it how long it took.

* `turn_course`: every turn has such a course.
* `Course.result`: the result of a loop is that of its last attempt, unless it is cancelled.
* `Course.ended`: an attempt that ends was under way before the turn, or begins right before.
* `Course.number`, `Course.tries`: attempts are numbered one after another.
-/

namespace RegistryLookup.Retry

variable {α : Type} {p : Policy} {answers : UInt32 → Outcome α} {now : Nat}

/-- The notices of a turn that begins with a loop, and what is left of the loop. -/
inductive Course (p : Policy) (answers : UInt32 → Outcome α) (now : Nat) :
    Loop α → List (Notice α) → Loop α ⊕ Except Failure α → Prop
  | rest {l : Loop α} : Course p answers now l [] (.inl l)
  | cancelled {l : Loop α} {wakesAt : Nat} (hp : l.phase = .resting wakesAt) :
      Course p answers now l [] (.inr (.error .cancelled))
  | resumed {l : Loop α} {wakesAt : Nat} {ns : List (Notice α)} {r : Loop α ⊕ Except Failure α}
      (hp : l.phase = .resting wakesAt) (h : Course p answers now ⟨l.tries, .ready⟩ ns r) :
      Course p answers now l ns r
  | began {l : Loop α} {ns : List (Notice α)} {r : Loop α ⊕ Except Failure α}
      (hp : l.phase = .ready)
      (h : Course p answers now ⟨l.tries + 1, .attempting now (answers (l.tries + 1))⟩ ns r) :
      Course p answers now l (.began (l.tries + 1) :: ns) r
  | finished {l : Loop α} {since d : Nat} {o : Outcome α} (hp : l.phase = .attempting since o)
      (ht : o.takes = some d) (hd : since + d ≤ now) :
      Course p answers now l [.ended l.tries o.result] (.inr o.result)
  | failed {l : Loop α} {since d wakesAt : Nat} {o : Outcome α} {e : Failure}
      {ns : List (Notice α)} {r : Loop α ⊕ Except Failure α}
      (hp : l.phase = .attempting since o) (ht : o.takes = some d) (hd : since + d ≤ now)
      (hr : o.result = .error e) (hn : l.tries < p.maxAttempts)
      (h : Course p answers now ⟨l.tries, .resting wakesAt⟩ ns r) :
      Course p answers now l (.ended l.tries o.result :: .retried e :: ns) r

/-- An attempt that a move ends has taken its time. -/
theorem takes_of_move {fired : Bool} {l : Loop α} {since : Nat} {o : Outcome α}
    (hp : l.phase = .attempting since o) (hm : l.move p answers now fired ≠ .wait) :
    ∃ d, o.takes = some d ∧ since + d ≤ now := by
  unfold Loop.move at hm
  simp only [hp] at hm
  cases ht : o.takes with
  | none => simp [ht] at hm
  | some d =>
    refine ⟨d, rfl, Nat.le_of_not_lt fun hlt => ?_⟩
    simp [ht, hlt] at hm

/-- The last attempt allowed is not followed by a rest. -/
theorem lt_of_verdict_rest {n : UInt32} {r : Except Failure α} {e : Failure} {delay : Nat}
    (h : p.verdict n r = .rest e delay) : n < p.maxAttempts := by
  unfold Policy.verdict at h
  split at h
  · cases h
  · split at h
    · cases h
    · rename_i hno
      simp only [Bool.or_eq_true, not_or, decide_eq_true_eq] at hno
      exact UInt32.not_le.1 hno.2

theorem lt_of_move {fired : Bool} {l l' : Loop α} {since : Nat} {o : Outcome α}
    {ns : List (Notice α)} (hp : l.phase = .attempting since o)
    (hm : l.move p answers now fired = .step ns l') : l.tries < p.maxAttempts := by
  unfold Loop.move at hm
  simp only [hp] at hm
  split at hm
  · cases hm
  · split at hm
    · cases hm
    · split at hm
      · cases hm
      · rename_i hv
        exact lt_of_verdict_rest hv

theorem turnFor_course (p : Policy) (answers : UInt32 → Outcome α) (now : Nat) (fired : Bool)
    (fuel : Nat) (l : Loop α) :
    Course p answers now l (l.turnFor p answers now fired fuel).notices
      (l.turnFor p answers now fired fuel).rest := by
  -- by induction on the moves that may still be made, as for `turnFor_walk`
  induction fuel generalizing l with
  | zero => exact .rest
  | succ fuel ih =>
    unfold Loop.turnFor
    have hm := move_cases p answers now fired l
    have htakes : ∀ since o, l.phase = .attempting since o → l.move p answers now fired ≠ .wait →
        ∃ d, o.takes = some d ∧ since + d ≤ now := fun _ _ => takes_of_move
    have hroom : ∀ since o l' ns, l.phase = .attempting since o →
        l.move p answers now fired = .step ns l' → l.tries < p.maxAttempts :=
      fun _ _ _ _ => lt_of_move
    generalize l.move p answers now fired = m at hm htakes hroom
    cases hm with
    | wait => exact .rest
    | begin hp => exact .began hp (ih _)
    | finish since o hp =>
      obtain ⟨d, ht, hd⟩ := htakes since o hp (by simp)
      exact .finished hp ht hd
    | fail since o e wakesAt hp hr =>
      obtain ⟨d, ht, hd⟩ := htakes since o hp (by simp)
      exact .failed hp ht hd hr (hroom since o _ _ hp rfl) (ih _)
    | cancel wakesAt hp => exact .cancelled hp
    | resume wakesAt hp => exact .resumed hp (ih _)

/-- **Every turn has its course.** -/
theorem turn_course (p : Policy) (answers : UInt32 → Outcome α) (now : Nat) (fired : Bool)
    (l : Loop α) : Course p answers now l (l.turn p answers now fired).notices
      (l.turn p answers now fired).rest :=
  turnFor_course p answers now fired _ l

/-- A loop that is over was cancelled, or has the result of the attempt that ended last. -/
theorem Course.result {l : Loop α} {ns : List (Notice α)} {rest : Loop α ⊕ Except Failure α}
    (h : Course p answers now l ns rest) {r : Except Failure α} (hr : rest = .inr r) :
    r = .error .cancelled ∨ ∃ i j, i + 1 = ns.length ∧ ns[i]? = some (.ended j r) := by
  induction h with
  | rest => cases hr
  | cancelled => cases hr; exact Or.inl rfl
  | resumed _ _ ih => exact ih hr
  | began _ _ ih =>
    rcases ih hr with hc | ⟨i, j, hi, hj⟩
    · exact Or.inl hc
    · exact Or.inr ⟨i + 1, j, by simp [hi], hj⟩
  | finished => cases hr; exact Or.inr ⟨0, _, rfl, rfl⟩
  | failed _ _ _ _ _ _ ih =>
    rcases ih hr with hc | ⟨i, j, hi, hj⟩
    · exact Or.inl hc
    · exact Or.inr ⟨i + 2, j, by simp [hi], hj⟩

/-- An attempt that ends in a turn was under way before and ends first of all, or begins right
before. -/
theorem Course.ended {l : Loop α} {ns : List (Notice α)} {rest : Loop α ⊕ Except Failure α}
    (h : Course p answers now l ns rest) {i : Nat} {j : UInt32} {r : Except Failure α}
    (hi : ns[i]? = some (.ended j r)) :
    (i = 0 ∧ ∃ since o d, l.phase = .attempting since o ∧ j = l.tries ∧ r = o.result ∧
      o.takes = some d ∧ since + d ≤ now) ∨
    ∃ k d, i = k + 1 ∧ ns[k]? = some (.began j) ∧ r = (answers j).result ∧
      (answers j).takes = some d ∧ now + d ≤ now := by
  induction h generalizing i with
  | rest => cases hi
  | cancelled => cases hi
  | resumed hp _ ih =>
    rcases ih hi with ⟨-, since, o, d, hphase, -⟩ | hin
    · cases hphase
    · exact Or.inr hin
  | began hp _ ih =>
    cases i with
    | zero => cases hi
    | succ i =>
      rcases ih hi with ⟨rfl, since, o, d, hphase, rfl, rfl, ht, hd⟩ | ⟨k, d, rfl, hk, hr, ht, hd⟩
      · -- the attempt has just begun
        cases hphase
        exact Or.inr ⟨0, d, rfl, rfl, rfl, ht, hd⟩
      · exact Or.inr ⟨k + 1, d, rfl, hk, hr, ht, hd⟩
  | finished hp ht hd =>
    cases i with
    | zero => cases hi; exact Or.inl ⟨rfl, _, _, _, hp, rfl, rfl, ht, hd⟩
    | succ i => cases hi
  | failed hp ht hd hr hn _ ih =>
    match i, hi with
    | 0, hi => cases hi; exact Or.inl ⟨rfl, _, _, _, hp, rfl, rfl, ht, hd⟩
    | 1, hi => cases hi
    | i + 2, hi =>
      rcases ih hi with ⟨-, since, o, d, hphase, -⟩ | ⟨k, d, rfl, hk, hr, ht, hd⟩
      · cases hphase
      · exact Or.inr ⟨k + 2, d, rfl, hk, hr, ht, hd⟩

/-- An attempt that a turn leaves under way was so before, or has begun last of all. -/
theorem Course.underWay {l : Loop α} {ns : List (Notice α)} {rest : Loop α ⊕ Except Failure α}
    (h : Course p answers now l ns rest) {l' : Loop α} (hr : rest = .inl l') {since : Nat}
    {o : Outcome α} (hp' : l'.phase = .attempting since o) :
    (ns = [] ∧ l' = l) ∨ (since = now ∧ o = answers l'.tries ∧
      ∃ i, i + 1 = ns.length ∧ ns[i]? = some (.began l'.tries)) := by
  induction h with
  | rest => cases hr; exact Or.inl ⟨rfl, rfl⟩
  | cancelled => cases hr
  | resumed hp _ ih =>
    rcases ih hr with ⟨-, rfl⟩ | hin
    · cases hp'
    · exact Or.inr hin
  | began hp _ ih =>
    rcases ih hr with ⟨rfl, rfl⟩ | ⟨hs, ho, i, hi, hb⟩
    · cases hp'
      exact Or.inr ⟨rfl, rfl, 0, rfl, rfl⟩
    · exact Or.inr ⟨hs, ho, i + 1, by simp [hi], hb⟩
  | finished => cases hr
  | failed hp ht hd hr' hn _ ih =>
    rcases ih hr with ⟨-, rfl⟩ | ⟨hs, ho, i, hi, hb⟩
    · cases hp'
    · exact Or.inr ⟨hs, ho, i + 2, by simp [hi], hb⟩

/-- Whether a notice tells that an attempt began. -/
def Notice.isBegan : Notice α → Bool
  | .began _ => true
  | _ => false

/-- A loop that is to make another attempt can count it. -/
def Loop.HasRoom (l : Loop α) : Prop :=
  (∀ since o, l.phase ≠ .attempting since o) → l.tries.toNat + 1 < UInt32.size

theorem Loop.HasRoom.toNat_succ {l : Loop α} (h : l.HasRoom) (hp : l.phase = .ready) :
    (l.tries + 1).toNat = l.tries.toNat + 1 := by
  have hroom := h (fun since o hn => by rw [hp] at hn; cases hn)
  rw [UInt32.toNat_add]
  exact Nat.mod_eq_of_lt hroom

/-- Where not all attempts that are allowed have been made there is room. -/
theorem Loop.hasRoom_of_lt {n m : UInt32} (h : n < m) (phase : Phase α) :
    Loop.HasRoom ⟨n, phase⟩ := by
  intro _
  have hlt := UInt32.lt_iff_toNat_lt.1 h
  have hmax : m.toNat < UInt32.size := m.toNat_lt_size
  show n.toNat + 1 < UInt32.size
  omega

/-- The attempts of a turn are numbered one after another. -/
theorem Course.number {l : Loop α} {ns : List (Notice α)} {rest : Loop α ⊕ Except Failure α}
    (h : Course p answers now l ns rest) (hl : l.HasRoom) {i : Nat} {j : UInt32}
    (hi : ns[i]? = some (.began j)) :
    j.toNat = l.tries.toNat + (ns.take i).countP Notice.isBegan + 1 := by
  induction h generalizing i with
  | rest => cases hi
  | cancelled => cases hi
  | resumed hp _ ih =>
    exact ih (fun _ => hl (fun since o hn => by rw [hp] at hn; cases hn)) hi
  | began hp _ ih =>
    have hsucc := hl.toNat_succ hp
    cases i with
    | zero => cases hi; simpa using hsucc
    | succ i =>
      have hnext := ih (fun hn => absurd rfl (hn _ _)) hi
      rw [List.take_succ_cons, List.countP_cons_of_pos (by rfl)]
      simp only at hnext
      omega
  | finished =>
    cases i with
    | zero => cases hi
    | succ i => cases hi
  | failed hp ht hd hr hn _ ih =>
    match i, hi with
    | 0, hi => cases hi
    | 1, hi => cases hi
    | i + 2, hi =>
      have hnext := ih (Loop.hasRoom_of_lt hn _) hi
      rw [List.take_succ_cons, List.take_succ_cons, List.countP_cons_of_neg (by simp [Notice.isBegan]),
        List.countP_cons_of_neg (by simp [Notice.isBegan])]
      exact hnext

/-- A loop that goes on has counted the attempts of the turn, and has room for the next one. -/
theorem Course.tries {l : Loop α} {ns : List (Notice α)} {rest : Loop α ⊕ Except Failure α}
    (h : Course p answers now l ns rest) (hl : l.HasRoom) {l' : Loop α} (hr : rest = .inl l') :
    l'.tries.toNat = l.tries.toNat + ns.countP Notice.isBegan ∧ l'.HasRoom := by
  induction h with
  | rest => cases hr; exact ⟨by simp, hl⟩
  | cancelled => cases hr
  | resumed hp _ ih => exact ih (fun _ => hl (fun since o hn => by rw [hp] at hn; cases hn)) hr
  | began hp _ ih =>
    have hsucc := hl.toNat_succ hp
    obtain ⟨hn, hroom⟩ := ih (fun hn => absurd rfl (hn _ _)) hr
    refine ⟨?_, hroom⟩
    rw [List.countP_cons_of_pos (by rfl)]
    simp only at hn
    omega
  | finished => cases hr
  | failed hp ht hd hr' hn _ ih =>
    obtain ⟨hn', hroom⟩ := ih (Loop.hasRoom_of_lt hn _) hr
    refine ⟨?_, hroom⟩
    rw [List.countP_cons_of_neg (by simp [Notice.isBegan]),
      List.countP_cons_of_neg (by simp [Notice.isBegan])]
    exact hn'

end RegistryLookup.Retry
