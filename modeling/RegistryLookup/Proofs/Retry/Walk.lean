import RegistryLookup.Retry.Loop

/-!
# The order of notices

In the notices of a turn attempts begin and end one after another, and a success comes last
(`turn_walk`). A loop that only meets successes notices nothing else (`turn_ok`).
-/

namespace RegistryLookup.Retry

variable {α : Type}

/-- The attempt that a loop is in. -/
def Loop.attempt? (l : Loop α) : Option UInt32 :=
  match l.phase with
  | .attempting _ _ => some l.tries
  | _ => none

/-- Notices in their order, after the attempt that is under way before them, if there is one. They
leave a loop to go on with, or a result. -/
inductive Walk : Option UInt32 → List (Notice α) → Loop α ⊕ Except Failure α → Prop
  | rest {l : Loop α} : Walk l.attempt? [] (.inl l)
  | stop {e : Failure} : Walk none [] (.inr (.error e))
  | began {n : UInt32} {ns : List (Notice α)} {r : Loop α ⊕ Except Failure α}
      (h : Walk (some n) ns r) : Walk none (.began n :: ns) r
  | failed {n : UInt32} {e : Failure} {ns : List (Notice α)} {r : Loop α ⊕ Except Failure α}
      (h : Walk none ns r) : Walk (some n) (.ended n (.error e) :: ns) r
  | retried {e : Failure} {ns : List (Notice α)} {r : Loop α ⊕ Except Failure α}
      (h : Walk none ns r) : Walk none (.retried e :: ns) r
  | succeeded {n : UInt32} {v : α} : Walk (some n) [.ended n (.ok v)] (.inr (.ok v))

theorem verdict_finish {p : Policy} {n : UInt32} {r r' : Except Failure α}
    (h : p.verdict n r = .finish r') : r' = r := by
  unfold Policy.verdict at h
  split at h
  · cases h; rfl
  · split at h
    · cases h; rfl
    · cases h

theorem verdict_rest {p : Policy} {n : UInt32} {r : Except Failure α} {e : Failure} {delay : Nat}
    (h : p.verdict n r = .rest e delay) : r = .error e := by
  unfold Policy.verdict at h
  split at h
  · cases h
  · split at h
    · cases h
    · cases h; rfl

/-- What a move notices, and where it leads. -/
inductive Moved (answers : UInt32 → Outcome α) (now : Nat) (l : Loop α) : Move α → Prop
  | wait : Moved answers now l .wait
  | begin (hp : l.phase = .ready) : Moved answers now l
      (.step [.began (l.tries + 1)] ⟨l.tries + 1, .attempting now (answers (l.tries + 1))⟩)
  | finish (since : Nat) (o : Outcome α) (hp : l.phase = .attempting since o) :
      Moved answers now l (.finish [.ended l.tries o.result] o.result)
  | fail (since : Nat) (o : Outcome α) (e : Failure) (wakesAt : Nat)
      (hp : l.phase = .attempting since o) (hr : o.result = .error e) :
      Moved answers now l
        (.step [.ended l.tries o.result, .retried e] ⟨l.tries, .resting wakesAt⟩)
  | cancel (wakesAt : Nat) (hp : l.phase = .resting wakesAt) :
      Moved answers now l (.finish [] (.error .cancelled))
  | resume (wakesAt : Nat) (hp : l.phase = .resting wakesAt) :
      Moved answers now l (.step [] ⟨l.tries, .ready⟩)

theorem move_cases (p : Policy) (answers : UInt32 → Outcome α) (now : Nat) (fired : Bool)
    (l : Loop α) : Moved answers now l (l.move p answers now fired) := by
  unfold Loop.move
  split
  · rename_i hp
    exact .begin hp
  · rename_i since o hp
    split
    · exact .wait
    · split
      · exact .wait
      · split
        · rename_i r hv
          rw [verdict_finish hv]
          exact .finish since o hp
        · rename_i e delay hv
          exact .fail since o e _ hp (verdict_rest hv)
  · rename_i wakesAt hp
    split
    · exact .cancel wakesAt hp
    · split
      · exact .wait
      · exact .resume wakesAt hp

theorem turnFor_walk (p : Policy) (answers : UInt32 → Outcome α) (now : Nat) (fired : Bool)
    (fuel : Nat) (l : Loop α) :
    Walk l.attempt? (l.turnFor p answers now fired fuel).notices
      (l.turnFor p answers now fired fuel).rest := by
  -- by induction on the moves that may still be made; each begins or ends an attempt, or rests
  induction fuel generalizing l with
  | zero => exact .rest
  | succ fuel ih =>
    unfold Loop.turnFor
    -- what the first move notices stands in front of what the others notice
    have hm := move_cases p answers now fired l
    generalize l.move p answers now fired = m at hm
    cases hm with
    | wait => exact .rest
    | begin hp =>
      have hl : l.attempt? = none := by unfold Loop.attempt?; rw [hp]
      have hnext := ih ⟨l.tries + 1, .attempting now (answers (l.tries + 1))⟩
      rw [hl]
      exact .began hnext
    | finish since o hp =>
      have hl : l.attempt? = some l.tries := by unfold Loop.attempt?; rw [hp]
      rw [hl]
      cases hr : o.result with
      | ok v => exact .succeeded
      | error e => exact .failed .stop
    | fail since o e wakesAt hp hr =>
      have hl : l.attempt? = some l.tries := by unfold Loop.attempt?; rw [hp]
      have hnext := ih ⟨l.tries, .resting wakesAt⟩
      rw [hl, hr]
      exact .failed (.retried hnext)
    | cancel wakesAt hp =>
      have hl : l.attempt? = none := by unfold Loop.attempt?; rw [hp]
      rw [hl]
      exact .stop
    | resume wakesAt hp =>
      have hl : l.attempt? = none := by unfold Loop.attempt?; rw [hp]
      have hnext := ih ⟨l.tries, .ready⟩
      rw [hl]
      exact hnext

/-- **Attempts of a turn begin and end one after another, and a success comes last.** -/
theorem turn_walk (p : Policy) (answers : UInt32 → Outcome α) (now : Nat) (fired : Bool)
    (l : Loop α) : Walk l.attempt? (l.turn p answers now fired).notices
      (l.turn p answers now fired).rest :=
  turnFor_walk p answers now fired _ l

/-- A turn in an attempt notices nothing, or first of all the end of the attempt. -/
theorem Walk.of_some {o : Option UInt32} {n : UInt32} {ns : List (Notice α)}
    {rest : Loop α ⊕ Except Failure α} (h : Walk o ns rest) (ho : o = some n) :
    (ns = [] ∧ ∃ l, rest = .inl l ∧ l.attempt? = some n) ∨ ∃ r, ns[0]? = some (.ended n r) := by
  cases h with
  | rest => exact Or.inl ⟨rfl, _, rfl, ho⟩
  | stop => cases ho
  | began h => cases ho
  | failed h => cases ho; exact Or.inr ⟨_, rfl⟩
  | retried h => cases ho
  | succeeded => cases ho; exact Or.inr ⟨_, rfl⟩

theorem Walk.after_began {o : Option UInt32} {ns : List (Notice α)}
    {rest : Loop α ⊕ Except Failure α} (h : Walk o ns rest) {i : Nat} {n : UInt32}
    (hi : ns[i]? = some (.began n)) :
    (i + 1 = ns.length ∧ ∃ l, rest = .inl l ∧ l.attempt? = some n) ∨
      ∃ r, ns[i + 1]? = some (.ended n r) := by
  induction h generalizing i with
  | rest => cases hi
  | stop => cases hi
  | began h ih =>
    cases i with
    | zero =>
      cases hi
      rcases h.of_some rfl with ⟨rfl, hl⟩ | hr
      · exact Or.inl ⟨rfl, hl⟩
      · exact Or.inr hr
    | succ i => exact (ih hi).imp (fun h => ⟨by simp [← h.1], h.2⟩) (fun h => h)
  | failed h ih =>
    cases i with
    | zero => cases hi
    | succ i => exact (ih hi).imp (fun h => ⟨by simp [← h.1], h.2⟩) (fun h => h)
  | retried h ih =>
    cases i with
    | zero => cases hi
    | succ i => exact (ih hi).imp (fun h => ⟨by simp [← h.1], h.2⟩) (fun h => h)
  | succeeded =>
    cases i with
    | zero => cases hi
    | succ i => cases hi

/-- Nothing is noticed after a success, and it is the result. -/
theorem Walk.after_ok {o : Option UInt32} {ns : List (Notice α)}
    {rest : Loop α ⊕ Except Failure α} (h : Walk o ns rest) {i : Nat} {n : UInt32} {v : α}
    (hi : ns[i]? = some (.ended n (.ok v))) : i + 1 = ns.length ∧ rest = .inr (.ok v) := by
  induction h generalizing i with
  | rest => cases hi
  | stop => cases hi
  | began h ih =>
    cases i with
    | zero => cases hi
    | succ i => exact ⟨by simp [← (ih hi).1], (ih hi).2⟩
  | failed h ih =>
    cases i with
    | zero => cases hi
    | succ i => exact ⟨by simp [← (ih hi).1], (ih hi).2⟩
  | retried h ih =>
    cases i with
    | zero => cases hi
    | succ i => exact ⟨by simp [← (ih hi).1], (ih hi).2⟩
  | succeeded =>
    cases i with
    | zero => cases hi; exact ⟨rfl, rfl⟩
    | succ i => cases hi

/-- The attempt under way, if there is one, succeeds. -/
def Loop.WillSucceed (l : Loop α) : Prop :=
  ∀ since o, l.phase = .attempting since o → o.result.isOk = true

theorem turnFor_ok (p : Policy) {answers : UInt32 → Outcome α}
    (ha : ∀ n, (answers n).result.isOk = true) (now : Nat) (fired : Bool) (fuel : Nat) {l : Loop α}
    (hl : l.WillSucceed) :
    (∀ n r, .ended n r ∈ (l.turnFor p answers now fired fuel).notices → r.isOk = true) ∧
    ∀ l', (l.turnFor p answers now fired fuel).rest = .inl l' → l'.WillSucceed := by
  induction fuel generalizing l with
  | zero =>
    refine ⟨fun n r h => (by cases h), fun l' h => ?_⟩
    cases h
    exact hl
  | succ fuel ih =>
    unfold Loop.turnFor
    have hm := move_cases p answers now fired l
    generalize l.move p answers now fired = m at hm
    cases hm with
    | wait =>
      refine ⟨fun n r h => (by cases h), fun l' h => ?_⟩
      cases h
      exact hl
    | begin hp =>
      have hnext : Loop.WillSucceed
          (⟨l.tries + 1, .attempting now (answers (l.tries + 1))⟩ : Loop α) := by
        intro since o h
        cases h
        exact ha _
      refine ⟨fun n r h => ?_, (ih hnext).2⟩
      rcases List.mem_append.1 h with h | h
      · cases List.mem_singleton.1 h
      · exact (ih hnext).1 n r h
    | finish since o hp =>
      refine ⟨fun n r h => ?_, fun l' h => by cases h⟩
      cases List.mem_singleton.1 h
      exact hl since o hp
    -- an attempt that will succeed does not fail
    | fail since o e wakesAt hp hr =>
      have := hl since o hp
      rw [hr] at this
      cases this
    | cancel wakesAt hp => exact ⟨fun n r h => (by cases h), fun l' h => by cases h⟩
    | resume wakesAt hp => exact ih (fun since o h => by cases h)

theorem turn_ok (p : Policy) {answers : UInt32 → Outcome α}
    (ha : ∀ n, (answers n).result.isOk = true) (now : Nat) (fired : Bool) {l : Loop α}
    (hl : l.WillSucceed) :
    (∀ n r, .ended n r ∈ (l.turn p answers now fired).notices → r.isOk = true) ∧
    ∀ l', (l.turn p answers now fired).rest = .inl l' → l'.WillSucceed :=
  turnFor_ok p ha now fired _ hl

end RegistryLookup.Retry
