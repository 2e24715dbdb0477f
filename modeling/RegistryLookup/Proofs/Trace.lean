import Mathlib.Tactic.Common

/-!
# Runs as indexed traces

A run is a list of events that act on a world one after another. `after step x es n` is the
world after the first `n` events; past the end of the list it stays as it is.

* `after_invariant`: what holds at the start and is kept by every event holds at every point.
* `after_since`: what holds at one point and is kept by every event holds at every later point.
* `turning_point`: what holds at a later point only has come true in between, for the last time.
* `collected`: what the events of a stretch of a run give, in their order.
* `after_collected`: what ties the world to what the events have given is kept by every event.
* `after_echoed`: a run is followed by another one that has some events for each of its events.
-/

namespace RegistryLookup.Trace

variable {ω ε : Type} {step : ω → ε → ω} {x : ω} {es : List ε}

/-- The world after the first `n` events. -/
def after (step : ω → ε → ω) (x : ω) (es : List ε) (n : Nat) : ω := (es.take n).foldl step x

theorem after_zero : after step x es 0 = x := by simp [after]

theorem after_succ {n : Nat} (hn : n < es.length) :
    after step x es (n + 1) = step (after step x es n) es[n] := by
  unfold after
  rw [List.take_add_one, List.getElem?_eq_getElem hn, Option.toList_some, List.foldl_append]
  rfl

theorem after_of_getElem? {n : Nat} {e : ε} (he : es[n]? = some e) :
    after step x es (n + 1) = step (after step x es n) e := by
  obtain ⟨hn, rfl⟩ := List.getElem?_eq_some_iff.1 he
  exact after_succ hn

theorem after_succ_of_le {n : Nat} (hn : es.length ≤ n) :
    after step x es (n + 1) = after step x es n := by
  unfold after
  rw [List.take_of_length_le hn, List.take_of_length_le (by omega)]

/-- Between two points nothing happens, or one event. -/
theorem after_cases (step : ω → ε → ω) (x : ω) (es : List ε) (n : Nat) :
    (es[n]? = none ∧ after step x es (n + 1) = after step x es n) ∨
      ∃ e, es[n]? = some e ∧ after step x es (n + 1) = step (after step x es n) e := by
  rcases Nat.lt_or_ge n es.length with hn | hn
  · exact Or.inr ⟨es[n], List.getElem?_eq_getElem hn, after_succ hn⟩
  · exact Or.inl ⟨List.getElem?_eq_none hn, after_succ_of_le hn⟩

/-- **Invariants hold at every point.** -/
theorem after_invariant {P : ω → Prop} (h0 : P x) (hstep : ∀ y, ∀ e ∈ es, P y → P (step y e)) :
    ∀ n, P (after step x es n) := by
  intro n
  induction n with
  | zero => rw [after_zero]; exact h0
  | succ n ih =>
    rcases after_cases step x es n with ⟨-, h⟩ | ⟨e, he, h⟩
    · rw [h]; exact ih
    · rw [h]; exact hstep _ e (List.mem_of_getElem? he) ih

/-- **What is kept from some point on.** -/
theorem after_since {P : ω → Prop} {m n : Nat} (hmn : m ≤ n) (hm : P (after step x es m))
    (hstep : ∀ i, m ≤ i → ∀ e, es[i]? = some e → P (after step x es i) →
      P (step (after step x es i) e)) : P (after step x es n) := by
  -- by induction on the events since then
  obtain ⟨k, rfl⟩ := Nat.exists_eq_add_of_le hmn
  clear hmn
  induction k with
  | zero => exact hm
  | succ k ih =>
    rw [← Nat.add_assoc]
    rcases after_cases step x es (m + k) with ⟨-, h⟩ | ⟨e, he, h⟩
    · rw [h]; exact ih
    · rw [h]; exact hstep (m + k) (by omega) e he ih

theorem turning_point {P : Nat → Prop} {m n : Nat} (hmn : m ≤ n) (hm : ¬ P m) (hn : P n) :
    ∃ j, m ≤ j ∧ j < n ∧ ¬ P j ∧ ∀ i, j < i → i ≤ n → P i := by
  induction n with
  | zero =>
    rw [Nat.le_zero.1 hmn] at hm
    exact absurd hn hm
  | succ n ih =>
    have hmn' : m ≤ n := by
      rcases Nat.lt_or_eq_of_le hmn with h | rfl
      · omega
      · exact absurd hn hm
    -- the last point at which it does not hold is before `n`, or it is `n`
    by_cases h : P n
    · obtain ⟨j, hmj, hjn, hj, hall⟩ := ih hmn' h
      refine ⟨j, hmj, by omega, hj, fun i hji hi => ?_⟩
      rcases Nat.lt_or_eq_of_le hi with hi | rfl
      · exact hall i hji (by omega)
      · exact hn
    · refine ⟨n, hmn', by omega, h, fun i hni hi => ?_⟩
      rw [show i = n + 1 by omega]
      exact hn

/-- What the events from number `m` to before number `n` give, each in the world before it. -/
def collected {β : Type} (step : ω → ε → ω) (f : ω → ε → Option β) (x : ω) (es : List ε)
    (m n : Nat) : List β :=
  (List.range' m (n - m)).filterMap (fun i => es[i]?.bind (f (after step x es i)))

theorem collected_self {β : Type} (f : ω → ε → Option β) (m : Nat) :
    collected step f x es m m = [] := by
  simp [collected]

theorem collected_succ {β : Type} (f : ω → ε → Option β) {m n : Nat} (hmn : m ≤ n) :
    collected step f x es m (n + 1) =
      collected step f x es m n ++ (es[n]?.bind (f (after step x es n))).toList := by
  unfold collected
  rw [Nat.succ_sub hmn, Nat.succ_eq_add_one, List.range'_1_concat, List.filterMap_append,
    Nat.add_sub_cancel' hmn]
  cases h : es[n]?.bind (f (after step x es n)) <;> simp [h]

/-- **What ties the world to what the events have given.** -/
theorem after_collected {β : Type} {f : ω → ε → Option β} {P : ω → List β → Prop} (h0 : P x [])
    (hstep : ∀ y l, ∀ e ∈ es, P y l → P (step y e) (l ++ (f y e).toList)) (n : Nat) :
    P (after step x es n) (collected step f x es 0 n) := by
  induction n with
  | zero => rw [after_zero, collected_self]; exact h0
  | succ n ih =>
    rw [collected_succ f (Nat.zero_le n)]
    rcases after_cases step x es n with ⟨hnone, h⟩ | ⟨e, he, h⟩
    · rw [h, hnone, Option.bind_none, Option.toList_none, List.append_nil]
      exact ih
    · rw [h, he, Option.bind_some]
      exact hstep _ _ e (List.mem_of_getElem? he) ih

theorem after_length : after step x es es.length = es.foldl step x := by
  rw [after, List.take_length]

theorem after_append (l l' : List ε) :
    after step x (l ++ l') (l ++ l').length = l'.foldl step (after step x l l.length) := by
  rw [after_length, after_length, List.foldl_append]

/-- A run goes on as a run from where it has come. -/
theorem after_add (m k : Nat) :
    after step x es (m + k) = after step (after step x es m) (es.drop m) k := by
  unfold after
  rw [List.take_add, List.foldl_append]

/-- Later events do not matter. -/
theorem after_of_isPrefix {l l' : List ε} (h : l <+: l') {n : Nat} (hn : n ≤ l.length) :
    after step x l' n = after step x l n := by
  obtain ⟨tail, rfl⟩ := h
  rw [after, after, List.take_append_of_le_length hn]

section Echo

variable {ω' ε' : Type} {step' : ω' → ε' → ω'} {echo : ω → ε → List ε'}

/-- What the first `n` events of a run are in another one, each told in the world before it. -/
def echoed (step : ω → ε → ω) (echo : ω → ε → List ε') (x : ω) (es : List ε) (n : Nat) : List ε' :=
  (List.range n).flatMap (fun i => (es[i]?.map (echo (after step x es i))).getD [])

theorem echoed_zero : echoed step echo x es 0 = [] := rfl

theorem echoed_succ (n : Nat) : echoed step echo x es (n + 1) =
    echoed step echo x es n ++ (es[n]?.map (echo (after step x es n))).getD [] := by
  simp [echoed, List.range_succ]

theorem echoed_of_getElem? {n : Nat} {e : ε} (he : es[n]? = some e) :
    echoed step echo x es (n + 1) =
      echoed step echo x es n ++ echo (after step x es n) e := by
  rw [echoed_succ, he]
  rfl

theorem echoed_isPrefix {m n : Nat} (hmn : m ≤ n) :
    echoed step echo x es m <+: echoed step echo x es n := by
  induction hmn with
  | refl => exact List.prefix_rfl
  | step _ ih =>
    rw [Nat.succ_eq_add_one, echoed_succ]
    exact ih.trans (List.prefix_append _ _)

theorem length_echoed_mono {m n : Nat} (hmn : m ≤ n) :
    (echoed step echo x es m).length ≤ (echoed step echo x es n).length :=
  (echoed_isPrefix hmn).length_le

/-- **What relates two runs event by event relates them at every point.** -/
theorem after_echoed {y : ω'} {R : ω → ω' → Prop} (h0 : R x y)
    (hstep : ∀ w z, ∀ e ∈ es, R w z → R (step w e) ((echo w e).foldl step' z)) (n : Nat) :
    R (after step x es n) (after step' y (echoed step echo x es n)
      (echoed step echo x es n).length) := by
  induction n with
  | zero => rw [after_zero, echoed_zero]; exact h0
  | succ n ih =>
    rcases after_cases step x es n with ⟨hnone, h⟩ | ⟨e, he, h⟩
    · rw [h, echoed_succ, hnone, Option.map_none, Option.getD_none, List.append_nil]
      exact ih
    · rw [h, echoed_of_getElem? he, after_append]
      exact hstep _ _ e (List.mem_of_getElem? he) ih

/-- Every event of the other run is there for an event of the run. -/
theorem mem_echoed {n : Nat} {e' : ε'} (h : e' ∈ echoed step echo x es n) :
    ∃ m e, m < n ∧ es[m]? = some e ∧ e' ∈ echo (after step x es m) e := by
  obtain ⟨m, hm, he'⟩ := List.mem_flatMap.1 h
  cases he : es[m]? with
  | none => rw [he] at he'; cases he'
  | some e =>
    rw [he] at he'
    exact ⟨m, e, List.mem_range.1 hm, he, he'⟩

/-- Where the events stand that an event is in the other run. -/
theorem getElem?_echoed {m n j : Nat} {e : ε} (hmn : m < n) (he : es[m]? = some e)
    (hj : j < (echo (after step x es m) e).length) :
    (echoed step echo x es n)[(echoed step echo x es m).length + j]? =
      (echo (after step x es m) e)[j]? := by
  obtain ⟨tail, htail⟩ : echoed step echo x es (m + 1) <+: echoed step echo x es n :=
    echoed_isPrefix hmn
  rw [← htail, echoed_of_getElem? he, List.append_assoc,
    List.getElem?_append_right (Nat.le_add_right _ _), Nat.add_sub_cancel_left,
    List.getElem?_append_left hj]

/-- The event of the run to which an event of the other one belongs. -/
theorem exists_echo {i n : Nat} (hi : i < (echoed step echo x es n).length) :
    ∃ m j e, m < n ∧ es[m]? = some e ∧ i = (echoed step echo x es m).length + j ∧
      (echoed step echo x es n)[i]? = (echo (after step x es m) e)[j]? := by
  obtain ⟨m, -, hmn, hm, hlater⟩ := turning_point
    (P := fun m => i < (echoed step echo x es m).length) (Nat.zero_le n) (Nat.not_lt_zero i) hi
  have hnext := hlater (m + 1) (Nat.lt_succ_self m) hmn
  obtain ⟨j, rfl⟩ := Nat.exists_eq_add_of_le (Nat.le_of_not_lt hm)
  cases he : es[m]? with
  | none =>
    rw [echoed_succ, he, Option.map_none, Option.getD_none, List.append_nil] at hnext
    exact absurd hnext hm
  | some e =>
    rw [echoed_of_getElem? he, List.length_append] at hnext
    exact ⟨m, j, e, hmn, he, rfl, getElem?_echoed hmn he (by omega)⟩

end Echo

end RegistryLookup.Trace
