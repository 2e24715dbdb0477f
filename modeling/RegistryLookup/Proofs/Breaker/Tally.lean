import Mathlib.Data.List.Basic
import RegistryLookup.Proofs.Breaker.Run
import RegistryLookup.Proofs.Metrics

/-!
# What a breaker notes

A breaker notes where its circuit stands, and counts the moves of the circuit. The gauge and the
counters tell one story: who adds up the moves finds where the circuit stands.

* `Move`: the four moves that a circuit makes.
* `perform_moved`: an operation leaves the circuit and the journal alone, or it makes one move and
  notes it once.
* `Tallied`: the gauge shows the circuit, nothing but the four moves is counted, and the counters
  balance. `Tallied.moved`: a move keeps them so.
* `tallied_sessionAt`: the journal is so after every operation.
-/

namespace RegistryLookup.Breaker

/-- The moves that a circuit makes. -/
inductive Move : Circuit → Circuit → Prop
  | opens : Move .closed .opened
  | tries : Move .opened .halfOpen
  | closes : Move .halfOpen .closed
  | reopens : Move .halfOpen .opened

/-- The series that shows where a circuit stands. -/
def stateSeries (name : String) : String :=
  Metrics.series "gateway_circuit_state" [("circuit", name)]

/-- The series that counts the transitions of a circuit from one position to another. -/
def moveSeries (name : String) (a b : Circuit) : String :=
  Metrics.series "gateway_circuit_transitions_total"
    [("circuit", name), ("from", a.label), ("to", b.label)]

/-- How many transitions from one position to another are counted. -/
def counted (journal : List Sample) (name : String) (a b : Circuit) : Nat :=
  (Metrics.reading journal (moveSeries name a b)).getD 0

theorem moveSeries_ne_stateSeries (name : String) (a b : Circuit) :
    moveSeries name a b ≠ stateSeries name :=
  Metrics.series_ne 16 (by decide) (by decide) (by decide) _ _

theorem label_injective : Function.Injective Circuit.label := by
  intro a b h
  cases a <;> cases b <;> first | rfl | exact absurd h (by decide)

/-- The words for positions do not have the sign that ends a label. -/
theorem comma_not_mem_label (a : Circuit) : ',' ∉ a.label.toList := by
  cases a <;> decide

theorem toList_moveSeries (name : String) (a b : Circuit) :
    (moveSeries name a b).toList =
      ("gateway_circuit_transitions_total\x7bcircuit=" ++ name ++ ",from=").toList ++
        (a.label.toList ++ ',' :: ("to=".toList ++ (b.label.toList ++ ['\x7d']))) := by
  simp [moveSeries, Metrics.series, String.toList_append]

theorem moveSeries_inj {name : String} {a b a' b' : Circuit}
    (h : moveSeries name a b = moveSeries name a' b') : a = a' ∧ b = b' := by
  have htail : ',' ∉ "to=".toList ++ (b.label.toList ++ ['\x7d']) := by
    simp [comma_not_mem_label b]
  have hlist := congrArg String.toList h
  rw [toList_moveSeries, toList_moveSeries, List.append_cancel_left_eq,
    List.append_cons_inj_of_notMem (comma_not_mem_label a) htail, List.append_cancel_left_eq,
    List.append_cancel_right_eq] at hlist
  obtain ⟨hsource, -, htarget⟩ := hlist
  exact ⟨label_injective (String.toList_inj.1 hsource),
    label_injective (String.toList_inj.1 htarget)⟩

/-- What an operation makes of a circuit and of what is noted. -/
inductive Moved (b b' : Breaker) : Prop
  | stays (hname : b'.name = b.name) (hcircuit : b'.circuit = b.circuit)
      (hjournal : b'.journal = b.journal)
  | moves (hmove : Move b.circuit b'.circuit) (hname : b'.name = b.name)
      (hjournal : b'.journal = .circuit b.name b'.circuit ::
        .circuitTransition b.name b.circuit b'.circuit :: b.journal)

theorem Allowed.moved {b b' : Breaker} (h : Allowed b b') : Moved b b' := by
  cases h with
  | same h =>
    subst h
    exact .stays rfl rfl rfl
  | turns hb h =>
    subst h
    exact .moves (by rw [hb]; exact .tries) rfl rfl
  | probes _ h =>
    subst h
    exact .stays rfl rfl rfl

theorem recordSuccess_moved (b : Breaker) : Moved b b.recordSuccess := by
  obtain ⟨name, threshold, resetTimeout, probeLimit, circuit, failures, last, probes, journal⟩ := b
  cases circuit with
  | closed => exact .stays rfl rfl rfl
  | opened => exact .stays rfl rfl rfl
  | halfOpen => exact .moves .closes rfl rfl

theorem recordFailure_moved (b : Breaker) (now : Nat) : Moved b (b.recordFailure now) := by
  obtain ⟨name, threshold, resetTimeout, probeLimit, circuit, failures, last, probes, journal⟩ := b
  cases circuit with
  | closed =>
    unfold recordFailure
    by_cases ht : threshold ≤ min (failures + 1) mostFailures
    · simp only [ht, if_true]
      exact .moves .opens rfl rfl
    · simp only [ht, if_false]
      exact .stays rfl rfl rfl
  | opened => exact .stays rfl rfl rfl
  | halfOpen => exact .moves .reopens rfl rfl

/-- **An operation makes one move and notes it once, or it leaves the circuit and the journal.** -/
theorem perform_moved (s : Session) (op : Operation) : Moved s.breaker (s.step op).breaker := by
  cases op with
  | allow => exact (allow_cases s.breaker s.now).moved
  | success => exact recordSuccess_moved s.breaker
  | failure => exact recordFailure_moved s.breaker s.now
  | state => exact .stays rfl rfl rfl
  | name => exact .stays rfl rfl rfl
  | advance d => exact .stays rfl rfl rfl

section Noted

variable (journal : List Sample) (name : String) (c t : Circuit)

/-- The journal after a move. -/
def noteMove : List Sample := .circuit name t :: .circuitTransition name c t :: journal

/-- A move is counted once, in its own series. -/
theorem counted_noteMove (a b : Circuit) : counted (noteMove journal name c t) name a b =
    counted journal name a b + if c = a ∧ t = b then 1 else 0 := by
  unfold counted noteMove
  rw [Metrics.reading_of_ne rfl (moveSeries_ne_stateSeries name a b).symm]
  by_cases h : c = a ∧ t = b
  · obtain ⟨rfl, rfl⟩ := h
    rw [Metrics.reading_counted (s := moveSeries name c t) rfl, Option.getD_some,
      if_pos ⟨rfl, rfl⟩]
  · have hne : moveSeries name c t ≠ moveSeries name a b := fun heq => h (moveSeries_inj heq)
    rw [Metrics.reading_of_ne rfl hne, if_neg h, Nat.add_zero]

/-- A move sets the gauge. -/
theorem gauge_noteMove :
    Metrics.reading (noteMove journal name c t) (stateSeries name) = some t.level :=
  Metrics.reading_gauged rfl _

/-- A move writes to the gauge and to its own counter only. -/
theorem reading_noteMove {s : String} (hstate : stateSeries name ≠ s)
    (hmove : moveSeries name c t ≠ s) :
    Metrics.reading (noteMove journal name c t) s = Metrics.reading journal s := by
  unfold noteMove
  rw [Metrics.reading_of_ne rfl hstate, Metrics.reading_of_ne rfl hmove]

end Noted

/-- A journal tells where a circuit stands: the gauge shows it, there is no other series than the
gauge and the counters of the four moves, and each position has been entered as often as it has
been left, but for the position in which the circuit is now. -/
structure Tallied (name : String) (circuit : Circuit) (journal : List Sample) : Prop where
  gauge : Metrics.reading journal (stateSeries name) = some circuit.level
  only (s : String) (hs : Metrics.reading journal s ≠ none) :
    s = stateSeries name ∨ ∃ a b, Move a b ∧ s = moveSeries name a b
  opened : (counted journal name .closed .opened : Int) + counted journal name .halfOpen .opened -
    counted journal name .opened .halfOpen = if circuit = .opened then 1 else 0
  halfOpen : (counted journal name .opened .halfOpen : Int) -
    counted journal name .halfOpen .closed - counted journal name .halfOpen .opened =
      if circuit = .halfOpen then 1 else 0
  closed : (counted journal name .closed .opened : Int) - counted journal name .halfOpen .closed =
    if circuit = .closed then 0 else 1

/-- A new breaker has noted that it is closed, and no move. -/
theorem Tallied.make (name : String) (settings : Config.BreakerSettings) :
    Tallied name .closed (make name settings).journal := by
  have hother : ∀ s, stateSeries name ≠ s → Metrics.reading [.circuit name .closed] s = none :=
    fun s hs => Metrics.reading_of_ne rfl hs []
  have hnone : ∀ a b, counted [.circuit name .closed] name a b = 0 := by
    intro a b
    rw [counted, hother _ (moveSeries_ne_stateSeries name a b).symm, Option.getD_none]
  refine ⟨Metrics.reading_gauged rfl [], fun s hs => Or.inl ?_, ?_, ?_, ?_⟩
  · by_contra hne
    exact hs (hother s (Ne.symm hne))
  all_goals simp only [Breaker.make, hnone]; rfl

/-- **A move that is noted keeps the journal true.** -/
theorem Tallied.moved {name : String} {c t : Circuit} {journal : List Sample}
    (h : Tallied name c journal) (hmove : Move c t) :
    Tallied name t (noteMove journal name c t) := by
  have hopened := h.opened
  have hhalf := h.halfOpen
  have hclosed := h.closed
  refine ⟨gauge_noteMove journal name c t, fun s hs => ?_, ?_, ?_, ?_⟩
  · by_cases hstate : stateSeries name = s
    · exact Or.inl hstate.symm
    by_cases hown : moveSeries name c t = s
    · exact Or.inr ⟨c, t, hmove, hown.symm⟩
    · exact h.only s (by rwa [reading_noteMove journal name c t hstate hown] at hs)
  -- each move adds one to one counter, and takes the circuit from one side of a balance to another
  all_goals
    simp only [counted_noteMove]
    cases hmove <;> simp at hopened hhalf hclosed ⊢ <;> omega

/-- The journal of a breaker tells where its circuit stands. -/
theorem Moved.tallied {b b' : Breaker} (h : Moved b b')
    (hb : Tallied b.name b.circuit b.journal) : Tallied b'.name b'.circuit b'.journal := by
  cases h with
  | stays hname hcircuit hjournal => rw [hname, hcircuit, hjournal]; exact hb
  | moves hmove hname hjournal => rw [hname, hjournal]; exact hb.moved hmove

theorem name_sessionAt (x : Session) (ops : List Operation) (n : Nat) :
    (sessionAt x ops n).breaker.name = x.breaker.name := by
  refine Trace.after_invariant (P := fun s : Session => s.breaker.name = x.breaker.name) rfl
    (fun s op _ hs => ?_) n
  cases perform_moved s op with
  | stays hname _ _ => exact hname.trans hs
  | moves _ hname _ => exact hname.trans hs

/-- **The metrics of a breaker tell where its circuit stands**, after every operation and however
much time passes between them. -/
theorem tallied_sessionAt (name : String) (settings : Config.BreakerSettings) (now : Nat)
    (ops : List Operation) (n : Nat) :
    Tallied name (sessionAt (dawn name settings now) ops n).breaker.circuit
      (sessionAt (dawn name settings now) ops n).breaker.journal := by
  have hall : ∀ m, Tallied (sessionAt (dawn name settings now) ops m).breaker.name
      (sessionAt (dawn name settings now) ops m).breaker.circuit
      (sessionAt (dawn name settings now) ops m).breaker.journal :=
    Trace.after_invariant
      (P := fun s : Session => Tallied s.breaker.name s.breaker.circuit s.breaker.journal)
      (Tallied.make name settings) (fun s op _ hs => (perform_moved s op).tallied hs)
  have hrun := hall n
  rwa [name_sessionAt] at hrun

end RegistryLookup.Breaker
