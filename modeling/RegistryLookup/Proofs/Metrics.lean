import RegistryLookup.Metrics
import RegistryLookup.Proofs.Table

/-!
# What the series of a journal show

* `reading`: the value of a series.
* `reading_counted`, `reading_gauged`, `reading_of_ne`: what one more sample does to it.
* `series_ne`: series of metrics with different names are different.
-/

namespace RegistryLookup.Metrics

/-- The value of a series, if anything has been noted for it. -/
def reading (journal : List Sample) (s : String) : Option Nat := Table.get? (summary journal) s

theorem get?_record (values : List (String × Nat)) (e : Kind × String × Nat) (s : String) :
    Table.get? (record values e) s =
      if e.2.1 = s then
        some (match e.1 with
          | .counter => (Table.get? values s).getD 0 + e.2.2
          | .gauge => e.2.2)
      else Table.get? values s := by
  induction values with
  | nil =>
    obtain ⟨kind, metric, amount⟩ := e
    rw [record, Table.get?_cons, Table.get?_nil]
    cases kind <;> simp
  | cons v values ih =>
    unfold record
    by_cases hv : v.1 = e.2.1
    · rw [if_pos hv, Table.get?_cons, Table.get?_cons]
      by_cases hs : e.2.1 = s
      · rw [if_pos (hv.trans hs), if_pos hs, if_pos (hv.trans hs)]
        rfl
      · have hvs : v.1 ≠ s := fun h => hs (hv.symm.trans h)
        rw [if_neg hvs, if_neg hs, if_neg hvs]
    · rw [if_neg hv, Table.get?_cons, ih, Table.get?_cons]
      by_cases hs : e.2.1 = s
      · have hvs : v.1 ≠ s := fun h => hv (h.trans hs.symm)
        rw [if_neg hvs, if_pos hs, if_pos hs, if_neg hvs]
      · rw [if_neg hs, if_neg hs]

/-- One more sample is taken in last. -/
theorem summary_cons (sample : Sample) (journal : List Sample) :
    summary (sample :: journal) = (entries sample).foldl record (summary journal) := by
  rw [summary, summary, List.reverse_cons, List.flatMap_append, List.foldl_append,
    List.flatMap_singleton]

section OneEntry

variable {sample : Sample} {s : String} {amount : Nat}

theorem reading_counted (h : entries sample = [(.counter, s, amount)]) (journal : List Sample) :
    reading (sample :: journal) s = some ((reading journal s).getD 0 + amount) := by
  rw [reading, summary_cons, h, List.foldl_cons, List.foldl_nil, get?_record, if_pos rfl]
  rfl

theorem reading_gauged (h : entries sample = [(.gauge, s, amount)]) (journal : List Sample) :
    reading (sample :: journal) s = some amount := by
  rw [reading, summary_cons, h, List.foldl_cons, List.foldl_nil, get?_record, if_pos rfl]

theorem reading_of_ne {kind : Kind} {other : String} (h : entries sample = [(kind, other, amount)])
    (hne : other ≠ s) (journal : List Sample) : reading (sample :: journal) s = reading journal s := by
  rw [reading, summary_cons, h, List.foldl_cons, List.foldl_nil, get?_record, if_neg hne]
  rfl

end OneEntry

theorem toList_series (metric : String) (labels : List (String × String)) :
    (series metric labels).toList = metric.toList ++ '\x7b' ::
      ((String.intercalate "," (labels.map (fun l => l.1 ++ "=" ++ l.2))).toList ++ ['\x7d']) := by
  simp [series, String.toList_append]

/-- Metrics whose names differ at some place have no series in common. -/
theorem series_ne {m m' : String} (i : Nat) (hm : i < m.toList.length) (hm' : i < m'.toList.length)
    (h : m.toList[i]? ≠ m'.toList[i]?) (l l' : List (String × String)) :
    series m l ≠ series m' l' := by
  intro heq
  have hlist := congrArg String.toList heq
  rw [toList_series, toList_series] at hlist
  refine h ?_
  rw [← List.getElem?_append_left hm, hlist, List.getElem?_append_left hm']

end RegistryLookup.Metrics
