import RegistryLookup.Proofs.Cache.Run
import RegistryLookup.Proofs.Metrics

/-!
# What a cache notes

A cache counts its hits, misses, evictions and expirations, and notes each of them in its journal.
From time to time it notes how many entries there are.

* `Counter.series_inj`, `Counter.series_ne_sizeSeries`: no two of these have one series.
* `Audited`: the journal shows the counts. `audited_kept`: every operation keeps it so.
* `gauge_step`: the size shown is that after a cleanup or a sweep, and nothing else changes it.
-/

namespace RegistryLookup.Cache

variable {α : Type}

/-- What a cache counts. -/
inductive Counter
  | hits
  | misses
  | evictions
  | expirations
  deriving DecidableEq

/-- The series of a counter of a cache. -/
def Counter.series (name : String) : Counter → String
  | .hits => Metrics.series "gateway_cache_lookups_total" [("cache", name), ("result", "hit")]
  | .misses => Metrics.series "gateway_cache_lookups_total" [("cache", name), ("result", "miss")]
  | .evictions => Metrics.series "gateway_cache_evictions_total" [("cache", name)]
  | .expirations => Metrics.series "gateway_cache_expirations_total" [("cache", name)]

/-- A counter of a cache. -/
def Counter.of (s : Stats) : Counter → Nat
  | .hits => s.hits
  | .misses => s.misses
  | .evictions => s.evictions
  | .expirations => s.expirations

/-- The series of the number of entries of a cache. -/
def sizeSeries (name : String) : String := Metrics.series "gateway_cache_entries" [("cache", name)]

theorem Counter.series_hits_ne_misses (name : String) :
    Counter.series name .hits ≠ Counter.series name .misses := by
  intro h
  have hlist := congrArg String.toList h
  simp [Counter.series, Metrics.series, String.toList_append] at hlist

theorem Counter.series_inj {name : String} {m m' : Counter} (h : m.series name = m'.series name) :
    m = m' := by
  -- but for hits and misses, the names of the metrics differ in their sixteenth character
  cases m <;> cases m' <;> first
    | rfl
    | exact absurd h (Counter.series_hits_ne_misses name)
    | exact absurd h.symm (Counter.series_hits_ne_misses name)
    | exact absurd h (Metrics.series_ne 15 (by decide) (by decide) (by decide) _ _)

theorem Counter.series_ne_sizeSeries (name : String) (m : Counter) :
    m.series name ≠ sizeSeries name := by
  cases m <;> exact Metrics.series_ne 15 (by decide) (by decide) (by decide) _ _

/-- The counters of a journal show certain counts. -/
def Shows (name : String) (journal : List Sample) (f : Counter → Nat) : Prop :=
  ∀ m : Counter, (Metrics.reading journal (m.series name)).getD 0 = f m

section Shows

variable {name : String} {journal : List Sample} {f g : Counter → Nat}

/-- A sample of a counter raises that counter only. -/
theorem Shows.counted (h : Shows name journal f) {sample : Sample} {m : Counter} {n : Nat}
    (hsample : Metrics.entries sample = [(.counter, m.series name, n)])
    (hg : ∀ k, g k = f k + if k = m then n else 0) : Shows name (sample :: journal) g := by
  intro k
  rw [hg k, ← h k]
  by_cases hk : k = m
  · subst hk
    rw [if_pos rfl, Metrics.reading_counted hsample, Option.getD_some]
  · have hne : m.series name ≠ k.series name := fun heq => hk (Counter.series_inj heq).symm
    rw [if_neg hk, Metrics.reading_of_ne hsample hne, Nat.add_zero]

/-- Losses are noted if there are any. -/
theorem Shows.lost (h : Shows name journal f) {sample : Nat → Sample} {m : Counter} (n : Nat)
    (hsample : Metrics.entries (sample n) = [(.counter, m.series name, n)])
    (hg : ∀ k, g k = f k + if k = m then n else 0) : Shows name (noteLost sample n journal) g := by
  unfold noteLost
  by_cases hn : n = 0
  · rw [if_pos hn]
    intro k
    have hsame : g k = f k := by rw [hg k, hn, ite_self, Nat.add_zero]
    rw [h k, hsame]
  · rw [if_neg hn]
    exact h.counted hsample hg

/-- The number of entries is no count. -/
theorem Shows.sized (h : Shows name journal f) (n : Nat) :
    Shows name (.cacheEntries name n :: journal) f := by
  intro k
  have hsample : Metrics.entries (.cacheEntries name n) = [(.gauge, sizeSeries name, n)] := rfl
  have hne : sizeSeries name ≠ k.series name := (Counter.series_ne_sizeSeries name k).symm
  rw [Metrics.reading_of_ne hsample hne]
  exact h k

end Shows

/-- The journal of a cache shows its counts. -/
def Audited (c : Cache α) : Prop := Shows c.name c.journal (Counter.of c.stats)

theorem make_audited (name : String) (capacity now : Nat) :
    (make name capacity now : Cache α).Audited := by
  intro m
  cases m <;> rfl

theorem Audited.get {c : Cache α} (h : c.Audited) (now : Nat) (key : String) :
    (c.get now key).2.Audited := by
  unfold Cache.get
  split
  · split
    · exact Shows.counted (m := .hits) (n := 1) h rfl (fun k => by cases k <;> rfl)
    · -- an entry that has expired is noted before the miss
      have hexpired : Shows c.name (.cacheExpirations c.name 1 :: c.journal)
          (Counter.of { c.stats with expirations := c.expirations + 1 }) :=
        Shows.counted (m := .expirations) (n := 1) h rfl (fun k => by cases k <;> rfl)
      exact hexpired.counted (m := .misses) (n := 1) rfl (fun k => by cases k <;> rfl)
  · exact Shows.counted (m := .misses) (n := 1) h rfl (fun k => by cases k <;> rfl)

theorem Audited.set {c : Cache α} (h : c.Audited) (now : Nat) (key : String) (value : α)
    (ttl : Nat) : (c.set now key value ttl).Audited := by
  unfold Cache.set
  split <;> exact h

theorem Audited.delete {c : Cache α} (h : c.Audited) (key : String) :
    (c.delete key).2.Audited := by
  unfold Cache.delete
  split <;> exact h

theorem Audited.evictOldest {c : Cache α} (h : c.Audited) (n : Nat) :
    (c.evictOldest n).2.Audited :=
  Shows.lost (m := .evictions) h _ rfl (fun k => by cases k <;> rfl)

theorem Audited.dropExpired {c : Cache α} (h : c.Audited) (now : Nat) :
    (c.dropExpired now).2.Audited :=
  Shows.lost (m := .expirations) h _ rfl (fun k => by cases k <;> rfl)

theorem Audited.noteSize {c : Cache α} (h : c.Audited) : c.noteSize.Audited :=
  Shows.sized h c.size

/-- **Whatever happens, the journal shows the counts.** -/
theorem audited_kept : Kept (Audited (α := α)) where
  get h := h.get
  set h := h.set
  delete h := h.delete
  deleteStartingWith h _ := h
  evictOldest h := h.evictOldest
  dropExpired h := h.dropExpired
  noteSize h := h.noteSize
  lower h := h
  close h := h
  rearranged h _ := h

/-- The number of entries that the journal shows, if any has been noted. -/
def gauge (c : Cache α) : Option Nat := Metrics.reading c.journal (sizeSeries c.name)

/-- Nothing else is noted for the series. -/
theorem reading_counter (name : String) (m : Counter) {sample : Sample} {n : Nat}
    (hsample : Metrics.entries sample = [(.counter, m.series name, n)]) (journal : List Sample) :
    Metrics.reading (sample :: journal) (sizeSeries name) =
      Metrics.reading journal (sizeSeries name) :=
  Metrics.reading_of_ne hsample (Counter.series_ne_sizeSeries name m) journal

theorem reading_noteLost (name : String) (m : Counter) {sample : Nat → Sample} (n : Nat)
    (hsample : Metrics.entries (sample n) = [(.counter, m.series name, n)]) (journal : List Sample) :
    Metrics.reading (noteLost sample n journal) (sizeSeries name) =
      Metrics.reading journal (sizeSeries name) := by
  unfold noteLost
  split
  · rfl
  · exact reading_counter name m hsample journal

theorem gauge_get (c : Cache α) (now : Nat) (key : String) : (c.get now key).2.gauge = c.gauge := by
  unfold get
  split
  · split
    · exact reading_counter c.name .hits rfl c.journal
    · have hmiss : Metrics.entries (.cacheLookup c.name false) =
          [(.counter, Counter.series c.name .misses, 1)] := rfl
      have hexpired : Metrics.entries (.cacheExpirations c.name 1) =
          [(.counter, Counter.series c.name .expirations, 1)] := rfl
      exact (reading_counter c.name .misses hmiss _).trans
        (reading_counter c.name .expirations hexpired c.journal)
  · exact reading_counter c.name .misses rfl c.journal

theorem gauge_set (c : Cache α) (now : Nat) (key : String) (value : α) (ttl : Nat) :
    (c.set now key value ttl).gauge = c.gauge := by
  unfold set
  split <;> rfl

theorem gauge_delete (c : Cache α) (key : String) : (c.delete key).2.gauge = c.gauge := by
  unfold delete
  split <;> rfl

theorem gauge_evictOldest (c : Cache α) (n : Nat) : (c.evictOldest n).2.gauge = c.gauge :=
  reading_noteLost c.name .evictions _ rfl c.journal

theorem gauge_noteSize (c : Cache α) : c.noteSize.gauge = some c.noteSize.size :=
  Metrics.reading_gauged rfl c.journal

theorem gauge_sweep (c : Cache α) : c.sweep.gauge = some c.sweep.size := gauge_noteSize _

theorem gauge_cleanup (c : Cache α) (now : Nat) :
    (c.cleanup now).2.gauge = some (c.cleanup now).2.size := gauge_noteSize _

/-- Whether an event cleans up or runs a sweep. -/
def tidies (x : World α) : Event α → Bool
  | .setAlone key value ttl order =>
    Tended.called x.cache (x.storedAlone key value ttl order) ≠ []
  | .cleanup => true
  | .chore .sweep => x.queued ≠ 0
  | .chore .tick => true
  | _ => false

/-- How many entries a cleanup or a sweep leaves. -/
def sizeLeft (x : World α) (e : Event α) : Option Nat :=
  if tidies x e then some (step x e).cache.size else none

theorem gauge_of_tidies {x : World α} {e : Event α} (h : tidies x e = true)
    (hgauge : (step x e).cache.gauge = some (step x e).cache.size) :
    (step x e).cache.gauge = (sizeLeft x e).or x.cache.gauge := by
  rw [sizeLeft, if_pos h, Option.some_or, hgauge]

theorem gauge_of_quiet {x : World α} {e : Event α} (h : tidies x e = false)
    (hgauge : (step x e).cache.gauge = x.cache.gauge) :
    (step x e).cache.gauge = (sizeLeft x e).or x.cache.gauge := by
  have hnot : ¬ tidies x e = true := by rw [h]; exact Bool.false_ne_true
  rw [sizeLeft, if_neg hnot, Option.none_or, hgauge]

/-- **A cleanup or a sweep shows the number of entries that it leaves, and nothing else changes the
number that is shown.** -/
theorem gauge_step (x : World α) (e : Event α) :
    (step x e).cache.gauge = (sizeLeft x e).or x.cache.gauge := by
  cases e with
  | set key value ttl => exact gauge_of_quiet rfl (gauge_set _ _ _ _ _)
  | setAlone key value ttl order =>
    by_cases hcalled : Tended.called x.cache (x.storedAlone key value ttl order) = []
    · refine gauge_of_quiet (by simp [tidies, hcalled]) ?_
      simp only [step, sweepIfCalled, if_pos hcalled]
      exact gauge_set _ _ _ _ _
    · refine gauge_of_tidies (by simp [tidies, hcalled]) ?_
      simp only [step, sweepIfCalled, if_neg hcalled]
      exact gauge_sweep _
  | get key => exact gauge_of_quiet rfl (gauge_get _ _ _)
  | delete key => exact gauge_of_quiet rfl (gauge_delete _ _)
  | evictOldest n => exact gauge_of_quiet rfl (gauge_evictOldest _ _)
  | cleanup => exact gauge_of_tidies rfl (gauge_cleanup _ _)
  | chore chore =>
    cases chore with
    | sweep =>
      by_cases hq : x.queued = 0
      · refine gauge_of_quiet (by simp [tidies, hq]) ?_
        simp only [step, if_pos hq]
      · refine gauge_of_tidies (by simp [tidies, hq]) ?_
        simp only [step, if_neg hq]
        exact gauge_sweep _
    | tick => exact gauge_of_tidies rfl (gauge_cleanup _ _)
  | _ => exact gauge_of_quiet rfl rfl

end RegistryLookup.Cache
