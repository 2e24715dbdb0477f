import RegistryLookup.Proofs.Caller.Ledger
import RegistryLookup.Proofs.Caller.Voyage

/-!
# The attempts of a run

An attempt begins with one entry of the log and ends with another. Between the two its call leads
a flight and makes no other entry, and its result is what the upstream answered when the attempt
began (`Attempt`). In every run, whatever the cache is told to forget, each end of an attempt in
the log belongs to such an attempt (`attempt_of_ended`).

* `mark`: where in the log a point of the run is.
* `Logged`: what the log says of the loops that are under way, and its being kept.
-/

namespace RegistryLookup.Caller

open Flight

variable {α : Type} {x : World α} {es : List (Event α)}

/-- How many entries the log has after `n` events. Entries from there on are made later. -/
def mark (x : World α) (es : List (Event α)) (n : Nat) : Nat := (log (worldAt x es n).state).length

theorem log_append (h : x.state.Sound) (e : Event α) :
    ∃ c ns, log (step x e).state = log x.state ++ entries c x.now ns := by
  rcases log_cases h e with hlog | ⟨c, call, answers, fired, loop, t, -, ht⟩
  · exact ⟨0, [], by rw [hlog, entries, List.map_nil, List.append_nil]⟩
  · exact ⟨c, t.notices, ht.logged⟩

/-- What is in the log stays there. -/
theorem log_grows (h : x.state.Sound) {m n : Nat} (hmn : m ≤ n) :
    log (worldAt x es m).state <+: log (worldAt x es n).state := by
  refine Trace.after_since (P := fun (y : World α) => log (worldAt x es m).state <+: log y.state)
    hmn List.prefix_rfl ?_
  rintro i - e - hp
  obtain ⟨c, ns, hlog⟩ := log_append (worldAt_sound h i) e
  rw [hlog]
  exact hp.trans (List.prefix_append _ _)

theorem mark_mono (h : x.state.Sound) {m n : Nat} (hmn : m ≤ n) : mark x es m ≤ mark x es n :=
  (log_grows h hmn).length_le

theorem lt_mark {n p : Nat} {a : Retry.Entry α} (ha : (log (worldAt x es n).state)[p]? = some a) :
    p < mark x es n :=
  (List.getElem?_eq_some_iff.1 ha).1

/-- A point whose mark lies behind another point is later. -/
theorem lt_of_mark_lt (h : x.state.Sound) {m n : Nat} (hmn : mark x es m < mark x es n) : m < n :=
  Nat.lt_of_not_le fun hle => Nat.not_lt.2 (mark_mono h hle) hmn

theorem getElem?_log_mono (h : x.state.Sound) {m n p : Nat} (hmn : m ≤ n) {a : Retry.Entry α}
    (ha : (log (worldAt x es m).state)[p]? = some a) :
    (log (worldAt x es n).state)[p]? = some a := by
  obtain ⟨tail, htail⟩ : log (worldAt x es m).state <+: log (worldAt x es n).state := log_grows h hmn
  rw [← htail, List.getElem?_append_left (lt_mark ha)]
  exact ha

theorem getElem?_log_of_lt (h : x.state.Sound) {m n p : Nat} (hmn : m ≤ n) (hp : p < mark x es m) :
    (log (worldAt x es n).state)[p]? = (log (worldAt x es m).state)[p]? := by
  obtain ⟨tail, htail⟩ : log (worldAt x es m).state <+: log (worldAt x es n).state := log_grows h hmn
  rw [← htail]
  exact List.getElem?_append_left hp

theorem take_log (h : x.state.Sound) {m n p : Nat} (hmn : m ≤ n) (hp : p ≤ mark x es m) :
    (log (worldAt x es n).state).take p = (log (worldAt x es m).state).take p := by
  obtain ⟨tail, htail⟩ : log (worldAt x es m).state <+: log (worldAt x es n).state := log_grows h hmn
  rw [← htail]
  exact List.take_append_of_le_length hp

/-- How many attempts of a call have begun. -/
def begun (c : Nat) (as : List (Retry.Entry α)) : Nat :=
  as.countP (fun a => match a.notice with
    | .began _ => a.call = c
    | _ => false)

theorem begun_append (c : Nat) (as bs : List (Retry.Entry α)) :
    begun c (as ++ bs) = begun c as + begun c bs := List.countP_append

theorem begun_entries (c now : Nat) (ns : List (Retry.Notice α)) :
    begun c (entries c now ns) = ns.countP Retry.Notice.isBegan := by
  unfold begun entries
  rw [List.countP_map]
  congr 1
  funext n
  cases n <;> simp [Retry.Notice.isBegan]

theorem begun_eq_zero {c : Nat} {as : List (Retry.Entry α)} (h : ∀ a ∈ as, a.call ≠ c) :
    begun c as = 0 := by
  refine List.countP_eq_zero.2 (fun a ha => ?_)
  have hne := h a ha
  split <;> simp [hne]

theorem mem_entries {c now : Nat} {ns : List (Retry.Notice α)} {a : Retry.Entry α}
    (h : a ∈ entries c now ns) : a.call = c := by
  obtain ⟨n, -, rfl⟩ := List.mem_map.1 h
  rfl

/-- Entry `p` of the log begins attempt `j` of a call, in event `i`; `o` is what it comes to. -/
structure Begins (x : World α) (es : List (Event α)) (n c i p : Nat) (j : UInt32)
    (o : Retry.Outcome α) : Prop where
  turn : ∃ answers, es[i]? = some (.turn c answers) ∧ o = answers j
  after : mark x es i ≤ p
  before : p < mark x es (i + 1)
  entry : (log (worldAt x es n).state)[p]? = some ⟨c, (worldAt x es i).now, .began j⟩
  number : j.toNat = begun c ((log (worldAt x es n).state).take p) + 1

/-- An attempt of a call that begins with entry `p` of the log, in event `i`, and ends with entry
`q`, at an instant. -/
structure Attempt (x : World α) (es : List (Event α)) (n c i p q : Nat) (j : UInt32)
    (o : Retry.Outcome α) (t : Nat) : Prop where
  begins : Begins x es n c i p j o
  entry : (log (worldAt x es n).state)[q]? = some ⟨c, t, .ended j o.result⟩
  lt : p < q
  /-- The call makes no entry in between. -/
  alone : ∀ k a, p < k → k < q → (log (worldAt x es n).state)[k]? = some a → a.call ≠ c
  takes : ∃ d, o.takes = some d ∧ (worldAt x es i).now + d ≤ t
  /-- The call leads a flight all the time. -/
  leads : ∀ m, p < mark x es m → mark x es m ≤ q →
    ∃ load, phase? (worldAt x es m).state c = some (.leading load)

theorem Begins.mono (hx : x.state.Sound) {m n c i p : Nat} {j : UInt32} {o : Retry.Outcome α}
    (h : Begins x es m c i p j o) (hmn : m ≤ n) : Begins x es n c i p j o where
  turn := h.turn
  after := h.after
  before := h.before
  entry := getElem?_log_mono hx hmn h.entry
  number := by rw [take_log hx hmn (Nat.le_of_lt (lt_mark h.entry))]; exact h.number

theorem Attempt.mono (hx : x.state.Sound) {m n c i p q t : Nat} {j : UInt32} {o : Retry.Outcome α}
    (h : Attempt x es m c i p q j o t) (hmn : m ≤ n) : Attempt x es n c i p q j o t where
  begins := h.begins.mono hx hmn
  entry := getElem?_log_mono hx hmn h.entry
  lt := h.lt
  alone := fun k a hpk hkq ha => by
    rw [getElem?_log_of_lt hx hmn (Nat.lt_trans hkq (lt_mark h.entry))] at ha
    exact h.alone k a hpk hkq ha
  takes := h.takes
  leads := h.leads

/-- Entries are made in turns of their call. -/
theorem entry_made (h : x.state.Sound) {e : Event α} {q : Nat} {a : Retry.Entry α}
    (hq : (log x.state).length ≤ q) (ha : (log (step x e).state)[q]? = some a) :
    (∃ answers, e = .turn a.call answers) ∧ a.instant = x.now ∧
      ∃ call, x.state.calls.get? a.call = some call := by
  rcases log_cases h e with hlog | ⟨c, call, answers, fired, loop, t, hc, ht⟩
  · rw [hlog, List.getElem?_eq_none hq] at ha
    cases ha
  · rw [ht.logged] at ha
    obtain ⟨notice, -, rfl⟩ := getElem?_added hq ha
    exact ⟨⟨answers, ht.event⟩, rfl, call, hc⟩

/-- The turn in which an entry of the log is made. -/
theorem exists_turn (hx : x.state.Fresh) {n q : Nat} {a : Retry.Entry α}
    (ha : (log (worldAt x es n).state)[q]? = some a) :
    ∃ i answers, i < n ∧ es[i]? = some (.turn a.call answers) ∧ mark x es i ≤ q ∧
      q < mark x es (i + 1) ∧ a.instant = (worldAt x es i).now ∧
      ∃ call, (worldAt x es i).state.calls.get? a.call = some call := by
  have hstart : ¬ q < mark x es 0 := by
    rw [mark, worldAt_zero, hx.log]
    exact Nat.not_lt_zero q
  obtain ⟨i, -, hin, hi, hlater⟩ := Trace.turning_point
    (P := fun i => q < mark x es i) (Nat.zero_le n) hstart (lt_mark ha)
  have hnext := hlater (i + 1) (Nat.lt_succ_self i) hin
  have hsound : (worldAt x es i).state.Sound := worldAt_sound hx.sound i
  rcases worldAt_cases x es i with ⟨-, hsame⟩ | ⟨e, he, hstep⟩
  · unfold mark at hi hnext
    rw [hsame] at hnext
    exact absurd hnext hi
  · rw [getElem?_log_of_lt hx.sound hin hnext, hstep] at ha
    obtain ⟨⟨answers, rfl⟩, hinstant, hknown⟩ := entry_made hsound (Nat.le_of_not_lt hi) ha
    exact ⟨i, answers, hin, he, Nat.le_of_not_lt hi, hnext, hinstant, hknown⟩

/-- The attempt that a loop is in: the last entry of its call begins it. -/
structure InAttempt (x : World α) (es : List (Event α)) (n c : Nat) (loop : Retry.Loop α)
    (since : Nat) (o : Retry.Outcome α) (i p : Nat) : Prop where
  begins : Begins x es n c i p loop.tries o
  since_eq : since = (worldAt x es i).now
  alone : ∀ k a, p < k → (log (worldAt x es n).state)[k]? = some a → a.call ≠ c
  leads : ∀ m, m ≤ n → p < mark x es m →
    ∃ load, phase? (worldAt x es m).state c = some (.leading load)

/-- What the log says of a point of a run. -/
structure Logged (x : World α) (es : List (Event α)) (n : Nat) : Prop where
  /-- A call that has not begun its work makes no entries. -/
  unbegun : ∀ c, Unbegun (worldAt x es n).state c →
    ∀ a ∈ log (worldAt x es n).state, a.call ≠ c
  room : ∀ c load loop, phase? (worldAt x es n).state c = some (.leading load) →
    load.stage = .trying loop →
    loop.HasRoom ∧ loop.tries.toNat = begun c (log (worldAt x es n).state)
  attempting : ∀ c load loop since o, phase? (worldAt x es n).state c = some (.leading load) →
    load.stage = .trying loop → loop.phase = .attempting since o →
    ∃ i p, InAttempt x es n c loop since o i p
  ended : ∀ q c t j r, (log (worldAt x es n).state)[q]? = some ⟨c, t, .ended j r⟩ →
    ∃ i p o, Attempt x es n c i p q j o t ∧ o.result = r

/-- An event that adds nothing to the log and begins no work. -/
theorem Logged.quiet (hx : x.state.Sound) {n : Nat} (h : Logged x es n)
    (hlog : log (worldAt x es (n + 1)).state = log (worldAt x es n).state)
    (hunbegun : ∀ c, Unbegun (worldAt x es (n + 1)).state c → Unbegun (worldAt x es n).state c)
    (hleading : ∀ c load, phase? (worldAt x es (n + 1)).state c = some (.leading load) →
      phase? (worldAt x es n).state c = some (.leading load)) : Logged x es (n + 1) where
  unbegun := fun c hc a ha => h.unbegun c (hunbegun c hc) a (by rw [← hlog]; exact ha)
  room := fun c load loop hp hs => by rw [hlog]; exact h.room c load loop (hleading c load hp) hs
  attempting := fun c load loop since o hp hs ho => by
    obtain ⟨i, p, hin⟩ := h.attempting c load loop since o (hleading c load hp) hs ho
    refine ⟨i, p, hin.begins.mono hx (Nat.le_succ n), hin.since_eq, ?_, fun m hm hpm => ?_⟩
    · rw [hlog]; exact hin.alone
    · rcases Nat.lt_or_eq_of_le hm with hlt | rfl
      · exact hin.leads m (by omega) hpm
      · exact ⟨load, hp⟩
  ended := fun q c t j r hq => by
    rw [hlog] at hq
    obtain ⟨i, p, o, hat, hr⟩ := h.ended q c t j r hq
    exact ⟨i, p, o, hat.mono hx (Nat.le_succ n), hr⟩

section Tries

variable {n c : Nat} {call : Call α} {answers : Answers α} {fired : Bool} {loop : Retry.Loop α}
  {t : Retry.Turn α} {e : Event α}

/-- The loop with which a turn begins can count its attempts, and has counted them. -/
theorem Logged.loop_room (h : Logged x es n)
    (ht : Tries (worldAt x es n) e c call answers fired loop t) :
    loop.HasRoom ∧ loop.tries.toNat = begun c (log (worldAt x es n).state) := by
  rcases ht.origin with hp | ⟨hopen, -, rfl, -⟩
  · exact h.room c _ loop hp rfl
  · refine ⟨fun _ => (by show (0 : UInt32).toNat + 1 < UInt32.size; decide), ?_⟩
    rw [begun_eq_zero (h.unbegun c hopen)]
    rfl

theorem Tries.course (ht : Tries x e c call answers fired loop t) :
    Retry.Course x.state.policy answers x.now loop t.notices t.rest := by
  rw [ht.turn]
  exact Retry.turn_course _ _ _ _ _

/-- What a turn adds to the log are its notices. -/
theorem Tries.notice (ht : Tries x e c call answers fired loop t) {p : Nat} {a : Retry.Entry α}
    (hp : (log x.state).length ≤ p) (ha : (log (step x e).state)[p]? = some a) :
    ∃ notice, t.notices[p - (log x.state).length]? = some notice ∧ a = ⟨c, x.now, notice⟩ := by
  rw [ht.logged] at ha
  exact getElem?_added hp ha

theorem Tries.getElem?_notice (ht : Tries x e c call answers fired loop t) {i : Nat}
    {notice : Retry.Notice α} (hi : t.notices[i]? = some notice) :
    (log (step x e).state)[(log x.state).length + i]? = some ⟨c, x.now, notice⟩ := by
  rw [ht.logged]
  exact getElem?_added_of _ _ _ hi

/-- An attempt that begins in the turn. -/
theorem Logged.begins (h : Logged x es n) (he : es[n]? = some e)
    (ht : Tries (worldAt x es n) e c call answers fired loop t) {k : Nat} {j : UInt32}
    (hk : t.notices[k]? = some (.began j)) :
    Begins x es (n + 1) c n (mark x es n + k) j (answers j) := by
  have hentry : (log (worldAt x es (n + 1)).state)[mark x es n + k]? =
      some ⟨c, (worldAt x es n).now, .began j⟩ := by
    rw [worldAt_succ x he]
    exact ht.getElem?_notice hk
  obtain ⟨hroom, htries⟩ := h.loop_room ht
  refine ⟨⟨answers, by rw [he, ht.event], rfl⟩, Nat.le_add_right _ _, lt_mark hentry, hentry, ?_⟩
  -- the entries before it are those of the earlier points and the notices before it
  have htake : (log (worldAt x es (n + 1)).state).take (mark x es n + k) =
      log (worldAt x es n).state ++ entries c (worldAt x es n).now (t.notices.take k) := by
    rw [worldAt_succ x he, ht.logged, mark, List.take_length_add_append, entries, entries,
      List.map_take]
  rw [htake, begun_append, begun_entries, ← htries]
  exact ht.course.number hroom hk

end Tries

/-- Event `n` is a turn in which a call makes attempts, and the log is as it should be before. -/
structure Round (x : World α) (es : List (Event α)) (n c : Nat) (call : Call α)
    (answers : Answers α) (fired : Bool) (loop : Retry.Loop α) (t : Retry.Turn α) : Prop where
  sound : x.state.Sound
  logged : Logged x es n
  event : es[n]? = some (.turn c answers)
  tries : Tries (worldAt x es n) (.turn c answers) c call answers fired loop t
  self : phase? (worldAt x es (n + 1)).state c =
    some (afterTurn call fired (worldAt x es n).now t.rest)
  others : ∀ d, d ≠ c →
    phase? (worldAt x es (n + 1)).state d = phase? (worldAt x es n).state d

namespace Round

variable {n c : Nat} {call : Call α} {answers : Answers α} {fired : Bool} {loop : Retry.Loop α}
  {t : Retry.Turn α}

theorem log_succ (h : Round x es n c call answers fired loop t) :
    log (worldAt x es (n + 1)).state =
      log (worldAt x es n).state ++ entries c (worldAt x es n).now t.notices := by
  rw [worldAt_succ x h.event]
  exact h.tries.logged

theorem mark_succ (h : Round x es n c call answers fired loop t) :
    mark x es (n + 1) = mark x es n + t.notices.length := by
  unfold mark
  rw [h.log_succ, List.length_append, entries, List.length_map]

/-- The phase in which the turn leaves its call, if it goes on. -/
theorem rest_of_leading (h : Round x es n c call answers fired loop t) {load : Load α}
    (hp : phase? (worldAt x es (n + 1)).state c = some (.leading load)) {l : Retry.Loop α}
    (hs : load.stage = .trying l) : t.rest = .inl l := by
  rw [h.self] at hp
  cases hrest : t.rest with
  | inl loop' =>
    rw [hrest] at hp; cases hp
    cases hs
    rfl
  | inr r => rw [hrest] at hp; cases hp

theorem unbegun (h : Round x es n c call answers fired loop t) {d : Nat}
    (hd : Unbegun (worldAt x es (n + 1)).state d) :
    ∀ a ∈ log (worldAt x es (n + 1)).state, a.call ≠ d := by
  intro a ha
  by_cases hdc : d = c
  · -- a call that makes attempts has begun
    subst hdc
    refine absurd ?_ (hd _ h.self)
    cases t.rest <;> rfl
  · rw [h.log_succ] at ha
    rcases List.mem_append.1 ha with ha | ha
    · exact h.logged.unbegun d (fun p hp => hd p (by rw [h.others d hdc]; exact hp)) a ha
    · rw [mem_entries ha]; exact Ne.symm hdc

theorem room (h : Round x es n c call answers fired loop t) {d : Nat} {load : Load α}
    {l : Retry.Loop α} (hp : phase? (worldAt x es (n + 1)).state d = some (.leading load))
    (hs : load.stage = .trying l) :
    l.HasRoom ∧ l.tries.toNat = begun d (log (worldAt x es (n + 1)).state) := by
  rw [h.log_succ, begun_append]
  by_cases hdc : d = c
  · subst hdc
    obtain ⟨hroom, htries⟩ := h.logged.loop_room h.tries
    obtain ⟨hn, hroom'⟩ := h.tries.course.tries hroom (h.rest_of_leading hp hs)
    refine ⟨hroom', ?_⟩
    rw [begun_entries, ← htries]
    exact hn
  · rw [h.others d hdc] at hp
    obtain ⟨hroom', hn⟩ := h.logged.room d load l hp hs
    have hzero : begun d (entries c (worldAt x es n).now t.notices) = 0 :=
      begun_eq_zero (fun a ha => by rw [mem_entries ha]; exact Ne.symm hdc)
    refine ⟨hroom', ?_⟩
    rw [hzero, Nat.add_zero]
    exact hn

/-- Of the points up to the end of the turn only its end is after its beginning. -/
theorem leads_of_lt {d : Nat} {load : Load α}
    (hp : phase? (worldAt x es (n + 1)).state d = some (.leading load)) {m : Nat}
    (hm : m ≤ n + 1) (hn : ¬ m ≤ n) :
    ∃ load, phase? (worldAt x es m).state d = some (.leading load) := by
  have hm' : m = n + 1 := by omega
  subst hm'
  exact ⟨load, hp⟩

/-- An attempt that was under way before is so still, if its call has made no entry. -/
theorem still (h : Round x es n c call answers fired loop t) {d since : Nat} {load : Load α}
    {l : Retry.Loop α} {o : Retry.Outcome α}
    (hp : phase? (worldAt x es (n + 1)).state d = some (.leading load))
    (hnone : d = c → t.notices = []) {i p : Nat} (hin : InAttempt x es n d l since o i p) :
    InAttempt x es (n + 1) d l since o i p := by
  refine ⟨hin.begins.mono h.sound (Nat.le_succ n), hin.since_eq, fun k a hpk ha => ?_,
    fun m hm hpm => ?_⟩
  · rcases Nat.lt_or_ge k (mark x es n) with hk | hk
    · rw [getElem?_log_of_lt h.sound (Nat.le_succ n) hk] at ha
      exact hin.alone k a hpk ha
    -- a later entry is one of the turn
    · rw [h.log_succ] at ha
      obtain ⟨notice, hi, rfl⟩ := getElem?_added hk ha
      intro hcd
      rw [hnone hcd.symm] at hi
      cases hi
  · by_cases hmn : m ≤ n
    · exact hin.leads m hmn hpm
    · exact leads_of_lt hp hm hmn

theorem attempting (h : Round x es n c call answers fired loop t) {d since : Nat} {load : Load α}
    {l : Retry.Loop α} {o : Retry.Outcome α}
    (hp : phase? (worldAt x es (n + 1)).state d = some (.leading load))
    (hs : load.stage = .trying l) (ho : l.phase = .attempting since o) :
    ∃ i p, InAttempt x es (n + 1) d l since o i p := by
  by_cases hdc : d = c
  swap
  · obtain ⟨i, p, hin⟩ := h.logged.attempting d load l since o
      (by rw [← h.others d hdc]; exact hp) hs ho
    exact ⟨i, p, h.still hp (fun hdc' => absurd hdc' hdc) hin⟩
  subst hdc
  rcases h.tries.course.underWay (h.rest_of_leading hp hs) ho with ⟨hnil, rfl⟩ |
    ⟨rfl, rfl, k, hk, hbegan⟩
  · -- a new loop is in no attempt
    rcases h.tries.origin with hp' | ⟨-, -, rfl, -⟩
    · obtain ⟨i, p, hin⟩ := h.logged.attempting d _ l since o hp' rfl ho
      exact ⟨i, p, h.still hp (fun _ => hnil) hin⟩
    · cases ho
  · have hmark := h.mark_succ
    refine ⟨n, _, h.logged.begins h.event h.tries hbegan, rfl, fun k' a hk' ha => ?_,
      fun m hm hpm => ?_⟩
    · have hlt := lt_mark ha
      omega
    · refine leads_of_lt hp hm (fun hmn => ?_)
      have hle : mark x es m ≤ mark x es n := mark_mono h.sound hmn
      omega

/-- An attempt that was under way before, and ends first of all in the turn. -/
theorem ended_old (h : Round x es n c call answers fired loop t) {q since d : Nat}
    {o : Retry.Outcome α} (hphase : loop.phase = .attempting since o)
    (hq : (log (worldAt x es (n + 1)).state)[q]? =
      some ⟨c, (worldAt x es n).now, .ended loop.tries o.result⟩) (hqn : q = mark x es n)
    (htakes : o.takes = some d) (hd : since + d ≤ (worldAt x es n).now) :
    ∃ i p, Attempt x es (n + 1) c i p q loop.tries o (worldAt x es n).now := by
  rcases h.tries.origin with hp | ⟨-, -, rfl, -⟩
  swap
  · cases hphase
  obtain ⟨i, p, hin⟩ := h.logged.attempting c _ loop since o hp rfl hphase
  have hpn : p < mark x es n := lt_mark hin.begins.entry
  refine ⟨i, p, hin.begins.mono h.sound (Nat.le_succ n), hq, by omega, fun k a hpk hkq ha => ?_,
    ⟨d, htakes, ?_⟩, fun m hpm hmq => ?_⟩
  · rw [getElem?_log_of_lt h.sound (Nat.le_succ n) (by omega)] at ha
    exact hin.alone k a hpk ha
  · rw [← hin.since_eq]; exact hd
  · refine hin.leads m (Nat.le_of_not_lt fun hnm => ?_) hpm
    have hlt := lt_mark hq
    have hmark : mark x es (n + 1) ≤ mark x es m := mark_mono h.sound hnm
    omega

/-- An attempt that begins and ends in the turn. -/
theorem ended_new (h : Round x es n c call answers fired loop t) {q k d : Nat} {j : UInt32}
    (hbegan : t.notices[k]? = some (.began j)) (hqk : q = mark x es n + k + 1)
    (hq : (log (worldAt x es (n + 1)).state)[q]? =
      some ⟨c, (worldAt x es n).now, .ended j (answers j).result⟩)
    (htakes : (answers j).takes = some d)
    (hd : (worldAt x es n).now + d ≤ (worldAt x es n).now) :
    Attempt x es (n + 1) c n (mark x es n + k) q j (answers j) (worldAt x es n).now := by
  refine ⟨h.logged.begins h.event h.tries hbegan, hq, by omega, fun k' a hpk hkq _ => by omega,
    ⟨d, htakes, hd⟩, fun m hpm hmq => ?_⟩
  -- no point of the run lies between the two entries
  have hnm : n < m := lt_of_mark_lt h.sound (show mark x es n < mark x es m by omega)
  have hmark : mark x es (n + 1) ≤ mark x es m := mark_mono h.sound hnm
  have hlt := lt_mark hq
  omega

theorem ended (h : Round x es n c call answers fired loop t) {q d t' : Nat} {j : UInt32}
    {r : Except Failure α}
    (hq : (log (worldAt x es (n + 1)).state)[q]? = some ⟨d, t', .ended j r⟩) :
    ∃ i p o, Attempt x es (n + 1) d i p q j o t' ∧ o.result = r := by
  rcases Nat.lt_or_ge q (mark x es n) with hlt | hge
  · rw [getElem?_log_of_lt h.sound (Nat.le_succ n) hlt] at hq
    obtain ⟨i, p, o, hat, hr⟩ := h.logged.ended q d t' j r hq
    exact ⟨i, p, o, hat.mono h.sound (Nat.le_succ n), hr⟩
  have hadded := hq
  rw [h.log_succ] at hadded
  obtain ⟨notice, hi, heq⟩ := getElem?_added hge hadded
  cases heq
  have hge' : (log (worldAt x es n).state).length ≤ q := hge
  have hmark : mark x es n = (log (worldAt x es n).state).length := rfl
  rcases h.tries.course.ended hi with ⟨hzero, since, o, d, hphase, rfl, rfl, htakes, hd⟩ |
    ⟨k, d, hk, hbegan, rfl, htakes, hd⟩
  · obtain ⟨i, p, hat⟩ := h.ended_old hphase hq (by omega) htakes hd
    exact ⟨i, p, o, hat, rfl⟩
  · exact ⟨n, _, _, h.ended_new hbegan (by omega) hq htakes hd, rfl⟩

/-- The log after a turn in which a call makes attempts. -/
theorem logged_succ (h : Round x es n c call answers fired loop t) : Logged x es (n + 1) where
  unbegun := fun _ hd => h.unbegun hd
  room := fun _ _ _ hp hs => h.room hp hs
  attempting := fun _ _ _ _ _ hp hs ho => h.attempting hp hs ho
  ended := fun _ _ _ _ _ hq => h.ended hq

end Round

theorem logged_step (hx : x.state.Sound) {n : Nat} (h : Logged x es n) {e : Event α}
    (he : es[n]? = some e) : Logged x es (n + 1) := by
  have hsucc := worldAt_succ x he
  have hsound : (worldAt x es n).state.Sound := worldAt_sound hx n
  cases voyage hsound e with
  | calm hlog hphase =>
    rw [← hsucc] at hlog hphase
    refine h.quiet hx hlog (fun c hc p hp => hc p (by rw [hphase c]; exact hp)) (fun c load hp => ?_)
    rw [← hphase c]; exact hp
  | moved c call p hc hself hothers hleg =>
    rw [← hsucc] at hself hothers
    -- a call that moves without making attempts leads no flight afterwards
    have hquiet : log (step (worldAt x es n) e).state = log (worldAt x es n).state →
        (p.task? ≠ none → Unbegun (worldAt x es n).state c) → (∀ load, p ≠ .leading load) →
        Logged x es (n + 1) := by
      intro hlog hopen hno
      refine h.quiet hx (by rw [hsucc]; exact hlog) (fun d hd => ?_) (fun d load hp => ?_)
      · by_cases hdc : d = c
        · subst hdc
          exact hopen (hd p hself)
        · exact fun q hq => hd q (by rw [hothers d hdc]; exact hq)
      · by_cases hdc : d = c
        · subst hdc
          rw [hself] at hp
          exact absurd (Option.some.inj hp) (hno load)
        · rw [← hothers d hdc]; exact hp
    cases hleg with
    | dropped _ _ hlog => exact hquiet hlog (fun hn => absurd rfl hn) (fun _ hp => by cases hp)
    | waits _ _ _ _ hopen _ hlog => exact hquiet hlog (fun _ => hopen) (fun _ hp => by cases hp)
    | givesUp _ _ _ hlog => exact hquiet hlog (fun hn => absurd rfl hn) (fun _ hp => by cases hp)
    | served _ _ _ _ _ _ _ hlog =>
      exact hquiet hlog (fun hn => absurd rfl hn) (fun _ hp => by cases hp)
    | found _ _ _ _ _ hlog =>
      exact hquiet hlog (fun hn => absurd rfl hn) (fun _ hp => by cases hp)
    | tries answers fired loop t ht =>
      obtain rfl := ht.event
      exact Round.logged_succ ⟨hx, h, he, ht, hself, hothers⟩

theorem logged (hx : x.state.Fresh) (n : Nat) : Logged x es n := by
  induction n with
  | zero =>
    have hlog : log (worldAt x es 0).state = [] := by rw [worldAt_zero]; exact hx.log
    have hphase : ∀ {c : Nat} {load : Load α} {b : Prop},
        phase? (worldAt x es 0).state c = some (.leading load) → b := by
      intro c load b hp
      rw [worldAt_zero] at hp
      unfold phase? at hp
      obtain ⟨fcall, hf, -⟩ := Option.map_eq_some_iff.1 hp
      obtain ⟨call, hc, -⟩ := hx.sound.carried c fcall hf
      rw [hx.calls] at hc; cases hc
    refine ⟨fun c _ a ha => ?_, fun c load loop hp _ => hphase hp,
      fun c load loop since o hp _ _ => hphase hp, fun q c t j r hq => ?_⟩
    · rw [hlog] at ha; cases ha
    · rw [hlog] at hq; cases hq
  | succ n ih =>
    rcases worldAt_cases x es n with ⟨-, h⟩ | ⟨e, he, -⟩
    · exact ih.quiet hx.sound (by rw [h]) (fun c hc => by rw [← h]; exact hc)
        (fun c load hp => by rw [← h]; exact hp)
    · exact logged_step hx.sound ih he

/-- **Every end in the log is the end of an attempt.** -/
theorem attempt_of_ended (hx : x.state.Fresh) {n q c t : Nat} {j : UInt32} {r : Except Failure α}
    (hq : (log (worldAt x es n).state)[q]? = some ⟨c, t, .ended j r⟩) :
    ∃ i p o, Attempt x es n c i p q j o t ∧ o.result = r :=
  (logged hx n).ended q c t j r hq

end RegistryLookup.Caller
