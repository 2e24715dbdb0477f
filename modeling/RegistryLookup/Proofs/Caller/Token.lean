import RegistryLookup.Proofs.Caller.Standing

/-!
# Tokens

The token of a call fires from outside only (`fired?_step`), and once for all (`fired?_mono`). From
then on the call begins no attempt (`no_attempt_after`).
-/

namespace RegistryLookup.Caller

open Flight

variable {α : Type} {x : World α} {es : List (Event α)}

/-- Whether an event lets the token of a call fire, or brings the call with a token that has fired
before. -/
def Event.fires (c : Nat) : Event α → Bool
  | .fire d => d == c
  | .call d _ _ fired => fired && d == c
  | _ => false

/-- Whoever is under way is doing something. -/
theorem Placed.doing {s : Caller α} (h : Placed s) {c : Nat} {call : Call α}
    (hc : s.calls.get? c = some call) (ho : call.isOpen = true) : ∃ d, doing? s c = some d := by
  cases hs : call.stage with
  | arriving fired => exact ⟨_, doing?_of_arriving hc hs⟩
  | queued fired => exact ⟨_, doing?_of_queued hc hs⟩
  | admitted =>
    obtain ⟨p, d, hp, hd⟩ := h.aboard c call hc hs
    exact ⟨d, by rw [doing?_of_admitted hc hs, hp]; exact hd⟩
  | ended r t => unfold Call.isOpen at ho; rw [hs] at ho; cases ho
  | dropped => unfold Call.isOpen at ho; rw [hs] at ho; cases ho

theorem fired?_of_unknown {s : Caller α} {c : Nat} (hc : s.calls.get? c = none) :
    fired? s c = false := by
  unfold fired?
  rw [hc]
  rfl

/-- A call that is among the flights keeps its token in a turn. -/
theorem Flies.fired_eq {c : Nat} {answers : Answers α} {call : Call α} {fired : Bool}
    {ns : List (Retry.Notice α)} {p : Phase (Load α) α} (h : Flies x c answers call fired ns p)
    (hafter : (step x (.turn c answers)).state.calls.get? c =
      some { call with stage := afterwards x.now p }) (hp : ∀ E, p ≠ .ended E) :
    fired? (step x (.turn c answers)).state c = fired := by
  cases p with
  | ended E => exact absurd rfl (hp E)
  | _ => exact fired?_of_admitted hafter rfl h.there

/-- **A token fires from outside only.** -/
theorem fired?_step (h : Placed x.state) {e : Event α} {c : Nat} (he : e.fires c = false)
    {d : Doing α} (hd : doing? (step x e).state c = some d) :
    fired? (step x e).state c = fired? x.state c := by
  by_cases hcall : e.call? = some c
  swap
  · exact (doing?_frame h.sound hcall).2
  cases e with
  | call c' key ttl fired =>
    cases hcall
    cases hc : x.state.calls.get? c with
    | some call => rw [step_of_known hc]
    | none =>
      obtain rfl : fired = false := by simpa [Event.fires] using he
      rw [fired?_of_unknown hc]
      simp only [step, hc, Option.isSome_none, Bool.false_eq_true, if_false,
        Clock.World.state_wake]
      exact fired?_of_arriving (Table.get?_put_self _ _ _) rfl
  | turn c' answers =>
    cases hcall
    by_cases hr : .call c ∈ x.ready
    swap
    · rw [step_of_idle hr]
    cases took h answers hr with
    | rests hsame => rw [hsame]
    | turnedAway _ _ _ _ _ _ hafter => rw [doing?_of_over hafter rfl] at hd; cases hd
    | cancelled _ _ _ _ _ hafter => rw [doing?_of_over hafter rfl] at hd; cases hd
    | queues _ _ _ hf _ _ hafter => rw [hf, fired?_of_queued hafter rfl]
    | flies call fired ns p _ _ hf _ hflies hafter =>
      rw [hf]
      refine hflies.fired_eq hafter fun E hE => ?_
      rw [hflies.doing_eq hafter, hE] at hd
      cases hd
  | fire c' => cases hcall; simp [Event.fires] at he
  | abort c' =>
    cases hcall
    rw [show (step x (.abort c)).state = x.state.drop c from rfl, doing?_drop] at hd
    cases hd
  | _ => cases hcall

theorem fired?_fire {s : Caller α} (h : Placed s) {c : Nat} {call : Call α}
    (hc : s.calls.get? c = some call) : fired? (s.fire c) c = true := by
  cases hs : call.stage with
  | arriving fired =>
    have hget : (s.fire c).calls.get? c = some { call with stage := .arriving true } := by
      unfold fire
      simp only [hc, hs]
      exact Table.get?_put_self _ _ _
    exact fired?_of_arriving hget rfl
  | queued fired =>
    have hget : (s.fire c).calls.get? c = some { call with stage := .queued true } := by
      unfold fire
      simp only [hc, hs]
      exact Table.get?_put_self _ _ _
    exact fired?_of_queued hget rfl
  | admitted =>
    obtain ⟨p, d, hp, -⟩ := h.aboard c call hc hs
    obtain ⟨fcall, hf, -⟩ := Option.map_eq_some_iff.1 hp
    have hfire : s.fire c = { s with flights := s.flights.fire c } := by
      unfold fire
      simp only [hc, hs]
    have hthere : (s.fire c).flights.calls.get? c = some { fcall with fired := true } := by
      rw [hfire]
      unfold Flights.fire
      simp only [hf]
      exact Table.get?_put_self _ _ _
    have hget : (s.fire c).calls.get? c = some call := by rw [hfire]; exact hc
    exact fired?_of_admitted hget hs hthere
  | ended r t =>
    have hfire : s.fire c = s := by unfold fire; simp only [hc, hs]
    rw [hfire]
    exact fired?_of_over hc (by unfold Call.isOpen; rw [hs])
  | dropped =>
    have hfire : s.fire c = s := by unfold fire; simp only [hc, hs]
    rw [hfire]
    exact fired?_of_over hc (by unfold Call.isOpen; rw [hs])

/-- **A token that has fired has fired once for all.** -/
theorem fired?_mono (h : Placed x.state) (e : Event α) {c : Nat} (hf : fired? x.state c = true) :
    fired? (step x e).state c = true := by
  cases hc : x.state.calls.get? c with
  | none => rw [fired?_of_unknown hc] at hf; cases hf
  | some call =>
    obtain ⟨stage, hafter⟩ := calls_step x e hc
    cases ho : ({ call with stage := stage } : Call α).isOpen with
    | false => exact fired?_of_over hafter ho
    | true =>
      obtain ⟨d, hd⟩ := (placed_step h e).doing hafter ho
      cases he : e.fires c with
      | false => rw [fired?_step h he hd]; exact hf
      | true =>
        cases e with
        | fire c' =>
          obtain rfl : c' = c := by simpa [Event.fires] using he
          exact fired?_fire h hc
        | call c' key ttl fired =>
          obtain ⟨-, rfl⟩ : fired = true ∧ c' = c := by simpa [Event.fires] using he
          rw [step_of_known hc]
          exact hf
        | _ => cases he

/-- What a call notices in its turn whose token has fired. -/
theorem Sailed.not_began {c : Nat} {answers : Answers α} {call : Call α}
    {ns : List (Retry.Notice α)} {p : Phase (Load α) α}
    (h : Sailed x c answers call true ns p) : ∀ n ∈ ns, n.isBegan = false := by
  cases h with
  | givesUp => exact fun n hn => by cases hn
  | goesOn _ loop _ hl => exact (Retry.turn_fired _ _ _ hl.2).not_began

/-- A call whose token has fired begins no attempt in an event. -/
theorem not_began_step (h : Placed x.state) {e : Event α} {c p t : Nat} {j : UInt32}
    (hf : fired? x.state c = true) (hp : (log x.state).length ≤ p) :
    (log (step x e).state)[p]? ≠ some ⟨c, t, .began j⟩ := by
  intro hentry
  obtain ⟨⟨answers, rfl⟩, -, -⟩ := entry_made h.sound hp hentry
  rcases quiet_or_flies h c answers with hflights | ⟨call, ns, p', -, -, hflies⟩
  · -- nothing comes into the log where nothing changes among the flights
    unfold log at hentry hp
    rw [hflights, List.getElem?_eq_none hp] at hentry
    cases hentry
  · rw [hf] at hflies
    rw [hflies.logged] at hentry
    obtain ⟨notice, hn, heq⟩ := getElem?_added hp hentry
    cases heq
    have hbegan := hflies.sailed.not_began _ (List.mem_of_getElem? hn)
    cases hbegan

/-- **After its token has fired a call begins no attempt.** -/
theorem no_attempt_after (h : Placed x.state) {m n c p t : Nat} {j : UInt32}
    (hf : fired? (worldAt x es m).state c = true)
    (hp : (log (worldAt x es n).state)[p]? = some ⟨c, t, .began j⟩) : p < mark x es m := by
  rcases Nat.lt_or_ge n m with hnm | hmn
  · exact Nat.lt_of_lt_of_le (lt_mark hp) (mark_mono h.sound (Nat.le_of_lt hnm))
  have hall : fired? (worldAt x es n).state c = true ∧ ∀ p t j,
      (log (worldAt x es n).state)[p]? = some ⟨c, t, .began j⟩ → p < mark x es m := by
    refine Trace.after_since (P := fun (y : World α) => fired? y.state c = true ∧ ∀ p t j,
      (log y.state)[p]? = some ⟨c, t, .began j⟩ → p < mark x es m) hmn
      ⟨hf, fun p t j hp => lt_mark hp⟩ ?_
    rintro i hmi e - ⟨hfired, hold⟩
    have hplaced : Placed (worldAt x es i).state := worldAt_placed h i
    refine ⟨fired?_mono hplaced e hfired, fun p t j hp => ?_⟩
    rcases Nat.lt_or_ge p (log (worldAt x es i).state).length with hlt | hge
    · -- the entry was there before the event
      obtain ⟨d, ns, hlog⟩ := log_append hplaced.sound e
      rw [hlog, List.getElem?_append_left hlt] at hp
      exact hold p t j hp
    · exact absurd hp (not_began_step hplaced hfired hge)
  exact hall.2 p t j hp

end RegistryLookup.Caller
