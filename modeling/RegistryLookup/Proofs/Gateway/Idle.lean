import RegistryLookup.Proofs.Caller.Progress
import RegistryLookup.Proofs.Gateway.Errand
import RegistryLookup.Proofs.Gateway.Mirror

/-!
# A gateway between two steps

When no operation is under way, everything that a lookup could have to wait for is free: permits,
flights, and the number under which it is asked for. So a lookup that is asked for then has the
gateway to itself (`Alone.clear`), and is over in time (`ends_le_patience`).

* `vacant_of_isDone`: what a caller has free when all its calls are over.
* `Numbered`: operations are numbered in turn, and only what was asked for is answered.
* `lookup_plays`: what a lookup comes to, and when, if nothing else is under way.
-/

namespace RegistryLookup

namespace Caller

variable {α : Type} {x : World α} {limit : Nat}

theorem doing?_of_isDone {s : Caller α} (h : s.isDone = true) (c : Nat) : doing? s c = none := by
  cases hc : s.calls.get? c with
  | none =>
    unfold doing?
    rw [hc]
  | some call =>
    have hover := List.all_eq_true.1 h _ (Table.mem_of_get? hc)
    exact doing?_of_over hc (by simpa using hover)

/-- **Where every call is over, a new call finds nothing in its way.** -/
theorem vacant_of_isDone (hattended : Attended x limit) (hplaced : Placed x.state)
    (hmanned : Manned x.state) (hlimit : 0 < limit) (hdone : x.state.isDone = true) {c : Nat}
    {key : String} (hcircuit : x.state.breaker.circuit = .closed)
    (hmissed : (x.state.cache.get x.now key).1 = none) : Vacant x.state c key x.now := by
  have hidle := doing?_of_isDone hdone
  have hmetered := hattended.metered
  have hwaiters : ∀ d, d ∉ x.state.permits.waiters := by
    intro d hd
    have hqueued := waits_iff_doing.1 (hmetered.waits d hd)
    rw [hidle d] at hqueued
    cases hqueued
  -- nobody is busy among the flights
  have hphases : ∀ d p, phase? x.state d = some p → phaseDoing p = none := by
    intro d p hp
    cases hd : phaseDoing p with
    | none => rfl
    | some doing =>
      have hbusy := hmanned d p doing hp hd
      rw [hidle d] at hbusy
      cases hbusy
  refine ⟨⟨hmetered.keys, fun d call _ hcall => ?_, hplaced.sound.flights.calls,
    fun d fcall hd l load hphase => ?_, ?_, ?_⟩, ?_, hcircuit, ?_, hmissed⟩
  · have hover := List.all_eq_true.1 hdone _ (Table.mem_of_get? hcall)
    simpa using hover
  · have hnone := hphases d _ (phase?_eq hd)
    rw [hphase] at hnone
    cases hnone
  · exact List.eq_nil_iff_forall_not_mem.2 fun d hd =>
      hwaiters d (Permits.mem_waiters.2 (Or.inl hd))
  · exact List.eq_nil_iff_forall_not_mem.2 fun d hd =>
      hwaiters d (Permits.mem_waiters.2 (Or.inr hd))
  · rw [hattended.all_free hplaced hidle]
    exact hlimit
  · -- a flight that is led is led by a call at work
    cases hled : x.state.flights.inFlight.get? key with
    | none => rfl
    | some d =>
      obtain ⟨fired, load, hcall⟩ := (hplaced.sound.flights.led key d).1 hled
      obtain ⟨call, -, hcarries⟩ := hplaced.sound.carried d _ hcall
      obtain ⟨loop, rfl⟩ := hcarries.leads load rfl
      have hnone : loopDoing loop = none := hphases d _ (phase?_eq hcall)
      have hbegun := (hplaced.seaworthy d _ loop (phase?_eq hcall) rfl).2
      unfold loopDoing at hnone
      cases hloop : loop.phase with
      | ready => exact absurd hloop hbegun
      | attempting since o =>
        rw [hloop] at hnone
        cases hnone
      | resting wakesAt =>
        rw [hloop] at hnone
        cases hnone

/-- So it is at every point of a run. -/
theorem worldAt_vacant (name : String) (settings : Config.Settings) (es : List (Event α))
    (n : Nat) {c : Nat} {key : String}
    (hdone : (worldAt (dawn name settings 0) es n).state.isDone = true)
    (hcircuit : (worldAt (dawn name settings 0) es n).state.breaker.circuit = .closed)
    (hmissed : ((worldAt (dawn name settings 0) es n).state.cache.get
      (worldAt (dawn name settings 0) es n).now key).1 = none) :
    Vacant (worldAt (dawn name settings 0) es n).state c key
      (worldAt (dawn name settings 0) es n).now := by
  have hmanned : Manned (dawn name settings 0 : World α).state := fun d p doing hp => by cases hp
  exact vacant_of_isDone (worldAt_attended (dawn_attended name settings 0) n)
    (worldAt_placed (make_placed name settings 0) n)
    (worldAt_manned (make_placed name settings 0) hmanned n) (Nat.le_max_left 1 _) hdone hcircuit
    hmissed

/-- **A call that has not come in has made no attempt.** -/
theorem uncalled_of_fresh {es : List (Event α)} (hx : x.state.Fresh) {n c : Nat}
    (hc : (worldAt x es n).state.calls.get? c = none) :
    ∀ e ∈ (worldAt x es n).state.flights.store.record, e.call ≠ c := by
  have hunbegun : Unbegun (worldAt x es n).state c := by
    intro p hp
    obtain ⟨fcall, hf, -⟩ := Option.map_eq_some_iff.1 hp
    obtain ⟨call, hcall, -⟩ := (worldAt_sound hx.sound n).carried c fcall hf
    rw [hc] at hcall
    cases hcall
  exact fun e he => (logged hx n).unbegun c hunbegun e (List.mem_reverse.2 he)

end Caller

namespace Gateway

variable {x w : World} {settings : Config.Settings} {g : Gateway} {network : Http.Network}
  {client : Client} {what : Lookup}

section Numbers

variable {s : Session}

/-- Operations are numbered in turn, and only what was asked for is answered. -/
structure Numbered (s : Session) : Prop where
  operations : s.operations.keys = List.range s.operations.length
  answers : ∀ k a, s.answers.get? k = some a → k < s.operations.length

theorem Numbered.lt (h : Numbered s) {k : Nat} {op : Operation}
    (hop : s.operations.get? k = some op) : k < s.operations.length := by
  have hmem := (Table.mem_keys_iff s.operations k).2 ⟨op, hop⟩
  rw [h.operations] at hmem
  exact List.mem_range.1 hmem

theorem Numbered.unasked (h : Numbered s) : s.operations.get? s.operations.length = none := by
  cases hop : s.operations.get? s.operations.length with
  | none => rfl
  | some op => exact absurd (h.lt hop) (Nat.lt_irrefl _)

theorem Numbered.unanswered (h : Numbered s) : s.answers.get? s.operations.length = none := by
  cases ha : s.answers.get? s.operations.length with
  | none => rfl
  | some a => exact absurd (h.answers _ a ha) (Nat.lt_irrefl _)

/-- An answer to what was asked for. -/
theorem Numbered.put (h : Numbered s) {s' : Session} {k : Nat} {a : Answer}
    (hk : k < s.operations.length) (hoperations : s'.operations = s.operations)
    (hanswers : s'.answers = s.answers.put k a) : Numbered s' where
  operations := by
    rw [hoperations]
    exact h.operations
  answers := by
    rw [hoperations, hanswers]
    intro j b hj
    by_cases hjk : j = k
    · rw [hjk]
      exact hk
    · rw [Table.get?_put_of_ne _ _ hjk] at hj
      exact h.answers j b hj

theorem numbered_operation (h : Numbered x.state) (k : Nat) :
    Numbered (runTask x (.operation k)).state := by
  cases operation_turn x k with
  | begins op hk hop hrun =>
    have hkeeps := begin_keeps x.state x.now k op
    rw [hrun]
    exact h.put (h.lt hop) hkeeps.operations (congrArg (Table.put · k _) hkeeps.answers)
  | rests answers hno hanswers hrun =>
    rw [hrun]
    rcases hanswers with rfl | ⟨t, hrest, rfl⟩
    · exact h
    · exact h.put (h.answers k _ hrest) rfl rfl

theorem numbered_step (h : Numbered x.state) (e : Event) : Numbered (step x e).state := by
  cases e with
  | ask operation =>
    have hlength : (step x (.ask operation)).state.operations.length =
        x.state.operations.length + 1 := List.length_append
    refine ⟨?_, fun k a hk => ?_⟩
    · rw [hlength, List.range_succ, ← h.operations]
      exact List.map_append
    · rw [hlength]
      exact Nat.lt_succ_of_lt (h.answers k a hk)
  | turn task =>
    by_cases hr : task ∈ x.ready
    · rw [step, if_pos hr]
      cases task with
      | operation k => exact numbered_operation h k
      | client name task => exact ⟨h.operations, h.answers⟩
    · rw [step, if_neg hr]
      exact h
  | pass limit =>
    rw [step, Clock.World.state_pass]
    exact h
  | late name =>
    rw [step]
    split
    · exact ⟨h.operations, h.answers⟩
    · exact h
  | wake name k => exact h
  | fire name k => exact ⟨h.operations, h.answers⟩
  | abort name k => exact ⟨h.operations, h.answers⟩

theorem worldAt_numbered (h : Numbered x.state) (es : List Event) (n : Nat) :
    Numbered (worldAt x es n).state :=
  Trace.after_invariant (P := fun (y : World) => Numbered y.state) h
    (fun _ e _ hy => numbered_step hy e) n

theorem dawn_numbered (g : Gateway) (network : Http.Network) (now : Nat) :
    Numbered (dawn g network now).state := ⟨rfl, fun k a hk => by cases hk⟩

end Numbers

/-- A client of a gateway at work is at a point of its own run, which began when it was made. -/
theorem exists_course (hg : ofSettings settings 0 = .ok g) (es : List Event) (n : Nat)
    {name : String}
    (hc : (worldAt (dawn g network 0) es n).state.traffic.gateway.client? name = some client) :
    ∃ (c : Client) (ces : List (Caller.Event Json)) (m : Nat),
      (∃ r, Client.make settings 0 r = .ok c) ∧ c.name = name ∧
      Mirrors c (worldAt (dawn g network 0) es n)
        (Caller.worldAt (Caller.dawn name settings 0) ces m) ∧
      client = c.withCaller (Caller.worldAt (Caller.dawn name settings 0) ces m).state := by
  obtain ⟨c, rfl, hstart⟩ := exists_client_at_dawn (ofSettings_names hg) hc
  obtain ⟨r, -, hmake⟩ := ofSettings_client hg hstart
  have hmirrors : Mirrors c (worldAt (dawn g network 0) es n) (Caller.worldAt
      (Caller.dawn c.name settings 0) (course c.name (dawn g network 0) es n)
      (moment c.name (dawn g network 0) es n)) :=
    mirrored (ofSettings_names hg) (dawn_mirrors hg hstart) n
  have hsame := hmirrors.same
  rw [hc] at hsame
  exact ⟨c, _, _, ⟨r, hmake⟩, rfl, hmirrors, Option.some.inj hsame⟩

/-- A lookup that is asked for next is the only operation. It finds a closed circuit, and nothing in
the cache. -/
structure Alone (w : World) (client : Client) (what : Lookup) : Prop where
  quiet : w.ready = []
  done : w.state.isDone = true
  caller : w.state.traffic.gateway.client? client.name = some client
  circuit : client.caller.breaker.circuit = .closed
  missed : (client.caller.cache.get w.now what.key).1 = none

/-- **Such a lookup has the gateway to itself.** -/
theorem Alone.clear (hg : ofSettings settings 0 = .ok g) {es : List Event} {n : Nat}
    (hw : w = worldAt (dawn g network 0) es n) (h : Alone w client what) :
    Clear w client what := by
  have hnumbered : Numbered w.state := by
    rw [hw]
    exact worldAt_numbered (dawn_numbered g network 0) es n
  obtain ⟨hrests, hover⟩ := Bool.and_eq_true_iff.1 h.done
  have hdone : ∀ c ∈ w.state.traffic.gateway.clients, c.caller.isDone = true :=
    List.all_eq_true.1 hover
  obtain ⟨c, ces, m, -, hname, hmirrors, hclient⟩ :=
    exists_course hg es n (by rw [← hw]; exact h.caller)
  rw [← hw] at hmirrors
  have hcaller : client.caller =
      (Caller.worldAt (Caller.dawn client.name settings 0) ces m).state :=
    congrArg (·.caller) hclient
  have huncalled : client.caller.calls.get? (next w) = none := by
    cases hcall : client.caller.calls.get? (next w) with
    | none => rfl
    | some call =>
      rw [hcaller] at hcall
      have hanswer := (hmirrors.asked _ call hcall).answer
      rw [hnumbered.unanswered] at hanswer
      cases hanswer
  refine ⟨?_, h.quiet, fun name d _ hd => hdone d (List.mem_of_find?_eq_some hd), ?_, h.caller, ?_,
    ?_, hnumbered.unanswered, hnumbered.unasked⟩
  · rw [hw, (worldAt_alike (dawn g network 0) es n).names]
    exact ofSettings_names hg
  · intro p hp wakesAt hrest
    have hnil := List.filterMap_eq_nil_iff.1 (List.isEmpty_iff.1 hrests) p hp
    obtain ⟨k, a⟩ := p
    cases hrest
    cases hnil
  · have hown := hdone _ (List.mem_of_find?_eq_some h.caller)
    have hcircuit := h.circuit
    have hmissed := h.missed
    rw [hcaller] at hown hcircuit hmissed ⊢
    rw [← hmirrors.now] at hmissed ⊢
    exact Caller.worldAt_vacant client.name settings ces m hown hcircuit hmissed
  · rw [hcaller] at huncalled
    unfold Unheard
    rw [hcaller]
    exact Caller.uncalled_of_fresh (Caller.make_fresh client.name settings 0) huncalled

/-- The attempts that a client has made for the operation that is asked for next. -/
def attemptsOf (w : World) (final : Client) : List Retry.Trial :=
  Retry.trialsOf (next w) final.caller.flights.store.record

/-- A lookup has made the attempts of its script up to attempt number `k`, and has told the client
what the last one came to. -/
structure Played (w : World) (client : Client) (ask : Ask) (s : Retry.Script Json) (k : Nat)
    (out : Session.Step) (final : Client) : Prop where
  sent : out.arrivals = requests w.state.traffic ask k
  attempts : attemptsOf w final = (List.range k).map fun n =>
    (s.trial client.caller.policy (n + 1)).later (next w) w.now
  answers : out.answers = [.result (s.result k)]
  finish : out.finish = w.now + s.ends client.caller.policy k
  breaker : final.caller.breaker = Caller.report client.caller.breaker out.finish (s.result k)
  cached : (s.result k).isOk = false → final.caller.AddsNothing client.caller

section Played

variable {ask : Ask} {s : Retry.Script Json} {k : Nat} {out : Session.Step} {final : Client}

/-- When each attempt began and ended. -/
theorem Played.attempt (h : Played w client ask s k out final) {i : Nat} (hi : i < k) :
    (attemptsOf w final)[i]? = some ⟨next w, i + 1, w.now + s.wakes client.caller.policy i,
      some (w.now + s.ends client.caller.policy (i + 1))⟩ := by
  rw [h.attempts, List.getElem?_map, List.getElem?_range hi]
  rfl

/-- If any request reaches the host, each attempt is one. -/
theorem Played.arrivals (h : Played w client ask s k out final) (hsent : out.arrivals ≠ []) :
    out.arrivals = List.replicate k ask.request := by
  have hrequests := h.sent
  unfold requests at hrequests
  split at hrequests
  · exact hrequests
  · exact absurd hrequests hsent

end Played

theorem requests_reverse (t : Traffic) (ask : Ask) (n : Nat) :
    (requests t ask n).reverse = requests t ask n := by
  unfold requests
  split
  · exact List.reverse_replicate ..
  · rfl

/-- The answer to the lookup when its call has ended. -/
theorem Aside.answer_eq {ask : Ask} (h : Aside w client ask x) {s : Caller Json}
    (hcaller : x.state.traffic.gateway.client? client.name = some (client.withCaller s))
    {r : Except Failure Json} {instant : Nat} (hended : s.ending? (next w) = some (r, instant)) :
    x.state.answer (next w) = .result r := by
  have hown : (client.withCaller s).caller.ending? (next w) = some (r, instant) := hended
  unfold Session.answer
  rw [h.answer]
  simp only [hcaller, Option.bind_some, hown]

/-- The lookup has ended as its script says. `out` is what the step gives, with the world after
it. -/
theorem Over.played {ask : Ask} {k : Nat} {out : Session.Step × World}
    (hs : Retry.Timetable (script w.state.traffic client ask) client.caller.policy none k)
    (hnew : Unheard w client) (haside : Aside w client ask out.2) {s : Caller Json}
    {r : Except Failure Json} {finish : Nat} {log : List (Retry.Entry Json)}
    (h : Over w client ask k out.2 s r finish log)
    (hout : ∀ {sent : List Http.Request},
      out.2.state.traffic.arrivals = sent ++ w.state.traffic.arrivals →
      out.1 = ⟨[out.2.state.answer (next w)], sent.reverse, out.2.now⟩) :
    Played w client ask (script w.state.traffic client ask) k out.1 (client.withCaller s) := by
  obtain ⟨hlanded, hfinal, ⟨hcaller, hrecord, hsent⟩, hnow, -⟩ := h
  cases hfinal with
  | cut _ _ hf => cases hf
  | settled ht =>
    have hanswer := haside.answer_eq hcaller hlanded.ended
    have hstep := hout hsent
    rw [requests_reverse, Retry.Script.begunIn_logUpTo _ _ hs.last.pos] at hstep
    rw [hstep]
    refine ⟨rfl, ?_, ?_, ?_, ?_, hlanded.cached⟩
    · rw [attemptsOf, show (client.withCaller s).caller.flights.store.record = _ from hrecord,
        Retry.trialsOf_later w.now (fun e he => Retry.Script.call_of_mem_logUpTo he) hnew,
        Retry.trials_logUpTo _ hs.last.pos hs.room, List.map_map]
      rfl
    · rw [hanswer]
    · rw [hnow]
    · rw [hnow]
      exact hlanded.breaker

end Gateway

end RegistryLookup
