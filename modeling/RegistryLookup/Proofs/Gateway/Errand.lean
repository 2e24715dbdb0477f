import RegistryLookup.Proofs.Caller.Solo
import RegistryLookup.Proofs.Gateway.Requests
import RegistryLookup.Proofs.Gateway.Schedule
import RegistryLookup.Proofs.Http.RetryAfter
import RegistryLookup.Proofs.Retry.Later
import RegistryLookup.Proofs.Retry.Run

/-!
# A lookup that has the gateway to itself

Where a lookup is the only operation of a step and nothing else is under way, its requests are the
only ones, so what the network answers is a script that can be read off beforehand (`script`). The
lookup keeps to the timeline of that script from its first turn to its end (`Errand`).

* `Errand.turn`, `Errand.pass`: turns of tasks and the passing of time keep to the timeline.
* `Errand.ready_settle`, `Errand.exists_timer`: ready tasks come to rest, and something is due then.
* `errand_over`: the step is over when the last attempt has ended.
-/

namespace RegistryLookup.Gateway

open Retry (AgreeBeyond Final Loop Script Stage Timetable)

/-- What a lookup of a client asks. -/
def askOf (client : Client) (what : Lookup) (url : Url) : Ask := ⟨client.request url, what.subject⟩

/-- What comes of attempts for an ask, one after another, if nobody else sends requests. -/
def script (t : Traffic) (client : Client) (ask : Ask) : Script Json where
  takes i := ((t.network.fetch client.patience ask.request ask.subject
    (t.arrivals.length + (i - 1))).takes).getD 0
  result i := (t.network.fetch client.patience ask.request ask.subject
    (t.arrivals.length + (i - 1))).result

/-- The requests that reach a host when so many attempts are made. -/
def requests (t : Traffic) (ask : Ask) (n : Nat) : List Http.Request :=
  if t.network.carries ask.request.url then List.replicate n ask.request else []

theorem requests_add (t : Traffic) (ask : Ask) (m n : Nat) :
    requests t ask (m + n) = requests t ask m ++ requests t ask n := by
  unfold requests
  split
  · exact List.replicate_add m n _
  · rfl

variable {t t' : Traffic} {client : Client} {ask : Ask}

/-- **The attempts that are still to be made come to what the script says.** -/
theorem agreeBeyond_script {caller : Caller Json} {k : Nat} {loop : Loop Json}
    (hnetwork : t'.network = t.network)
    (harrivals : t'.arrivals = requests t ask loop.tries.toNat ++ t.arrivals)
    (hbegun : (client.withCaller caller).attemptsBegun k = loop.tries.toNat) :
    AgreeBeyond loop (script t client ask).answers
      (t'.replies (client.withCaller caller) k ask) := by
  intro n hn
  have hfetch : t'.replies (client.withCaller caller) k ask n =
      t.network.fetch client.patience ask.request ask.subject
        (t.arrivals.length + (n.toNat - 1)) := by
    unfold Traffic.replies
    rw [hnetwork, hbegun, harrivals]
    cases hcarries : t.network.carries ask.request.url with
    | false => exact Http.Network.fetch_of_not_carries hcarries _ _ _ _
    | true =>
      have hnumber : (requests t ask loop.tries.toNat ++ t.arrivals).length +
          (n.toNat - 1 - loop.tries.toNat) = t.arrivals.length + (n.toNat - 1) := by
        unfold requests
        rw [if_pos hcarries, List.length_append, List.length_replicate]
        omega
      rw [hnumber]
      rfl
  obtain ⟨d, htakes, -⟩ := t.network.fetch_takes client.patience ask.request ask.subject
    (t.arrivals.length + (n.toNat - 1))
  rw [hfetch]
  unfold Script.answers script
  simp only [htakes, Option.getD_some]
  rw [← htakes]

/-- The number of the operation that is asked for next. -/
abbrev next (w : World) : Nat := w.state.operations.length

/-- The task of the only lookup. -/
abbrev errandTask (w : World) (client : Client) : Session.Task :=
  .client client.name (.call (next w))

/-- The clients while a lookup of one of them is the only operation. `w` is the world in which it is
asked for. -/
structure Secluded (w : World) (client : Client) (ask : Ask) (t : Traffic) : Prop where
  alike : w.state.traffic.Alike t
  names : t.gateway.names.Nodup
  others : ∀ name c, name ≠ client.name → t.gateway.client? name = some c →
    c.caller.isDone = true
  asks : t.asks.get? (next w) = some ask
  plans : (t.plans.get? (next w)).getD {} = {}

/-- Nothing but the task of the lookup and background work is ready. -/
structure Aside (w : World) (client : Client) (ask : Ask) (x : World) : Prop where
  secluded : Secluded w client ask x.state.traffic
  unrested : ∀ p ∈ x.state.answers, ∀ wakesAt, p.2 ≠ .resting wakesAt
  answer : x.state.answers.get? (next w) = some (.asking client.name)
  nodup : x.ready.Nodup
  ready : ∀ task ∈ x.ready, task = errandTask w client ∨
    ∃ name chore, task = .client name (.chore chore)

/-- The record and the requests at a point of the timeline. -/
structure Shows (w : World) (client : Client) (ask : Ask) (x : World) (s : Caller Json)
    (log : List (Retry.Entry Json)) : Prop where
  caller : x.state.traffic.gateway.client? client.name = some (client.withCaller s)
  record : s.flights.store.record =
    log.map (Retry.Entry.later (next w) w.now) ++ client.caller.flights.store.record
  arrivals : x.state.traffic.arrivals =
    requests w.state.traffic ask (Retry.begunIn log) ++ w.state.traffic.arrivals

/-- The loop of the lookup is on its timeline. Its task is ready when it is due. -/
structure Flying (w : World) (client : Client) (what : Lookup) (ask : Ask) (K : Nat) (x : World)
    (s : Caller Json) (l : Loop Json) (since due elapsed : Nat) (log : List (Retry.Entry Json)) :
    Prop where
  trying : Caller.Trying client.caller s (next w) what.key (client.ttl what) (l.later w.now)
  stage : Stage (script w.state.traffic client ask) client.caller.policy none K l since due log
  shows : Shows w client ask x s log
  now : x.now = w.now + elapsed
  begun : since ≤ elapsed
  ahead : elapsed ≤ due
  woken : elapsed = due → errandTask w client ∈ x.ready

/-- The lookup has ended as its timeline says. -/
structure Over (w : World) (client : Client) (ask : Ask) (K : Nat) (x : World) (s : Caller Json)
    (r : Except Failure Json) (finish : Nat) (log : List (Retry.Entry Json)) : Prop where
  landed : Caller.Landed client.caller s (next w) r (w.now + finish)
  final : Final (script w.state.traffic client ask) client.caller.policy none K r finish log
  shows : Shows w client ask x s log
  now : x.now = w.now + finish
  still : errandTask w client ∉ x.ready

/-- A closed client has turned the lookup away. -/
structure Away (w : World) (client : Client) (x : World) (s : Caller Json) : Prop where
  caller : x.state.traffic.gateway.client? client.name = some (client.withCaller s)
  done : s.isDone = true
  arrivals : x.state.traffic.arrivals = w.state.traffic.arrivals
  closed : client.caller.permits.closed = true
  still : errandTask w client ∉ x.ready

/-- The lookup keeps to its timeline. -/
inductive Keeps (w : World) (client : Client) (what : Lookup) (ask : Ask) (K : Nat) (x : World) :
    Prop
  | flying {s : Caller Json} {l : Loop Json} {since due elapsed : Nat}
      {log : List (Retry.Entry Json)} (h : Flying w client what ask K x s l since due elapsed log)
  | ended {s : Caller Json} {r : Except Failure Json} {finish : Nat}
      {log : List (Retry.Entry Json)} (h : Over w client ask K x s r finish log)
  | away {s : Caller Json} (h : Away w client x s)

/-- A world on the timeline of the only lookup, which is asked for in `w`. -/
inductive Errand (w : World) (client : Client) (what : Lookup) (ask : Ask) (K : Nat) (x : World) :
    Prop
  | begins (h : x = asked w [.lookup client.name what false none])
  | under (haside : Aside w client ask x) (h : Keeps w client what ask K x)

variable {w x : World} {what : Lookup} {K : Nat}

/-- Whether a task is background work. -/
def isChore : Session.Task → Bool
  | .client _ (.chore _) => true
  | _ => false

/-- The weight of what is ready: background work weighs half as much as other tasks. -/
def load (ready : List Session.Task) : Nat :=
  ready.length + ready.countP (fun task => !isChore task)

theorem load_append (xs ys : List Session.Task) : load (xs ++ ys) = load xs + load ys := by
  unfold load
  rw [List.length_append, List.countP_append]
  omega

theorem load_mono {xs ys : List Session.Task} (h : xs.Sublist ys) : load xs ≤ load ys :=
  Nat.add_le_add h.length_le h.countP_le

/-- Background work that is woken weighs one each. -/
theorem load_wake_le (x : World) {tasks : List Session.Task}
    (h : ∀ task ∈ tasks, isChore task = true) :
    load (x.wake tasks).ready ≤ load x.ready + tasks.length := by
  have hchores : load tasks = tasks.length := by
    unfold load
    rw [List.countP_eq_zero.2 fun task hmem => by simp [h task hmem], Nat.add_zero]
  obtain ⟨added, hready, hadded⟩ := Clock.World.ready_wake x tasks
  rw [hready, load_append, ← hchores]
  exact Nat.add_le_add_left (load_mono hadded) _

theorem length_called_le_one {before after : Cache Json} :
    (Tended.called before after).length ≤ 1 := by
  unfold Tended.called
  split
  · exact Nat.le_refl 1
  · exact Nat.zero_le 1

/-- Turns of the lookup, and background work of any client. -/
theorem Secluded.run (h : Secluded w client ask t) (now : Nat) {name : String}
    {task : Caller.Task} (htask : name ≠ client.name → ∃ chore, task = .chore chore) :
    Secluded w client ask (t.run now name task).1 where
  alike := h.alike.trans (run_alike t name now task)
  names := by
    rw [(run_alike t name now task).names]
    exact h.names
  others := by
    intro other c hother hc
    by_cases hname : other = name
    · subst hname
      obtain ⟨chore, rfl⟩ := htask hother
      cases hd : t.gateway.client? other with
      | none =>
        unfold Traffic.run at hc
        simp only [hd] at hc
        cases hc
      | some d =>
        have hname : ∀ caller, (d.withCaller caller).name = other := fun _ =>
          (client?_name hd : d.name = other)
        rw [(run_spec hd now (.chore chore)).1, client?_modify_const hd (hname _)] at hc
        cases hc
        exact h.others other d hother hd
    · rw [client?_run_of_ne hname] at hc
      exact h.others other c hother hc
  asks := by
    rw [Traffic.run_asks]
    exact h.asks
  plans := by
    unfold Traffic.run
    split <;> exact h.plans

/-- A turn has been taken that wakes background work only. -/
structure Turned (w : World) (client : Client) (ask : Ask) (x : World) (name : String)
    (task : Caller.Task) (y : World) : Prop where
  aside : Aside w client ask y
  traffic : y.state.traffic = (x.state.traffic.run x.now name task).1
  now : y.now = x.now
  ready : ∀ u, u ∈ y.ready ↔ (u ∈ x.ready ∧ u ≠ .client name task) ∨
    u ∈ (x.state.traffic.run x.now name task).2.map (Session.Task.client name)
  load : load y.ready + load [Session.Task.client name task] ≤
    load x.ready + (x.state.traffic.run x.now name task).2.length

theorem Aside.turn (h : Aside w client ask x) {name : String} {task : Caller.Task}
    {rest : List Session.Task} (hready : x.ready = .client name task :: rest)
    (htask : name ≠ client.name → ∃ chore, task = .chore chore)
    (hwoken : ∀ u ∈ (x.state.traffic.run x.now name task).2, ∃ chore, u = .chore chore) :
    Turned w client ask x name task (x.turn Session.system) := by
  have hturn : x.turn Session.system = Clock.World.wake
      ⟨x.now, (Session.system.run x.now (.client name task) x.state).1,
        x.ready.filter (· ≠ .client name task)⟩
      (Session.system.run x.now (.client name task) x.state).2 :=
    Clock.World.turn_of_ready h.nodup hready
  have hmem : ∀ u, u ∈ (x.turn Session.system).ready ↔ (u ∈ x.ready ∧ u ≠ .client name task) ∨
      u ∈ (x.state.traffic.run x.now name task).2.map (.client name) := by
    intro u
    rw [hturn, Clock.World.mem_wake, List.mem_filter, decide_eq_true_iff]
    rfl
  refine ⟨⟨?_, ?_, ?_, ?_, fun u hu => ?_⟩, by rw [hturn]; rfl, by rw [hturn]; rfl, hmem, ?_⟩
  · rw [hturn]
    exact h.secluded.run x.now htask
  · rw [hturn]
    exact h.unrested
  · rw [hturn]
    exact h.answer
  · rw [hturn]
    exact Clock.World.nodup_wake (h.nodup.filter _) _
  · rcases (hmem u).1 hu with ⟨hold, -⟩ | hnew
    · exact h.ready u hold
    · obtain ⟨v, hv, rfl⟩ := List.mem_map.1 hnew
      obtain ⟨chore, rfl⟩ := hwoken v hv
      exact Or.inr ⟨name, chore, rfl⟩
  · have hchores : ∀ u ∈ (x.state.traffic.run x.now name task).2.map (.client name),
        isChore u = true := by
      intro u hu
      obtain ⟨v, hv, rfl⟩ := List.mem_map.1 hu
      obtain ⟨chore, rfl⟩ := hwoken v hv
      rfl
    have hrest : load (x.ready.filter (· ≠ .client name task)) ≤ load rest := by
      rw [hready, List.filter_cons_of_neg (by simp)]
      exact load_mono List.filter_sublist
    have hsum : load x.ready = load [.client name task] + load rest := by
      rw [hready, ← load_append, List.singleton_append]
    have hadded := load_wake_le { x with
      state := (Session.system.run x.now (.client name task) x.state).1
      ready := x.ready.filter (· ≠ .client name task) } hchores
    rw [List.length_map] at hadded
    have hsame : load (x.turn Session.system).ready ≤
        load (x.ready.filter (· ≠ .client name task)) +
          (x.state.traffic.run x.now name task).2.length := by
      rw [hturn]
      exact hadded
    omega

/-- The lookup is new: it has made no attempt. -/
def Unheard (w : World) (client : Client) : Prop :=
  ∀ e ∈ client.caller.flights.store.record, e.call ≠ next w

theorem attemptsBegun_of_record (hnew : Unheard w client) {s : Caller Json}
    (log : List (Retry.Entry Json)) (hrecord : s.flights.store.record =
      log.map (Retry.Entry.later (next w) w.now) ++ client.caller.flights.store.record) :
    (client.withCaller s).attemptsBegun (next w) = Retry.begunIn log := by
  have hold : client.attemptsBegun (next w) = 0 := by
    refine List.countP_eq_zero.2 fun e he => ?_
    have hne := hnew e he
    split <;> simp [hne]
  have hsplit : (client.withCaller s).attemptsBegun (next w) =
      Retry.begunIn log + client.attemptsBegun (next w) := by
    unfold Client.attemptsBegun Retry.begunIn
    rw [show (client.withCaller s).caller = s from rfl, hrecord, List.countP_append,
      List.countP_map]
    congr 2
    funext e
    cases hn : e.notice <;> simp [Retry.Entry.later, Retry.Notice.isBegan, hn]
  rw [hsplit, hold, Nat.add_zero]

/-- A turn of the loop leaves the lookup on its timeline. -/
theorem Errand.of_follows
    (hs : Timetable (script w.state.traffic client ask) client.caller.policy none K)
    (hnew : Unheard w client) (haside : Aside w client ask x) {s : Caller Json} {l : Loop Json}
    {since due elapsed : Nat} {log : List (Retry.Entry Json)}
    (hstage : Stage (script w.state.traffic client ask) client.caller.policy none K l since due log)
    (hbegun : since ≤ elapsed) (hahead : elapsed ≤ due) (hnow : x.now = w.now + elapsed)
    {answers : Caller.Answers Json}
    (hagree : AgreeBeyond l (script w.state.traffic client ask).answers answers)
    (hfollows : Caller.Follows client.caller s (next w) what.key (client.ttl what)
      (w.now + elapsed) (log.map (Retry.Entry.later (next w) w.now) ++
        client.caller.flights.store.record)
      ((l.later w.now).turn client.caller.policy answers (w.now + elapsed) false))
    (hcaller : x.state.traffic.gateway.client? client.name = some (client.withCaller s))
    (harrivals : x.state.traffic.arrivals = requests w.state.traffic ask
      ((client.withCaller s).attemptsBegun (next w) - Retry.begunIn log) ++
        (requests w.state.traffic ask (Retry.begunIn log) ++ w.state.traffic.arrivals))
    (hstill : errandTask w client ∉ x.ready) : Errand w client what ask K x := by
  rw [Loop.turn_later (hstage.within hs.room) hagree] at hfollows
  obtain ⟨hrecord, hwent⟩ := hfollows
  -- there is no token
  have htold : Retry.Told none elapsed false :=
    ⟨fun hfired => (by cases hfired), fun _ f hf => by cases hf⟩
  obtain ⟨hturned, hwaits⟩ := hstage.turn hs htold hbegun hahead
    (fun _ _ hfired => by cases hfired)
  simp only [Retry.Turn.later, Retry.enter_later] at hrecord hwent
  -- the requests that are sent in the turn are those of the attempts that begin in it
  have hshows : Shows w client ask x s (Retry.enter 0 elapsed
      (l.turn client.caller.policy (script w.state.traffic client ask).answers elapsed
        false).notices log) := by
    refine ⟨hcaller, hrecord, ?_⟩
    rw [harrivals, attemptsBegun_of_record hnew _ hrecord, ← List.append_assoc, ← requests_add,
      Retry.begunIn_enter, Nat.add_sub_cancel]
  cases hrest : (l.turn client.caller.policy (script w.state.traffic client ask).answers elapsed
      false).rest with
  | inl l' =>
    rw [hrest] at hturned hwent
    cases hwent with
    | tries htrying =>
      cases hturned with
      | on hstage' hsince' hdue' =>
        refine .under haside (.flying ⟨htrying, hstage', hshows, hnow, hsince', hdue',
          fun heq => ?_⟩)
        exact absurd heq (Nat.ne_of_lt (hstage'.lt_of_waits (hwaits l' hrest)).1)
  | inr r =>
    rw [hrest] at hturned hwent
    cases hwent with
    | lands hlanded =>
      cases hturned with
      | ended hfinal => exact .under haside (.ended ⟨hlanded, hfinal, hshows, hnow, hstill⟩)

/-- Background work sends nothing and wakes nobody, and it changes the cache of one client only. -/
theorem run_chore {s : Caller Json}
    (hcaller : t.gateway.client? client.name = some (client.withCaller s)) (now : Nat)
    (name : String) (chore : Tended.Chore) :
    (∃ s', (s' = s ∨ s' = s.perform now false chore) ∧
      (t.run now name (.chore chore)).1.gateway.client? client.name =
        some (client.withCaller s')) ∧
      (t.run now name (.chore chore)).1.arrivals = t.arrivals ∧
      (t.run now name (.chore chore)).2 = [] := by
  refine ⟨?_, ?_, ?_⟩
  · by_cases hname : name = client.name
    · subst hname
      refine ⟨s.perform now false chore, Or.inr rfl, ?_⟩
      rw [(run_spec hcaller now (.chore chore)).1]
      exact client?_modify_const hcaller rfl
    · refine ⟨s, Or.inl rfl, ?_⟩
      rw [client?_run_of_ne (Ne.symm hname)]
      exact hcaller
  · unfold Traffic.run
    split <;> rfl
  · unfold Traffic.run
    split <;> rfl

theorem Keeps.caller (h : Keeps w client what ask K x) : ∃ s : Caller Json,
    x.state.traffic.gateway.client? client.name = some (client.withCaller s) := by
  cases h with
  | flying h => exact ⟨_, h.shows.caller⟩
  | ended h => exact ⟨_, h.shows.caller⟩
  | away h => exact ⟨_, h.caller⟩

/-- Background work leaves the lookup where it is. -/
theorem Errand.chore {name : String} {chore : Tended.Chore} {rest : List Session.Task}
    (haside : Aside w client ask x) (hready : x.ready = .client name (.chore chore) :: rest)
    (h : Keeps w client what ask K x) :
    Errand w client what ask K (x.turn Session.system) ∧
      load (x.turn Session.system).ready < load x.ready := by
  obtain ⟨s₀, hcaller₀⟩ := h.caller
  obtain ⟨⟨s', hs', hcaller'⟩, harrivals, hwoken⟩ := run_chore hcaller₀ x.now name chore
  have hturned := haside.turn hready (fun _ => ⟨chore, rfl⟩)
    (fun u hu => by rw [hwoken] at hu; cases hu)
  have hsame : errandTask w client ∈ (x.turn Session.system).ready ↔
      errandTask w client ∈ x.ready := by
    rw [hturned.ready, hwoken, List.map_nil, or_iff_left List.not_mem_nil]
    exact and_iff_left fun heq => by cases heq
  have hnow := hturned.now
  have hload := hturned.load
  rw [← hturned.traffic] at hcaller' harrivals
  rw [hwoken] at hload
  refine ⟨.under hturned.aside ?_, hload⟩
  have hrecord : s'.flights.store.record = s₀.flights.store.record := by
    rcases hs' with rfl | rfl <;> rfl
  cases h with
  | @flying s l since due elapsed log h =>
    obtain ⟨hcaller, hshown, hsent⟩ := h.shows
    rw [hcaller] at hcaller₀
    cases hcaller₀
    have htrying : Caller.Trying client.caller s' (next w) what.key (client.ttl what)
        (l.later w.now) := by
      rcases hs' with rfl | rfl
      · exact h.trying
      · exact h.trying.perform x.now false chore
    exact .flying ⟨htrying, h.stage, ⟨hcaller', hrecord.trans hshown, harrivals.trans hsent⟩,
      hnow.trans h.now, h.begun, h.ahead, fun heq => hsame.2 (h.woken heq)⟩
  | @ended s r finish log h =>
    obtain ⟨hcaller, hshown, hsent⟩ := h.shows
    rw [hcaller] at hcaller₀
    cases hcaller₀
    have hlanded : Caller.Landed client.caller s' (next w) r (w.now + finish) := by
      rcases hs' with rfl | rfl
      · exact h.landed
      · exact h.landed.perform x.now false chore
    exact .ended ⟨hlanded, h.final, ⟨hcaller', hrecord.trans hshown, harrivals.trans hsent⟩,
      hnow.trans h.now, fun hmem => h.still (hsame.1 hmem)⟩
  | @away s h =>
    rw [h.caller] at hcaller₀
    cases hcaller₀
    have hdone : s'.isDone = true := by
      rcases hs' with rfl | rfl
      · exact h.done
      · exact h.done
    exact .away ⟨hcaller', hdone, harrivals.trans h.arrivals, h.closed,
      fun hmem => h.still (hsame.1 hmem)⟩

/-- What a turn of the lookup makes of the gateway, if it wakes background work only. -/
theorem run_call {s s' : Caller Json} {k : Nat}
    (hcaller : t.gateway.client? client.name = some (client.withCaller s))
    (hask : t.asks.get? k = some ask) (now : Nat)
    (hturn : s.turn (t.replies (client.withCaller s) k ask) now k = s') (hsolo : s'.Solo k) :
    (t.run now client.name (.call k)).1.gateway.client? client.name = some (client.withCaller s') ∧
      (t.run now client.name (.call k)).1.arrivals = requests t ask
        ((client.withCaller s').attemptsBegun k - (client.withCaller s).attemptsBegun k) ++
          t.arrivals ∧
      (t.run now client.name (.call k)).2 = (Tended.called s.cache s'.cache).map .chore := by
  obtain ⟨hgateway, -, hwoken⟩ := run_spec hcaller now (.call k)
  have hrun : (client.withCaller s).caller.run (t.answersFor (client.withCaller s)) now (.call k) =
      (s', Caller.woken s s' k) := by
    rw [← hturn, ← Traffic.answersFor_eq hask]
    rfl
  rw [hrun] at hgateway hwoken
  have hafter : (t.run now client.name (.call k)).1.gateway.client? client.name =
      some (client.withCaller s') := by
    rw [hgateway]
    exact client?_modify_const hcaller rfl
  exact ⟨hafter, arrivals_run hcaller hask now hafter, hwoken.trans hsolo.woken_eq⟩

/-- The turn of the lookup. -/
theorem Errand.call
    (hs : Timetable (script w.state.traffic client ask) client.caller.policy none K)
    (hnew : Unheard w client) (haside : Aside w client ask x) {s : Caller Json} {l : Loop Json}
    {since due elapsed : Nat} {log : List (Retry.Entry Json)}
    (h : Flying w client what ask K x s l since due elapsed log) {rest : List Session.Task}
    (hready : x.ready = errandTask w client :: rest) :
    Errand w client what ask K (x.turn Session.system) ∧
      load (x.turn Session.system).ready < load x.ready := by
  have hbegun : (client.withCaller s).attemptsBegun (next w) = Retry.begunIn log :=
    attemptsBegun_of_record hnew log h.shows.record
  have htries : Retry.begunIn log = l.tries.toNat := h.stage.begun hs.room
  have hfollows := h.trying.turn
    (x.state.traffic.replies (client.withCaller s) (next w) ask) x.now
  obtain ⟨hcaller, harrivals, hwoken⟩ := run_call h.shows.caller haside.secluded.asks x.now rfl
    hfollows.went.solo
  have hturned := haside.turn hready (fun hne => absurd rfl hne) (fun u hu => by
    rw [hwoken] at hu
    obtain ⟨chore, -, rfl⟩ := List.mem_map.1 hu
    exact ⟨chore, rfl⟩)
  have htraffic := hturned.traffic
  have hmem := hturned.ready
  have hlower : load (x.turn Session.system).ready < load x.ready := by
    have hload := hturned.load
    have hone : (x.state.traffic.run x.now client.name (.call (next w))).2.length ≤ 1 := by
      rw [hwoken, List.length_map]
      exact length_called_le_one
    have htwo : load [.client client.name (.call (next w))] = 2 := rfl
    omega
  rw [h.trying.policy, h.shows.record, h.now] at hfollows
  rw [h.now] at hcaller harrivals hwoken htraffic hmem
  refine ⟨?_, hlower⟩
  refine .of_follows hs hnew hturned.aside h.stage h.begun h.ahead (hturned.now.trans h.now)
    (agreeBeyond_script haside.secluded.alike.network ?_ (hbegun.trans htries)) hfollows
    (by rw [htraffic]; exact hcaller) ?_ ?_
  · rw [← htries]
    exact h.shows.arrivals
  · rw [htraffic, harrivals, hbegun, h.shows.arrivals]
    unfold requests
    rw [haside.secluded.alike.network]
  · rw [hmem, hwoken]
    rintro (⟨-, hne⟩ | hin)
    · exact hne rfl
    · obtain ⟨u, hu, heq⟩ := List.mem_map.1 hin
      obtain ⟨chore, -, rfl⟩ := List.mem_map.1 hu
      cases heq

/-- Nothing is under way, and nothing is in the way of a lookup of a client. -/
structure Clear (w : World) (client : Client) (what : Lookup) : Prop where
  names : w.state.traffic.gateway.names.Nodup
  quiet : w.ready = []
  others : ∀ name c, name ≠ client.name → w.state.traffic.gateway.client? name = some c →
    c.caller.isDone = true
  unrested : ∀ p ∈ w.state.answers, ∀ wakesAt, p.2 ≠ .resting wakesAt
  caller : w.state.traffic.gateway.client? client.name = some client
  vacant : Caller.Vacant client.caller (next w) what.key w.now
  unheard : Unheard w client
  unanswered : w.state.answers.get? (next w) = none
  unasked : w.state.operations.get? (next w) = none

variable {url : Url}

/-- The gateway when the lookup has become a call. -/
theorem secluded_boarding (h : Clear w client what) :
    Secluded w client (askOf client what url)
      (boarding w.state.traffic client w.now (next w) what url false none) where
  alike := ⟨names_modify fun _ hd => hd, rfl⟩
  names := by
    rw [show (boarding w.state.traffic client w.now (next w) what url false none).gateway.names =
      w.state.traffic.gateway.names from names_modify fun _ hd => hd]
    exact h.names
  others := by
    intro name c hname hc
    refine h.others name c hname ?_
    have hsame : (boarding w.state.traffic client w.now (next w) what url false
        none).gateway.client? name = w.state.traffic.gateway.client? name :=
      client?_modify_of_ne (fun _ hd => hd) hname
    rw [← hsame]
    exact hc
  asks := Table.get?_put_self _ _ _
  plans := by
    have hself : (boarding w.state.traffic client w.now (next w) what url false none).plans.get?
        (next w) = some {} := Table.get?_put_self _ _ _
    rw [hself]
    rfl

theorem asked_lookup (hquiet : w.ready = []) :
    asked w [.lookup client.name what false none] =
      { w with
        state := { w.state with operations :=
          w.state.operations ++ [(next w, .lookup client.name what false none)] }
        ready := [.operation (next w)] } := by
  unfold asked Clock.World.wake
  rw [hquiet]
  simp

/-- When the lookup has become a call and had its turn, nothing but background work is ready. -/
theorem Aside.of_boarding (h : Clear w client what) {t : Traffic}
    (ht : t = boarding w.state.traffic client w.now (next w) what url false none)
    {operations : Table Nat Operation}
    (hx : x = Clock.World.wake
      ⟨w.now, ⟨(t.run w.now client.name (.call (next w))).1, operations,
        w.state.answers.put (next w) (.asking client.name)⟩, []⟩
      ((t.run w.now client.name (.call (next w))).2.map (.client client.name)))
    {before after : Cache Json} (hwoken : (t.run w.now client.name (.call (next w))).2 =
      (Tended.called before after).map .chore) :
    Aside w client (askOf client what url) x ∧ errandTask w client ∉ x.ready ∧
      load x.ready ≤ 1 := by
  have hmem : ∀ u ∈ x.ready, ∃ chore, u = .client client.name (.chore chore) := by
    intro u hu
    rw [hx, Clock.World.mem_wake, hwoken] at hu
    obtain ⟨v, hv, rfl⟩ := List.mem_map.1 (hu.resolve_left List.not_mem_nil)
    obtain ⟨chore, -, rfl⟩ := List.mem_map.1 hv
    exact ⟨chore, rfl⟩
  refine ⟨⟨?_, ?_, ?_, ?_, fun u hu => Or.inr ⟨client.name, hmem u hu⟩⟩, fun hin => ?_, ?_⟩
  · have hsecluded : Secluded w client (askOf client what url) t := by
      rw [ht]
      exact secluded_boarding h
    rw [hx]
    exact hsecluded.run w.now fun hne => absurd rfl hne
  · rw [hx]
    intro p hp wakesAt
    rcases Table.mem_put hp with rfl | hold
    · exact fun heq => by cases heq
    · exact h.unrested p hold wakesAt
  · rw [hx]
    exact Table.get?_put_self _ _ _
  · rw [hx]
    exact Clock.World.nodup_wake List.nodup_nil _
  · obtain ⟨chore, heq⟩ := hmem _ hin
    cases heq
  · have hchores : ∀ u ∈ (t.run w.now client.name (.call (next w))).2.map
        (Session.Task.client client.name), isChore u = true := by
      rw [hwoken]
      intro u hu
      obtain ⟨v, hv, rfl⟩ := List.mem_map.1 hu
      obtain ⟨chore, -, rfl⟩ := List.mem_map.1 hv
      rfl
    rw [hx]
    refine Nat.le_trans (load_wake_le _ hchores) ?_
    rw [hwoken, List.length_map, List.length_map]
    exact (Nat.zero_add _).trans_le length_called_le_one

/-- The first turn of the lookup when it has become a call. -/
theorem Errand.of_boarding
    (hs : Timetable (script w.state.traffic client (askOf client what url)) client.caller.policy
      none K)
    (h : Clear w client what) {t : Traffic}
    (ht : t = boarding w.state.traffic client w.now (next w) what url false none)
    (operations : Table Nat Operation)
    (hx : x = Clock.World.wake
      ⟨w.now, ⟨(t.run w.now client.name (.call (next w))).1, operations,
        w.state.answers.put (next w) (.asking client.name)⟩, []⟩
      ((t.run w.now client.name (.call (next w))).2.map (.client client.name))) :
    Errand w client what (askOf client what url) K x ∧ load x.ready ≤ 1 := by
  have hask : t.asks.get? (next w) = some (askOf client what url) := by
    rw [ht]
    exact (secluded_boarding h).asks
  have hcaller : t.gateway.client? client.name = some (client.withCaller
      (client.caller.start (next w) what.key (client.ttl what) false)) := by
    rw [ht]
    exact client?_boarding h.caller
  have hboarded : t.arrivals = w.state.traffic.arrivals := by
    rw [ht]
    rfl
  have hnetwork : t.network = w.state.traffic.network := by
    rw [ht]
    rfl
  have hbegun : (client.withCaller (client.caller.start (next w) what.key (client.ttl what)
      false)).attemptsBegun (next w) = 0 :=
    attemptsBegun_of_record h.unheard [] rfl
  have hnone : ∀ u : Traffic, requests u (askOf client what url) 0 = [] := by
    intro u
    unfold requests
    split <;> rfl
  have hsent : x.state.traffic = (t.run w.now client.name (.call (next w))).1 := by
    rw [hx]
    rfl
  cases hclosed : client.caller.permits.closed with
  | true =>
    have hturn := Caller.turnedAway_of_closed hclosed (t.replies (client.withCaller
      (client.caller.start (next w) what.key (client.ttl what) false)) (next w)
      (askOf client what url)) w.now (next w) what.key (client.ttl what)
    have hsolo := h.vacant.solo.away what.key (client.ttl what)
      (.error (Caller.closedFailure client.caller.name)) w.now
    obtain ⟨hafter, harrivals, hwoken⟩ := run_call hcaller hask w.now hturn hsolo
    obtain ⟨haside, hstill, hload⟩ := Aside.of_boarding h ht hx hwoken
    refine ⟨.under haside (.away ⟨by rw [hsent]; exact hafter, ?_, ?_, hclosed, hstill⟩), hload⟩
    · exact hsolo.isDone_eq (Table.get?_put_self _ _ _) rfl
    · have hnow : (client.withCaller ((client.caller.start (next w) what.key (client.ttl what)
          false).become (next w) ⟨what.key, client.ttl what, .arriving false⟩
          (.ended (.error (Caller.closedFailure client.caller.name)) w.now))).attemptsBegun
            (next w) = 0 :=
        attemptsBegun_of_record h.unheard [] rfl
      rw [hsent, harrivals, hbegun, hnow, hnone, hboarded]
      rfl
  | false =>
    have hfollows := h.vacant.turn hclosed (t.replies (client.withCaller (client.caller.start
      (next w) what.key (client.ttl what) false)) (next w) (askOf client what url))
      (client.ttl what)
    obtain ⟨hafter, harrivals, hwoken⟩ := run_call hcaller hask w.now rfl hfollows.went.solo
    obtain ⟨haside, hstill, hload⟩ := Aside.of_boarding h ht hx hwoken
    have hstage : Stage (script w.state.traffic client (askOf client what url))
        client.caller.policy none K ⟨.ofNat 0, .ready⟩ 0 0 [] :=
      .ready hs.last.pos fun _ hf => by cases hf
    refine ⟨.of_follows hs h.unheard haside hstage (Nat.le_refl _) (Nat.zero_le _)
      (by rw [hx]; rfl) (agreeBeyond_script hnetwork ?_ hbegun) hfollows
      (by rw [hsent]; exact hafter) ?_ hstill, hload⟩
    · rw [hboarded]
      exact (congrArg (· ++ w.state.traffic.arrivals) (hnone w.state.traffic)).symm
    · have hsame : ∀ n, requests t (askOf client what url) n =
          requests w.state.traffic (askOf client what url) n := by
        intro n
        unfold requests
        rw [hnetwork]
      rw [hsent, harrivals, hbegun, hboarded, hsame, show Retry.begunIn [] = 0 from rfl, hnone,
        List.nil_append]

/-- **In its first turn the lookup comes onto its timeline.** -/
theorem Errand.first
    (hs : Timetable (script w.state.traffic client (askOf client what url)) client.caller.policy
      none K)
    (h : Clear w client what) (hurl : what.resolve client.registry = .ok url) :
    Errand w client what (askOf client what url) K
        ((asked w [.lookup client.name what false none]).turn Session.system) ∧
      load ((asked w [.lookup client.name what false none]).turn Session.system).ready ≤ 1 := by
  have hasked : asked w [.lookup client.name what false none] = _ := asked_lookup h.quiet
  generalize asked w [.lookup client.name what false none] = a at hasked
  have hready : a.ready = [.operation (next w)] := by rw [hasked]
  have htraffic : a.state.traffic = w.state.traffic := by rw [hasked]
  have hanswers : a.state.answers = w.state.answers := by rw [hasked]
  have hnow : a.now = w.now := by rw [hasked]
  have hop : a.state.operations.get? (next w) = some (.lookup client.name what false none) := by
    rw [hasked]
    exact (Table.get?_append_of_none _ h.unasked).trans (by simp [Table.get?_cons])
  have hturn : a.turn Session.system = runTask a (.operation (next w)) :=
    Clock.World.turn_of_ready (by rw [hready]; exact List.nodup_singleton _) hready
  rw [hturn]
  cases operation_turn a (next w) with
  | rests answers hno hrests hrun =>
    rw [hno (by rw [hanswers]; exact h.unanswered)] at hop
    cases hop
  | begins op hk hop' hrun =>
    rw [hop] at hop'
    cases hop'
    rw [hrun, Session.begin]
    rcases look_cases a.state a.now (next w) client.name what false none with ⟨e, -, herror⟩ |
      ⟨c, url', hc, hurl', hlook⟩
    · rw [herror client (by rw [htraffic]; exact h.caller)] at hurl
      cases hurl
    rw [htraffic, h.caller] at hc
    cases hc
    rw [hurl] at hurl'
    cases hurl'
    rw [hlook, htraffic, hnow, if_neg (by simp), List.append_nil]
    refine Errand.of_boarding hs h rfl a.state.operations ?_
    unfold afterBegin
    simp [hready, hanswers, hnow]

section Run

variable (hs : Timetable (script w.state.traffic client (askOf client what url))
    client.caller.policy none K)
  (hclear : Clear w client what) (hurl : what.resolve client.registry = .ok url)
include hs hclear hurl

/-- **Turns keep the lookup on its timeline**, and leave less to be done. -/
theorem Errand.turn (h : Errand w client what (askOf client what url) K x) :
    Errand w client what (askOf client what url) K (x.turn Session.system) ∧
      (x.ready ≠ [] → load (x.turn Session.system).ready < load x.ready) := by
  cases h with
  | begins hx =>
    have htwo : load x.ready = 2 := by
      rw [hx, asked_lookup hclear.quiet]
      rfl
    obtain ⟨hfirst, hload⟩ := Errand.first hs hclear hurl
    rw [← hx] at hfirst hload
    exact ⟨hfirst, fun _ => by omega⟩
  | under haside hkeeps =>
    cases hr : x.ready with
    | nil =>
      have hrest : x.turn Session.system = x := by
        unfold Clock.World.turn
        simp only [hr]
      rw [hrest]
      exact ⟨.under haside hkeeps, fun hne => absurd rfl hne⟩
    | cons task rest =>
      rw [← hr]
      have hmem : task ∈ x.ready := by
        rw [hr]
        exact List.mem_cons_self
      rcases haside.ready task hmem with rfl | ⟨name, chore, rfl⟩
      · cases hkeeps with
        | flying hflying =>
          obtain ⟨hnext, hlower⟩ := Errand.call hs hclear.unheard haside hflying hr
          exact ⟨hnext, fun _ => hlower⟩
        | ended hover => exact absurd hmem hover.still
        | away haway => exact absurd hmem haway.still
      · obtain ⟨hnext, hlower⟩ := Errand.chore haside hr hkeeps
        exact ⟨hnext, fun _ => hlower⟩

end Run

/-- The task of the lookup weighs one more than background work does. -/
theorem Aside.load_le (h : Aside w client ask x) : load x.ready ≤ x.ready.length + 1 := by
  have hcount : x.ready.countP (fun task => !isChore task) ≤
      x.ready.count (errandTask w client) := by
    refine List.countP_mono_left fun task hmem hno => ?_
    rcases h.ready task hmem with rfl | ⟨name, chore, rfl⟩
    · exact beq_self_eq_true _
    · cases hno
  have hone := List.nodup_iff_count_le_one.1 h.nodup (errandTask w client)
  unfold load
  omega

/-- The timers are those of the lookup and of background work. -/
theorem Aside.timers (h : Aside w client ask x) {s : Caller Json}
    (hcaller : x.state.traffic.gateway.client? client.name = some (client.withCaller s))
    (hsolo : s.Solo (next w)) {t : Nat} {task : Session.Task}
    (hmem : (t, task) ∈ Session.system.timers x.state) :
    task = errandTask w client ∨ ∃ name chore, task = .client name (.chore chore) := by
  cases task with
  | operation j =>
    -- no operation rests
    rcases List.mem_append.1 hmem with hrest | hclient
    · obtain ⟨⟨i, answer⟩, hin, hsome⟩ := List.mem_filterMap.1 hrest
      have hno := h.unrested _ hin
      cases answer with
      | resting wakesAt => exact absurd rfl (hno wakesAt)
      | _ => cases hsome
    · obtain ⟨p, -, heq⟩ := List.mem_map.1 hclient
      cases heq
  | client name task =>
    obtain ⟨c, hc, rfl, htimer⟩ := mem_timers_client.1 hmem
    have hsame := client?_of_mem h.secluded.names hc
    by_cases hname : c.name = client.name
    · rw [hname, hcaller] at hsame
      cases hsame
      rcases (Caller.mem_timers_of_solo hsolo h.secluded.plans).1 htimer with
        ⟨call, -, -, -, rfl⟩ | ⟨chore, -, rfl⟩
      · exact Or.inl rfl
      · exact Or.inr ⟨_, chore, rfl⟩
    · obtain ⟨chore, rfl⟩ := Caller.chore_of_isDone (h.secluded.others _ c hname hsame) htimer
      exact Or.inr ⟨_, chore, rfl⟩

/-- Nothing is under way when the call of the lookup is not. -/
theorem Aside.isDone_eq (h : Aside w client ask x) {s : Caller Json}
    (hcaller : x.state.traffic.gateway.client? client.name = some (client.withCaller s))
    (hover : s.isDone = true) : x.state.isDone = true := by
  have hrests : x.state.restTimers = [] := by
    refine List.filterMap_eq_nil_iff.2 fun p hp => ?_
    have hno := h.unrested p hp
    obtain ⟨i, answer⟩ := p
    cases answer with
    | resting wakesAt => exact absurd rfl (hno wakesAt)
    | _ => rfl
  have hclients : x.state.traffic.isDone = true := by
    refine List.all_eq_true.2 fun c hc => ?_
    have hsame := client?_of_mem h.secluded.names hc
    by_cases hname : c.name = client.name
    · rw [hname, hcaller] at hsame
      cases hsame
      exact hover
    · exact h.secluded.others _ c hname hsame
  unfold Session.isDone
  rw [hrests, hclients]
  rfl

/-- The lookup makes attempts, or nothing is under way. -/
theorem Keeps.flying_or_isDone (h : Keeps w client what ask K x) (haside : Aside w client ask x) :
    (∃ s l since due elapsed log, Flying w client what ask K x s l since due elapsed log) ∨
      x.state.isDone = true := by
  cases h with
  | flying hfly => exact Or.inl ⟨_, _, _, _, _, _, hfly⟩
  | ended hover => exact Or.inr (haside.isDone_eq hover.shows.caller hover.landed.isDone_eq)
  | away haway => exact Or.inr (haside.isDone_eq haway.caller haway.done)

/-- What the loop waits for is due later when nothing is ready. -/
theorem Flying.timer {s : Caller Json} {l : Loop Json} {since due elapsed : Nat}
    {log : List (Retry.Entry Json)} (h : Flying w client what ask K x s l since due elapsed log)
    (haside : Aside w client ask x) (hready : x.ready = []) :
    elapsed < due ∧ (w.now + due, errandTask w client) ∈ Session.system.timers x.state := by
  have hlt : elapsed < due := by
    refine Nat.lt_of_le_of_ne h.ahead fun heq => ?_
    have hmem := h.woken heq
    rw [hready] at hmem
    cases hmem
  refine ⟨hlt, mem_timers_client.2 ⟨client.withCaller s,
    List.mem_of_find?_eq_some h.shows.caller, rfl, ?_⟩⟩
  refine (Caller.mem_timers_of_solo h.trying.solo haside.secluded.plans).2
    (Or.inl ⟨_, h.trying.call, rfl, ?_, rfl⟩)
  rw [h.trying.workTimer_eq, Loop.timer_later,
    h.stage.timer (Nat.lt_of_le_of_lt h.begun hlt)]
  rfl

/-- **The passing of time keeps the lookup on its timeline.** -/
theorem Errand.pass (hclear : Clear w client what) (h : Errand w client what ask K x)
    (hready : x.ready = []) (hdone : x.state.isDone = false) (limit : Nat) :
    Errand w client what ask K (x.pass Session.system limit) := by
  cases h with
  | begins hx =>
    rw [hx, asked_lookup hclear.quiet] at hready
    cases hready
  | under haside hkeeps =>
    rcases hkeeps.flying_or_isDone haside with ⟨s, l, since, due, elapsed, log, hfly⟩ | hover
    swap
    · rw [hover] at hdone
      cases hdone
    obtain ⟨hlt, htimer⟩ := hfly.timer haside hready
    have hpast : x.now < w.now + due := by
      rw [hfly.now]
      omega
    have hle : x.now ≤ (x.pass Session.system limit).now := Clock.World.le_pass
    have hbound : (x.pass Session.system limit).now ≤ w.now + due :=
      Clock.World.pass_le _ htimer hpast
    have hnow := hfly.now
    have hbegun := hfly.begun
    have hstate : (x.pass Session.system limit).state = x.state := Clock.World.state_pass
    have haside' : Aside w client ask (x.pass Session.system limit) := by
      refine ⟨?_, ?_, ?_, Clock.World.nodup_pass haside.nodup, fun task hmem => ?_⟩
      · rw [hstate]
        exact haside.secluded
      · rw [hstate]
        exact haside.unrested
      · rw [hstate]
        exact haside.answer
      · rcases (Clock.World.mem_pass task).1 hmem with hold | ⟨-, hdue⟩
        · exact haside.ready task hold
        · exact haside.timers hfly.shows.caller hfly.trying.solo hdue
    have hshows : Shows w client ask (x.pass Session.system limit) s log := by
      obtain ⟨hcaller, hrecord, harrivals⟩ := hfly.shows
      exact ⟨by rw [hstate]; exact hcaller, hrecord, by rw [hstate]; exact harrivals⟩
    have hflying : Flying w client what ask K (x.pass Session.system limit) s l since due
        ((x.pass Session.system limit).now - w.now) log := by
      refine ⟨hfly.trying, hfly.stage, hshows, by omega, by omega, by omega, fun heq => ?_⟩
      have hat : (x.pass Session.system limit).now = w.now + due := by omega
      refine (Clock.World.mem_pass _).2 (Or.inr ⟨by omega, ?_⟩)
      rw [hat]
      exact htimer
    exact .under haside' (.flying hflying)

theorem Flying.isDone_eq {s : Caller Json} {l : Loop Json} {since due elapsed : Nat}
    {log : List (Retry.Entry Json)} (h : Flying w client what ask K x s l since due elapsed log) :
    x.state.isDone = false := by
  refine Bool.eq_false_iff.2 fun hdone => ?_
  have hclients : x.state.traffic.isDone = true := (Bool.and_eq_true_iff.1 hdone).2
  have hover := List.all_eq_true.1 hclients _ (List.mem_of_find?_eq_some h.shows.caller)
  rw [show (client.withCaller s).caller.isDone = false from h.trying.isDone_eq] at hover
  cases hover

section End

variable (hs : Timetable (script w.state.traffic client (askOf client what url))
    client.caller.policy none K)
  (hclear : Clear w client what) (hurl : what.resolve client.registry = .ok url)
include hs hclear hurl

/-- Ready tasks run until none is left. -/
theorem Errand.ready_settle (h : Errand w client what (askOf client what url) K x) :
    (x.settle Session.system).ready = [] := by
  refine Clock.World.ready_settleFor_of_keeps
    (P := Errand w client what (askOf client what url) K) (fun y => load y.ready)
    (fun y hy => (Errand.turn hs hclear hurl hy).1)
    (fun y hy => (Errand.turn hs hclear hurl hy).2) h ?_
  have hturns : 4 * 4 ≤ Session.system.turns x.state :=
    Nat.le_add_left_of_le (Nat.mul_le_mul (Nat.le_add_left 4 _) (Nat.le_add_left 4 _))
  cases h with
  | begins hx =>
    have htwo : load x.ready = 2 := by
      rw [hx, asked_lookup hclear.quiet]
      rfl
    omega
  | under haside =>
    have hle := haside.load_le
    omega

end End

end RegistryLookup.Gateway
