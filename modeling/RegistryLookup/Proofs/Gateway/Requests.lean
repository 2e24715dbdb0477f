import RegistryLookup.Proofs.Caller.Attempts
import RegistryLookup.Proofs.Gateway.Mirror

/-!
# The requests of a client

A turn of a call in the run of a client belongs to an event of the gateway in which the client
works on the lookup (`worked`). The attempts that begin in it are requests: each gets the number of
the request of the gateway whose answer it takes (`Worked.request`).
-/

namespace RegistryLookup

theorem Client.attemptsBegun_eq (c : Client) (k : Nat) :
    c.attemptsBegun k = Caller.begun k (Caller.log c.caller) := by
  unfold attemptsBegun Caller.begun Caller.log
  rw [List.countP_reverse]
  congr 1
  funext e
  cases e.notice <;> rfl

namespace Gateway

variable {client : Client} {x : World} {y : Caller.World Json} {es : List Event}

/-- In an event the client of a registry works on a lookup: the lookup begins, or its call takes a
turn. -/
inductive WorksOn (registry : String) (k : Nat) : Event → Prop
  | begins : WorksOn registry k (.turn (.operation k))
  | turn : WorksOn registry k (.turn (.client registry (.call k)))

/-- The requests that a turn of a call sends. -/
theorem arrivals_run {t : Traffic} {name : String} {c : Client} {k : Nat} {ask : Ask}
    (hc : t.gateway.client? name = some c) (ha : t.asks.get? k = some ask) (now : Nat) {d : Client}
    (hd : (t.run now name (.call k)).1.gateway.client? name = some d) :
    (t.run now name (.call k)).1.arrivals =
      (if t.network.carries ask.request.url then
        List.replicate (d.attemptsBegun k - c.attemptsBegun k) ask.request
      else []) ++ t.arrivals := by
  have hcname : c.name = name := client?_name hc
  have hname : ∀ caller, (c.withCaller caller).name = name := fun _ => hcname
  obtain ⟨hgateway, harrivals, -⟩ := run_spec hc now (.call k)
  rw [hgateway, client?_modify_const hc (hname _)] at hd
  cases hd
  rw [harrivals, Traffic.sent]
  simp only [ha]

/-- What a turn of a call is for the gateway: the turn of its task, or the beginning of its
lookup. `i` is the place of the turn among the events that the event of the gateway is for the
client. -/
inductive EchoesTurn (client : Client) (x : World) (y : Caller.World Json) (e : Event) (i k : Nat)
    (answers : Caller.Answers Json) : Prop
  | turn (he : e = .turn (.client client.name (.call k))) (hi : i = 0)
      (hready : .client client.name (.call k) ∈ x.ready)
      (hanswers : answers = x.state.traffic.answersFor (client.withCaller y.state) k)
      (hecho : echo client.name x e = [.turn k answers])
  | begins (he : e = .turn (.operation k)) (hi : i = 1) (hready : .operation k ∈ x.ready)
      (what : Lookup) (fired : Bool) (cancelAfter : Option Nat) (url : Url)
      (hk : x.state.answers.get? k = none)
      (hop : x.state.operations.get? k = some (.lookup client.name what fired cancelAfter))
      (hurl : what.resolve client.registry = .ok url)
      (hanswers : answers = x.state.traffic.replies (client.withCaller y.state) k
        ⟨client.request url, what.subject⟩)
      (hecho : echo client.name x e =
        [.call k what.key (client.ttl what) fired, .turn k answers, .wake k])

theorem echoesTurn_of_task (h : Mirrors client x y) {e : Event} {name : String}
    {task : Caller.Task}
    (hecho : echo client.name x e = echoTask client.name x.state.traffic name task)
    (he : task.isTurn = true → e = .turn (.client name task) ∧ .client name task ∈ x.ready)
    {i k : Nat} {answers : Caller.Answers Json}
    (hi : (echo client.name x e)[i]? = some (.turn k answers)) :
    EchoesTurn client x y e i k answers := by
  rw [hecho] at hi
  unfold echoTask at hi hecho
  by_cases hn : name = client.name
  · subst hn
    simp only [if_true, h.same] at hi hecho
    obtain ⟨hlt, heq⟩ := List.getElem?_eq_some_iff.1 hi
    have hzero : i = 0 := Nat.lt_one_iff.1 hlt
    subst hzero
    rw [List.getElem_cons_zero] at heq
    cases task with
    | call c =>
      simp only [Caller.taskEvent, Caller.Event.turn.injEq] at heq hecho
      obtain ⟨rfl, rfl⟩ := heq
      exact .turn (he rfl).1 rfl (he rfl).2 rfl hecho
    | _ => cases heq
  · rw [if_neg hn] at hi
    cases hi

theorem eq_of_mem_ite {p : Prop} [Decidable p] {e e' : Caller.Event Json}
    (h : e ∈ if p then [e'] else []) : e = e' := by
  split at h
  · exact List.mem_singleton.1 h
  · cases h

theorem echoesTurn_of_look (h : Mirrors client x y) {k : Nat} (hready : .operation k ∈ x.ready)
    {name : String} {what : Lookup} {fired : Bool} {cancelAfter : Option Nat}
    (hk : x.state.answers.get? k = none)
    (hop : x.state.operations.get? k = some (.lookup name what fired cancelAfter))
    (hecho : echo client.name x (.turn (.operation k)) =
      if name = client.name then echoLook client.name x.state.traffic k what fired else [])
    {i c : Nat} {answers : Caller.Answers Json}
    (hi : (echo client.name x (.turn (.operation k)))[i]? = some (.turn c answers)) :
    EchoesTurn client x y (.turn (.operation k)) i c answers := by
  rw [hecho] at hi
  by_cases hn : name = client.name
  swap
  · rw [if_neg hn] at hi
    cases hi
  subst hn
  unfold echoLook at hi hecho
  simp only [if_true, h.same] at hi hecho
  cases hurl : what.resolve (client.withCaller y.state).registry with
  | error e =>
    simp only [hurl] at hi
    cases hi
  | ok url =>
    simp only [hurl] at hi hecho
    match i, hi with
    | 0, hi => cases hi
    | 1, hi =>
      cases hi
      exact .begins rfl rfl hready what fired cancelAfter url hk hop hurl rfl hecho
    | 2, hi => cases hi

theorem echoesTurn_of_begin (h : Mirrors client x y) {k : Nat} (hready : .operation k ∈ x.ready)
    {op : Operation} (hk : x.state.answers.get? k = none)
    (hop : x.state.operations.get? k = some op)
    (hecho : echo client.name x (.turn (.operation k)) =
      echoBegin client.name x.state.traffic k op) {i c : Nat} {answers : Caller.Answers Json}
    (hi : (echo client.name x (.turn (.operation k)))[i]? = some (.turn c answers)) :
    EchoesTurn client x y (.turn (.operation k)) i c answers := by
  have hmem := List.mem_of_getElem? hi
  rw [hecho] at hmem
  cases op with
  | lookup name what fired cancelAfter => exact echoesTurn_of_look h hready hk hop hecho hi
  | forgetCompany name id => cases eq_of_mem_ite hmem
  | forgetSearches name => cases eq_of_mem_ite hmem
  | clientClose name => cases eq_of_mem_ite hmem
  | close => cases List.mem_singleton.1 hmem
  | _ => cases hmem

theorem echoesTurn (h : Mirrors client x y) {e : Event} {i k : Nat}
    {answers : Caller.Answers Json} (hi : (echo client.name x e)[i]? = some (.turn k answers)) :
    EchoesTurn client x y e i k answers := by
  have hmem := List.mem_of_getElem? hi
  cases e with
  | ask operation => cases hmem
  | turn task =>
    by_cases hr : task ∈ x.ready
    · cases task with
      | operation c =>
        have hecho : echo client.name x (.turn (.operation c)) =
            echoOperation client.name x.state c := if_pos hr
        cases operation_turn x c with
        | begins op hk hop =>
          rw [echoOperation_of_begins hk hop] at hecho
          exact echoesTurn_of_begin h hr hk hop hecho hi
        | rests _ hno =>
          rw [hecho, echoOperation_of_rests hno] at hmem
          cases hmem
      | client name task =>
        have hecho : echo client.name x (.turn (.client name task)) =
            echoTask client.name x.state.traffic name task := if_pos hr
        exact echoesTurn_of_task h hecho (fun _ => ⟨rfl, hr⟩) hi
    · have hecho : echo client.name x (.turn task) = [] := by
        cases task <;> exact if_neg hr
      rw [hecho] at hmem
      cases hmem
  | late name => cases eq_of_mem_ite hmem
  | wake name c => cases eq_of_mem_ite hmem
  | fire name c => exact echoesTurn_of_task h rfl (fun ht => by cases ht) hi
  | abort name c => exact echoesTurn_of_task h rfl (fun ht => by cases ht) hi
  | pass limit => cases List.mem_singleton.1 hmem

/-- The client of a registry in its own run, at a point of the run of the gateway. -/
abbrev clientAt (client : Client) (x : World) (y : Caller.World Json) (es : List Event) (n : Nat) :
    Caller.World Json :=
  Caller.worldAt y (course client.name x es n) (moment client.name x es n)

/-- Turn `i` in the run of a client up to a point of the run of the gateway: it belongs to event
`m` of the gateway, in which the client works on the lookup of the call. -/
structure Worked (client : Client) (x : World) (y : Caller.World Json) (es : List Event)
    (n i k : Nat) (answers : Caller.Answers Json) (m : Nat) : Prop where
  lt : m < n
  event : ∃ e, es[m]? = some e ∧ WorksOn client.name k e
  now : (Caller.worldAt y (course client.name x es n) i).now = (worldAt x es m).now
  log : Caller.log (Caller.worldAt y (course client.name x es n) i).state =
    Caller.log (clientAt client x y es m).state
  cache : (Caller.worldAt y (course client.name x es n) i).state.cache =
    (clientAt client x y es m).state.cache
  after : (Caller.worldAt y (course client.name x es n) (i + 1)).state =
    (clientAt client x y es (m + 1)).state
  /-- The attempts that begin are requests for what the lookup asks. -/
  sends : ∀ call, (clientAt client x y es (m + 1)).state.calls.get? k = some call → ∃ ask,
    (worldAt x es (m + 1)).state.traffic.asks.get? k = some ask ∧
    answers = (worldAt x es m).state.traffic.replies
      (client.withCaller (clientAt client x y es m).state) k ask ∧
    (worldAt x es (m + 1)).state.traffic.arrivals =
      (if (worldAt x es m).state.traffic.network.carries ask.request.url then
        List.replicate (Caller.begun k (Caller.log (clientAt client x y es (m + 1)).state) -
          Caller.begun k (Caller.log (clientAt client x y es m).state)) ask.request
      else []) ++ (worldAt x es m).state.traffic.arrivals

/-- The points of the run of a client inside one event of the gateway. -/
theorem worldAt_moment {m n j : Nat} {e : Event} (hmn : m < n) (he : es[m]? = some e)
    (hj : j ≤ (echo client.name (worldAt x es m) e).length) :
    Caller.worldAt y (course client.name x es n) (moment client.name x es m + j) =
      ((echo client.name (worldAt x es m) e).take j).foldl Caller.step (clientAt client x y es m) := by
  induction j with
  | zero => exact worldAt_course (Nat.le_of_lt hmn) (Nat.le_refl _)
  | succ j ih =>
    have hget : (course client.name x es n)[moment client.name x es m + j]? =
        (echo client.name (worldAt x es m) e)[j]? := Trace.getElem?_echoed hmn he hj
    rw [List.getElem?_eq_getElem hj] at hget
    rw [← Nat.add_assoc, Caller.worldAt_succ y hget, ih (by omega), List.take_add_one,
      List.getElem?_eq_getElem hj, Option.toList_some, List.foldl_append]
    rfl

theorem clientAt_succ {m : Nat} {e : Event} (he : es[m]? = some e) :
    clientAt client x y es (m + 1) =
      (echo client.name (worldAt x es m) e).foldl Caller.step (clientAt client x y es m) := by
  rw [clientAt, moment, course, Trace.echoed_of_getElem? he]
  exact Trace.after_append _ _

/-- The beginning of a lookup of a client. -/
theorem traffic_look (h : Mirrors client x y) {k : Nat} {what : Lookup} {fired : Bool}
    {cancelAfter : Option Nat} {url : Url} (hready : .operation k ∈ x.ready)
    (hk : x.state.answers.get? k = none)
    (hop : x.state.operations.get? k = some (.lookup client.name what fired cancelAfter))
    (hurl : what.resolve client.registry = .ok url) :
    (step x (.turn (.operation k))).state.traffic =
      ((boarding x.state.traffic (client.withCaller y.state) x.now k what url fired cancelAfter).run
        x.now client.name (.call k)).1 := by
  rw [step, if_pos hready]
  cases operation_turn x k with
  | rests answers hno =>
    rw [hno hk] at hop; cases hop
  | begins op hk' hop' hrun =>
    rw [hop] at hop'; cases hop'
    rcases look_cases x.state x.now k client.name what fired cancelAfter with ⟨e, -, hno⟩ |
      ⟨c, url', hc, hurl', hlook⟩
    · have herror := hno _ h.same
      rw [show (client.withCaller y.state).registry = client.registry from rfl, hurl] at herror
      cases herror
    · rw [h.same] at hc; cases hc
      rw [show (client.withCaller y.state).registry = client.registry from rfl, hurl] at hurl'
      cases hurl'
      have hbegin : x.state.begin x.now k (.lookup client.name what fired cancelAfter) =
          x.state.look x.now k client.name what fired cancelAfter := rfl
      rw [hrun, hbegin, hlook]
      rfl

theorem worked_turn (hnames : x.state.traffic.gateway.names.Nodup)
    (h : Mirrors client x y) {n m k : Nat} {answers : Caller.Answers Json}
    (hmn : m < n) (he : es[m]? = some (.turn (.client client.name (.call k))))
    (hready : .client client.name (.call k) ∈ (worldAt x es m).ready)
    (hanswers : answers = (worldAt x es m).state.traffic.answersFor
      (client.withCaller (clientAt client x y es m).state) k)
    (hecho : echo client.name (worldAt x es m) (.turn (.client client.name (.call k))) =
      [.turn k answers]) :
    Worked client x y es n (moment client.name x es m) k answers m := by
  have hm : Mirrors client (worldAt x es m) (clientAt client x y es m) := mirrored hnames h m
  have hnext : Mirrors client (worldAt x es (m + 1)) (clientAt client x y es (m + 1)) :=
    mirrored hnames h (m + 1)
  have hbefore : Caller.worldAt y (course client.name x es n) (moment client.name x es m) =
      clientAt client x y es m := worldAt_moment hmn he (Nat.zero_le _)
  have hafter : Caller.worldAt y (course client.name x es n) (moment client.name x es m + 1) =
      clientAt client x y es (m + 1) := by
    rw [worldAt_moment hmn he (by rw [hecho]; exact Nat.le_refl _), clientAt_succ he, hecho]
    rfl
  have htraffic : (worldAt x es (m + 1)).state.traffic =
      ((worldAt x es m).state.traffic.run (worldAt x es m).now client.name (.call k)).1 := by
    rw [worldAt_succ x he, step, if_pos hready]
    rfl
  refine ⟨hmn, ⟨_, he, .turn⟩, by rw [hbefore]; exact hm.now, by rw [hbefore], by rw [hbefore],
    by rw [hafter], fun call hc => ?_⟩
  obtain ⟨-, what, fired, cancelAfter, url, -, -, hask, -, -⟩ := hnext.asked k call hc
  have hold : (worldAt x es m).state.traffic.asks.get? k =
      some ⟨client.request url, what.subject⟩ := by
    rw [htraffic, Traffic.run_asks] at hask
    exact hask
  have hsame := hnext.same
  rw [htraffic] at hsame
  refine ⟨_, hask, by rw [hanswers, Traffic.answersFor_eq hold], ?_⟩
  rw [htraffic, arrivals_run hm.same hold _ hsame, Client.attemptsBegun_eq, Client.attemptsBegun_eq]
  rfl

theorem worked_begins (hnames : x.state.traffic.gateway.names.Nodup)
    (h : Mirrors client x y) {n m k : Nat} {answers : Caller.Answers Json}
    (hmn : m < n) (he : es[m]? = some (.turn (.operation k)))
    (hready : .operation k ∈ (worldAt x es m).ready)
    {what : Lookup} {fired : Bool} {cancelAfter : Option Nat} {url : Url}
    (hk : (worldAt x es m).state.answers.get? k = none)
    (hop : (worldAt x es m).state.operations.get? k =
      some (.lookup client.name what fired cancelAfter))
    (hurl : what.resolve client.registry = .ok url)
    (hanswers : answers = (worldAt x es m).state.traffic.replies
      (client.withCaller (clientAt client x y es m).state) k ⟨client.request url, what.subject⟩)
    (hecho : echo client.name (worldAt x es m) (.turn (.operation k)) =
      [.call k what.key (client.ttl what) fired, .turn k answers, .wake k]) :
    Worked client x y es n (moment client.name x es m + 1) k answers m := by
  have hm : Mirrors client (worldAt x es m) (clientAt client x y es m) := mirrored hnames h m
  have hnext : Mirrors client (worldAt x es (m + 1)) (clientAt client x y es (m + 1)) :=
    mirrored hnames h (m + 1)
  have hbefore : Caller.worldAt y (course client.name x es n) (moment client.name x es m + 1) =
      Caller.step (clientAt client x y es m) (.call k what.key (client.ttl what) fired) := by
    rw [worldAt_moment hmn he (by rw [hecho]; exact Nat.le_add_left 1 2), hecho]
    rfl
  have hafter : (Caller.worldAt y (course client.name x es n)
      (moment client.name x es m + 1 + 1)).state = (clientAt client x y es (m + 1)).state := by
    rw [Nat.add_assoc, worldAt_moment hmn he (by rw [hecho]; exact Nat.le_add_left 2 1),
      clientAt_succ he, hecho]
    rfl
  -- to come in is to make no attempt
  have hcomes : ∀ c : Caller.World Json,
      (Caller.step c (.call k what.key (client.ttl what) fired)).now = c.now ∧
      (Caller.step c (.call k what.key (client.ttl what) fired)).state.flights = c.state.flights := by
    intro c
    simp only [Caller.step]
    split <;> exact ⟨rfl, rfl⟩
  obtain ⟨hnow, hflights⟩ := hcomes (clientAt client x y es m)
  have htraffic : (worldAt x es (m + 1)).state.traffic =
      ((boarding (worldAt x es m).state.traffic
        (client.withCaller (clientAt client x y es m).state) (worldAt x es m).now k what url fired
        cancelAfter).run (worldAt x es m).now client.name (.call k)).1 := by
    rw [worldAt_succ x he]
    exact traffic_look hm hready hk hop hurl
  refine ⟨hmn, ⟨_, he, .begins⟩, by rw [hbefore, hnow]; exact hm.now, ?_, ?_, hafter,
    fun call hc => ?_⟩
  · rw [hbefore, Caller.log, hflights]
    rfl
  · rw [hbefore, Caller.cache, hflights]
    rfl
  · have hsame := hnext.same
    rw [htraffic] at hsame
    refine ⟨⟨client.request url, what.subject⟩, ?_, hanswers, ?_⟩
    · rw [htraffic, Traffic.run_asks]
      exact Table.get?_put_self _ _ _
    · have hboarded : (boarding (worldAt x es m).state.traffic
          (client.withCaller (clientAt client x y es m).state) (worldAt x es m).now k what url fired
          cancelAfter).gateway.client? client.name = some _ := client?_boarding hm.same
      rw [htraffic, arrivals_run hboarded (Table.get?_put_self _ _ _) _ hsame,
        Client.attemptsBegun_eq, Client.attemptsBegun_eq]
      rfl

/-- **Each turn in the run of a client belongs to an event of the gateway.** -/
theorem worked (hnames : x.state.traffic.gateway.names.Nodup) (h : Mirrors client x y)
    {n i k : Nat} {answers : Caller.Answers Json}
    (hi : (course client.name x es n)[i]? = some (.turn k answers)) :
    ∃ m, Worked client x y es n i k answers m := by
  have hlt : i < moment client.name x es n := (List.getElem?_eq_some_iff.1 hi).1
  obtain ⟨m, j, e, hmn, he, rfl, hget⟩ := Trace.exists_echo hlt
  rw [hi] at hget
  have hm : Mirrors client (worldAt x es m) (clientAt client x y es m) := mirrored hnames h m
  cases echoesTurn hm hget.symm with
  | turn hevent hzero hready hanswers hecho =>
    subst hevent hzero
    exact ⟨m, worked_turn hnames h hmn he hready hanswers hecho⟩
  | begins hevent hone hready what fired cancelAfter url hk hop hurl hanswers hecho =>
    subst hevent hone
    exact ⟨m, worked_begins hnames h hmn he hready hk hop hurl hanswers hecho⟩

end Gateway

end RegistryLookup
