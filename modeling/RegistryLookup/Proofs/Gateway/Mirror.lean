import RegistryLookup.Proofs.Caller.Schedule
import RegistryLookup.Proofs.Caller.Voyage
import RegistryLookup.Proofs.Gateway.Step

/-!
# The client of a registry in a run of its gateway

Each event of a gateway is, for the client of one registry, a few events of its caller, or none
(`echo`). So the client goes through a run of its own, whatever happens to the other registries,
and knows a call only as a lookup that the gateway was asked for (`mirrored`).

* `Asked`: the lookup behind a call.
* `Mirrors`: the client of a registry is at a point of its own run.
-/

namespace RegistryLookup

namespace Gateway

open Caller (taskEvent step_taskEvent taskEvent_ne_call calls_of_step)

/-- What the attempts come to that a client begins now for what a lookup asks. -/
def Traffic.replies (t : Traffic) (client : Client) (k : Nat) (ask : Ask) : Caller.Answers Json :=
  fun n => t.network.fetch client.patience ask.request ask.subject
    (t.arrivals.length + (n.toNat - 1 - client.attemptsBegun k))

theorem Traffic.answersFor_eq {t : Traffic} {client : Client} {k : Nat} {ask : Ask}
    (h : t.asks.get? k = some ask) : t.answersFor client k = t.replies client k ask := by
  funext n
  simp only [answersFor, h, replies]

/-- A task of the client of a registry. -/
def echoTask (registry : String) (t : Traffic) (name : String) (task : Caller.Task) :
    List (Caller.Event Json) :=
  if name = registry then
    match t.gateway.client? registry with
    | some client => [taskEvent (t.answersFor client) task]
    | none => []
  else []

/-- The beginning of a lookup. Its call may have been woken before it came in. -/
def echoLook (registry : String) (t : Traffic) (k : Nat) (what : Lookup) (fired : Bool) :
    List (Caller.Event Json) :=
  match t.gateway.client? registry with
  | none => []
  | some client =>
    match what.resolve client.registry with
    | .error _ => []
    | .ok url =>
      [.call k what.key (client.ttl what) fired,
        .turn k (t.replies client k ⟨client.request url, what.subject⟩), .wake k]

/-- The beginning of an operation. -/
def echoBegin (registry : String) (t : Traffic) (k : Nat) : Operation → List (Caller.Event Json)
  | .lookup name what fired _ => if name = registry then echoLook registry t k what fired else []
  | .forgetCompany name id => if name = registry then [.delete (Lookup.company id).key] else []
  | .forgetSearches name =>
    if name = registry then [.deleteStartingWith Lookup.searchPrefix] else []
  | .clientClose name => if name = registry then [.close] else []
  | .close => [.close]
  | _ => []

/-- To invalidate an entity is to have its key forgotten. -/
theorem forgets_company (registry : String) (t : Traffic) (k : Nat) (id : String) :
    ∃ e, echoBegin registry t k (.forgetCompany registry id) = [e] ∧
      Caller.Forgets (Lookup.company id).key e :=
  ⟨_, if_pos rfl, .delete⟩

/-- To invalidate the searches is to have the keys of all of them forgotten. -/
theorem forgets_search (registry : String) (t : Traffic) (k : Nat) (text : String) :
    ∃ e, echoBegin registry t k (.forgetSearches registry) = [e] ∧
      Caller.Forgets (Lookup.search text).key e := by
  refine ⟨_, if_pos rfl, .deleteStartingWith _ ?_⟩
  simp [Cache.startsWith, Lookup.key]

/-- The turn of an operation, which begins if it has no answer yet. -/
def echoOperation (registry : String) (s : Session) (k : Nat) : List (Caller.Event Json) :=
  match s.answers.get? k, s.operations.get? k with
  | none, some op => echoBegin registry s.traffic k op
  | _, _ => []

theorem echoOperation_of_begins {registry : String} {s : Session} {k : Nat} {op : Operation}
    (hk : s.answers.get? k = none) (hop : s.operations.get? k = some op) :
    echoOperation registry s k = echoBegin registry s.traffic k op := by
  unfold echoOperation
  rw [hk, hop]

theorem echoOperation_of_rests {registry : String} {s : Session} {k : Nat}
    (h : s.answers.get? k = none → s.operations.get? k = none) :
    echoOperation registry s k = [] := by
  unfold echoOperation
  cases hk : s.answers.get? k with
  | none => rw [h hk]
  | some a => rfl

/-- What an event of a gateway is for the client of a registry. -/
def echo (registry : String) (x : World) : Event → List (Caller.Event Json)
  | .ask _ => []
  | .turn (.operation k) =>
    if .operation k ∈ x.ready then echoOperation registry x.state k else []
  | .turn (.client name task) =>
    if .client name task ∈ x.ready then echoTask registry x.state.traffic name task else []
  | .late name =>
    if name = registry ∧ .client name (.chore .tick) ∈ x.ready then [.chore .tick true] else []
  | .wake name k => if name = registry then [.wake k] else []
  | .fire name k => echoTask registry x.state.traffic name (.fire k)
  | .abort name k => echoTask registry x.state.traffic name (.abort k)
  | .pass limit => [.pass (x.pass Session.system limit).now]

/-- The lookup behind a call of a client. -/
structure Asked (s : Session) (client : Client) (k : Nat) (call : Caller.Call Json) : Prop where
  answer : s.answers.get? k = some (.asking client.name)
  lookup : ∃ what fired cancelAfter url,
    s.operations.get? k = some (.lookup client.name what fired cancelAfter) ∧
    what.resolve client.registry = .ok url ∧
    s.traffic.asks.get? k = some ⟨client.request url, what.subject⟩ ∧
    call.key = what.key ∧ call.ttl = client.ttl what

/-- A client is at a point of its own run: it has the state and the tasks of its caller there, and
its calls are lookups that the gateway was asked for. `client` tells what it was at first. -/
structure Mirrors (client : Client) (x : World) (y : Caller.World Json) : Prop where
  same : x.state.traffic.gateway.client? client.name = some (client.withCaller y.state)
  now : y.now = x.now
  ready : ∀ task : Caller.Task, task.isTurn = true → .client client.name task ∈ x.ready →
    task ∈ y.ready
  asked : ∀ k call, y.state.calls.get? k = some call → Asked x.state client k call

variable {client : Client} {x x' : World} {y : Caller.World Json}

/-- An event after which the client is at another point of its run. -/
theorem Mirrors.moved (h : Mirrors client x y) {y' : Caller.World Json}
    (hsame : x'.state.traffic.gateway.client? client.name = some (client.withCaller y'.state))
    (hnow : y'.now = x'.now)
    (hready : ∀ task : Caller.Task, task.isTurn = true → .client client.name task ∈ x'.ready →
      task ∈ y'.ready)
    (hasked : ∀ k call, Asked x.state client k call → Asked x'.state client k call)
    (hcalls : ∀ k call, y'.state.calls.get? k = some call →
      (∃ stage, y.state.calls.get? k = some { call with stage := stage }) ∨
        Asked x'.state client k call) :
    Mirrors client x' y' where
  same := hsame
  now := hnow
  ready := hready
  asked := by
    intro k call hc
    rcases hcalls k call hc with ⟨stage, hk⟩ | hnew
    · obtain ⟨hanswer, hlookup⟩ := h.asked k _ hk
      exact hasked k call ⟨hanswer, hlookup⟩
    · exact hnew

/-- An event that does not reach the client. -/
theorem Mirrors.quiet (h : Mirrors client x y)
    (hsame : x'.state.traffic.gateway.client? client.name =
      x.state.traffic.gateway.client? client.name)
    (hnow : x'.now = x.now)
    (hready : ∀ task : Caller.Task, task.isTurn = true → .client client.name task ∈ x'.ready →
      .client client.name task ∈ x.ready)
    (hasked : ∀ k call, Asked x.state client k call → Asked x'.state client k call) :
    Mirrors client x' y :=
  h.moved (hsame.trans h.same) (h.now.trans hnow.symm)
    (fun task ht hmem => h.ready task ht (hready task ht hmem)) hasked
    (fun _ call hc => Or.inl ⟨call.stage, hc⟩)

theorem Asked.of_traffic {s s' : Session} (hoperations : s'.operations = s.operations)
    (hanswers : s'.answers = s.answers) (hasks : s'.traffic.asks = s.traffic.asks) (k : Nat)
    (call : Caller.Call Json) (h : Asked s client k call) : Asked s' client k call := by
  obtain ⟨hanswer, hlookup⟩ := h
  refine ⟨by rw [hanswers]; exact hanswer, ?_⟩
  rw [hoperations, hasks]
  exact hlookup

theorem mirrors_runTask (h : Mirrors client x y) {name : String} {task : Caller.Task}
    (hr : task.isTurn = true → .client name task ∈ x.ready) :
    Mirrors client (runTask x (.client name task))
      ((echoTask client.name x.state.traffic name task).foldl Caller.step y) := by
  have hasked : ∀ k call, Asked x.state client k call →
      Asked (runTask x (.client name task)).state client k call :=
    Asked.of_traffic rfl rfl (Traffic.run_asks x.now name task x.state.traffic)
  have hmem : ∀ t, t ∈ (runTask x (.client name task)).ready ↔
      (t ∈ x.ready ∧ t ≠ .client name task) ∨
        t ∈ (x.state.traffic.run x.now name task).2.map (.client name) := by
    intro t
    unfold runTask
    rw [Clock.World.mem_wake]
    simp only [List.mem_filter, decide_eq_true_eq]
    rfl
  unfold echoTask
  by_cases hn : name = client.name
  · subst hn
    obtain ⟨hgateway, -, hwoken⟩ := run_spec h.same x.now task
    have hstep := step_taskEvent (x.state.traffic.answersFor (client.withCaller y.state))
      (fun ht => h.ready task ht (hr ht))
    simp only [h.same, if_true, List.foldl_cons, List.foldl_nil]
    refine h.moved ?_ ?_ (fun t ht htask => ?_) hasked
      (fun k call hc => Or.inl (calls_of_step (taskEvent_ne_call _ task) hc))
    · show (x.state.traffic.run x.now client.name task).1.gateway.client? client.name = _
      rw [hgateway, hstep, h.now]
      exact client?_modify_const h.same rfl
    · rw [hstep]; exact h.now
    · rw [hstep, Clock.World.mem_wake]
      rcases (hmem _).1 htask with ⟨hold, hne⟩ | hnew
      · have hne' : t ≠ task := fun heq => hne (by rw [heq])
        exact Or.inl (List.mem_filter.2 ⟨h.ready t ht hold, decide_eq_true hne'⟩)
      · rw [hwoken, mem_map_client] at hnew
        rw [h.now]
        exact Or.inr hnew.2
  · rw [if_neg hn, List.foldl_nil]
    refine h.quiet (client?_run_of_ne (Ne.symm hn) x.now task) rfl
      (fun t ht htask => ?_) hasked
    rcases (hmem _).1 htask with ⟨hold, -⟩ | hnew
    · exact hold
    · exact absurd (mem_map_client.1 hnew).1.symm hn

/-- An operation that begins leaves the lookups behind calls as they are. -/
theorem Asked.afterBegin {k : Nat} {b : Answer × Session × List Session.Task}
    (hk : x.state.answers.get? k = none) (hoperations : b.2.1.operations = x.state.operations)
    (hanswers : b.2.1.answers = x.state.answers)
    (hasks : ∀ j, j ≠ k → b.2.1.traffic.asks.get? j = x.state.traffic.asks.get? j) (j : Nat)
    (call : Caller.Call Json) (h : Asked x.state client j call) :
    Asked (afterBegin x k b).state client j call := by
  obtain ⟨hanswer, hlookup⟩ := h
  have hne : j ≠ k := by
    rintro rfl
    rw [hk] at hanswer; cases hanswer
  refine ⟨?_, ?_⟩
  · show (b.2.1.answers.put k b.1).get? j = _
    rw [Table.get?_put_of_ne _ _ hne, hanswers]
    exact hanswer
  · show ∃ what fired cancelAfter url, b.2.1.operations.get? j = _ ∧ _ ∧
      b.2.1.traffic.asks.get? j = _ ∧ _
    rw [hoperations, hasks j hne]
    exact hlookup

/-- An operation that has no effect on the client. -/
theorem mirrors_begin_quiet (h : Mirrors client x y) {k : Nat}
    {b : Answer × Session × List Session.Task} (hk : x.state.answers.get? k = none)
    (hsame : b.2.1.traffic.gateway.client? client.name =
      x.state.traffic.gateway.client? client.name)
    (hoperations : b.2.1.operations = x.state.operations)
    (hanswers : b.2.1.answers = x.state.answers)
    (hasks : ∀ j, j ≠ k → b.2.1.traffic.asks.get? j = x.state.traffic.asks.get? j)
    (htasks : ∀ task : Caller.Task, .client client.name task ∉ b.2.2) :
    Mirrors client (afterBegin x k b) y := by
  refine h.quiet hsame rfl (fun task _ hmem => ?_) (Asked.afterBegin hk hoperations hanswers hasks)
  rcases mem_afterBegin.1 hmem with ⟨hold, -⟩ | hnew
  · exact hold
  · exact absurd hnew (htasks task)

/-- An operation that acts on one client does so as some events of its caller. -/
theorem mirrors_onClient (h : Mirrors client x y) {k : Nat} (hk : x.state.answers.get? k = none)
    (name : String) (act : Client → Answer × Client × List Caller.Task)
    (ces : List (Caller.Event Json)) (hname : ∀ c, (act c).2.1.name = c.name)
    (hact : (act (client.withCaller y.state)).2.1 =
      client.withCaller (ces.foldl Caller.step y).state)
    (hnow : (ces.foldl Caller.step y).now = y.now)
    (hready : ∀ task, task ∈ y.ready ∨ task ∈ (act (client.withCaller y.state)).2.2 →
      task ∈ (ces.foldl Caller.step y).ready)
    (hcalls : ∀ k call, (ces.foldl Caller.step y).state.calls.get? k = some call →
      ∃ stage, y.state.calls.get? k = some { call with stage := stage }) :
    Mirrors client (afterBegin x k (x.state.onClient name act))
      ((if name = client.name then ces else []).foldl Caller.step y) := by
  rcases onClient_cases x.state name act with ⟨hc, hspec⟩ | ⟨c, hc, hspec⟩
  · -- there is no such client, so it is not this one
    have hn : name ≠ client.name := by
      rintro rfl
      rw [h.same] at hc; cases hc
    rw [if_neg hn, hspec]
    exact mirrors_begin_quiet h hk rfl rfl rfl (fun _ _ => rfl) (fun _ hmem => by cases hmem)
  have hcname : (act c).2.1.name = name := (hname c).trans (client?_name hc)
  rw [hspec]
  by_cases hn : name = client.name
  · subst hn
    rw [h.same] at hc; cases hc
    rw [if_pos rfl]
    refine h.moved ?_ (hnow.trans h.now) (fun task ht hmem => ?_)
      (Asked.afterBegin hk rfl rfl (fun _ _ => rfl)) (fun j call hj => Or.inl (hcalls j call hj))
    · rw [← hact]
      exact client?_modify_const h.same hcname
    · rcases mem_afterBegin.1 hmem with ⟨hold, -⟩ | hnew
      · exact hready task (Or.inl (h.ready task ht hold))
      · exact hready task (Or.inr (mem_map_client.1 hnew).2)
  · rw [if_neg hn]
    exact mirrors_begin_quiet h hk (client?_modify_of_ne (fun _ _ => hcname) (Ne.symm hn)) rfl rfl
      (fun _ _ => rfl) (fun task hmem => hn (mem_map_client.1 hmem).1.symm)

/-- The world in which a lookup has become a call that has not had its first turn. -/
def boarded (x : World) (name : String) (k : Nat) (t : Traffic) : World :=
  { x with
    state := { x.state with traffic := t, answers := x.state.answers.put k (.asking name) }
    ready := x.ready.filter (· ≠ Session.Task.operation k) ++ [.client name (.call k)] }

section Look

variable {k : Nat} {what : Lookup} {url : Url} {fired : Bool} {cancelAfter : Option Nat}

/-- A call is known only when its lookup has been answered. -/
theorem Asked.ne {j : Nat} {call : Caller.Call Json} (h : Asked x.state client j call)
    (hk : x.state.answers.get? k = none) : j ≠ k := by
  rintro rfl
  rw [h.answer] at hk; cases hk

theorem Mirrors.step_call (h : Mirrors client x y) (hk : x.state.answers.get? k = none)
    (key : String) (ttl : Nat) (fired : Bool) : Caller.step y (.call k key ttl fired) =
      { y with state := y.state.start k key ttl fired }.wake [.call k] := by
  have hunknown : y.state.calls.get? k = none := by
    cases hcall : y.state.calls.get? k with
    | none => rfl
    | some call => exact absurd rfl ((h.asked k call hcall).ne hk)
  simp only [Caller.step, hunknown, Option.isSome_none, Bool.false_eq_true, if_false]

/-- The lookup of a client comes in as a call. -/
theorem mirrors_comes (h : Mirrors client x y) (hk : x.state.answers.get? k = none)
    (hop : x.state.operations.get? k = some (.lookup client.name what fired cancelAfter))
    (hurl : what.resolve client.registry = .ok url) : Mirrors client
      (boarded x client.name k
        (boarding x.state.traffic (client.withCaller y.state) x.now k what url fired cancelAfter))
      (Caller.step y (.call k what.key (client.ttl what) fired)) := by
  have hcomes := h.step_call hk what.key (client.ttl what) fired
  refine h.moved ?_ (by rw [hcomes]; exact h.now)
    (fun task ht hmem => ?_) (fun j call ha => ?_) (fun j call hj => ?_)
  · rw [hcomes]
    exact client?_boarding h.same
  · rw [hcomes, Clock.World.mem_wake]
    rcases List.mem_append.1 hmem with hold | hnew
    · exact Or.inl (h.ready task ht (List.mem_filter.1 hold).1)
    · cases List.mem_singleton.1 hnew
      exact Or.inr (List.mem_singleton.2 rfl)
  · have hne := ha.ne hk
    obtain ⟨hanswer, hlookup⟩ := ha
    refine ⟨(Table.get?_put_of_ne _ _ hne).trans hanswer, ?_⟩
    show ∃ what' fired' cancelAfter' url', x.state.operations.get? j = _ ∧ _ ∧
      (x.state.traffic.asks.put k _).get? j = _ ∧ _
    rw [Table.get?_put_of_ne _ _ hne]
    exact hlookup
  · rcases Caller.calls_known y _ hj with hold | ⟨fired', heq⟩
    · exact Or.inl hold
    · simp only [Caller.Event.call.injEq] at heq
      obtain ⟨rfl, hkey, httl, -⟩ := heq
      exact Or.inr ⟨Table.get?_put_self _ _ _, what, fired, cancelAfter, url, hop, hurl,
        Table.get?_put_self _ _ _, hkey.symm, httl.symm⟩

/-- The first turn of the call takes the replies to what the lookup asks. -/
theorem echoTask_boarding (h : Mirrors client x y) (k : Nat) (what : Lookup) (url : Url)
    (fired : Bool) (cancelAfter : Option Nat) :
    echoTask client.name
      (boarding x.state.traffic (client.withCaller y.state) x.now k what url fired cancelAfter)
      client.name (.call k) =
      [.turn k (x.state.traffic.replies (client.withCaller y.state) k
        ⟨client.request url, what.subject⟩)] := by
  have hasks : (boarding x.state.traffic (client.withCaller y.state) x.now k what url fired
      cancelAfter).asks.get? k = some ⟨client.request url, what.subject⟩ :=
    Table.get?_put_self _ _ _
  have hsame : (boarding x.state.traffic (client.withCaller y.state) x.now k what url fired
      cancelAfter).gateway.client? client.name = some _ := client?_boarding h.same
  unfold echoTask
  simp only [if_true, hsame, taskEvent, Traffic.answersFor_eq hasks]
  -- a call that comes in has made no attempt
  rfl

/-- The lookup of a client comes in as a call, and takes its first turn. -/
theorem mirrors_boarding (h : Mirrors client x y) (hk : x.state.answers.get? k = none)
    (hop : x.state.operations.get? k = some (.lookup client.name what fired cancelAfter))
    (hurl : what.resolve client.registry = .ok url) {t : Traffic}
    (ht : t = boarding x.state.traffic (client.withCaller y.state) x.now k what url fired
      cancelAfter) :
    Mirrors client
      (afterBegin x k (.asking client.name,
        { x.state with traffic := (t.run x.now client.name (.call k)).1 },
        ((t.run x.now client.name (.call k)).2 ++
          if cancelAfter = some 0 then [Caller.Task.fire k] else []).map (.client client.name)))
      ((echoLook client.name x.state.traffic k what fired).foldl Caller.step y) := by
  have hcomes := mirrors_comes h hk hop hurl
  have hecho := echoTask_boarding h k what url fired cancelAfter
  rw [← ht] at hcomes hecho
  have hturn : Mirrors client (runTask (boarded x client.name k t) (.client client.name (.call k)))
      ((echoTask client.name t client.name (.call k)).foldl Caller.step
        (Caller.step y (.call k what.key (client.ttl what) fired))) :=
    mirrors_runTask hcomes (fun _ => List.mem_append_right _ (List.mem_singleton.2 rfl))
  have hfold : (echoLook client.name x.state.traffic k what fired).foldl Caller.step y =
      ((echoTask client.name t client.name (.call k)).foldl Caller.step
        (Caller.step y (.call k what.key (client.ttl what) fired))).wake [.call k] := by
    rw [hecho]
    unfold echoLook
    simp only [h.same]
    rw [show (client.withCaller y.state).registry = client.registry from rfl, hurl]
    rfl
  rw [hfold]
  refine hturn.moved hturn.same hturn.now (fun task htask hmem => ?_) (fun _ _ ha => ha)
    (fun _ call hc => Or.inl ⟨call.stage, hc⟩)
  rw [Clock.World.mem_wake]
  by_cases hself : task = .call k
  · exact Or.inr (List.mem_singleton.2 hself)
  refine Or.inl (hturn.ready task htask ?_)
  unfold runTask
  rw [Clock.World.mem_wake]
  rcases mem_afterBegin.1 hmem with hold | hnew
  · refine Or.inl (List.mem_filter.2 ⟨List.mem_append_left _ (List.mem_filter.2
      ⟨hold.1, decide_eq_true hold.2⟩), decide_eq_true fun heq => hself ?_⟩)
    cases heq
    rfl
  · refine Or.inr (mem_map_client.2 ⟨rfl, ?_⟩)
    rcases List.mem_append.1 (mem_map_client.1 hnew).2 with hwoken | hfire
    · exact hwoken
    -- the token fires in a turn of its own
    · split at hfire
      · cases List.mem_singleton.1 hfire
        cases htask
      · cases hfire

end Look

theorem mirrors_look (h : Mirrors client x y) {k : Nat} (hk : x.state.answers.get? k = none)
    {name : String} {what : Lookup} {fired : Bool} {cancelAfter : Option Nat}
    (hop : x.state.operations.get? k = some (.lookup name what fired cancelAfter)) :
    Mirrors client (afterBegin x k (x.state.look x.now k name what fired cancelAfter))
      ((if name = client.name then echoLook client.name x.state.traffic k what fired
        else []).foldl Caller.step y) := by
  rcases look_cases x.state x.now k name what fired cancelAfter with ⟨e, hlook, hno⟩ |
    ⟨c, url, hc, hurl, hlook⟩
  · have hecho : (if name = client.name then echoLook client.name x.state.traffic k what fired
        else []) = [] := by
      split
      · rename_i hn
        have herror : what.resolve (client.withCaller y.state).registry = .error e :=
          hno _ (by rw [hn]; exact h.same)
        unfold echoLook
        simp only [h.same, herror]
      · rfl
    rw [hlook, hecho]
    exact mirrors_begin_quiet h hk rfl rfl rfl (fun _ _ => rfl) (fun _ hmem => by cases hmem)
  rw [hlook]
  by_cases hn : name = client.name
  · subst hn
    rw [h.same] at hc; cases hc
    rw [if_pos rfl]
    exact mirrors_boarding h hk hop hurl rfl
  · have hcname : c.name = name := client?_name hc
    subst hcname
    rw [if_neg hn]
    refine mirrors_begin_quiet h hk ?_ rfl rfl
      (fun j hj => ?_) (fun task hmem => hn (mem_map_client.1 hmem).1.symm)
    · exact (client?_run_of_ne (Ne.symm hn) _ _).trans
        (client?_modify_of_ne (fun _ hd => hd) (Ne.symm hn))
    · show Table.get? (Traffic.asks (Traffic.run _ _ _ _).1) j = _
      rw [Traffic.run_asks]
      exact Table.get?_put_of_ne _ _ hj

theorem mirrors_closeAll (hnames : x.state.traffic.gateway.names.Nodup)
    (h : Mirrors client x y) {k : Nat} (hk : x.state.answers.get? k = none) :
    Mirrors client (afterBegin x k (.nothing, x.state.closeAll)) (Caller.step y .close) := by
  have hname : ∀ c ∈ x.state.traffic.gateway.clients,
      (c.withCaller c.caller.close).name = c.name := fun _ _ => rfl
  refine h.moved ?_ h.now (fun task ht hmem => ?_)
    (Asked.afterBegin hk rfl rfl (fun _ _ => rfl)) (fun j call hj => Or.inl ?_)
  · refine (client?_map hname).trans ?_
    rw [h.same]
    rfl
  · show task ∈ (Clock.World.wake _ y.state.closeAndWake.2).ready
    rw [Clock.World.mem_wake]
    rcases mem_afterBegin.1 hmem with ⟨hold, -⟩ | hnew
    · exact Or.inl (h.ready task ht hold)
    · obtain ⟨c, hc, htask⟩ := List.mem_flatMap.1 hnew
      obtain ⟨hcname, htask⟩ := mem_map_client.1 htask
      have hsame := client?_of_mem hnames hc
      rw [← hcname, h.same] at hsame; cases hsame
      exact Or.inr htask
  · exact calls_of_step (fun _ _ _ _ heq => by cases heq) hj

theorem mirrors_begin (hnames : x.state.traffic.gateway.names.Nodup)
    (h : Mirrors client x y) {k : Nat} (hk : x.state.answers.get? k = none)
    {op : Operation} (hop : x.state.operations.get? k = some op) :
    Mirrors client (afterBegin x k (x.state.begin x.now k op))
      ((echoBegin client.name x.state.traffic k op).foldl Caller.step y) := by
  have hquiet : ∀ answer, Mirrors client (afterBegin x k (answer, x.state, [])) y := fun answer =>
    mirrors_begin_quiet h hk rfl rfl rfl (fun _ _ => rfl) (fun _ hmem => by cases hmem)
  -- an operation that only looks at a client
  have hlooks : ∀ name (answer : Client → Answer), Mirrors client
      (afterBegin x k (x.state.onClient name (fun c => (answer c, c, [])))) y := by
    intro name answer
    have := mirrors_onClient h hk name (fun c => (answer c, c, [])) [] (fun _ => rfl) rfl rfl
      (fun task hor => hor.resolve_right fun hmem => by cases hmem)
      (fun j call hj => ⟨call.stage, hj⟩)
    rw [ite_self] at this
    exact this
  cases op with
  | lookup name what fired cancelAfter => exact mirrors_look h hk hop
  | forgetCompany name id =>
    exact mirrors_onClient h hk name _ [.delete (Lookup.company id).key] (fun _ => rfl) rfl rfl
      (fun task hor => hor.resolve_right fun hmem => by cases hmem)
      (fun j call hj => ⟨call.stage, hj⟩)
  | forgetSearches name =>
    exact mirrors_onClient h hk name _ [.deleteStartingWith Lookup.searchPrefix] (fun _ => rfl) rfl
      rfl (fun task hor => hor.resolve_right fun hmem => by cases hmem)
      (fun j call hj => ⟨call.stage, hj⟩)
  | clientHealth name => exact hlooks name _
  | clientName name => exact hlooks name _
  | clientClose name =>
    refine mirrors_onClient h hk name _ [.close] (fun _ => rfl) rfl rfl (fun task hor => ?_)
      (fun j call hj => ⟨call.stage, hj⟩)
    exact (Clock.World.mem_wake _ _ _).2 hor
  | names => exact hquiet _
  | health => exact hquiet _
  | close => exact mirrors_closeAll hnames h hk
  | rest duration => exact hquiet _

theorem mirrors_turn_operation (hnames : x.state.traffic.gateway.names.Nodup)
    (h : Mirrors client x y) (k : Nat) :
    Mirrors client (runTask x (.operation k))
      ((echoOperation client.name x.state k).foldl Caller.step y) := by
  cases operation_turn x k with
  | begins op hk hop hrun =>
    rw [echoOperation_of_begins hk hop, hrun]
    exact mirrors_begin hnames h hk hop
  | rests answers hno hanswers hrun =>
    rw [echoOperation_of_rests hno, hrun]
    refine h.quiet rfl rfl (fun task _ hmem => (List.mem_filter.1 hmem).1) ?_
    rintro j call ⟨hanswer, hlookup⟩
    refine ⟨?_, hlookup⟩
    rcases hanswers with rfl | ⟨t, hrest, rfl⟩
    · exact hanswer
    · have hne : j ≠ k := by
        rintro rfl
        rw [hrest] at hanswer; cases hanswer
      exact (Table.get?_put_of_ne _ _ hne).trans hanswer

theorem mirrors_pass (hnames : x.state.traffic.gateway.names.Nodup)
    (h : Mirrors client x y) (limit : Nat) :
    Mirrors client (x.pass Session.system limit)
      (Caller.step y (.pass (x.pass Session.system limit).now)) := by
  -- the timers of the caller are timers of the gateway
  have htimers : ∀ p ∈ (Caller.system Caller.silence).timers y.state, y.now < p.1 →
      (x.pass Session.system limit).now ≤ p.1 := by
    rintro ⟨t, task⟩ hp hlt
    refine Clock.World.pass_le (t, Session.Task.client client.name task)
      (mem_timers_client.2 ⟨client.withCaller y.state, ?_, rfl, ?_⟩) (by rw [← h.now]; exact hlt)
    · exact List.mem_of_find?_eq_some h.same
    · exact (Caller.mem_timers.1 hp).1
  have hnow : (y.pass (Caller.system Caller.silence) (x.pass Session.system limit).now).now =
      (x.pass Session.system limit).now :=
    Clock.World.pass_now (by rw [h.now]; exact Clock.World.le_pass) htimers
  show Mirrors client _ (y.pass (Caller.system Caller.silence) (x.pass Session.system limit).now)
  refine h.moved ?_ hnow (fun task ht hmem => ?_) ?_
    (fun j call hj => Or.inl ⟨call.stage, ?_⟩)
  · rw [Clock.World.state_pass, Clock.World.state_pass]
    exact h.same
  · rw [Clock.World.mem_pass, hnow]
    rcases (Clock.World.mem_pass _).1 hmem with hold | ⟨hlt, hdue⟩
    · exact Or.inl (h.ready task ht hold)
    · refine Or.inr ⟨by rw [h.now]; exact hlt, ?_⟩
      obtain ⟨c, hc, hname, hdue⟩ := mem_timers_client.1 hdue
      have hsame := client?_of_mem hnames hc
      rw [hname, h.same] at hsame; cases hsame
      exact Caller.mem_timers.2 ⟨hdue, ht⟩
  · intro j call ha
    rw [Clock.World.state_pass]
    exact ha
  · rw [Clock.World.state_pass] at hj
    exact hj

/-- A cleanup that runs late is one of the client's own, or of another client. -/
theorem mirrors_late (h : Mirrors client x y) (name : String) : Mirrors client (step x (.late name))
    ((echo client.name x (.late name)).foldl Caller.step y) := by
  by_cases hr : .client name (.chore .tick) ∈ x.ready
  swap
  · have hecho : echo client.name x (.late name) = [] := if_neg fun hboth => hr hboth.2
    rw [hecho, step, if_neg hr]
    exact h
  rw [step, if_pos hr]
  by_cases hn : name = client.name
  · subst hn
    have hecho : echo client.name x (.late client.name) = [.chore .tick true] := if_pos ⟨rfl, hr⟩
    have hstep : Caller.step y (.chore .tick true) = Caller.tend y .tick true :=
      if_pos (h.ready (.chore .tick) rfl hr)
    rw [hecho, List.foldl_cons, List.foldl_nil, hstep]
    refine h.moved ?_ h.now (fun task ht hmem => ?_) (Asked.of_traffic rfl rfl rfl)
      (fun j call hj => Or.inl ⟨call.stage, hj⟩)
    · refine (client?_modify_self (f := fun c => c.withCaller (c.caller.perform x.now true .tick))
        fun c hname => (withCaller_name c _).trans hname).trans ?_
      rw [h.same, ← h.now]
      rfl
    · obtain ⟨hold, hne⟩ := List.mem_filter.1 hmem
      have hne' : task ≠ .chore .tick := fun heq => of_decide_eq_true hne (by rw [heq])
      exact List.mem_filter.2 ⟨h.ready task ht hold, decide_eq_true hne'⟩
  · have hecho : echo client.name x (.late name) = [] := if_neg fun hboth => hn hboth.1
    rw [hecho, List.foldl_nil]
    exact h.quiet (client?_modify_of_ne (fun c hname => (withCaller_name c _).trans hname)
      (Ne.symm hn)) rfl (fun _ _ hmem => (List.mem_filter.1 hmem).1) (Asked.of_traffic rfl rfl rfl)

/-- **An event of the gateway is what it echoes as for the client.** -/
theorem mirrors_step (hnames : x.state.traffic.gateway.names.Nodup) (h : Mirrors client x y)
    (e : Event) :
    Mirrors client (step x e) ((echo client.name x e).foldl Caller.step y) := by
  cases e with
  | ask operation =>
    refine h.quiet rfl rfl (fun task _ hmem => ?_) ?_
    · exact ((Clock.World.mem_wake _ _ _).1 hmem).resolve_right fun hnew => by
        cases List.mem_singleton.1 hnew
    · rintro j call ⟨hanswer, what, fired, cancelAfter, url, hop, hlookup⟩
      exact ⟨hanswer, what, fired, cancelAfter, url, Table.get?_append_of_some hop, hlookup⟩
  | turn task =>
    by_cases hr : task ∈ x.ready
    · cases task with
      | operation k =>
        simp only [step, echo, if_pos hr]
        exact mirrors_turn_operation hnames h k
      | client name task =>
        simp only [step, echo, if_pos hr]
        exact mirrors_runTask h fun _ => hr
    · have hecho : echo client.name x (.turn task) = [] := by
        cases task <;> exact if_neg hr
      rw [hecho, step, if_neg hr]
      exact h
  | late name => exact mirrors_late h name
  | wake name k =>
    have hmem : ∀ task : Caller.Task, .client client.name task ∈ (step x (.wake name k)).ready →
        .client client.name task ∈ x.ready ∨ (client.name = name ∧ task = .call k) := by
      intro task htask
      refine ((Clock.World.mem_wake _ _ _).1 htask).imp_right fun hnew => ?_
      cases List.mem_singleton.1 hnew
      exact ⟨rfl, rfl⟩
    simp only [echo]
    by_cases hn : name = client.name
    · rw [if_pos hn]
      refine h.moved h.same h.now (fun task ht htask => ?_) (fun _ _ ha => ha)
        (fun j call hj => Or.inl ⟨call.stage, hj⟩)
      refine (Clock.World.mem_wake _ _ _).2 ((hmem task htask).imp (h.ready task ht) fun hnew => ?_)
      exact List.mem_singleton.2 hnew.2
    · rw [if_neg hn]
      exact h.quiet rfl rfl (fun task _ htask => (hmem task htask).resolve_right
        fun hnew => hn hnew.1.symm) (fun _ _ ha => ha)
  | fire name k => exact mirrors_runTask h (fun ht => by cases ht)
  | abort name k => exact mirrors_runTask h (fun ht => by cases ht)
  | pass limit => exact mirrors_pass hnames h limit

/-- The run of the client of a registry: its events up to a point of the run of the gateway. -/
abbrev course (registry : String) (x : World) (es : List Event) (n : Nat) :
    List (Caller.Event Json) :=
  Trace.echoed step (echo registry) x es n

/-- The point of the run of the client at a point of the run of the gateway. -/
abbrev moment (registry : String) (x : World) (es : List Event) (n : Nat) : Nat :=
  (course registry x es n).length

/-- **The client of a registry goes through a run of its own.** -/
theorem mirrored {es : List Event} (hnames : x.state.traffic.gateway.names.Nodup)
    (h : Mirrors client x y) (n : Nat) :
    Mirrors client (worldAt x es n)
      (Caller.worldAt y (course client.name x es n) (moment client.name x es n)) := by
  have hboth : (worldAt x es n).state.traffic.gateway.names.Nodup ∧ Mirrors client (worldAt x es n)
      (Caller.worldAt y (course client.name x es n) (moment client.name x es n)) :=
    Trace.after_echoed (R := fun w z => w.state.traffic.gateway.names.Nodup ∧ Mirrors client w z)
      ⟨hnames, h⟩ (fun w _ e _ hw =>
        ⟨by rw [(step_alike w e).names]; exact hw.1, mirrors_step hw.1 hw.2 e⟩) n
  exact hboth.2

/-- Later events of the gateway leave the points of the run of a client as they were. -/
theorem worldAt_course {es : List Event} {m n i : Nat} {registry : String} (hmn : m ≤ n)
    (hi : i ≤ moment registry x es m) :
    Caller.worldAt y (course registry x es n) i = Caller.worldAt y (course registry x es m) i :=
  Trace.after_of_isPrefix (Trace.echoed_isPrefix hmn) hi

/-- A client that is there at some point was there from the start. -/
theorem exists_client_at_dawn {g : Gateway} {network : Http.Network} {now n : Nat}
    {es : List Event} {registry : String} {c : Client} (hnames : g.names.Nodup)
    (hc : (worldAt (dawn g network now) es n).state.traffic.gateway.client? registry = some c) :
    ∃ client, client.name = registry ∧ g.client? client.name = some client := by
  have hsame : (worldAt (dawn g network now) es n).state.traffic.gateway.names = g.names :=
    (worldAt_alike (dawn g network now) es n).names
  have hmem : registry ∈ g.names := by
    rw [← hsame, ← client?_name hc]
    exact List.mem_map_of_mem (List.mem_of_find?_eq_some hc)
  obtain ⟨client, hclient, hname⟩ := List.mem_map.1 hmem
  exact ⟨client, hname, client?_of_mem hnames hclient⟩

/-- The client of a new gateway. -/
theorem dawn_mirrors {settings : Config.Settings} {g : Gateway} {network : Http.Network}
    {now : Nat} (hg : ofSettings settings now = .ok g)
    (hc : g.client? client.name = some client) :
    Mirrors client (dawn g network now) (Caller.dawn client.name settings now) where
  same := by
    obtain ⟨r, -, hmake⟩ := ofSettings_client hg hc
    have hcaller : client.caller = Caller.make client.name settings now := by
      rw [Client.make_caller hmake, Client.name, Client.make_registry hmake]
    show g.client? client.name = some (client.withCaller (Caller.make client.name settings now))
    rw [hc, ← hcaller]
    rfl
  now := rfl
  ready := fun _ _ hmem => by cases hmem
  asked := fun k call hk => by cases hk

end Gateway

end RegistryLookup
