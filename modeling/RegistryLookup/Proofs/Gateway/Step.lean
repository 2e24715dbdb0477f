import RegistryLookup.Proofs.Gateway.Run

/-!
# What an event does to a gateway

* `run_spec`: what a task of a client makes of the gateway.
* `operation_turn`, `look_cases`, `onClient_cases`: what the turn of an operation is.
* `step_alike`: no event changes the names of the registries, or the network.
* `answer_step`: what an event makes of the answer to an operation.
-/

namespace RegistryLookup.Gateway

variable {x : World}

theorem mem_map_client {name : String} {tasks : List Caller.Task} {registry : String}
    {task : Caller.Task} : Session.Task.client registry task ∈ tasks.map (.client name) ↔
      registry = name ∧ task ∈ tasks := by
  simp only [List.mem_map, Session.Task.client.injEq]
  constructor
  · rintro ⟨t, ht, rfl, rfl⟩
    exact ⟨rfl, ht⟩
  · rintro ⟨rfl, ht⟩
    exact ⟨task, ht, rfl, rfl⟩

theorem withCaller_name (c : Client) (caller : Caller Json) : (c.withCaller caller).name = c.name :=
  rfl

/-- What a task of a client makes of the gateway. -/
theorem run_spec {t : Traffic} {name : String} {c : Client} (h : t.gateway.client? name = some c)
    (now : Nat) (task : Caller.Task) :
    (t.run now name task).1.gateway = t.gateway.modify name
      (fun _ => c.withCaller (c.caller.run (t.answersFor c) now task).1) ∧
    (t.run now name task).1.arrivals = t.sent c
      (c.withCaller (c.caller.run (t.answersFor c) now task).1) task ++ t.arrivals ∧
    (t.run now name task).2 = (c.caller.run (t.answersFor c) now task).2 := by
  unfold Traffic.run
  simp only [h]
  exact ⟨trivial, trivial, trivial⟩

/-- A task of another client leaves a client as it is, and so does one of a client that is not
there. -/
theorem client?_run_of_ne {t : Traffic} {name registry : String} (hne : registry ≠ name) (now : Nat)
    (task : Caller.Task) :
    (t.run now name task).1.gateway.client? registry = t.gateway.client? registry := by
  cases hc : t.gateway.client? name with
  | none => unfold Traffic.run; simp only [hc]
  | some c =>
    have hname : c.name = name := client?_name hc
    rw [(run_spec hc now task).1]
    exact client?_modify_of_ne (fun _ _ => hname) hne

/-- What no event changes: the names of the registries, and the network. -/
structure Traffic.Alike (t t' : Traffic) : Prop where
  names : t'.gateway.names = t.gateway.names
  network : t'.network = t.network

theorem Traffic.Alike.rfl {t : Traffic} : t.Alike t := ⟨Eq.refl _, Eq.refl _⟩

theorem Traffic.Alike.trans {t t' t'' : Traffic} (h : t.Alike t') (h' : t'.Alike t'') :
    t.Alike t'' :=
  ⟨h'.names.trans h.names, h'.network.trans h.network⟩

theorem run_alike (t : Traffic) (name : String) (now : Nat) (task : Caller.Task) :
    t.Alike (t.run now name task).1 := by
  cases hc : t.gateway.client? name with
  | none => unfold Traffic.run; simp only [hc]; exact .rfl
  | some c =>
    have hname : c.name = name := client?_name hc
    refine ⟨?_, by unfold Traffic.run; simp only [hc]⟩
    rw [(run_spec hc now task).1]
    exact names_modify (fun _ _ => hname)

/-- The world after an operation has begun. -/
def afterBegin (x : World) (k : Nat) (b : Answer × Session × List Session.Task) : World :=
  { x with
    state := { b.2.1 with answers := b.2.1.answers.put k b.1 }
    ready := x.ready.filter (· ≠ Session.Task.operation k) }.wake b.2.2

theorem mem_afterBegin {k : Nat} {b : Answer × Session × List Session.Task} {task : Session.Task} :
    task ∈ (afterBegin x k b).ready ↔ (task ∈ x.ready ∧ task ≠ .operation k) ∨ task ∈ b.2.2 := by
  unfold afterBegin
  rw [Clock.World.mem_wake]
  simp only [List.mem_filter, decide_eq_true_eq]

/-- What an operation does that acts on one client. -/
theorem onClient_cases (s : Session) (name : String)
    (act : Client → Answer × Client × List Caller.Task) :
    (s.traffic.gateway.client? name = none ∧
      s.onClient name act = (.refused (unknownRegistry name), s, [])) ∨
    ∃ c, s.traffic.gateway.client? name = some c ∧ s.onClient name act = ((act c).1,
      s.withGateway (s.traffic.gateway.modify name (fun _ => (act c).2.1)),
      (act c).2.2.map (.client name)) := by
  unfold Session.onClient
  cases hc : s.traffic.gateway.client? name with
  | none => exact Or.inl ⟨rfl, rfl⟩
  | some c => exact Or.inr ⟨c, rfl, rfl⟩

/-- The gateway when a lookup has become a call, before the first turn of the call. -/
def boarding (t : Traffic) (c : Client) (now k : Nat) (what : Lookup) (url : Url) (fired : Bool)
    (cancelAfter : Option Nat) : Traffic :=
  { t with
    gateway := t.gateway.modify c.name
      (·.withCaller (c.caller.start k what.key (c.ttl what) fired))
    asks := t.asks.put k ⟨c.request url, what.subject⟩
    plans := t.plans.put k { cancelAt := cancelAfter.map (now + ·) } }

theorem look_cases (s : Session) (now k : Nat) (name : String) (what : Lookup) (fired : Bool)
    (cancelAfter : Option Nat) :
    (∃ e, s.look now k name what fired cancelAfter = (.refused e, s, []) ∧
      ∀ c, s.traffic.gateway.client? name = some c →
        what.resolve c.registry = .error e) ∨
    ∃ c url, s.traffic.gateway.client? name = some c ∧ what.resolve c.registry = .ok url ∧
      s.look now k name what fired cancelAfter = (.asking name,
        { s with traffic := ((boarding s.traffic c now k what url fired cancelAfter).run now name
          (.call k)).1 },
        (((boarding s.traffic c now k what url fired cancelAfter).run now name (.call k)).2 ++
          if cancelAfter = some 0 then [Caller.Task.fire k] else []).map (.client name)) := by
  unfold Session.look
  cases hc : s.traffic.gateway.client? name with
  | none => exact Or.inl ⟨_, rfl, fun c h => by cases h⟩
  | some c =>
    cases hurl : what.resolve c.registry with
    | error e =>
      refine Or.inl ⟨e, by simp only [hurl], fun c' h => ?_⟩
      cases h
      exact hurl
    | ok url =>
      have hname : c.name = name := client?_name hc
      subst hname
      exact Or.inr ⟨c, url, rfl, hurl, by simp only [hurl]; rfl⟩

/-- The traffic of a gateway once a lookup of a client has become a call. -/
theorem client?_boarding {t : Traffic} {c : Client} (hc : t.gateway.client? c.name = some c)
    {now k : Nat} {what : Lookup} {url : Url} {fired : Bool} {cancelAfter : Option Nat} :
    (boarding t c now k what url fired cancelAfter).gateway.client? c.name =
      some (c.withCaller (c.caller.start k what.key (c.ttl what) fired)) := by
  show (t.gateway.modify c.name (·.withCaller _)).client? c.name = _
  rw [client?_modify_self (fun d hd => (withCaller_name d _).trans hd), hc]
  rfl

/-- What the turn of an operation is: its beginning, or at most the end of a rest. -/
inductive OperationTurn (x : World) (k : Nat) : Prop
  | begins (op : Operation) (hk : x.state.answers.get? k = none)
      (hop : x.state.operations.get? k = some op)
      (h : runTask x (.operation k) = afterBegin x k (x.state.begin x.now k op))
  | rests (answers : Table Nat Answer)
      (hno : x.state.answers.get? k = none → x.state.operations.get? k = none)
      (hanswers : answers = x.state.answers ∨ ∃ t, x.state.answers.get? k = some (.resting t) ∧
        answers = x.state.answers.put k .nothing)
      (h : runTask x (.operation k) = { x with
        state := { x.state with answers := answers }
        ready := x.ready.filter (· ≠ Session.Task.operation k) })

theorem operation_turn (x : World) (k : Nat) : OperationTurn x k := by
  have hrun : ∀ b, x.state.run x.now (.operation k) = b → runTask x (.operation k) =
      { x with state := b.1, ready := x.ready.filter (· ≠ Session.Task.operation k) }.wake b.2 := by
    rintro b rfl
    rfl
  -- an operation that has an answer, and does not rest
  have hsame : (x.state.answers.get? k = none → x.state.operations.get? k = none) →
      x.state.run x.now (.operation k) = (x.state, []) → OperationTurn x k :=
    fun hno h => .rests _ hno (Or.inl rfl) (hrun _ h)
  cases ha : x.state.answers.get? k with
  | none =>
    cases hop : x.state.operations.get? k with
    | none => exact hsame (fun _ => hop) (by simp only [Session.run, ha, hop])
    | some op =>
      refine .begins op ha hop (hrun ({ (x.state.begin x.now k op).2.1 with
        answers := (x.state.begin x.now k op).2.1.answers.put k (x.state.begin x.now k op).1 },
        (x.state.begin x.now k op).2.2) ?_)
      simp only [Session.run, ha, hop]
  | some a =>
    have hno : x.state.answers.get? k = none → x.state.operations.get? k = none := fun h => by
      rw [ha] at h; cases h
    cases a with
    | resting t =>
      refine .rests _ hno (Or.inr ⟨t, ha, rfl⟩)
        (hrun ({ x.state with answers := x.state.answers.put k .nothing }, []) ?_)
      simp only [Session.run, ha]
    | _ => exact hsame hno (by simp only [Session.run, ha])

/-- The timers of a gateway that wake tasks of clients. -/
theorem mem_timers_client {s : Session} {t : Nat} {name : String} {task : Caller.Task} :
    (t, Session.Task.client name task) ∈ Session.system.timers s ↔
      ∃ c ∈ s.traffic.gateway.clients, c.name = name ∧
        (t, task) ∈ c.caller.timers s.traffic.plans := by
  have hrest : (t, Session.Task.client name task) ∉ s.restTimers := by
    intro hmem
    obtain ⟨⟨k, a⟩, -, ha⟩ := List.mem_filterMap.1 hmem
    cases a <;> cases ha
  show _ ∈ s.restTimers ++ s.traffic.timers.map _ ↔ _
  rw [List.mem_append, or_iff_right hrest]
  unfold Traffic.timers
  constructor
  · intro hmem
    obtain ⟨⟨t', name', task'⟩, htimer, heq⟩ := List.mem_map.1 hmem
    cases heq
    obtain ⟨c, hc, hmine⟩ := List.mem_flatMap.1 htimer
    obtain ⟨⟨t', task'⟩, hown, heq⟩ := List.mem_map.1 hmine
    cases heq
    exact ⟨c, hc, rfl, hown⟩
  · rintro ⟨c, hc, rfl, hown⟩
    refine List.mem_map.2 ⟨(t, c.name, task), List.mem_flatMap.2 ⟨c, hc, ?_⟩, rfl⟩
    exact List.mem_map.2 ⟨(t, task), hown, rfl⟩

/-- What the beginning of an operation does not touch. -/
structure BeginKeeps (s : Session) (b : Answer × Session × List Session.Task) : Prop where
  alike : s.traffic.Alike b.2.1.traffic
  operations : b.2.1.operations = s.operations
  answers : b.2.1.answers = s.answers
  /-- The result of a lookup is no answer of its own. -/
  unended : ∀ r, b.1 ≠ .result r

theorem onClient_keeps (s : Session) (name : String)
    {act : Client → Answer × Client × List Caller.Task} (hname : ∀ c, (act c).2.1.name = c.name)
    (hanswer : ∀ c r, (act c).1 ≠ .result r) : BeginKeeps s (s.onClient name act) := by
  rcases onClient_cases s name act with ⟨-, h⟩ | ⟨c, hc, h⟩
  · rw [h]
    exact ⟨.rfl, rfl, rfl, fun r heq => by cases heq⟩
  · have hcname : (act c).2.1.name = name := (hname c).trans (client?_name hc)
    rw [h]
    exact ⟨⟨names_modify fun _ _ => hcname, rfl⟩, rfl, rfl, hanswer c⟩

theorem begin_keeps (s : Session) (now k : Nat) (op : Operation) :
    BeginKeeps s (s.begin now k op) := by
  have hsame : ∀ answer : Answer, (∀ r, answer ≠ .result r) → BeginKeeps s (answer, s, []) :=
    fun _ h => ⟨.rfl, rfl, rfl, h⟩
  cases op with
  | lookup name what fired cancelAfter =>
    rcases look_cases s now k name what fired cancelAfter with ⟨e, h, -⟩ | ⟨c, url, hc, -, h⟩
    · rw [Session.begin, h]
      exact hsame _ (fun r heq => by cases heq)
    · rw [Session.begin, h]
      have hboarding : s.traffic.Alike (boarding s.traffic c now k what url fired cancelAfter) :=
        ⟨names_modify fun _ hd => hd, rfl⟩
      exact ⟨hboarding.trans (run_alike _ name now (.call k)), rfl, rfl, fun r heq => by cases heq⟩
  | forgetCompany name id =>
    rw [Session.begin]
    refine onClient_keeps s name ?_ ?_
    · exact fun _ => rfl
    · exact fun _ _ heq => by cases heq
  | forgetSearches name =>
    rw [Session.begin]
    refine onClient_keeps s name ?_ ?_
    · exact fun _ => rfl
    · exact fun _ _ heq => by cases heq
  | clientHealth name =>
    rw [Session.begin]
    refine onClient_keeps s name ?_ ?_
    · exact fun _ => rfl
    · exact fun _ _ heq => by cases heq
  | clientName name =>
    rw [Session.begin]
    refine onClient_keeps s name ?_ ?_
    · exact fun _ => rfl
    · exact fun _ _ heq => by cases heq
  | clientClose name =>
    rw [Session.begin]
    refine onClient_keeps s name ?_ ?_
    · exact fun _ => rfl
    · exact fun _ _ heq => by cases heq
  | names => exact hsame _ (fun r heq => by cases heq)
  | health => exact hsame _ (fun r heq => by cases heq)
  | close => exact ⟨⟨names_map fun _ _ => rfl, rfl⟩, rfl, rfl, fun r heq => by cases heq⟩
  | rest duration =>
    refine hsame _ (fun r heq => ?_)
    split at heq <;> cases heq

/-- What an event makes of the answer to an operation. -/
inductive AnswerStep (x : World) (e : Event) (k : Nat) : Prop
  | same (h : (step x e).state.answers.get? k = x.state.answers.get? k)
  | begins (answer : Answer) (hk : x.state.answers.get? k = none)
      (hanswer : ∀ r, answer ≠ .result r)
      (h : (step x e).state.answers.get? k = some answer)
  | rested (t : Nat) (hk : x.state.answers.get? k = some (.resting t))
      (h : (step x e).state.answers.get? k = some .nothing)

theorem answer_step (x : World) (e : Event) (k : Nat) : AnswerStep x e k := by
  cases e with
  | turn task =>
    by_cases hr : task ∈ x.ready
    swap
    · exact .same (by rw [step, if_neg hr])
    cases task with
    | client name task => exact .same (by rw [step, if_pos hr]; rfl)
    | operation j =>
      have hput : ∀ {answers : Table Nat Answer} {a : Answer},
          (step x (.turn (.operation j))).state.answers = answers.put j a →
          answers = x.state.answers → j ≠ k → AnswerStep x (.turn (.operation j)) k := by
        rintro _ a h rfl hne
        exact .same (by rw [h]; exact Table.get?_put_of_ne _ _ (Ne.symm hne))
      have hstep : step x (.turn (.operation j)) = runTask x (.operation j) := if_pos hr
      cases operation_turn x j with
      | begins op hk hop hrun =>
        have hkeeps := begin_keeps x.state x.now j op
        have hanswers : (step x (.turn (.operation j))).state.answers =
            (x.state.begin x.now j op).2.1.answers.put j (x.state.begin x.now j op).1 := by
          rw [hstep, hrun]
          rfl
        by_cases hjk : j = k
        · subst hjk
          exact .begins _ hk hkeeps.unended (by rw [hanswers]; exact Table.get?_put_self _ _ _)
        · exact hput hanswers hkeeps.answers hjk
      | rests answers hno hanswers hrun =>
        have hafter : (step x (.turn (.operation j))).state.answers = answers := by
          rw [hstep, hrun]
        rcases hanswers with rfl | ⟨t, hrest, rfl⟩
        · exact .same (by rw [hafter])
        · by_cases hjk : j = k
          · subst hjk
            exact .rested t hrest (by rw [hafter]; exact Table.get?_put_self _ _ _)
          · exact hput hafter rfl hjk
  | late name => exact .same (by simp only [step]; split <;> rfl)
  | pass limit => exact .same (by rw [step, Clock.World.state_pass])
  | _ => exact .same rfl

/-- **No event changes the names of the registries, or the network.** -/
theorem step_alike (x : World) (e : Event) : x.state.traffic.Alike (step x e).state.traffic := by
  cases e with
  | turn task =>
    by_cases hr : task ∈ x.ready
    swap
    · rw [step, if_neg hr]
      exact .rfl
    rw [step, if_pos hr]
    cases task with
    | client name task => exact run_alike _ _ _ _
    | operation j =>
      cases operation_turn x j with
      | begins op _ _ hrun =>
        rw [hrun]
        exact (begin_keeps x.state x.now j op).alike
      | rests _ _ _ hrun =>
        rw [hrun]
        exact .rfl
  | late name =>
    simp only [step]
    split
    · exact ⟨names_modify fun _ hname => hname, Eq.refl _⟩
    · exact .rfl
  | fire name k => exact run_alike x.state.traffic name x.now (.fire k)
  | abort name k => exact run_alike x.state.traffic name x.now (.abort k)
  | pass limit => rw [step, Clock.World.state_pass]; exact .rfl
  | ask operation => exact .rfl
  | wake name k => exact .rfl

theorem worldAt_alike (x : World) (es : List Event) (n : Nat) :
    x.state.traffic.Alike (worldAt x es n).state.traffic :=
  Trace.after_invariant (P := fun (y : World) => x.state.traffic.Alike y.state.traffic) .rfl
    (fun y e _ hy => hy.trans (step_alike y e)) n

end RegistryLookup.Gateway
