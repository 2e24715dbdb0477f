import Mathlib.Data.List.Find
import Mathlib.Data.List.Nodup
import RegistryLookup.Gateway.Session
import RegistryLookup.Proofs.Clock
import RegistryLookup.Proofs.Table
import RegistryLookup.Proofs.Trace

/-!
# Runs of a gateway

Operations are asked for at any time and overlap as they like, ready tasks run in any order, tokens
fire, lookups are dropped, and time passes, no further than to the next timer. A task that is ready
may have to wait for its turn for any time. Every list of events is a run: an event that cannot
happen changes nothing.

* `client?_modify_self`, `client?_modify_of_ne`: a client is changed, and no other.
* `ofSettings_client`: the clients of a gateway are made for the registries of its configuration.
-/

namespace RegistryLookup

/-- A client works through a caller of its own, under the name of its registry. -/
theorem Client.make_caller {settings : Config.Settings} {now : Nat} {r : Config.Registry}
    {c : Client} (h : make settings now r = .ok c) : c.caller = .make r.name settings now := by
  unfold make at h
  split at h
  · cases h
  · dsimp only at h
    split at h <;> cases h
    rfl

namespace Gateway

/-- What can happen. -/
inductive Event
  /-- An operation is asked for. It gets the next number. -/
  | ask (operation : Operation)
  /-- A ready task runs. A cache that has been closed is not cleaned up. -/
  | turn (task : Session.Task)
  /-- A ready cleanup runs, its timer being looked at before the closing of the cache. -/
  | late (registry : String)
  /-- A lookup is woken for no reason. -/
  | wake (registry : String) (k : Nat)
  | fire (registry : String) (k : Nat)
  | abort (registry : String) (k : Nat)
  /-- Time passes up to an instant, or to the first timer before it. -/
  | pass (limit : Nat)

/-- A gateway on the clock, with the tasks that are ready. -/
abbrev World := Session.World

/-- Let a task run and wake others. -/
def runTask (x : World) (task : Session.Task) : World :=
  let (s, woken) := Session.system.run x.now task x.state
  { x with state := s, ready := x.ready.filter (· ≠ task) }.wake woken

/-- The cleanup of a cache that was due runs, even if the cache has been closed. -/
def tidyLate (x : World) (registry : String) : World :=
  { x with
    state := x.state.withGateway (x.state.traffic.gateway.modify registry
      (fun c => c.withCaller (c.caller.perform x.now true .tick)))
    ready := x.ready.filter (· ≠ .client registry (.chore .tick)) }

/-- The world after an event. -/
def step (x : World) : Event → World
  | .ask operation =>
    let k := x.state.operations.length
    let s := { x.state with operations := x.state.operations ++ [(k, operation)] }
    { x with state := s }.wake [.operation k]
  | .turn task => if task ∈ x.ready then runTask x task else x
  | .late registry =>
    if .client registry (.chore .tick) ∈ x.ready then tidyLate x registry else x
  | .wake registry k => x.wake [.client registry (.call k)]
  | .fire registry k => runTask x (.client registry (.fire k))
  | .abort registry k => runTask x (.client registry (.abort k))
  | .pass limit => x.pass Session.system limit

/-- A gateway before the first event. -/
def dawn (g : Gateway) (network : Http.Network) (now : Nat) : World :=
  { Session.ofGateway g network with now := now }

/-- The world after the first `n` events. -/
abbrev worldAt (x : World) (es : List Event) (n : Nat) : World := Trace.after step x es n

theorem worldAt_zero (x : World) (es : List Event) : worldAt x es 0 = x := Trace.after_zero

theorem worldAt_succ (x : World) {es : List Event} {n : Nat} {e : Event} (he : es[n]? = some e) :
    worldAt x es (n + 1) = step (worldAt x es n) e :=
  Trace.after_of_getElem? he

theorem worldAt_cases (x : World) (es : List Event) (n : Nat) :
    (es[n]? = none ∧ worldAt x es (n + 1) = worldAt x es n) ∨
      ∃ e, es[n]? = some e ∧ worldAt x es (n + 1) = step (worldAt x es n) e :=
  Trace.after_cases step x es n

variable {g : Gateway} {name registry : String} {f : Client → Client}

/-- A change of all clients that keeps their names is seen under each name. -/
theorem client?_map (hf : ∀ c ∈ g.clients, (f c).name = c.name) :
    ({ g with clients := g.clients.map f } : Gateway).client? name = (g.client? name).map f := by
  unfold client?
  rw [List.find?_map]
  congr 1
  refine List.find?_congr fun c hc => ?_
  simp only [Function.comp_apply, hf c hc]

theorem names_map (hf : ∀ c ∈ g.clients, (f c).name = c.name) :
    ({ g with clients := g.clients.map f } : Gateway).names = g.names := by
  unfold names
  rw [List.map_map]
  exact List.map_congr_left hf

theorem modify_name (hf : ∀ c, c.name = name → (f c).name = name) (c : Client) :
    (if c.name = name then f c else c).name = c.name := by
  split
  · rename_i hc
    rw [hf c hc, hc]
  · rfl

theorem names_modify (hf : ∀ c, c.name = name → (f c).name = name) :
    (g.modify name f).names = g.names :=
  names_map fun c _ => modify_name hf c

/-- The client under a name is the one that is changed. -/
theorem client?_modify_self (hf : ∀ c, c.name = name → (f c).name = name) :
    (g.modify name f).client? name = (g.client? name).map f := by
  unfold modify
  rw [client?_map fun c _ => modify_name hf c]
  cases h : g.client? name with
  | none => rfl
  | some c => rw [Option.map_some, Option.map_some, if_pos (client?_name h)]

theorem client?_modify_const {c d : Client} (h : g.client? name = some c) (hd : d.name = name) :
    (g.modify name (fun _ => d)).client? name = some d := by
  rw [client?_modify_self fun _ _ => hd, h]
  rfl

/-- The clients under other names stay as they are. -/
theorem client?_modify_of_ne (hf : ∀ c, c.name = name → (f c).name = name)
    (hne : registry ≠ name) : (g.modify name f).client? registry = g.client? registry := by
  unfold modify
  rw [client?_map fun c _ => modify_name hf c]
  cases h : g.client? registry with
  | none => rfl
  | some c => rw [Option.map_some, if_neg (by rw [client?_name h]; exact hne)]

/-- Where names do not repeat, a client is the one under its name. -/
theorem client?_of_mem (h : g.names.Nodup) {c : Client} (hc : c ∈ g.clients) :
    g.client? c.name = some c := by
  unfold client?
  cases hd : g.clients.find? (fun d => d.name = c.name) with
  | none => exact absurd (by simp) (List.find?_eq_none.1 hd c hc)
  | some d =>
    have hname : d.name = c.name := by simpa using List.find?_some hd
    rw [List.inj_on_of_nodup_map h (List.mem_of_find?_eq_some hd) hc hname]

/-- The clients that are added have names that do not repeat, and each is made for a registry. -/
theorem addAll_spec {settings : Config.Settings} {now : Nat} {done clients : List Client}
    {rs : List Config.Registry} (h : addAll settings now done rs = .ok clients)
    (hdone : (done.map Client.name).Nodup) : (clients.map Client.name).Nodup ∧
      ∀ c ∈ clients, c ∈ done ∨ ∃ r ∈ rs, Client.make settings now r = .ok c := by
  induction rs generalizing done with
  | nil => cases h; exact ⟨hdone, fun c hc => Or.inl hc⟩
  | cons r rest ih =>
    unfold addAll at h
    split at h
    · cases h
    · rename_i d hd
      split at h
      · cases h
      · rename_i hnew
        have hnodup : ((insert d done).map Client.name).Nodup :=
          (names_insert_perm d done).nodup_iff.2 (List.nodup_cons.2 ⟨hnew, hdone⟩)
        obtain ⟨hclients, hfrom⟩ := ih h hnodup
        refine ⟨hclients, fun c hc => ?_⟩
        rcases hfrom c hc with hins | ⟨r', hr', hmake⟩
        · rcases mem_insert.1 hins with rfl | hold
          · exact Or.inr ⟨r, List.mem_cons_self, hd⟩
          · exact Or.inl hold
        · exact Or.inr ⟨r', List.mem_cons_of_mem _ hr', hmake⟩

/-- **No two clients of a gateway have one name.** -/
theorem ofSettings_names {settings : Config.Settings} {now : Nat}
    (h : ofSettings settings now = .ok g) : g.names.Nodup := by
  unfold ofSettings at h
  cases hc : addAll settings now [] settings.registries with
  | error e => rw [hc] at h; cases h
  | ok clients =>
    rw [hc] at h; cases h
    exact (addAll_spec hc List.nodup_nil).1

/-- **A client of a gateway was made for a registry of its configuration.** -/
theorem ofSettings_client {settings : Config.Settings} {now : Nat}
    (h : ofSettings settings now = .ok g) {c : Client} (hc : g.client? name = some c) :
    ∃ r ∈ settings.registries, Client.make settings now r = .ok c := by
  unfold ofSettings at h
  cases hcs : addAll settings now [] settings.registries with
  | error e => rw [hcs] at h; cases h
  | ok clients =>
    rw [hcs] at h; cases h
    rcases (addAll_spec hcs List.nodup_nil).2 c (List.mem_of_find?_eq_some hc) with hnil | hmade
    · cases hnil
    · exact hmade

end Gateway

end RegistryLookup
