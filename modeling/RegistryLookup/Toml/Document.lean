import RegistryLookup.Toml.Token

/-!
# The tables of a configuration file

A document is a row of statements: headers of tables, headers of elements of a list of tables,
and pairs of a key and a value. Statement by statement they make up a tree. A table that was
given a header, or a value, is not opened again by another header or by a dotted key; a table
that came about on the way to another one may be given its header later.
-/

namespace RegistryLookup.Toml

/-- How a table came about. -/
inductive Origin
  /-- It has a header of its own. -/
  | header
  /-- It lies on the way to a table with a header. -/
  | path
  /-- It was named in a dotted key. -/
  | dotted
  deriving DecidableEq

/-- Something under a key. -/
inductive Node
  | leaf (v : Value)
  | table (origin : Origin) (fields : List (String × Node))
  /-- A list of tables, the last one first. -/
  | tables (elements : List (List (String × Node)))

/-- What lies under the keys of a table. -/
abbrev Fields := List (String × Node)

namespace Fields

/-- What lies under a key. -/
def get? (fs : Fields) (k : String) : Option Node := (fs.find? (fun f => f.1 = k)).map (·.2)

/-- Put something under a key, in place of what is there. -/
def put : Fields → String → Node → Fields
  | [], k, n => [(k, n)]
  | f :: rest, k, n => if f.1 = k then (k, n) :: rest else f :: put rest k n

end Fields

/-- Add a value under a dotted key: tables on the way are opened if dotted keys or paths made
them, and the last one only if a dotted key did. -/
def addValue (v : Value) (name : String) : List String → Fields → Option Fields
  | [], fs =>
    match fs.get? name with
    | none => some (fs.put name (.leaf v))
    | some _ => none
  | k :: path, fs =>
    match fs.get? k with
    | none => (addValue v name path []).map (fun inner => fs.put k (.table .dotted inner))
    | some (.table origin inner) =>
      if origin = .header ∨ (path = [] ∧ origin = .path) then none
      else (addValue v name path inner).map (fun inner => fs.put k (.table origin inner))
    | some (.tables (last :: others)) =>
      if path = [] then none
      else (addValue v name path last).map (fun last => fs.put k (.tables (last :: others)))
    | some _ => none

/-- Change the table at the end of a path. Tables on the way come about if they are missing, and
of a list of tables the last one is meant. -/
def changeAt (change : Fields → Option Fields) : List String → Fields → Option Fields
  | [], fs => change fs
  | k :: path, fs =>
    match fs.get? k with
    | none => (changeAt change path []).map (fun inner => fs.put k (.table .path inner))
    | some (.table origin inner) =>
      (changeAt change path inner).map (fun inner => fs.put k (.table origin inner))
    | some (.tables (last :: others)) =>
      (changeAt change path last).map (fun last => fs.put k (.tables (last :: others)))
    | some _ => none

/-- Open a table under a key by its header. -/
def openTable (k : String) (fs : Fields) : Option Fields :=
  match fs.get? k with
  | none => some (fs.put k (.table .header []))
  | some (.table .path inner) => some (fs.put k (.table .header inner))
  | some _ => none

/-- Open another element of a list of tables under a key. -/
def openElement (k : String) (fs : Fields) : Option Fields :=
  match fs.get? k with
  | none => some (fs.put k (.tables [[]]))
  | some (.tables elements) => some (fs.put k (.tables ([] :: elements)))
  | some _ => none

/-- A statement. -/
inductive Statement
  | table (path : List String)
  | element (path : List String)
  | pair (key : List String) (value : Value)

/-- The tree so far, and the path of the table that pairs go into. -/
structure Draft where
  root : Fields := []
  current : List String := []

/-- Split off the last part of a path. -/
def splitLast (path : List String) : Option (List String × String) :=
  path.getLast?.map (path.dropLast, ·)

/-- Take in a statement. -/
def Draft.add (d : Draft) : Statement → Option Draft
  | .table path => do
    let (parent, k) ← splitLast path
    return ⟨← changeAt (openTable k) parent d.root, path⟩
  | .element path => do
    let (parent, k) ← splitLast path
    return ⟨← changeAt (openElement k) parent d.root, path⟩
  | .pair key value => do
    let (parent, k) ← splitLast key
    return { d with root := ← changeAt (addValue value k parent) d.current d.root }

/-- Take in all statements. -/
def Draft.addAll : Draft → List Statement → Option Draft
  | d, [] => some d
  | d, s :: rest =>
    match d.add s with
    | some d => d.addAll rest
    | none => none

/-- The tree of some statements. -/
def treeOf? (statements : List Statement) : Option Fields :=
  (Draft.addAll {} statements).map (·.root)

mutual

/-- A node as a value. -/
def Node.value : Node → Value
  | .leaf v => v
  | .table _ fields => .inlineTable (fieldValues fields)
  | .tables elements => .array (elementValues elements).reverse

/-- The values under the keys of a table. -/
def fieldValues : List (String × Node) → List (String × Value)
  | [] => []
  | (k, n) :: rest => (k, n.value) :: fieldValues rest

/-- The elements of a list of tables, the last one first. -/
def elementValues : List (List (String × Node)) → List Value
  | [] => []
  | fields :: rest => .inlineTable (fieldValues fields) :: elementValues rest

end

/-- An inline table of pairs, if no key comes twice. -/
def inlineTable? (pairs : List (List String × Value)) : Option Value :=
  (treeOf? (pairs.map (fun p => .pair p.1 p.2))).map (fun fs => .inlineTable (fieldValues fs))

end RegistryLookup.Toml
