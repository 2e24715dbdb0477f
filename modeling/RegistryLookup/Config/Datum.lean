import RegistryLookup.Json.Value

/-!
# Data that a configuration is read from

Configuration files and JSON documents both hold data of this form. A structure is read from a
table by its field names, or from a list by position; the two kinds of document differ in
whether a list may be longer than the structure, and in what may stand for an enumerated word
in its long form.
-/

namespace RegistryLookup.Config

/-- A piece of a document. Numbers that are not integers are all alike here. -/
inductive Datum
  | null
  | bool (b : Bool)
  | int (n : Int)
  | fraction
  | text (s : String)
  | list (items : List Datum)
  | table (fields : List (String × Datum))

/-- The rules in which kinds of documents differ. -/
structure Dialect where
  /-- Whether a list that is longer than the structure read from it is refused. -/
  exactLists : Bool
  /-- What may stand beside an enumerated word in its long form. -/
  isUnit : Datum → Bool

/-- The rules of JSON documents. -/
def Dialect.json : Dialect where
  exactLists := true
  isUnit
    | .null => true
    | _ => false

/-- The rules of configuration files. -/
def Dialect.toml : Dialect where
  exactLists := false
  isUnit
    | .list [] => true
    | .table [] => true
    | _ => false

namespace Datum

mutual

/-- The data of a JSON value. -/
def ofJson : Json → Datum
  | .null => null
  | .bool b => bool b
  | .int n => int n
  | .float _ => fraction
  | .string s => text s
  | .array items => list (ofJsonItems items)
  | .object fields => table (ofJsonFields fields)

/-- The data of the items of an array. -/
def ofJsonItems : List Json → List Datum
  | [] => []
  | v :: rest => ofJson v :: ofJsonItems rest

/-- The data of the fields of an object. -/
def ofJsonFields : List (String × Json) → List (String × Datum)
  | [] => []
  | (name, v) :: rest => (name, ofJson v) :: ofJsonFields rest

end

end Datum

end RegistryLookup.Config
