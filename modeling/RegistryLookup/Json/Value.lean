import RegistryLookup.Number.Binary64

/-!
# JSON values

A number is an integer when it was written as one and fits into 64 bits, and a double
otherwise. The fields of an object are kept sorted by name, each name once.
-/

namespace RegistryLookup

/-- A JSON value. -/
inductive Json
  | null
  | bool (b : Bool)
  | int (n : Int)
  | float (x : Binary64)
  | string (s : String)
  | array (items : List Json)
  | object (fields : List (String × Json))

namespace Json

/-- Write a field among sorted fields; a field of the same name is replaced. -/
def setField (name : String) (value : Json) : List (String × Json) → List (String × Json)
  | [] => [(name, value)]
  | f :: rest =>
    if name < f.1 then (name, value) :: f :: rest
    else if name = f.1 then (name, value) :: rest
    else f :: setField name value rest

/-- An object from fields in any order; of fields of one name the last one stays. -/
def ofFields (fields : List (String × Json)) : Json :=
  object (fields.foldl (fun acc f => setField f.1 f.2 acc) [])

/-- A field of an object. -/
def field? : Json → String → Option Json
  | object fields, name => (fields.find? (fun f => f.1 = name)).map (·.2)
  | _, _ => none

/-- A text, if the value is one. -/
def text? : Json → Option String
  | string s => some s
  | _ => none

/-- A truth value, if the value is one. -/
def bool? : Json → Option Bool
  | bool b => some b
  | _ => none

/-- A natural number, if the value is one. -/
def nat? : Json → Option Nat
  | int n => if 0 ≤ n then some n.toNat else none
  | _ => none

/-- A number that is not negative. -/
def ofNat (n : Nat) : Json := int n

end Json

end RegistryLookup
