/-!
# Values of configuration files
-/

namespace RegistryLookup.Toml

/-- A date or a time, or both. It is only told apart from other values. -/
inductive Moment
  | date
  | time
  | dateTime
  deriving DecidableEq

/-- A value. Inline tables are complete where they stand. -/
inductive Value
  | text (s : String)
  | int (n : Int)
  | float
  | bool (b : Bool)
  | moment (m : Moment)
  | array (items : List Value)
  | inlineTable (fields : List (String × Value))

end RegistryLookup.Toml
