import RegistryLookup.Config.Reader
import RegistryLookup.Config.Validation
import RegistryLookup.Text.Utf8
import RegistryLookup.Toml.Parser

/-!
# Loading a configuration

A configuration file is read as text, its values are read into the settings, and the settings
are checked. The first of these steps that fails tells why there is no configuration.
-/

namespace RegistryLookup.Config

namespace Datum

mutual

/-- The data of a value of a configuration file. A date is like a table without any known
field. -/
def ofToml : Toml.Value → Datum
  | .text s => text s
  | .int n => int n
  | .float => fraction
  | .bool b => bool b
  | .moment _ => table [("moment", null)]
  | .array items => list (ofTomlItems items)
  | .inlineTable fields => table (ofTomlFields fields)

/-- The data of the items of an array. -/
def ofTomlItems : List Toml.Value → List Datum
  | [] => []
  | v :: rest => ofToml v :: ofTomlItems rest

/-- The data of the fields of a table. -/
def ofTomlFields : List (String × Toml.Value) → List (String × Datum)
  | [] => []
  | (k, v) :: rest => (k, ofToml v) :: ofTomlFields rest

end

end Datum

/-- Why a file has no text. -/
inductive FileFault
  | missing
  | isDirectory
  | notText
  | other (text : String)
  deriving DecidableEq

/-- What a fault of a file is called. -/
def FileFault.message : FileFault → String
  | missing => "No such file or directory (os error 2)"
  | isDirectory => "Is a directory (os error 21)"
  | notText => "stream did not contain valid UTF-8"
  | other text => text

/-- Why there is no configuration. -/
inductive LoadFault
  | file (fault : FileFault)
  /-- The text is not a configuration file, or has values of other types. -/
  | unreadable
  | unsound (problems : List Problem)
  deriving DecidableEq

/-- The text of a fault. Nothing more is said of a file that cannot be read. -/
def LoadFault.message : LoadFault → String
  | file fault => "IO error: " ++ fault.message
  | unreadable => "Parse error: "
  | unsound problems =>
    "Validation failed: " ++ String.intercalate ", " (problems.map Problem.message)

/-- The settings that a text spells, whether or not they make sense together. -/
def settingsOf? (text : String) : Option Settings := do
  let fields ← Toml.parse text
  readSettings .toml (.table (Datum.ofTomlFields fields))

/-- The configuration of a text. -/
def parse (text : String) : Except LoadFault Settings :=
  match settingsOf? text with
  | none => .error .unreadable
  | some settings =>
    match problems settings with
    | [] => .ok settings
    | found => .error (.unsound found)

/-- What a file holds. -/
abbrev File := Except FileFault (List UInt8)

/-- The configuration of a file. -/
def load (file : File) : Except LoadFault Settings :=
  match file with
  | .error fault => .error (.file fault)
  | .ok bytes =>
    match Text.Utf8.decode? bytes with
    | none => .error (.file .notText)
    | some text => parse text

end RegistryLookup.Config
