import RegistryLookup.Toml.Document

/-!
# Reading configuration files

A file is read line by line. Arrays and inline tables may be nested 79 deep, and a key has at
most 79 parts.
-/

namespace RegistryLookup.Toml

/-- How deep values may be nested, and how many parts a key may have. -/
def deepest : Nat := 79

/-- A key that is not too long. -/
def boundedKey (cs : List Char) : Option (List String × List Char) :=
  match key (cs.length + 1) cs with
  | some (path, rest) => if path.length ≤ deepest then some (path, rest) else none
  | none => none

mutual

/-- A value. `depth` is how deep it may be nested. -/
def readValue : Nat → Nat → List Char → Option (Value × List Char)
  | 0, _, _ => none
  | fuel + 1, depth, cs =>
    match cs with
    | '[' :: rest =>
      match depth with
      | 0 => none
      | depth + 1 => readItems fuel depth [] rest
    | '\x7b' :: rest =>
      match depth with
      | 0 => none
      | depth + 1 =>
        match skipSpaces rest with
        | '\x7d' :: rest => some (.inlineTable [], rest)
        | rest => readPairs fuel depth [] rest
    | 't' :: 'r' :: 'u' :: 'e' :: rest => some (.bool true, rest)
    | 'f' :: 'a' :: 'l' :: 's' :: 'e' :: rest => some (.bool false, rest)
    | c :: _ =>
      if c = '"' ∨ c = apostrophe then (string cs).map (fun p => (.text p.1, p.2))
      else numberOrMoment cs
    | [] => none

/-- The items of an array up to its closing bracket; `acc` holds those read, last first. -/
def readItems : Nat → Nat → List Value → List Char → Option (Value × List Char)
  | 0, _, _, _ => none
  | fuel + 1, depth, acc, cs =>
    match skipLines (cs.length + 1) cs with
    | ']' :: rest => some (.array acc.reverse, rest)
    | cs =>
      match readValue fuel depth cs with
      | none => none
      | some (v, rest) =>
        match skipLines (rest.length + 1) rest with
        | ',' :: rest => readItems fuel depth (v :: acc) rest
        | ']' :: rest => some (.array (v :: acc).reverse, rest)
        | _ => none

/-- The pairs of an inline table up to its closing brace. There is one after every comma. -/
def readPairs : Nat → Nat → List (List String × Value) → List Char → Option (Value × List Char)
  | 0, _, _, _ => none
  | fuel + 1, depth, acc, cs =>
    match boundedKey cs with
    | some (path, '=' :: rest) =>
      match readValue fuel depth (skipSpaces rest) with
      | none => none
      | some (v, rest) =>
        match skipSpaces rest with
        | ',' :: rest => readPairs fuel depth ((path, v) :: acc) rest
        | '\x7d' :: rest => (inlineTable? ((path, v) :: acc).reverse).map (·, rest)
        | _ => none
    | _ => none

end

/-- A statement at the start of a line, to the end of the line. -/
def readStatement (cs : List Char) : Option (Statement × List Char) :=
  match cs with
  | '[' :: '[' :: rest =>
    match boundedKey rest with
    | some (path, ']' :: ']' :: rest) => (finishLine rest).map (.element path, ·)
    | _ => none
  | '[' :: rest =>
    match boundedKey rest with
    | some (path, ']' :: rest) => (finishLine rest).map (.table path, ·)
    | _ => none
  | cs =>
    match boundedKey cs with
    | some (path, '=' :: rest) =>
      match readValue (2 * rest.length + 2) deepest (skipSpaces rest) with
      | some (v, rest) => (finishLine rest).map (.pair path v, ·)
      | none => none
    | _ => none

/-- All statements of a text. -/
def readStatements : Nat → List Char → Option (List Statement)
  | 0, _ => none
  | fuel + 1, cs =>
    match skipSpaces cs with
    | [] => some []
    | '#' :: rest => (finishLine ('#' :: rest)).bind (readStatements fuel)
    | cs =>
      match lineEnd? cs with
      | some rest => readStatements fuel rest
      | none =>
        match readStatement cs with
        | some (s, rest) => (readStatements fuel rest).map (s :: ·)
        | none => none

/-- The values of a configuration file. A byte order mark at its front is passed over. -/
def parse (text : String) : Option (List (String × Value)) :=
  let cs := match text.toList with
    | c :: rest => if c.toNat = 0xFEFF then rest else c :: rest
    | [] => []
  match readStatements (cs.length + 1) cs with
  | some statements => (treeOf? statements).map fieldValues
  | none => none

end RegistryLookup.Toml
