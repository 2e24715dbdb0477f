import RegistryLookup.Number.Binary64
import RegistryLookup.Text.Percent
import RegistryLookup.Toml.Value

/-!
# The words of configuration files

Readers for keys, strings, numbers, dates and comments. Each takes the text from some point on
and gives what it read and what follows, or nothing.
-/

namespace RegistryLookup.Toml

/-- A reader of the front of a text. -/
abbrev Reader (α : Type) := List Char → Option (α × List Char)

def apostrophe : Char := Char.ofNat 39

def isSpace (c : Char) : Bool := c = ' ' || c = '\t'

/-- A text without the spaces and tabs at its front. -/
def skipSpaces (cs : List Char) : List Char := cs.dropWhile isSpace

/-- A line end and what follows it. -/
def lineEnd? : List Char → Option (List Char)
  | '\n' :: rest => some rest
  | '\r' :: '\n' :: rest => some rest
  | _ => none

/-- A character that may stand in a comment. -/
def isCommentChar (c : Char) : Bool := c = '\t' || (32 ≤ c.toNat && c.toNat ≠ 127)

/-- A text behind a comment, if it starts with one. -/
def skipComment (cs : List Char) : List Char :=
  match cs with
  | '#' :: rest => rest.dropWhile isCommentChar
  | cs => cs

/-- What follows the rest of a line: spaces, a comment, and a line end or the end of the text. -/
def finishLine (cs : List Char) : Option (List Char) :=
  match skipComment (skipSpaces cs) with
  | [] => some []
  | cs => lineEnd? cs

/-- A text without spaces, comments and line ends at its front. -/
def skipLines : Nat → List Char → List Char
  | 0, cs => cs
  | fuel + 1, cs =>
    let cs := skipSpaces cs
    match lineEnd? (skipComment cs) with
    | some rest => skipLines fuel rest
    | none => cs

/-- A character that stands for itself in a basic string. -/
def isBasicChar (c : Char) : Bool :=
  c = '\t' || (32 ≤ c.toNat && c.toNat ≠ 127 && c ≠ '"' && c ≠ '\\')

/-- A character that stands for itself in a literal string. -/
def isLiteralChar (c : Char) : Bool :=
  c = '\t' || (32 ≤ c.toNat && c.toNat ≠ 127 && c ≠ apostrophe)

/-- The number of `n` hexadecimal digits. -/
def hexNumber : Nat → Nat → Reader Nat
  | 0, value, cs => some (value, cs)
  | n + 1, value, c :: rest =>
    match Text.Percent.hexValue? c with
    | some d => hexNumber n (value * 16 + d) rest
    | none => none
  | _ + 1, _, [] => none

/-- The character of a code point with `n` hexadecimal digits. -/
def codePoint (n : Nat) (cs : List Char) : Option (Char × List Char) :=
  match hexNumber n 0 cs with
  | none => none
  | some (code, rest) => if h : code.isValidChar then some (Char.ofNatAux code h, rest) else none

/-- The character of an escape behind its backslash. -/
def escape : Reader Char
  | 'b' :: rest => some (Char.ofNat 8, rest)
  | 't' :: rest => some ('\t', rest)
  | 'n' :: rest => some ('\n', rest)
  | 'f' :: rest => some (Char.ofNat 12, rest)
  | 'r' :: rest => some ('\r', rest)
  | '"' :: rest => some ('"', rest)
  | '\\' :: rest => some ('\\', rest)
  | 'u' :: rest => codePoint 4 rest
  | 'U' :: rest => codePoint 8 rest
  | _ => none

/-- A basic string behind its opening quote; `acc` holds what was read, last first. -/
def basicString : Nat → List Char → Reader String
  | 0, _, _ => none
  | fuel + 1, acc, cs =>
    match cs with
    | '"' :: rest => some (String.ofList acc.reverse, rest)
    | '\\' :: rest =>
      match escape rest with
      | some (c, rest) => basicString fuel (c :: acc) rest
      | none => none
    | c :: rest => if isBasicChar c then basicString fuel (c :: acc) rest else none
    | [] => none

/-- A literal string behind its opening apostrophe. -/
def literalString (cs : List Char) : Option (String × List Char) :=
  match cs.dropWhile isLiteralChar with
  | c :: rest =>
    if c = apostrophe then some (String.ofList (cs.takeWhile isLiteralChar), rest) else none
  | [] => none

/-- Quotes inside a string over several lines. Up to two belong to it; three end it, and up to
two more in front of those belong to it still. Gives how many belong to it, what follows, and
whether the string goes on. -/
def quotes (quote : Char) (cs : List Char) : Nat × List Char × Bool :=
  let n := (cs.takeWhile (· = quote)).length
  if n < 3 then (n, cs.drop n, true)
  else
    let inside := min (n - 3) 2
    (inside, cs.drop (inside + 3), false)

/-- What follows a backslash at the end of a line: everything up to the next character that is
neither a space nor a line end. -/
def continuedLine? (cs : List Char) : Option (List Char) :=
  match lineEnd? (skipSpaces cs) with
  | none => none
  | some rest => some (blanks (rest.length + 1) rest)
where
  /-- A text without spaces and line ends at its front. -/
  blanks : Nat → List Char → List Char
    | 0, cs => cs
    | fuel + 1, cs =>
      match lineEnd? (skipSpaces cs) with
      | some rest => blanks fuel rest
      | none => skipSpaces cs

/-- A basic string over several lines behind its opening quotes. A line end is read as a line
feed. -/
def longBasicString : Nat → List Char → Reader String
  | 0, _, _ => none
  | fuel + 1, acc, cs =>
    match cs with
    | '"' :: _ =>
      match quotes '"' cs with
      | (n, rest, true) => longBasicString fuel (List.replicate n '"' ++ acc) rest
      | (n, rest, false) => some (String.ofList (List.replicate n '"' ++ acc).reverse, rest)
    | '\\' :: rest =>
      match continuedLine? rest with
      | some rest => longBasicString fuel acc rest
      | none =>
        match escape rest with
        | some (c, rest) => longBasicString fuel (c :: acc) rest
        | none => none
    | c :: rest =>
      if isBasicChar c then longBasicString fuel (c :: acc) rest
      else
        match lineEnd? cs with
        | some rest => longBasicString fuel ('\n' :: acc) rest
        | none => none
    | [] => none

/-- A literal string over several lines behind its opening apostrophes. -/
def longLiteralString : Nat → List Char → Reader String
  | 0, _, _ => none
  | fuel + 1, acc, cs =>
    match cs with
    | c :: rest =>
      if c = apostrophe then
        match quotes apostrophe cs with
        | (n, rest, true) => longLiteralString fuel (List.replicate n apostrophe ++ acc) rest
        | (n, rest, false) =>
          some (String.ofList (List.replicate n apostrophe ++ acc).reverse, rest)
      else if isLiteralChar c then longLiteralString fuel (c :: acc) rest
      else
        match lineEnd? cs with
        | some rest => longLiteralString fuel ('\n' :: acc) rest
        | none => none
    | [] => none

/-- A text without a line end at its front. -/
def dropLineEnd (cs : List Char) : List Char := (lineEnd? cs).getD cs

/-- A string of any kind. -/
def string (cs : List Char) : Option (String × List Char) :=
  let fuel := cs.length + 1
  match cs with
  | '"' :: '"' :: '"' :: rest => longBasicString fuel [] (dropLineEnd rest)
  | '"' :: rest => basicString fuel [] rest
  | a :: b :: c :: rest =>
    if a = apostrophe ∧ b = apostrophe ∧ c = apostrophe then
      longLiteralString fuel [] (dropLineEnd rest)
    else if a = apostrophe then literalString (b :: c :: rest)
    else none
  | a :: rest => if a = apostrophe then literalString rest else none
  | [] => none

def isBareKeyChar (c : Char) : Bool := c.isAlphanum || c = '-' || c = '_'

/-- One part of a key. -/
def simpleKey (cs : List Char) : Option (String × List Char) :=
  match cs with
  | '"' :: rest => basicString (rest.length + 1) [] rest
  | c :: rest =>
    if c = apostrophe then literalString rest
    else
      match cs.takeWhile isBareKeyChar with
      | [] => none
      | word => some (String.ofList word, cs.dropWhile isBareKeyChar)
  | [] => none

/-- A key: parts with dots between them, and spaces around the parts. -/
def key : Nat → Reader (List String)
  | 0, _ => none
  | fuel + 1, cs =>
    match simpleKey (skipSpaces cs) with
    | none => none
    | some (part, rest) =>
      match skipSpaces rest with
      | '.' :: rest => (key fuel rest).map (fun p => (part :: p.1, p.2))
      | rest => some ([part], rest)

/-- Digits of a kind with single underscores between them, without the underscores. -/
def digits (isDigit : Char → Bool) : List Char → List Char × List Char
  | [] => ([], [])
  | c :: rest =>
    if !isDigit c then ([], c :: rest)
    else
      match rest with
      | [] => ([c], [])
      | '_' :: more =>
        if more.head?.any isDigit then
          let (ds, rest) := digits isDigit more
          (c :: ds, rest)
        else ([c], '_' :: more)
      | d :: more =>
        let (ds, rest) := digits isDigit (d :: more)
        (c :: ds, rest)

/-- The number of some digits. -/
def numberOf (base : Nat) (ds : List Char) : Nat :=
  ds.foldl (fun n c => n * base + (Text.Percent.hexValue? c).getD 0) 0

/-- A sign, if there is one. -/
def sign (cs : List Char) : Bool × List Char :=
  match cs with
  | '+' :: rest => (false, rest)
  | '-' :: rest => (true, rest)
  | cs => (false, cs)

/-- The digits of a decimal integer: no zero in front of others. -/
def wholeDigits (cs : List Char) : Option (List Char × List Char) :=
  match cs with
  | '0' :: rest => some (['0'], rest)
  | cs =>
    match digits Char.isDigit cs with
    | ([], _) => none
    | p => some p

/-- An integer of 64 bits with its sign. -/
def integerValue (negative : Bool) (n : Nat) : Option Value :=
  let n : Int := if negative then -(n : Int) else n
  if -(Nat.pow 2 63 : Int) ≤ n ∧ n < Nat.pow 2 63 then some (.int n) else none

/-- An integer in a base, behind the letter for it. -/
def baseInteger (base : Nat) (cs : List Char) : Option (Value × List Char) :=
  match digits (fun c => (Text.Percent.hexValue? c).any (· < base)) cs with
  | ([], _) => none
  | (ds, rest) => (integerValue false (numberOf base ds)).map (·, rest)

/-- An integer. -/
def integer (cs : List Char) : Option (Value × List Char) :=
  match cs with
  | '0' :: 'x' :: rest => baseInteger 16 rest
  | '0' :: 'o' :: rest => baseInteger 8 rest
  | '0' :: 'b' :: rest => baseInteger 2 rest
  | cs =>
    let (negative, cs) := sign cs
    match wholeDigits cs with
    | none => none
    | some (ds, rest) => (integerValue negative (numberOf 10 ds)).map (·, rest)

/-- Whether `n · 10^e` is too large for a double. -/
def isTooLarge (n : Nat) (e : Int) : Bool :=
  let size : Int := (toString n).length + e
  if n = 0 ∨ size ≤ 308 then false
  else if 310 ≤ size then true
  else
    let (num, den) := if 0 ≤ e then (n * Nat.pow 10 e.toNat, 1) else (n, Nat.pow 10 (-e).toNat)
    (Binary64.roundRatio false num den).isNone

/-- The exponent of a float, if there is one: its value and what follows. -/
def exponent (cs : List Char) : Option (Int × List Char) :=
  match cs with
  | 'e' :: rest | 'E' :: rest =>
    let (negative, rest) := sign rest
    match digits Char.isDigit rest with
    | ([], _) => none
    | (ds, rest) =>
      let n := numberOf 10 ds
      some (if negative then -(n : Int) else n, rest)
  | _ => none

/-- A float with a fraction or an exponent. One that is too large is refused, unless it is
negative. -/
def float (cs : List Char) : Option (Value × List Char) :=
  let (negative, cs) := sign cs
  match wholeDigits cs with
  | none => none
  | some (whole, rest) =>
    let parts : Option (List Char × Int × List Char) :=
      match rest with
      | '.' :: rest =>
        match digits Char.isDigit rest with
        | ([], _) => none
        | (fraction, rest) =>
          match rest with
          | 'e' :: _ | 'E' :: _ => (exponent rest).map (fun p => (fraction, p.1, p.2))
          | rest => some (fraction, 0, rest)
      | rest => (exponent rest).map (fun p => ([], p.1, p.2))
    match parts with
    | none => none
    | some (fraction, e, rest) =>
      if !negative && isTooLarge (numberOf 10 (whole ++ fraction)) (e - fraction.length) then none
      else some (.float, rest)

/-- One of the words for what is no number or beyond all numbers. -/
def specialFloat (cs : List Char) : Option (Value × List Char) :=
  match (sign cs).2 with
  | 'i' :: 'n' :: 'f' :: rest => some (.float, rest)
  | 'n' :: 'a' :: 'n' :: rest => some (.float, rest)
  | _ => none

/-- A number of exactly `n` digits between two bounds. -/
def fixed (n low high : Nat) (cs : List Char) : Option (Nat × List Char) :=
  let ds := cs.take n
  let value := numberOf 10 ds
  if ds.length = n ∧ ds.all Char.isDigit ∧ low ≤ value ∧ value ≤ high then
    some (value, cs.drop n)
  else none

/-- How many days a month has. -/
def daysIn (year month : Nat) : Nat :=
  if month = 2 then
    if year % 4 = 0 ∧ (year % 100 ≠ 0 ∨ year % 400 = 0) then 29 else 28
  else if month = 4 ∨ month = 6 ∨ month = 9 ∨ month = 11 then 30
  else 31

/-- A date: what follows it. -/
def date (cs : List Char) : Option (List Char) :=
  match fixed 4 0 9999 cs with
  | some (year, '-' :: rest) =>
    match fixed 2 1 12 rest with
    | some (month, '-' :: rest) => (fixed 2 1 (daysIn year month) rest).map (·.2)
    | _ => none
  | _ => none

/-- A time of day: what follows it. -/
def time (cs : List Char) : Option (List Char) :=
  match fixed 2 0 23 cs with
  | some (_, ':' :: rest) =>
    match fixed 2 0 59 rest with
    | some (_, ':' :: rest) =>
      match fixed 2 0 60 rest with
      | some (_, '.' :: c :: rest) =>
        if c.isDigit then some (rest.dropWhile Char.isDigit) else some ('.' :: c :: rest)
      | some (_, rest) => some rest
      | none => none
    | _ => none
  | _ => none

/-- What follows an offset from universal time, if there is one. -/
def skipOffset (cs : List Char) : List Char :=
  let zone (rest : List Char) : List Char :=
    match fixed 2 0 23 rest with
    | some (_, ':' :: rest) => ((fixed 2 0 59 rest).map (·.2)).getD cs
    | _ => cs
  match cs with
  | 'Z' :: rest | 'z' :: rest => rest
  | '+' :: rest | '-' :: rest => zone rest
  | cs => cs

/-- A date, a time, or both with a space or a letter between them. -/
def moment (cs : List Char) : Option (Value × List Char) :=
  match date cs with
  | some rest =>
    let later : Option (List Char) :=
      match rest with
      | 'T' :: rest | 't' :: rest | ' ' :: rest => time rest
      | _ => none
    match later with
    | some rest => some (.moment .dateTime, skipOffset rest)
    | none => some (.moment .date, rest)
  | none => (time cs).map (fun rest => (.moment .time, rest))

/-- A number or a date. -/
def numberOrMoment (cs : List Char) : Option (Value × List Char) :=
  (moment cs).or ((float cs).or ((specialFloat cs).or (integer cs)))

end RegistryLookup.Toml
