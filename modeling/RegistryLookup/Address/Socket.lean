import RegistryLookup.Text.Percent

/-!
# Socket addresses

The text of an address to listen on: an IPv4 address, or an IPv6 address between brackets, and
a port behind a colon. Numbers are strict: a part of an IPv4 address has at most three digits and
no leading zero.
-/

namespace RegistryLookup.Address

/-- An address and a port. -/
inductive Socket
  | v4 (octets : List Nat) (port : Nat)
  | v6 (pieces : List Nat) (scope port : Nat)
  deriving DecidableEq

/-- A reader of the front of a text: what it read, and what follows. -/
abbrev Reader (α : Type) := List Char → Option (α × List Char)

/-- One given character. -/
def char (c : Char) : Reader Unit
  | d :: rest => if c = d then some ((), rest) else none
  | [] => none

/-- The digits of a base at the front of a text, with their values. -/
def digitsOf (base : Nat) (cs : List Char) : List Nat × List Char :=
  let isDigit : Char → Bool := fun c => (Text.Percent.hexValue? c).any (· < base)
  ((cs.takeWhile isDigit).map (fun c => (Text.Percent.hexValue? c).getD 0), cs.dropWhile isDigit)

/-- A number below a bound. -/
def number (base : Nat) (limit : Nat) : Reader Nat := fun cs =>
  match digitsOf base cs with
  | ([], _) => none
  | (ds, rest) =>
    let n := ds.foldl (fun n d => n * base + d) 0
    if n < limit then some (n, rest) else none

/-- A part of an IPv4 address. -/
def octet : Reader Nat := fun cs =>
  match digitsOf 10 cs with
  | (0 :: _ :: _, _) => none
  | (ds, _) => if ds.length ≤ 3 then number 10 256 cs else none

/-- A piece of an IPv6 address. -/
def piece : Reader Nat := fun cs =>
  if (digitsOf 16 cs).1.length ≤ 4 then number 16 UInt16.size cs else none

/-- A separator in front of every item but the first. -/
def separated {α : Type} (sep : Char) (index : Nat) (item : Reader α) : Reader α := fun cs =>
  if index = 0 then item cs else (char sep cs).bind (fun p => item p.2)

/-- The parts of an IPv4 address from some index on. -/
def octets : Nat → Nat → Reader (List Nat)
  | 0, _, cs => some ([], cs)
  | n + 1, index, cs =>
    match separated '.' index octet cs with
    | none => none
    | some (a, rest) => (octets n (index + 1) rest).map (fun p => (a :: p.1, p.2))

/-- An IPv4 address. -/
def ipv4 : Reader (List Nat) := octets 4 0

/-- The pieces of an IPv6 address, as many as there are up to a limit, and whether the last two
were written as an IPv4 address. -/
def pieces : Nat → Nat → List Char → List Nat × Bool × List Char
  | 0, _, cs => ([], false, cs)
  | room + 1, index, cs =>
    let quad := if room = 0 then none else separated ':' index ipv4 cs
    match quad with
    | some ([a, b, c, d], rest) => ([a * 256 + b, c * 256 + d], true, rest)
    | _ =>
      match separated ':' index piece cs with
      | none => ([], false, cs)
      | some (n, rest) =>
        let (more, isQuad, rest) := pieces room (index + 1) rest
        (n :: more, isQuad, rest)

/-- An IPv6 address: eight pieces, or fewer around two colons. -/
def ipv6 : Reader (List Nat) := fun cs =>
  let (front, isQuad, rest) := pieces 8 0 cs
  if front.length = 8 then some (front, rest)
  else if isQuad then none
  else
    match rest with
    | ':' :: ':' :: rest =>
      let (back, _, rest) := pieces (7 - front.length) 0 rest
      some (front ++ List.replicate (8 - front.length - back.length) 0 ++ back, rest)
    | _ => none

/-- A port behind its colon, at the end of a text. -/
def port (cs : List Char) : Option Nat :=
  match cs with
  | ':' :: rest =>
    match number 10 UInt16.size rest with
    | some (n, []) => some n
    | _ => none
  | _ => none

/-- The scope of an IPv6 address, zero if there is none. -/
def scope (cs : List Char) : Nat × List Char :=
  match cs with
  | '%' :: rest => (number 10 UInt32.size rest).getD (0, cs)
  | cs => (0, cs)

/-- The socket address of a text. -/
def Socket.ofText? (text : String) : Option Socket :=
  let cs := text.toList
  match ipv4 cs with
  | some (address, rest) => (port rest).map (Socket.v4 address ·)
  | none =>
    match cs with
    | '[' :: rest =>
      match ipv6 rest with
      | none => none
      | some (address, rest) =>
        match scope rest with
        | (n, ']' :: rest) => (port rest).map (Socket.v6 address n ·)
        | _ => none
    | _ => none

end RegistryLookup.Address
