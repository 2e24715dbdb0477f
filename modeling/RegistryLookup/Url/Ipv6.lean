import RegistryLookup.Text.Percent

/-!
# IPv6 addresses in URLs

Eight pieces of up to four hexadecimal digits between colons; two colons stand once for a run
of zero pieces, and the last two pieces may be an IPv4 address in decimal.
-/

namespace RegistryLookup.Url.Ipv6

/-- What has been read: the pieces before and after the two colons, last piece first. -/
structure Progress where
  front : List Nat := []
  back : Option (List Nat) := none

/-- How many pieces there are. The two colons count as one. -/
def Progress.count (p : Progress) : Nat :=
  p.front.length + (match p.back with
    | none => 0
    | some b => b.length + 1)

/-- Add a piece. -/
def Progress.add (p : Progress) (n : Nat) : Progress :=
  match p.back with
  | none => { p with front := n :: p.front }
  | some b => { p with back := some (n :: b) }

/-- The eight pieces, if there are as many as there have to be. -/
def Progress.finish (p : Progress) : Option (List Nat) :=
  match p.back with
  | none => if p.front.length = 8 then some p.front.reverse else none
  | some b =>
    some (p.front.reverse ++ List.replicate (8 - p.front.length - b.length) 0 ++ b.reverse)

/-- Up to `n` hexadecimal digits: their number, how many there are, and what follows. -/
def hexDigits : Nat → Nat → Nat → List Char → Nat × Nat × List Char
  | 0, value, count, cs => (value, count, cs)
  | _ + 1, value, count, [] => (value, count, [])
  | n + 1, value, count, c :: rest =>
    match Text.Percent.hexValue? c with
    | some d => hexDigits n (value * 16 + d) (count + 1) rest
    | none => (value, count, c :: rest)

/-- A decimal number below 256 without leading zeros, and what follows. -/
def octet (cs : List Char) : Option (Nat × List Char) :=
  let digits := cs.takeWhile Char.isDigit
  let value := digits.foldl (fun n c => n * 10 + (c.toNat - 48)) 0
  match digits with
  | [] => none
  | '0' :: _ :: _ => none
  | _ => if value < 256 then some (value, cs.dropWhile Char.isDigit) else none

/-- Four decimal numbers between dots and nothing behind them. -/
def quad (cs : List Char) : Option (Nat × Nat) :=
  match octet cs with
  | some (a, '.' :: cs) =>
    match octet cs with
    | some (b, '.' :: cs) =>
      match octet cs with
      | some (c, '.' :: cs) =>
        match octet cs with
        | some (d, []) => some (a * 256 + b, c * 256 + d)
        | _ => none
      | _ => none
    | _ => none
  | _ => none

/-- The pieces from some point on. -/
def pieces : Nat → Progress → List Char → Option (List Nat)
  | 0, _, _ => none
  | _ + 1, p, [] => p.finish
  | fuel + 1, p, cs =>
    if p.count = 8 then none
    else match cs with
    | ':' :: rest =>
      match p.back with
      | some _ => none
      | none => pieces fuel { p with back := some [] } rest
    | cs =>
      match hexDigits 4 0 0 cs with
      | (_, 0, _) => none
      | (value, _, []) => (p.add value).finish
      | (_, _, '.' :: _) =>
        if 6 < p.count then none
        else match quad cs with
          | some (a, b) => ((p.add a).add b).finish
          | none => none
      | (_, _, [':']) => none
      | (value, _, ':' :: rest) => pieces fuel (p.add value) rest
      | _ => none

/-- The address between brackets. -/
def parse? (cs : List Char) : Option (List Nat) :=
  match cs with
  | [] => none
  | [_] => none
  | ':' :: ':' :: rest => pieces (cs.length + 1) { back := some [] } rest
  | ':' :: _ => none
  | cs => pieces (cs.length + 1) {} cs

end RegistryLookup.Url.Ipv6
