/-!
# The log filter

The filter lets through the messages of this program up to a level. A level is written as a
word in any case or as a number from 0 to 5; an empty level lets everything through.
-/

namespace RegistryLookup

/-- How much is logged. -/
inductive LogLevel
  | off
  | error
  | warn
  | info
  | debug
  | trace
  deriving DecidableEq

namespace LogLevel

/-- All levels, the quietest first; the number of a level is its place among them. -/
def all : List LogLevel := [off, error, warn, info, debug, trace]

/-- The word for a level. -/
def word : LogLevel → String
  | off => "off"
  | error => "error"
  | warn => "warn"
  | info => "info"
  | debug => "debug"
  | trace => "trace"

end LogLevel

/-- A text with the ASCII capitals made small. -/
def asciiLower (s : String) : String := s.map Char.toLower

/-- The number of a text of ASCII digits, with or without a plus before them. -/
def wholeNumber? (cs : List Char) : Option Nat :=
  let ds := if cs.head? = some '+' then cs.drop 1 else cs
  if ds ≠ [] ∧ ds.all Char.isDigit then some (Nat.ofDigitChars 10 ds 0) else none

/-- The level of a text. -/
def LogLevel.ofText? (s : String) : Option LogLevel :=
  if s = "" then some .trace
  else match wholeNumber? s.toList with
    | some n => LogLevel.all[n]?
    | none => LogLevel.all.find? (fun l => asciiLower s = l.word)

/-- The text of the filter for a configured level. -/
def logFilter? (level : String) : Option String :=
  (LogLevel.ofText? level).map (fun l => "registry_gateway=" ++ l.word)

end RegistryLookup
