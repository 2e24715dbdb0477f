import RegistryLookup.Text.Percent

/-!
# URLs
-/

namespace RegistryLookup

/-- The host of a URL. -/
inductive Url.Host
  /-- A name, or nothing at all. -/
  | domain (name : String)
  /-- A number of 32 bits. -/
  | ipv4 (address : Nat)
  /-- Eight numbers of 16 bits. -/
  | ipv6 (pieces : List Nat)
  deriving DecidableEq

/-- The path of a URL. -/
inductive Url.Path
  /-- A text that is not divided. -/
  | opaqueText (s : String)
  | segments (parts : List String)
  deriving DecidableEq

/-- Why a text is not a URL. -/
inductive Url.Fault
  | relative
  | emptyHost
  | badPort
  | badIpv4
  | badIpv6
  | badDomain
  | badHostCharacter
  deriving DecidableEq

/-- A URL in its parts. A port is absent when it is the one of the scheme. -/
structure Url where
  scheme : String
  username : String := ""
  password : String := ""
  host : Option Url.Host
  port : Option Nat := none
  path : Url.Path
  query : Option String := none
  fragment : Option String := none
  deriving DecidableEq

namespace Url

/-- What a fault is called. -/
def Fault.message : Fault → String
  | relative => "relative URL without a base"
  | emptyHost => "empty host"
  | badPort => "invalid port number"
  | badIpv4 => "invalid IPv4 address"
  | badIpv6 => "invalid IPv6 address"
  | badDomain => "invalid international domain name"
  | badHostCharacter => "invalid domain character"

/-- The schemes that have a host, with their ports. -/
def specialSchemes : List (String × Nat) :=
  [("http", 80), ("https", 443), ("ws", 80), ("wss", 443), ("ftp", 21)]

/-- How a scheme is treated. -/
inductive Kind
  /-- It has a host, and a default port. -/
  | special
  | file
  | other
  deriving DecidableEq

/-- The kind of a scheme. -/
def Kind.ofScheme (scheme : String) : Kind :=
  if scheme = "file" then .file
  else if specialSchemes.any (fun s => s.1 = scheme) then .special
  else .other

/-- Whether a backslash is as good as a slash. -/
def Kind.hasBackslash : Kind → Bool
  | .other => false
  | _ => true

/-- The port of a scheme. -/
def defaultPort? (scheme : String) : Option Nat :=
  (specialSchemes.find? (fun s => s.1 = scheme)).map (·.2)

/-- The text of a path. -/
def Path.text : Path → String
  | .opaqueText s => s
  | .segments parts => String.join (parts.map ("/" ++ ·))

/-- What is asked of the host: the path and the query. -/
def target (u : Url) : String :=
  u.path.text ++ (match u.query with
    | none => ""
    | some q => "?" ++ q)

/-- A control character. -/
def isControl (c : Char) : Bool := c.toNat < 32 || c.toNat = 127

/-- What is encoded in a fragment. -/
def fragmentSet (c : Char) : Bool :=
  isControl c || c = ' ' || c = '"' || c = '<' || c = '>' || c.toNat = 96

/-- What is encoded in a path. -/
def pathSet (c : Char) : Bool :=
  fragmentSet c || c = '#' || c = '?' || c = '\x7b' || c = '\x7d'

/-- What is encoded in a name or a password. -/
def userSet (c : Char) : Bool :=
  pathSet c || c = '/' || c = ':' || c = ';' || c = '=' || c = '@' || c = '[' || c = '\\' ||
    c = ']' || c = '^' || c = '|'

/-- What is encoded in a query; with a scheme that has a host the apostrophe too. -/
def querySet (kind : Kind) (c : Char) : Bool :=
  isControl c || c = ' ' || c = '"' || c = '#' || c = '<' || c = '>' ||
    (c.toNat = 39 && kind.hasBackslash)

end Url

end RegistryLookup
