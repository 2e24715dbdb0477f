import RegistryLookup.Text.Blank
import RegistryLookup.Url.Basic

/-!
# Requests and replies

* `Headers.first?`: the first value of a header, whatever the case of its name.
-/

namespace RegistryLookup.Http

/-- A request for what a URL names. -/
structure Request where
  url : Url
  /-- The kind of answer that is asked for. -/
  accept : String := "application/json"
  /-- How the client names itself. -/
  userAgent : String

/-- Header names and values, in the order in which they were sent. -/
abbrev Headers := List (String × List UInt8)

/-- Reads the text of a body, by the headers that came with it. -/
abbrev Decoder := Headers → List UInt8 → String

/-- A text in small letters. -/
def smallLetters (s : String) : String := String.ofList (s.toList.map Char.toLower)

/-- A blank around the value of a header. -/
def isOuterBlank (b : UInt8) : Bool := b = 32 || b = 9

/-- A value without the blanks around it. -/
def stripped (value : List UInt8) : List UInt8 :=
  ((value.dropWhile isOuterBlank).reverse.dropWhile isOuterBlank).reverse

/-- The first value of a header. -/
def Headers.first? (headers : Headers) (name : String) : Option (List UInt8) :=
  (headers.find? (fun h => smallLetters h.1 = name)).map (fun h => stripped h.2)

/-- The text of the value of a header, if it has visible ASCII characters, spaces and tabs
only. -/
def headerText? (value : List UInt8) : Option String :=
  if value.all (fun b => (32 ≤ b && b < 127) || b = 9) then
    some (String.ofList (value.map (fun b => Char.ofNat b.toNat)))
  else none

/-- Whether a text can be sent as the value of a header: it has no control character other than
the tab. -/
def isHeaderText (s : String) : Bool :=
  s.toList.all (fun c => (32 ≤ c.toNat && c.toNat ≠ 127) || c = '\t')

/-- What a server answers. -/
structure Reply where
  status : Nat := 200
  headers : Headers := []
  body : List UInt8 := []
  /-- Whether the body came to its end. -/
  isWhole : Bool := true

namespace Reply

/-- Whether replies with a status have no body. -/
def isBodiless (status : Nat) : Bool := status = 204 || status = 304

/-- The bytes of a body that came to its end. -/
def content? (reply : Reply) : Option (List UInt8) :=
  if isBodiless reply.status then some []
  else if reply.isWhole then some reply.body
  else none

/-- Whether the status says that all went well. -/
def isSuccess (reply : Reply) : Bool := 200 ≤ reply.status && reply.status < 300

/-- The body as text; one that did not come to its end is as good as empty. -/
def bodyText (decode : Decoder) (reply : Reply) : String :=
  match reply.content? with
  | none => ""
  | some bytes => decode reply.headers bytes

end Reply

end RegistryLookup.Http
