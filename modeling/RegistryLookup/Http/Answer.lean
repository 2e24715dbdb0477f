import RegistryLookup.Failure
import RegistryLookup.Http.Message
import RegistryLookup.Json.Parser
import RegistryLookup.Text.Excerpt

/-!
# What a reply means

A reply with a good status has to hold one JSON value. Every other reply is a failure, told by
its status; what the registry says about it is kept in an excerpt.

* `read_ok`: only a reply with a good status holds a value.
-/

namespace RegistryLookup.Http

/-- The number that a text stands for: digits, perhaps behind a plus sign, below `2^64`. -/
def word? (s : String) : Option Nat :=
  let digits := match s.toList with
    | '+' :: rest => rest
    | cs => cs
  if digits.isEmpty || !digits.all Char.isDigit then none
  else
    let n := digits.foldl (fun n c => n * 10 + (c.toNat - 48)) 0
    if n < UInt64.size then some n else none

namespace Reply

/-- How long the registry asks to wait. Only a number of seconds is understood. -/
def retryAfter (reply : Reply) : Option Nat :=
  (((reply.headers.first? "retry-after").bind headerText?).bind
    (fun s => word? (Text.trim s))).map Duration.ofSecs

/-- How much of an error text is kept. -/
def excerptBytes : Nat := 256

/-- The start of what the registry says. -/
def excerpt (decode : Decoder) (reply : Reply) : String :=
  Text.excerpt excerptBytes (reply.bodyText decode)

/-- The value that a body holds. -/
def value? (reply : Reply) : Option Json :=
  (reply.content?.bind Text.Utf8.decode?).bind Json.parse

/-- What a reply comes to for a lookup of a subject. -/
def read (decode : Decoder) (subject : String) (reply : Reply) :
    Except Failure Json :=
  if reply.isSuccess then
    match reply.value? with
    | some v => .ok v
    | none => .error (.invalidResponse "error decoding response body")
  else if reply.status = 404 then .error (.notFound subject)
  else if reply.status = 429 then .error (.rateLimited reply.retryAfter)
  else if 500 ≤ reply.status ∧ reply.status < 600 then
    .error (.serverError reply.status (reply.excerpt decode))
  else .error (.clientError reply.status (reply.excerpt decode))

theorem read_ok {decode : Decoder} {subject : String} {reply : Reply} {v : Json}
    (h : reply.read decode subject = .ok v) :
    reply.isSuccess = true ∧ reply.value? = some v := by
  unfold read at h
  repeat' split at h
  all_goals cases h
  rename_i hs _ hv
  exact ⟨hs, hv⟩

end Reply

/-- The outcome under which a request is counted. A reply that could not be read was a success
of the request all the same. -/
def outcomeLabel : Except Failure Json → String
  | .ok _ => "success"
  | .error (.invalidResponse _) => "success"
  | .error (.notFound _) => "not_found"
  | .error (.rateLimited _) => "rate_limited"
  | .error (.serverError _ _) => "server_error"
  | .error (.clientError _ _) => "client_error"
  | .error _ => "transport"

end RegistryLookup.Http
