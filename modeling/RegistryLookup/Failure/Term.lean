import RegistryLookup.Failure
import RegistryLookup.Text.Quoted

/-!
# Failures as terms

The text of a failure that shows how it is made up: its kind, and its parts as they are.
-/

namespace RegistryLookup

/-- The name of a position. -/
def Circuit.term : Circuit → String
  | closed => "Closed"
  | opened => "Open"
  | halfOpen => "HalfOpen"

namespace Failure

/-- A kind with one part. -/
def withPart (kind part : String) : String := kind ++ "(" ++ part ++ ")"

/-- A kind with named parts. -/
def withFields (kind : String) (fields : List (String × String)) : String :=
  kind ++ " \x7b " ++ String.intercalate ", " (fields.map (fun f => f.1 ++ ": " ++ f.2)) ++ " \x7d"

/-- The term of a failure. -/
def term (e : Failure) : String :=
  match e with
  | circuitOpen circuit failures retryAfter =>
    withFields e.kind [("state", circuit.term), ("consecutive_failures", toString failures),
      ("retry_after", Duration.text retryAfter)]
  | cancelled => withPart e.kind e.kind
  | transport detail => withPart e.kind (Text.quoted detail)
  | serverError status detail =>
    withFields e.kind [("status", toString status), ("message", Text.quoted detail)]
  | rateLimited retryAfter => withFields e.kind [("retry_after", optionalWait retryAfter)]
  | clientError status detail =>
    withFields e.kind [("status", toString status), ("message", Text.quoted detail)]
  | notFound subject => withPart e.kind (Text.quoted subject)
  | invalidResponse detail => withPart e.kind (Text.quoted detail)
  | invalidRequest detail => withPart e.kind (Text.quoted detail)
  | configuration detail => withPart e.kind (Text.quoted detail)

end Failure

end RegistryLookup
