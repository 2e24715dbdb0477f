import RegistryLookup.Config.Schema
import RegistryLookup.Failure
import RegistryLookup.Text.Blank
import RegistryLookup.Text.Form
import RegistryLookup.Text.Template
import RegistryLookup.Url.Parser

/-!
# Lookups

A registry is asked for the entity with an identifier, or for the entities that match a text.
Blanks around either do not matter, and what is blank throughout is refused.

* `key_company_eq_iff`, `key_search_eq_iff`: lookups of one kind share a key just when their
  subjects are the same.
* `key_company_ne_search`: lookups of different kinds never share a key.
-/

namespace RegistryLookup

/-- What is asked of a registry. -/
inductive Lookup
  | company (id : String)
  | search (text : String)
  deriving DecidableEq

namespace Lookup

/-- What the keys of entities start with. -/
def companyPrefix : String := "company:"

/-- What the keys of searches start with. -/
def searchPrefix : String := "search:"

/-- The identifier or the text, without blanks around it. -/
def subject : Lookup → String
  | company id => Text.trim id
  | search text => Text.trim text

/-- The key under which an answer is kept and shared. -/
def key (l : Lookup) : String :=
  match l with
  | company _ => companyPrefix ++ l.subject
  | search _ => searchPrefix ++ l.subject

/-- The failure of a lookup with a blank subject. -/
def blankFailure : Lookup → Failure
  | company _ => .invalidRequest "company id must not be empty"
  | search _ => .invalidRequest "search query must not be empty"

/-- The path of a lookup before its place is filled. -/
def template (r : Config.Registry) : Lookup → String
  | company _ => r.companyPath
  | search _ => r.searchPath

/-- The place of the subject in the path. -/
def place : Lookup → String
  | company _ => Config.idPlaceholder
  | search _ => Config.queryPlaceholder

/-- Seconds for which an answer is kept. -/
def ttlSecs (r : Config.Registry) : Lookup → Nat
  | company _ => r.companyTtlSecs.toNat
  | search _ => r.searchTtlSecs.toNat

/-- The path of a lookup: the subject is form-encoded into its place. -/
def path (r : Config.Registry) (l : Lookup) : String :=
  Text.fill l.place (String.ofList (Text.Form.encode l.subject.toList)) (l.template r)

/-- The base address of a registry without slashes at its end. -/
def base (r : Config.Registry) : String :=
  String.ofList (r.baseUrl.toList.reverse.dropWhile (· == '/')).reverse

/-- The URL of a lookup, if its path makes up a URL with the base address. -/
def endpoint (r : Config.Registry) (l : Lookup) : Except Failure Url :=
  match Url.parse (base r ++ l.path r) with
  | .ok url => .ok url
  | .error fault =>
    .error (.configuration ("registry '" ++ r.name ++ "': invalid endpoint " ++ l.path r ++ ": " ++
      fault.message))

/-- The URL of a lookup whose subject is not blank. -/
def resolve (r : Config.Registry) (l : Lookup) : Except Failure Url :=
  if l.subject = "" then .error l.blankFailure else l.endpoint r

theorem key_company_eq_iff (a b : String) :
    (company a).key = (company b).key ↔ (company a).subject = (company b).subject := by
  simp [key]

theorem key_search_eq_iff (a b : String) :
    (search a).key = (search b).key ↔ (search a).subject = (search b).subject := by
  simp [key]

theorem key_company_ne_search (a b : String) : (company a).key ≠ (search b).key := by
  intro h
  have := congrArg (fun s => s.toList.head?) h
  simp [key, companyPrefix, searchPrefix] at this

end Lookup

end RegistryLookup
