import RegistryLookup.Url.Host

/-!
# Reading URLs

Blanks and control characters at both ends of a text, and tabs and line ends anywhere in it,
are passed over. Then a scheme is read, then what belongs to the authority (user, host, port),
and then path, query and fragment.

* `splitBefore_append`: the two parts of a split text make up the text.
-/

namespace RegistryLookup.Url

/-- A control character or a space. -/
def isOuter (c : Char) : Bool := c.toNat ≤ 32

/-- A tab or a line end. -/
def isLineBreak (c : Char) : Bool := c = '\t' || c = '\n' || c = '\r'

/-- A text without what is passed over. -/
def clean (cs : List Char) : List Char :=
  (((cs.dropWhile isOuter).reverse.dropWhile isOuter).reverse).filter (fun c => !isLineBreak c)

/-- Split a text before the first character that meets a condition. -/
def splitBefore (stop : Char → Bool) (cs : List Char) : List Char × List Char :=
  (cs.takeWhile (fun c => !stop c), cs.dropWhile (fun c => !stop c))

theorem splitBefore_append (stop : Char → Bool) (cs : List Char) :
    (splitBefore stop cs).1 ++ (splitBefore stop cs).2 = cs :=
  List.takeWhile_append_dropWhile

/-- Whether a character may stand in a scheme behind the first letter. -/
def isSchemeChar (c : Char) : Bool := c.isAlphanum || c = '+' || c = '-' || c = '.'

/-- The scheme of a text, in small letters, and what follows its colon. -/
def readScheme (cs : List Char) : Option (String × List Char) :=
  match cs with
  | [] => none
  | c :: _ =>
    if !c.isAlpha then none
    else
      match splitBefore (fun c => !isSchemeChar c) cs with
      | (scheme, ':' :: rest) => some (String.ofList (scheme.map Char.toLower), rest)
      | _ => none

/-- Whether an authority ends before a character. -/
def endsAuthority (kind : Kind) (c : Char) : Bool :=
  c = '/' || c = '?' || c = '#' || (c = '\\' && kind.hasBackslash)

/-- The user and the password before the last at sign of an authority, and the rest. -/
def readUser (authority : List Char) : (String × String) × List Char :=
  let host := (authority.reverse.takeWhile (· != '@')).reverse
  let user := authority.take (authority.length - host.length - 1)
  let encode (cs : List Char) := String.ofList (Text.Percent.encode userSet cs)
  let name := user.takeWhile (· != ':')
  ((encode name, encode ((user.dropWhile (· != ':')).drop 1)), host)

/-- Split host and port at the first colon outside of brackets. -/
def splitPort (inBrackets : Bool) : List Char → List Char × Option (List Char)
  | [] => ([], none)
  | c :: rest =>
    if c = ':' ∧ !inBrackets then ([], some rest)
    else
      let inside := if c = '[' then true else if c = ']' then false else inBrackets
      let (host, port) := splitPort inside rest
      (c :: host, port)

/-- A port: a number below `2^16`, or nothing. -/
def readPort (digits : List Char) : Except Fault (Option Nat) :=
  if !digits.all Char.isDigit then .error .badPort
  else if digits.isEmpty then .ok none
  else
    let n := digits.foldl (fun n c => n * 10 + (c.toNat - 48)) 0
    if n < UInt16.size then .ok (some n) else .error .badPort

/-- A segment that stands for the current one. -/
def isSingleDot (segment : List Char) : Bool :=
  let s := String.ofList (segment.map Char.toLower)
  s = "." || s = "%2e"

/-- A segment that stands for the one above. -/
def isDoubleDot (segment : List Char) : Bool :=
  let s := String.ofList (segment.map Char.toLower)
  s = ".." || s = ".%2e" || s = "%2e." || s = "%2e%2e"

/-- A character that divides a path. -/
def divides (kind : Kind) (c : Char) : Bool := c = '/' || (c = '\\' && kind.hasBackslash)

/-- Take in the parts of a path one after another. A dot at the end leaves an empty segment, two
dots take the segment before them away. `done` holds the segments taken, last first. -/
def collect (done : List String) : List (List Char) → List String
  | [] => done.reverse
  | part :: rest =>
    if isDoubleDot part then
      collect (if rest.isEmpty then "" :: done.drop 1 else done.drop 1) rest
    else if isSingleDot part then collect (if rest.isEmpty then "" :: done else done) rest
    else collect (String.ofList (Text.Percent.encode pathSet part) :: done) rest

/-- The segments of a path behind its first slash. -/
def readSegments (kind : Kind) (cs : List Char) : List String :=
  collect [] (cs.splitOnP (divides kind))

/-- The path behind an authority. With a scheme that has a host there is always one. -/
def readPath (kind : Kind) (cs : List Char) : Path :=
  match cs with
  | '/' :: rest => .segments (readSegments kind rest)
  | '\\' :: rest =>
    if kind.hasBackslash then .segments (readSegments kind rest)
    else .segments (readSegments kind cs)
  | [] => .segments (if kind = .other then [] else [""])
  | cs => .segments (readSegments kind cs)

/-- Query and fragment behind a path. -/
def readTail (kind : Kind) (cs : List Char) : Option String × Option String :=
  let fragmentOf (cs : List Char) : Option String :=
    match cs with
    | '#' :: rest => some (String.ofList (Text.Percent.encode fragmentSet rest))
    | _ => none
  match cs with
  | '?' :: rest =>
    let (query, rest) := splitBefore (· = '#') rest
    (some (String.ofList (Text.Percent.encode (querySet kind) query)), fragmentOf rest)
  | cs => (none, fragmentOf cs)

/-- Whether a path ends before a character. -/
def endsPath (c : Char) : Bool := c = '?' || c = '#'

/-- Everything behind two slashes. Without a host there is no user and no port. A backslash ends
a port, and so begins a path, with every scheme. -/
def readAuthority (scheme : String) (kind : Kind) (cs : List Char) : Except Fault Url := do
  let (authority, rest) := splitBefore (endsAuthority kind) cs
  let ((username, password), hostPort) := readUser authority
  let (hostText, portText) := splitPort false hostPort
  let onlyAt := authority.contains '@' && hostPort.length + 1 = authority.length
  if hostText.isEmpty && (kind = .special || portText.isSome || (onlyAt && !rest.isEmpty) ||
      username ≠ "" || password ≠ "") then .error .emptyHost
  else
    let host ← if kind = .special then Host.parse hostText else Host.parseOpaque hostText
    let (digits, more) := splitBefore (· = '\\') (portText.getD [])
    let port ← readPort digits
    let (path, tail) := splitBefore endsPath (more ++ rest)
    let (query, fragment) := readTail kind tail
    return {
      scheme := scheme
      username := username
      password := password
      host := some host
      port := if port = defaultPort? scheme then none else port
      path := readPath kind path
      query := query
      fragment := fragment }

/-- A letter and a colon or a bar: the name of a drive. -/
def isDrive (cs : List Char) : Bool :=
  match cs with
  | [c, d] => c.isAlpha && (d = ':' || d = '|')
  | _ => false

/-- Everything behind the scheme of a file. A drive is the start of a path, not a host. -/
def readFile (cs : List Char) : Except Fault Url := do
  let isSlash : Char → Bool := fun c => c = '/' || c = '\\'
  let whole (host : Option Host) (cs : List Char) : Url :=
    let (path, tail) := splitBefore endsPath cs
    let (query, fragment) := readTail .file tail
    { scheme := "file", host := host, path := readPath .file path, query := query,
      fragment := fragment }
  match cs with
  | a :: b :: rest =>
    if isSlash a && isSlash b then
      let (hostText, tail) := splitBefore (endsAuthority .file) rest
      if isDrive hostText then return whole none rest
      else if hostText.isEmpty then return whole none tail
      else
        match ← Host.parse hostText with
        | .domain "localhost" => return whole none tail
        | host => return whole (some host) tail
    else return whole none cs
  | cs => return whole none cs

/-- Everything behind a scheme that is followed by no authority. -/
def readOther (scheme : String) (cs : List Char) : Url :=
  let (path, tail) := splitBefore endsPath cs
  let (query, fragment) := readTail .other tail
  let path := match path with
    | '/' :: rest => .segments (readSegments .other rest)
    | path => .opaqueText (String.ofList (Text.Percent.encode isControl path))
  { scheme := scheme, host := none, path := path, query := query, fragment := fragment }

/-- The URL of a text, or why it is none. -/
def parse (text : String) : Except Fault Url :=
  match readScheme (clean text.toList) with
  | none => .error .relative
  | some (scheme, rest) =>
    match Kind.ofScheme scheme with
    | .special =>
      readAuthority scheme .special (rest.dropWhile (fun c => c = '/' || c = '\\'))
    | .file => readFile rest
    | .other =>
      match rest with
      | '/' :: '/' :: rest => readAuthority scheme .other rest
      | rest => .ok (readOther scheme rest)

end RegistryLookup.Url
