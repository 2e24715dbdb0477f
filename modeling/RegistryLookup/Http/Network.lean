import RegistryLookup.Http.Answer
import RegistryLookup.Retry.Loop

/-!
# The network

A network tells which hosts can be reached and what becomes of each request that reaches one.
Requests that reach a host are numbered in the order in which they are sent.

A reply may lead to another URL instead of saying anything itself. Then the request is made again
for that URL, and so on, up to ten times. All this belongs to the first request, goes under its
number, and has to be over in the time that is given to it.

Which URL a header names and what text the bytes of a body are is for the libraries to say that a
client is built on. Both are left open (`locate`, `decode`).
-/

namespace RegistryLookup.Http

/-- What becomes of a request that has reached a host. -/
inductive Exchange
  /-- The connection is closed after a time without a reply. -/
  | dropped (after : Nat)
  /-- The head of a reply comes after a time, and the end of its body some time later, if ever. -/
  | answered (after : Nat) (reply : Reply) (trails : Option Nat := some 0)

/-- Which hosts there are, and what they answer. -/
structure Network where
  reaches : Url → Bool
  /-- What becomes of the request with a number, and of each request that it is led to. The second
  number tells how many others led to a request. -/
  exchange : Nat → Nat → Request → Exchange
  /-- The URL that a header names as the place to go to, in a reply to a request for a URL. -/
  locate : Url → List UInt8 → Option Url
  /-- The text of a body. -/
  decode : Decoder

namespace Reply

/-- The statuses of the replies that can lead elsewhere. -/
def leadingStatuses : List Nat := [301, 302, 303, 307, 308]

/-- When a reply is over whose head came at an instant, and what it is then. Without the end of its
body it is given up when the patience is used up. -/
def settled (reply : Reply) (patience head : Nat) (trails : Option Nat) : Nat × Reply :=
  if isBodiless reply.status then (head, reply)
  else
    match (trails.map (head + ·)).filter (· < patience) with
    | some finish => (finish, reply)
    | none => (patience, { reply with isWhole := false })

end Reply

namespace Network

/-- A network without any host. -/
def isolated : Network where
  reaches _ := false
  exchange _ _ _ := .dropped 0
  locate _ _ := none
  decode _ := Text.Utf8.decodeLossy

/-- Whether requests for a URL reach a host. No other scheme is spoken. -/
def carries (network : Network) (url : Url) : Bool :=
  (url.scheme = "http" || url.scheme = "https") && network.reaches url

/-- Where a reply to a request for a URL leads to. One that names no place that can be gone to is
taken for what it says itself. -/
def onward? (network : Network) (url : Url) (reply : Reply) : Option Url :=
  if reply.status ∈ Reply.leadingStatuses then
    (reply.headers.first? "location").bind (network.locate url)
  else none

/-- How a request ends, with all those that it is led to, and after what time. -/
inductive Journey
  /-- There is no reply. -/
  | lost (after : Nat) (detail : String)
  /-- There is a reply that leads nowhere else. -/
  | arrived (after : Nat) (reply : Reply)

/-- What comes of one of the requests. -/
inductive Leg
  | ended (journey : Journey)
  /-- Its reply leads to a URL. -/
  | onward (spent : Nat) (url : Url)

/-- What comes of a request to which others led, in some time. -/
def leg (network : Network) (patience number hop spent : Nat) (request : Request) : Leg :=
  if !network.carries request.url then .ended (.lost spent "the registry cannot be reached")
  else
    match network.exchange number hop request with
    | .dropped after =>
      if patience ≤ spent + after then .ended (.lost patience "the request took too long")
      else .ended (.lost (spent + after) "the connection was closed")
    | .answered after reply trails =>
      if patience ≤ spent + after then .ended (.lost patience "the request took too long")
      else
        match network.onward? request.url reply with
        | some url => .onward (spent + after) url
        | none =>
          let (finish, reply) := reply.settled patience (spent + after) trails
          .ended (.arrived finish reply)

/-- How many times a request is made again for another URL. -/
def mostHops : Nat := 10

/-- How a request ends to which others led, if it may be made again so many times. -/
def travel (network : Network) (patience number : Nat) : Nat → Nat → Nat → Request → Journey
  | 0, hop, spent, request =>
    match network.leg patience number hop spent request with
    | .ended journey => journey
    | .onward spent _ => .lost spent "the registry leads to too many places"
  | left + 1, hop, spent, request =>
    match network.leg patience number hop spent request with
    | .ended journey => journey
    | .onward spent url =>
      network.travel patience number left (hop + 1) spent { request with url := url }

/-- What a request comes to that is given up after a time. `number` is the number that it gets
when it reaches a host. -/
def fetch (network : Network) (patience : Nat) (request : Request) (subject : String)
    (number : Nat) : Retry.Outcome Json :=
  match network.travel patience number mostHops 0 0 request with
  | .lost after detail => { takes := some after, result := .error (.transport detail) }
  | .arrived after reply => { takes := some after, result := reply.read network.decode subject }

end Network

end RegistryLookup.Http
