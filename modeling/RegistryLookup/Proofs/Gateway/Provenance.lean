import RegistryLookup.Proofs.Caller.Reports
import RegistryLookup.Proofs.Gateway.Requests
import RegistryLookup.Proofs.Http.Journey

/-!
# Where the answers of a gateway come from

A value that a lookup returns is the body of a reply with a good status, with which a request of
the client of its own registry for the URL of its own subject has ended. The reply was taken in
while the lookup was under way, or its value was found in the cache within the time for which the
registry lets such values be kept (`value_origin`). A request ends with the reply to itself, or to
one that at most ten others led to from there, which can be a request for another URL
(`led_elsewhere`).

* `Sends`, `TakesIn`, `Fetched`: a request of a client, and the reply with which it ends.
* `UnderWay`, `Hits`: a lookup and the run.
* `Origin`: the two ways in which a value comes to a lookup.
-/

namespace RegistryLookup

theorem Lookup.of_key_eq {a b : Lookup} (h : a.key = b.key) (r : Config.Registry) :
    a.resolve r = b.resolve r ∧ a.ttlSecs r = b.ttlSecs r := by
  -- lookups with the same key are of one kind
  cases a with
  | company id =>
    cases b with
    | company id' =>
      have hsubject : (company id).subject = (company id').subject :=
        (key_company_eq_iff id id').1 h
      have hpath : (company id).path r = (company id').path r := by
        simp only [path, hsubject, place, template]
      exact ⟨by simp only [resolve, endpoint, hsubject, hpath, blankFailure], rfl⟩
    | search text => exact absurd h (key_company_ne_search id text)
  | search text =>
    cases b with
    | company id => exact absurd h.symm (key_company_ne_search id text)
    | search text' =>
      have hsubject : (search text).subject = (search text').subject :=
        (key_search_eq_iff text text').1 h
      have hpath : (search text).path r = (search text').path r := by
        simp only [path, hsubject, place, template]
      exact ⟨by simp only [resolve, endpoint, hsubject, hpath, blankFailure], rfl⟩

namespace Gateway

/-- What the client of a registry has noted about its attempts, oldest first. -/
def noted (s : Session) (registry : String) : List (Retry.Entry Json) :=
  ((s.traffic.gateway.client? registry).map (fun c => Caller.log c.caller)).getD []

/-- In event `i` the client of a registry begins attempt `j` of its lookup `l`, and the attempt is
request number `m` of the gateway. -/
structure Sends (x : World) (es : List Event) (registry : String) (l i m : Nat) (j : UInt32)
    (request : Http.Request) : Prop where
  event : ∃ e, es[i]? = some e ∧ WorksOn registry l e
  /-- The attempts of the event are its requests, in the same order. -/
  attempt : ∃ p, (noted (worldAt x es i).state registry).length ≤ p ∧
    (noted (worldAt x es (i + 1)).state registry)[p]? = some ⟨l, (worldAt x es i).now, .began j⟩ ∧
    m = (worldAt x es i).state.traffic.arrivals.length +
      (Caller.begun l ((noted (worldAt x es (i + 1)).state registry).take p) -
        Caller.begun l (noted (worldAt x es i).state registry))
  arrives : (worldAt x es (i + 1)).state.traffic.arrivals.reverse[m]? = some request

/-- In event `a` the client of a registry takes in what attempt `j` of its lookup `l` has come
to. -/
structure TakesIn (x : World) (es : List Event) (registry : String) (l a : Nat) (j : UInt32)
    (r : Except Failure Json) : Prop where
  event : ∃ e, es[a]? = some e ∧ WorksOn registry l e
  entry : ∃ q, (noted (worldAt x es a).state registry).length ≤ q ∧
    (noted (worldAt x es (a + 1)).state registry)[q]? = some ⟨l, (worldAt x es a).now, .ended j r⟩

/-- In event `a` the client of a registry takes in a reply with a good status, with which a request
that it has sent for a URL has ended; its body is a value. -/
inductive Fetched (x : World) (es : List Event) (registry : String) (url : Url) (v : Json)
    (a : Nat) : Prop
  | intro (l i m : Nat) (j : UInt32) (request : Http.Request) (patience hop after : Nat)
      (last : Http.Request) (reply : Http.Reply)
      (sends : Sends x es registry l i m j request) (hurl : request.url = url)
      (replies : x.state.traffic.network.Replies patience m request hop last after reply)
      (good : reply.isSuccess = true) (body : reply.value? = some v)
      (takesIn : TakesIn x es registry l a j (.ok v))
      (arrived : (worldAt x es i).now + after ≤ (worldAt x es a).now)

/-- A lookup is under way in event `a`: when the event is over it has begun, and before the event it
has no result. -/
structure UnderWay (x : World) (es : List Event) (registry : String) (k a : Nat) : Prop where
  begun : (worldAt x es (a + 1)).state.answers.get? k = some (.asking registry)
  unended : ∀ r, (worldAt x es a).state.answer k ≠ .result r

/-- A lookup ends in event `b` with a value that it finds in the cache of its client. -/
structure Hits (x : World) (es : List Event) (registry : String) (k b : Nat) (key : String)
    (v : Json) : Prop where
  event : ∃ e, es[b]? = some e ∧ WorksOn registry k e
  found : ∃ c, (worldAt x es b).state.traffic.gateway.client? registry = some c ∧
    (c.caller.cache.get (worldAt x es b).now key).1 = some v
  unended : ∀ r, (worldAt x es b).state.answer k ≠ .result r
  ended : (worldAt x es (b + 1)).state.answer k = .result (.ok v)

/-- How the value came that a lookup has returned by some point of a run. -/
inductive Origin (x : World) (es : List Event) (n : Nat) (r : Config.Registry) (what : Lookup)
    (url : Url) (k : Nat) (v : Json) : Prop
  /-- Its reply was taken in while the lookup was under way. -/
  | arrived (a : Nat) (ha : a < n) (fetched : Fetched x es r.name url v a)
      (underWay : UnderWay x es r.name k a)
  /-- The lookup found it in the cache. -/
  | cached (a b : Nat) (ha : a < b) (hb : b < n) (fetched : Fetched x es r.name url v a)
      (hits : Hits x es r.name k b what.key v)
      (stored : (worldAt x es a).now ≤ (worldAt x es b).now)
      (fresh : (worldAt x es b).now <
        (worldAt x es a).now + min (Duration.ofSecs (what.ttlSecs r)) Cache.longestTtl)

variable {client : Client} {x : World} {y : Caller.World Json} {es : List Event}

theorem noted_eq (h : Mirrors client x y) : noted x.state client.name = Caller.log y.state := by
  unfold noted
  rw [h.same]
  rfl

theorem begun_take_lt {l p t : Nat} {j : UInt32} {as : List (Retry.Entry Json)}
    (h : as[p]? = some ⟨l, t, .began j⟩) :
    Caller.begun l (as.take p) < Caller.begun l as := by
  have hsucc : Caller.begun l (as.take (p + 1)) = Caller.begun l (as.take p) + 1 := by
    rw [List.take_add_one, h, Caller.begun_append]
    simp [Caller.begun]
  have hle : Caller.begun l (as.take (p + 1)) ≤ Caller.begun l as :=
    (List.take_sublist _ _).countP_le
  omega

section Replies

variable {n l : Nat} {j : UInt32} {o : Retry.Outcome Json} {v : Json}

/-- The request for a value that an attempt of a client has come to. -/
structure Requested (client : Client) (x : World) (y : Caller.World Json) (es : List Event)
    (n l i : Nat) (j : UInt32) (o : Retry.Outcome Json) (v : Json) (e m : Nat) (what : Lookup)
    (url : Url) (hop : Nat) (last : Http.Request) (after : Nat) (reply : Http.Reply) : Prop where
  sends : Sends x es client.name l e m j (client.request url)
  resolves : what.resolve client.registry = .ok url
  known : ∃ call, (clientAt client x y es n).state.calls.get? l = some call ∧
    call.key = what.key ∧ call.ttl = client.ttl what
  replies : x.state.traffic.network.Replies client.patience m (client.request url) hop last after
    reply
  good : reply.isSuccess = true
  body : reply.value? = some v
  takes : o.takes = some after
  now : (Caller.worldAt y (course client.name x es n) i).now = (worldAt x es e).now

/-- An entry that is made in a turn of a client is made in the event of the gateway to which the
turn belongs. -/
theorem Worked.entry (hy : y.state.Sound) {i e q : Nat} {answers : Caller.Answers Json}
    (hw : Worked client x y es n i l answers e) (hin : i + 1 ≤ moment client.name x es n)
    {a : Retry.Entry Json} (ha : (Caller.log (clientAt client x y es n).state)[q]? = some a)
    (hafter : Caller.mark y (course client.name x es n) i ≤ q)
    (hbefore : q < Caller.mark y (course client.name x es n) (i + 1)) :
    (Caller.log (clientAt client x y es e).state).length ≤ q ∧
      (Caller.log (clientAt client x y es (e + 1)).state)[q]? = some a := by
  constructor
  · rw [← hw.log]
    exact hafter
  · rw [← hw.after, ← Caller.getElem?_log_of_lt hy hin hbefore]
    exact ha

/-- The call of a turn is known to its client afterwards, if it makes an entry. -/
theorem Worked.known (hy : y.state.Sound) {i e q : Nat} {answers : Caller.Answers Json}
    (hw : Worked client x y es n i l answers e)
    (hturn : (course client.name x es n)[i]? = some (.turn l answers))
    (hq : (Caller.log (clientAt client x y es e).state).length ≤ q) {a : Retry.Entry Json}
    (ha : (Caller.log (clientAt client x y es (e + 1)).state)[q]? = some a) (hcall : a.call = l) :
    ∃ call, (clientAt client x y es (e + 1)).state.calls.get? l = some call := by
  rw [← hw.after, Caller.worldAt_succ y hturn] at ha ⊢
  rw [← hw.log] at hq
  obtain ⟨-, -, call, hknown⟩ := Caller.entry_made (Caller.worldAt_sound hy i) hq ha
  rw [hcall] at hknown
  obtain ⟨stage, hstage⟩ := Caller.calls_step _ (.turn l answers) hknown
  exact ⟨_, hstage⟩

/-- The attempts of a call before one that begins in a turn: some of them were made before the
turn. -/
theorem Worked.begun_le (hy : y.state.Sound) {i e p : Nat} {answers : Caller.Answers Json}
    (hw : Worked client x y es n i l answers e)
    (hp : (Caller.log (clientAt client x y es e).state).length ≤ p) :
    Caller.begun l (Caller.log (clientAt client x y es e).state) ≤
      Caller.begun l ((Caller.log (clientAt client x y es (e + 1)).state).take p) := by
  have hgrows : Caller.log (clientAt client x y es e).state <+:
      Caller.log (clientAt client x y es (e + 1)).state := by
    rw [← hw.log, ← hw.after]
    exact Caller.log_grows hy (Nat.le_succ i)
  exact (List.prefix_take_iff.2 ⟨hgrows, hp⟩).sublist.countP_le

/-- An attempt that begins in a turn of a client takes the reply to the request that it sends. -/
theorem Worked.reply (hy : y.state.Sound) {i e p : Nat} {answers : Caller.Answers Json}
    (hw : Worked client x y es n i l answers e) (hin : i + 1 ≤ moment client.name x es n)
    (hb : Caller.Begins y (course client.name x es n) (moment client.name x es n) l i p j
      (answers j)) {ask : Ask}
    (hanswers : answers = (worldAt x es e).state.traffic.replies
      (client.withCaller (clientAt client x y es e).state) l ask) :
    answers j = x.state.traffic.network.fetch client.patience ask.request ask.subject
      ((worldAt x es e).state.traffic.arrivals.length +
        (Caller.begun l ((Caller.log (clientAt client x y es (e + 1)).state).take p) -
          Caller.begun l (Caller.log (clientAt client x y es e).state))) := by
  -- its number is one more than that of the attempts before it
  have htake : (Caller.log (clientAt client x y es n).state).take p =
      (Caller.log (clientAt client x y es (e + 1)).state).take p := by
    rw [← hw.after]
    exact Caller.take_log hy hin (Nat.le_of_lt hb.before)
  have hnumber : j.toNat - 1 = Caller.begun l
      ((Caller.log (clientAt client x y es (e + 1)).state).take p) := by
    rw [← htake, hb.number, Nat.add_sub_cancel]
  have hbegun : (client.withCaller (clientAt client x y es e).state).attemptsBegun l =
      Caller.begun l (Caller.log (clientAt client x y es e).state) :=
    Client.attemptsBegun_eq _ _
  rw [hanswers, Traffic.replies, hbegun, hnumber, (worldAt_alike x es e).network]
  rfl

theorem requested (hnames : x.state.traffic.gateway.names.Nodup) (h : Mirrors client x y)
    (hy : y.state.Fresh) {i p : Nat}
    (hb : Caller.Begins y (course client.name x es n) (moment client.name x es n) l i p j o)
    (hv : o.result = .ok v) :
    ∃ e m what url hop last after reply,
      Requested client x y es n l i j o v e m what url hop last after reply := by
  have hmir : ∀ m, Mirrors client (worldAt x es m) (clientAt client x y es m) := mirrored hnames h
  obtain ⟨answers, hturn, rfl⟩ := hb.turn
  obtain ⟨e, hw⟩ := worked hnames h hturn
  have hin : i + 1 ≤ moment client.name x es n := (List.getElem?_eq_some_iff.1 hturn).1
  obtain ⟨hmark, hentry⟩ := hw.entry hy.sound hin hb.entry hb.after hb.before
  rw [hw.now] at hentry
  -- what the call asks for
  obtain ⟨call, hcall⟩ := hw.known hy.sound hturn hmark hentry rfl
  obtain ⟨ask, hask, hanswers, harrivals⟩ := hw.sends call hcall
  obtain ⟨-, what, fired, cancelAfter, url, -, hurl, hasked, hkey, httl⟩ :=
    (hmir (e + 1)).asked l call hcall
  rw [hask] at hasked; cases hasked
  -- and what the attempt comes to
  have hreplies := hw.reply hy.sound hin hb hanswers
  rw [hreplies] at hv
  obtain ⟨hop, last, after, reply, hends, hgood, hbody, htakes⟩ := Http.Network.fetch_value hv
  refine ⟨e, _, what, url, hop, last, after, reply, ⟨hw.event, ⟨p, ?_, ?_, ?_⟩, ?_⟩, hurl, ?_,
    hends, hgood, hbody, by rw [hreplies]; exact htakes, hw.now⟩
  · rw [noted_eq (hmir e)]; exact hmark
  · rw [noted_eq (hmir (e + 1))]; exact hentry
  · rw [noted_eq (hmir e), noted_eq (hmir (e + 1))]
  · have hbefore := hw.begun_le hy.sound hmark
    have hlt := begun_take_lt hentry
    have hcount : ∀ {a b c : Nat}, b ≤ c → c < a → c - b < a - b := fun _ _ => by omega
    rw [harrivals, (worldAt_alike x es e).network, if_pos hends.carried, List.reverse_append,
      List.reverse_replicate,
      List.getElem?_append_right (by rw [List.length_reverse]; exact Nat.le_add_right _ _),
      List.length_reverse, Nat.add_sub_cancel_left, List.getElem?_replicate,
      if_pos (hcount hbefore hlt)]
  · obtain ⟨stage, hstage⟩ : ∃ stage, (clientAt client x y es n).state.calls.get? l =
        some { call with stage := stage } := by
      rw [← hw.after] at hcall
      exact Caller.known_mono hin hcall
    exact ⟨_, hstage, hkey, httl⟩

/-- The reply behind an attempt of a client that has come to a value. -/
structure Replied (client : Client) (x : World) (y : Caller.World Json) (es : List Event)
    (n l q t : Nat) (v : Json) (a : Nat) (what : Lookup) (url : Url) : Prop where
  lt : a < n
  now : t = (worldAt x es a).now
  after : (Caller.log (clientAt client x y es a).state).length ≤ q
  before : q < (Caller.log (clientAt client x y es (a + 1)).state).length
  resolves : what.resolve client.registry = .ok url
  known : ∃ call, (clientAt client x y es n).state.calls.get? l = some call ∧
    call.key = what.key ∧ call.ttl = client.ttl what
  fetched : Fetched x es client.name url v a

theorem replied (hnames : x.state.traffic.gateway.names.Nodup) (h : Mirrors client x y)
    (hy : y.state.Fresh) {i p q t : Nat}
    (hat : Caller.Attempt y (course client.name x es n) (moment client.name x es n) l i p q j o t)
    (hv : o.result = .ok v) : ∃ a what url, Replied client x y es n l q t v a what url := by
  have hmir : ∀ m, Mirrors client (worldAt x es m) (clientAt client x y es m) := mirrored hnames h
  obtain ⟨e, m, what, url, hop, last, after, reply, hreq⟩ := requested hnames h hy hat.begins hv
  obtain ⟨d, htakes, harrival⟩ := hat.takes
  rw [hreq.takes] at htakes; cases htakes
  -- the entry of its end is made in another turn, or in the same
  obtain ⟨i', answers, hin, hturn, hafter, hbefore, hinstant, -⟩ := Caller.exists_turn hy hat.entry
  obtain ⟨a, hw⟩ := worked hnames h hturn
  have hnow : t = (worldAt x es a).now := hinstant.trans hw.now
  obtain ⟨hlength, hentry⟩ := hw.entry hy.sound hin hat.entry hafter hbefore
  rw [hv, hnow] at hentry
  refine ⟨a, what, url, hw.lt, hnow, hlength, (List.getElem?_eq_some_iff.1 hentry).1, hreq.resolves,
    hreq.known, .intro l e m j _ _ hop after last reply hreq.sends rfl hreq.replies hreq.good
      hreq.body ⟨hw.event, q, ?_, ?_⟩ ?_⟩
  · rw [noted_eq (hmir a)]; exact hlength
  · rw [noted_eq (hmir (a + 1))]; exact hentry
  · rw [← hreq.now, ← hnow]
    exact harrival

end Replies

theorem unresulted {g : Gateway} {network : Http.Network} {now : Nat} (n k : Nat)
    (r : Except Failure Json) :
    (worldAt (dawn g network now) es n).state.answers.get? k ≠ some (.result r) := by
  induction n with
  | zero => rw [worldAt_zero]; exact fun h => by cases h
  | succ n ih =>
    rcases worldAt_cases (dawn g network now) es n with ⟨-, h⟩ | ⟨e, -, h⟩
    · rw [h]; exact ih
    · rw [h]
      cases answer_step (worldAt (dawn g network now) es n) e k with
      | same heq => rw [heq]; exact ih
      | begins answer _ hanswer heq =>
        rw [heq]
        exact fun hr => hanswer r (Option.some.inj hr)
      | rested t _ heq => rw [heq]; exact fun hr => by cases hr

/-- A registry that is asked stays the one that is asked. -/
theorem asking_mono {m n k : Nat} (hmn : m ≤ n) {registry : String}
    (h : (worldAt x es m).state.answers.get? k = some (.asking registry)) :
    (worldAt x es n).state.answers.get? k = some (.asking registry) := by
  refine Trace.after_since (P := fun (w : World) => w.state.answers.get? k = some (.asking registry))
    hmn h ?_
  rintro i - e - hi
  cases answer_step (worldAt x es i) e k with
  | same heq => rw [heq]; exact hi
  | begins answer hk => rw [hk] at hi; cases hi
  | rested t hk => rw [hk] at hi; cases hi

/-- A result is that of a call of the client that was asked. -/
theorem answer_eq_result {s : Session} {k : Nat} {r : Except Failure Json}
    (hno : s.answers.get? k ≠ some (.result r)) (h : s.answer k = .result r) :
    ∃ registry c t, s.answers.get? k = some (.asking registry) ∧
      s.traffic.gateway.client? registry = some c ∧ c.caller.ending? k = some (r, t) := by
  unfold Session.answer at h
  split at h
  · rename_i registry ha
    cases hc : (s.traffic.gateway.client? registry).bind (·.caller.ending? k) with
    | none => rw [hc] at h; cases h
    | some end? =>
      rw [hc] at h; cases h
      obtain ⟨c, hcl, hend⟩ := Option.bind_eq_some_iff.1 hc
      exact ⟨registry, c, end?.2, ha, hcl, hend⟩
  · rename_i a _ ha
    subst h
    exact absurd ha hno
  · cases h

section Lookups

variable {n k : Nat}

theorem clientAt_mono {m n : Nat} (hmn : m ≤ n) :
    Caller.worldAt y (course client.name x es n) (moment client.name x es m) =
      clientAt client x y es m :=
  worldAt_course hmn (Nat.le_refl _)

/-- The answer to a lookup of a client is the result of its call. -/
theorem answer_iff {s : Session} {c : Client} (hno : ∀ r, s.answers.get? k ≠ some (.result r))
    (ha : s.answers.get? k = some (.asking client.name))
    (hc : s.traffic.gateway.client? client.name = some c) {r : Except Failure Json} :
    s.answer k = .result r ↔ ∃ t, c.caller.ending? k = some (r, t) := by
  constructor
  · intro h
    obtain ⟨registry, d, t, ha', hd, hend⟩ := answer_eq_result (hno r) h
    rw [ha] at ha'; cases ha'
    rw [hc] at hd; cases hd
    exact ⟨t, hend⟩
  · rintro ⟨t, hend⟩
    unfold Session.answer
    rw [ha]
    simp only [hc, Option.bind_some, hend]

/-- The result of a lookup stays. -/
theorem answer_mono (hnames : x.state.traffic.gateway.names.Nodup) (h : Mirrors client x y)
    (hno : ∀ n r, (worldAt x es n).state.answers.get? k ≠ some (.result r))
    (ha : (worldAt x es n).state.answers.get? k = some (.asking client.name)) {m : Nat}
    (hmn : m ≤ n) {r : Except Failure Json} (hr : (worldAt x es m).state.answer k = .result r) :
    (worldAt x es n).state.answer k = .result r := by
  have hmir : ∀ m, Mirrors client (worldAt x es m) (clientAt client x y es m) := mirrored hnames h
  obtain ⟨registry, c, t, ham, hc, hend⟩ := answer_eq_result (hno m r) hr
  have hsame := asking_mono hmn ham
  rw [ha] at hsame; cases hsame
  rw [(hmir m).same] at hc; cases hc
  refine (answer_iff (hno n) ha (hmir n).same).2 ⟨t, ?_⟩
  have hold : (Caller.worldAt y (course client.name x es n)
      (moment client.name x es m)).state.ending? k = some (r, t) := by
    rw [clientAt_mono hmn]
    exact hend
  exact Caller.ending?_mono (Trace.length_echoed_mono hmn) hold

/-- A reply that a client has noted before an event was taken in before it. -/
theorem Replied.lt_of_noted {l q t a b : Nat} {v : Json} {what : Lookup} {url : Url}
    (hy : y.state.Sound) (h : Replied client x y es n l q t v a what url) (hb : b ≤ n)
    (hq : q < (Caller.log (clientAt client x y es b).state).length) : a < b := by
  refine Nat.lt_of_not_le fun hba => ?_
  have hgrows : Caller.mark y (course client.name x es n) (moment client.name x es b) ≤
      Caller.mark y (course client.name x es n) (moment client.name x es a) :=
    Caller.mark_mono hy (Trace.length_echoed_mono hba)
  rw [Caller.mark, Caller.mark, clientAt_mono hb, clientAt_mono (Nat.le_of_lt h.lt)] at hgrows
  have hafter := h.after
  omega

/-- Lookups of a client with the same key ask for the same. -/
theorem Replied.same {l q t a : Nat} {v : Json} {what what' : Lookup} {url url' : Url}
    (h : Replied client x y es n l q t v a what' url')
    (hkey : Caller.HasKey (clientAt client x y es n).state l what.key)
    (hurl : what.resolve client.registry = .ok url) : url' = url ∧
      ∀ call, (clientAt client x y es n).state.calls.get? l = some call →
        call.ttl = client.ttl what := by
  obtain ⟨call, hc, hkey', httl⟩ := h.known
  obtain ⟨call', hc', heq⟩ := hkey
  rw [hc] at hc'; cases hc'
  obtain ⟨hresolve, hsecs⟩ := Lookup.of_key_eq (hkey'.symm.trans heq) client.registry
  refine ⟨?_, fun call' hc' => ?_⟩
  · have hsame := h.resolves
    rw [hresolve, hurl] at hsame
    exact (Except.ok.inj hsame).symm
  · rw [hc] at hc'; cases hc'
    rw [httl, Client.ttl, hsecs]
    rfl

variable {what : Lookup} {url : Url} {v : Json} {t : Nat} {role : Flight.Role}

theorem origin_of_source (hnames : x.state.traffic.gateway.names.Nodup) (h : Mirrors client x y)
    (hy : y.state.Untouched)
    (hno : ∀ n r, (worldAt x es n).state.answers.get? k ≠ some (.result r))
    (hurl : what.resolve client.registry = .ok url)
    (hopen : ∀ a, a < n → ∀ r, (worldAt x es a).state.answer k ≠ .result r)
    (hsource : Caller.Source y (course client.name x es n) (moment client.name x es n) k what.key
      ⟨.ok v, role, t⟩) : Origin x es n client.registry what url k v := by
  have hmir : ∀ m, Mirrors client (worldAt x es m) (clientAt client x y es m) := mirrored hnames h
  cases hsource with
  | fetched l i p q s j o attempt result hkey _ arrived since =>
    obtain ⟨a, what', url', hreply⟩ := replied hnames h hy.toFresh attempt result
    obtain ⟨rfl, -⟩ := hreply.same hkey hurl
    refine .arrived a hreply.lt hreply.fetched ⟨?_, hopen a hreply.lt⟩
    -- the call had come in when the reply was taken in
    cases hc : (clientAt client x y es (a + 1)).state.calls.get? k with
    | some call => exact ((hmir (a + 1)).asked k call hc).answer
    | none =>
      have hmark := since (moment client.name x es (a + 1))
        (by rw [clientAt_mono hreply.lt]; exact hc)
      rw [Caller.mark, clientAt_mono hreply.lt] at hmark
      exact absurd hreply.before (Nat.not_lt.2 hmark)
  | cached i w limit l i' p q s result hk event instant before after found stored arrived lives =>
    cases result
    obtain ⟨answers, hturn⟩ := event
    obtain ⟨b, hw⟩ := worked hnames h hturn
    have hnow : t = (worldAt x es b).now := instant.trans hw.now
    -- the reply came before the lookup looked into the cache
    obtain ⟨j, o, attempt, hv⟩ := stored.attempt
    obtain ⟨call, hcall, hkey, hlimit⟩ := stored.known
    have hin : i ≤ moment client.name x es n := Nat.le_of_lt hk
    obtain ⟨a, what', url', hreply⟩ :=
      replied hnames h hy.toFresh (attempt.mono hy.sound hin) hv
    obtain ⟨stage, hlast⟩ := Caller.known_mono hin hcall
    obtain ⟨rfl, httl⟩ := hreply.same ⟨_, hlast, hkey⟩ hurl
    have hnoted := Caller.lt_mark attempt.entry
    rw [Caller.mark, hw.log] at hnoted
    have hab : a < b := hreply.lt_of_noted hy.sound (Nat.le_of_lt hw.lt) hnoted
    refine .cached a b hab hw.lt hreply.fetched ⟨hw.event, ?_, hopen b hw.lt, ?_⟩ ?_ ?_
    · refine ⟨_, (hmir b).same, ?_⟩
      rw [← hw.now]
      show ((clientAt client x y es b).state.cache.get _ what.key).1 = some v
      rw [← hw.cache]
      exact found
    · rw [hw.after] at after
      obtain ⟨kcall, hkcall, hstage⟩ :=
        (Caller.worldAt_abreast hy.toFresh (moment client.name x es (b + 1))).landed k _ after
      have hanswer := ((hmir (b + 1)).asked k kcall hkcall).answer
      exact (answer_iff (hno (b + 1)) hanswer (hmir (b + 1)).same).2
        ⟨t, Caller.ending?_eq_some.2 ⟨kcall, hkcall, hstage⟩⟩
    · rw [← hreply.now, ← hnow]
      exact arrived
    · rw [← hreply.now, ← hnow]
      have hlives : t < s + min call.ttl Cache.longestTtl := by rw [← hlimit]; exact lives
      have hsecs : call.ttl = client.ttl what := httl { call with stage := stage } hlast
      rw [hsecs] at hlives
      exact hlives

theorem Origin.mono {m : Nat} {r : Config.Registry} (h : Origin x es m r what url k v)
    (hmn : m ≤ n) : Origin x es n r what url k v := by
  cases h with
  | arrived a ha fetched underWay =>
    exact .arrived a (Nat.lt_of_lt_of_le ha hmn) fetched underWay
  | cached a b ha hb fetched hits stored fresh =>
    exact .cached a b ha (Nat.lt_of_lt_of_le hb hmn) fetched hits stored fresh

/-- The value of a lookup of a client has its origin. -/
theorem client_origin (hnames : x.state.traffic.gateway.names.Nodup) (h : Mirrors client x y)
    (hy : y.state.Untouched)
    (hno : ∀ n r, (worldAt x es n).state.answers.get? k ≠ some (.result r))
    (hstart : x.state.answers.get? k = none)
    (ha : (worldAt x es n).state.answers.get? k = some (.asking client.name))
    {fired : Bool} {cancelAfter : Option Nat} {registry : String}
    (hop : (worldAt x es n).state.operations.get? k =
      some (.lookup registry what fired cancelAfter))
    (hv : (worldAt x es n).state.answer k = .result (.ok v)) :
    client.name = registry ∧ ∃ url, what.resolve client.registry = .ok url ∧
      Origin x es n client.registry what url k v := by
  have hmir : ∀ m, Mirrors client (worldAt x es m) (clientAt client x y es m) := mirrored hnames h
  -- the event in which the lookup ended
  obtain ⟨m, -, hmn, hm, hlater⟩ := Trace.turning_point
    (P := fun m => (worldAt x es m).state.answer k = .result (.ok v)) (Nat.zero_le n)
    (by rw [worldAt_zero]; unfold Session.answer; rw [hstart]; exact fun heq => by cases heq) hv
  have hresult := hlater (m + 1) (Nat.lt_succ_self m) hmn
  obtain ⟨name, c, t, ham, hc, hend⟩ := answer_eq_result (hno (m + 1) _) hresult
  have hname := asking_mono hmn ham
  rw [ha] at hname; cases hname
  rw [(hmir (m + 1)).same] at hc; cases hc
  have hopen : ∀ a, a < m + 1 → ∀ r, (worldAt x es a).state.answer k ≠ .result r := by
    intro a ham r hr
    have ham : a ≤ m := Nat.le_of_lt_succ ham
    obtain ⟨name, -, -, hasking, -, -⟩ := answer_eq_result (hno a r) hr
    have hlast := asking_mono (Nat.le_trans ham (Nat.le_of_succ_le hmn)) hasking
    rw [ha] at hlast; cases hlast
    have hthen := answer_mono hnames h hno (asking_mono ham hasking) ham hr
    have hnow := answer_mono hnames h hno ha (Nat.le_of_succ_le hmn) hthen
    rw [hv] at hnow; cases hnow
    exact hm hthen
  -- the call has the key of the lookup
  obtain ⟨call, hcall, -⟩ := Caller.ending?_eq_some.1 hend
  obtain ⟨stage, hlast⟩ : ∃ stage, (clientAt client x y es n).state.calls.get? k =
      some { call with stage := stage } := by
    have hold : (Caller.worldAt y (course client.name x es n)
        (moment client.name x es (m + 1))).state.calls.get? k = some call := by
      rw [clientAt_mono hmn]
      exact hcall
    exact Caller.known_mono (Trace.length_echoed_mono hmn) hold
  obtain ⟨-, what', fired', cancelAfter', url, hop', hurl, -, hkey, -⟩ := (hmir n).asked k _ hlast
  rw [hop] at hop'; cases hop'
  obtain ⟨role, hsource⟩ := Caller.value_source hy hend ⟨call, hcall, hkey⟩
  exact ⟨rfl, url, hurl, (origin_of_source hnames h hy hno hurl hopen hsource).mono hmn⟩

end Lookups

/-- **Every value that a lookup returns has its origin**: it is the body of a reply with a good
status, with which a request of the client of the registry that was asked, for the URL of what was
asked, has ended. The reply was taken in while the lookup was under way, or the lookup found the
value in the cache within the time for which the registry lets it be kept. -/
theorem value_origin {settings : Config.Settings} {g : Gateway} {now : Nat}
    (hg : ofSettings settings now = .ok g) (network : Http.Network) (es : List Event) {n k : Nat}
    {registry : String} {what : Lookup} {fired : Bool} {cancelAfter : Option Nat} {v : Json}
    (hop : (worldAt (dawn g network now) es n).state.operations.get? k =
      some (.lookup registry what fired cancelAfter))
    (hv : (worldAt (dawn g network now) es n).state.answer k = .result (.ok v)) :
    ∃ r ∈ settings.registries, r.name = registry ∧ ∃ url, what.resolve r = .ok url ∧
      Origin (dawn g network now) es n r what url k v := by
  obtain ⟨name, c, t, ha, hc, -⟩ := answer_eq_result (unresulted n k _) hv
  obtain ⟨client, rfl, hstart⟩ := exists_client_at_dawn (ofSettings_names hg) hc
  obtain ⟨r, hr, hmake⟩ := ofSettings_client hg hstart
  have hregistry : client.registry = r := Client.make_registry hmake
  obtain ⟨hname, url, hurl, horigin⟩ := client_origin (ofSettings_names hg)
    (dawn_mirrors hg hstart) (Caller.make_untouched client.name settings now) (unresulted · k) rfl
    ha hop hv
  rw [hregistry] at hurl horigin
  exact ⟨r, hr, by rw [← hregistry]; exact hname, url, hurl, horigin⟩

deriving instance DecidableEq for Operation

/-- The number that a lookup has returned. -/
def Answer.int? : Answer → Option Int
  | .result (.ok (.int i)) => some i
  | _ => none

theorem Answer.eq_of_int? {a : Answer} {i : Int} (h : a.int? = some i) :
    a = .result (.ok (.int i)) := by
  unfold int? at h
  split at h
  · cases h
    rfl
  · cases h

/-- A registry. -/
def someRegistry : Config.Registry where
  name := "r"
  baseUrl := "http://a"

/-- A configuration with one registry. -/
def single : Config.Settings where
  registries := [someRegistry]

def singleGateway : Gateway := (ofSettings single 0).toOption.getD {}

theorem ofSettings_single : ofSettings single 0 = .ok singleGateway := by
  have hok : (ofSettings single 0).isOk = true := by decide +kernel
  unfold singleGateway
  cases h : ofSettings single 0 with
  | error e =>
    rw [h] at hok
    cases hok
  | ok g => rfl

/-- Every request is answered with a number after a while. -/
def sevens : Http.Network where
  reaches _ := true
  exchange _ _ _ := .answered 5 { body := [55] }
  locate _ _ := none
  decode _ := Text.Utf8.decodeLossy

/-- An entity is looked up, and once more when the reply has come. -/
def twice : List Event :=
  [.ask (.lookup "r" (.company "1") false none), .turn (.operation 0), .pass 5,
    .turn (.client "r" (.call 0)), .ask (.lookup "r" (.company " 1 ") false none),
    .turn (.operation 1)]

/-- The second lookup is served from the cache. -/
theorem twice_origin :
    ofSettings single 0 = .ok singleGateway ∧
    (worldAt (dawn singleGateway sevens 0) twice 6).state.operations.get? 1 =
      some (.lookup "r" (.company " 1 ") false none) ∧
    (worldAt (dawn singleGateway sevens 0) twice 6).state.answer 1 = .result (.ok (.int 7)) ∧
    ∃ r ∈ single.registries, r.name = "r" ∧ ∃ url, (Lookup.company " 1 ").resolve r = .ok url ∧
      Origin (dawn singleGateway sevens 0) twice 6 r (.company " 1 ") url 1 (.int 7) := by
  have hop : (worldAt (dawn singleGateway sevens 0) twice 6).state.operations.get? 1 =
      some (.lookup "r" (.company " 1 ") false none) := by decide +kernel
  have hv : (worldAt (dawn singleGateway sevens 0) twice 6).state.answer 1 =
      .result (.ok (.int 7)) := Answer.eq_of_int? (by decide +kernel)
  exact ⟨ofSettings_single, hop, hv, value_origin ofSettings_single sevens twice hop hv⟩

/-- Whatever is asked for is said to be at one place, and there is a number. -/
def elsewhere : Http.Network where
  reaches _ := true
  exchange _ _ request :=
    if request.url.path = .segments ["companies", "2"] then .answered 5 { body := [56] }
    else
      let place := Text.Utf8.encode "http://a/companies/2".toList
      .answered 5 { status := 302, headers := [("Location", place)] }
  locate _ value := (Text.Utf8.decode? value).bind fun s => (Url.parse s).toOption
  decode _ := Text.Utf8.decodeLossy

/-- An entity is looked up until the reply has come. -/
def once : List Event :=
  [.ask (.lookup "r" (.company "1") false none), .turn (.operation 0), .pass 10,
    .turn (.client "r" (.call 0))]

/-- **A value need not be the body of a reply to a request for the URL of its subject.** Here no
such reply has a good status: each leads to the URL of another subject, and the value comes from
there. -/
theorem led_elsewhere : ∃ url, (Lookup.company "1").resolve someRegistry = .ok url ∧
    (∀ number hop (request : Http.Request) after reply trails, request.url = url →
      elsewhere.exchange number hop request = .answered after reply trails →
        reply.isSuccess = false) ∧
    (worldAt (dawn singleGateway elsewhere 0) once 4).state.answer 0 = .result (.ok (.int 8)) := by
  have hv : (worldAt (dawn singleGateway elsewhere 0) once 4).state.answer 0 =
      .result (.ok (.int 8)) := Answer.eq_of_int? (by decide +kernel)
  have hpath : ((Lookup.company "1").resolve someRegistry).toOption.any
      (fun url => url.path ≠ .segments ["companies", "2"]) = true := by decide +kernel
  cases hurl : (Lookup.company "1").resolve someRegistry with
  | error e =>
    rw [hurl] at hpath
    cases hpath
  | ok url =>
    rw [hurl] at hpath
    refine ⟨url, rfl, ?_, hv⟩
    rintro number hop request after reply trails rfl hexchange
    simp only [elsewhere, if_neg (of_decide_eq_true hpath)] at hexchange
    cases hexchange
    rfl

end Gateway

end RegistryLookup
