import RegistryLookup.Proofs.Caller.Cached
import RegistryLookup.Proofs.Gateway.Provenance

/-!
# What a client forgets

Every entry in the cache of a client was stored by a lookup (`exists_storedBy`), and its key is that
of the lookup (`StoredBy.key_eq`). Keys tell the kinds of lookups apart, whatever is asked for. So a
client that forgets an entity, or its searches, takes out just what such lookups have stored
(`forgets_exactly`).

* `Lookup.Alike`: lookups of one kind with the same subject, which are those with the same key.
* `StoredBy`: the lookup that an entry is owed to, told from the run alone.
-/

namespace RegistryLookup

namespace Lookup

/-- Lookups of one kind whose subjects are the same but for the blanks around them. -/
inductive Alike : Lookup → Lookup → Prop
  | company {a b : String} (h : Text.trim a = Text.trim b) : Alike (.company a) (.company b)
  | search {a b : String} (h : Text.trim a = Text.trim b) : Alike (.search a) (.search b)

theorem key_eq_iff (a b : Lookup) : a.key = b.key ↔ a.Alike b := by
  constructor
  · intro h
    cases a with
    | company id =>
      cases b with
      | company id' => exact .company ((key_company_eq_iff id id').1 h)
      | search text => exact absurd h (key_company_ne_search id text)
    | search text =>
      cases b with
      | company id => exact absurd h.symm (key_company_ne_search id text)
      | search text' => exact .search ((key_search_eq_iff text text').1 h)
  · rintro (h | h)
    · exact (key_company_eq_iff _ _).2 h
    · exact (key_search_eq_iff _ _).2 h

/-- What the keys of searches start with, no other key starts with. -/
theorem startsWith_key_iff (l : Lookup) :
    Cache.startsWith searchPrefix l.key = true ↔ ∃ text, l = .search text := by
  cases l with
  | company id =>
    have hno : Cache.startsWith searchPrefix (company id).key = false := by
      simp [Cache.startsWith, key, searchPrefix, companyPrefix, List.isPrefixOf]
    rw [hno]
    refine iff_of_false Bool.false_ne_true ?_
    rintro ⟨text, h⟩
    cases h
  | search text =>
    refine iff_of_true ?_ ⟨text, rfl⟩
    simp [Cache.startsWith, key]

end Lookup

/-- A client when some entries of its cache have gone. -/
def Client.without (c : Client) (gone : String × Cache.Entry Json → Prop) [DecidablePred gone] :
    Client :=
  c.withCaller (c.caller.withCache (c.caller.cache.without gone))

namespace Gateway

/-- The client of a registry has the value of an entry in its cache, under the key of the entry and
to be kept as long. -/
def Caches (s : Session) (registry : String) (p : String × Cache.Entry Json) : Prop :=
  ∃ c, s.traffic.gateway.client? registry = some c ∧
    c.caller.cache.Has p.1 p.2.value p.2.expiresAt

/-- An operation is a lookup of a registry. -/
def LooksUp (s : Session) (k : Nat) (registry : String) (what : Lookup) : Prop :=
  ∃ fired cancelAfter, s.operations.get? k = some (.lookup registry what fired cancelAfter)

/-- An entry in the cache of the client of a registry is owed to a lookup: it came there in an event
in which the client worked on the lookup, and has been there since. -/
inductive StoredBy (x : World) (es : List Event) (n : Nat) (registry : String)
    (p : String × Cache.Entry Json) (what : Lookup) : Prop
  | intro (m k : Nat) (hm : m < n) (event : ∃ e, es[m]? = some e ∧ WorksOn registry k e)
      (lookup : LooksUp (worldAt x es (m + 1)).state k registry what)
      (new : ¬ Caches (worldAt x es m).state registry p)
      (since : ∀ i, m < i → i ≤ n → Caches (worldAt x es i).state registry p)

/-- An entry is owed to a search. -/
def FromSearch (x : World) (es : List Event) (n : Nat) (registry : String)
    (p : String × Cache.Entry Json) : Prop :=
  ∃ text, StoredBy x es n registry p (.search text)

/-- An entry is owed to a lookup of the entity with an identifier. -/
def FromCompany (x : World) (es : List Event) (n : Nat) (registry id : String)
    (p : String × Cache.Entry Json) : Prop :=
  ∃ other, Text.trim other = Text.trim id ∧ StoredBy x es n registry p (.company other)

/-- A client works on one lookup at a time. -/
theorem WorksOn.inj {registry : String} {k l : Nat} {e : Event} (hk : WorksOn registry k e)
    (hl : WorksOn registry l e) : k = l := by
  cases hk <;> cases hl <;> rfl

variable {client : Client} {x : World} {y : Caller.World Json} {es : List Event}
  {p : String × Cache.Entry Json}

theorem caches_iff (h : Mirrors client x y) :
    Caches x.state client.name p ↔ y.state.cache.Has p.1 p.2.value p.2.expiresAt := by
  constructor
  · rintro ⟨c, hc, hhas⟩
    rw [h.same] at hc; cases hc
    exact hhas
  · exact fun hhas => ⟨_, h.same, hhas⟩

/-- **What comes into the cache of a client in an event is owed to the lookup on which the client
works.** -/
theorem lookup_of_caches (hnames : x.state.traffic.gateway.names.Nodup) (h : Mirrors client x y)
    (hy : y.state.Sound) {e : Event} (hno : ¬ Caches x.state client.name p)
    (hcaches : Caches (step x e).state client.name p) : ∃ k what, WorksOn client.name k e ∧
      LooksUp (step x e).state k client.name what ∧ what.key = p.1 := by
  have hnext := mirrors_step hnames h e
  rw [caches_iff h] at hno
  rw [caches_iff hnext] at hcaches
  obtain ⟨i, k, answers, call, hi, hc, hkey⟩ := Caller.turn_of_has hy hno hcaches
  obtain ⟨-, what, fired, cancelAfter, -, hop, -, -, hcall, -⟩ := hnext.asked k call hc
  refine ⟨k, what, ?_, ⟨fired, cancelAfter, hop⟩, hcall.symm.trans hkey⟩
  cases echoesTurn h hi with
  | turn hevent => rw [hevent]; exact .turn
  | begins hevent => rw [hevent]; exact .begins

section Entries

variable {n : Nat}

/-- In a run, too, what comes into the cache of a client is owed to a lookup. -/
theorem lookup_of_new (hnames : x.state.traffic.gateway.names.Nodup) (h : Mirrors client x y)
    (hy : y.state.Sound) {m : Nat} (hno : ¬ Caches (worldAt x es m).state client.name p)
    (hcaches : Caches (worldAt x es (m + 1)).state client.name p) : ∃ k what,
      (∃ e, es[m]? = some e ∧ WorksOn client.name k e) ∧
      LooksUp (worldAt x es (m + 1)).state k client.name what ∧ what.key = p.1 := by
  rcases worldAt_cases x es m with ⟨-, hsame⟩ | ⟨e, he, hstep⟩
  · rw [hsame] at hcaches
    exact absurd hcaches hno
  · have hnodup : (worldAt x es m).state.traffic.gateway.names.Nodup := by
      rw [(worldAt_alike x es m).names]
      exact hnames
    rw [hstep] at hcaches ⊢
    obtain ⟨k, what, hworks, hlooks, hkey⟩ :=
      lookup_of_caches hnodup (mirrored hnames h m) (Caller.worldAt_sound hy _) hno hcaches
    exact ⟨k, what, ⟨e, he, hworks⟩, hlooks, hkey⟩

/-- **Every entry was stored by a lookup.** -/
theorem exists_storedBy (hnames : x.state.traffic.gateway.names.Nodup) (h : Mirrors client x y)
    (hy : y.state.Untouched) (hcaches : Caches (worldAt x es n).state client.name p) :
    ∃ what, StoredBy x es n client.name p what := by
  have hempty : ¬ Caches (worldAt x es 0).state client.name p := by
    rw [worldAt_zero, caches_iff h]
    rintro ⟨e, he, -⟩
    rw [hy.empty] at he; cases he
  -- the last event before which it is not there
  obtain ⟨m, -, hm, hno, hlater⟩ := Trace.turning_point
    (P := fun m => Caches (worldAt x es m).state client.name p) (Nat.zero_le n) hempty hcaches
  obtain ⟨k, what, hevent, hlooks, -⟩ :=
    lookup_of_new hnames h hy.sound hno (hlater (m + 1) (Nat.lt_succ_self m) hm)
  exact ⟨what, m, k, hm, hevent, hlooks, hno, hlater⟩

/-- **An entry has the key of the lookup that stored it.** -/
theorem StoredBy.key_eq (hnames : x.state.traffic.gateway.names.Nodup) (h : Mirrors client x y)
    (hy : y.state.Sound) {what : Lookup} (hp : StoredBy x es n client.name p what) :
    what.key = p.1 := by
  obtain ⟨m, k, hm, ⟨e, he, hworks⟩, ⟨fired, cancelAfter, hop⟩, hno, hlater⟩ := hp
  obtain ⟨k', what', ⟨e', he', hworks'⟩, ⟨fired', cancelAfter', hop'⟩, hkey⟩ :=
    lookup_of_new hnames h hy hno (hlater (m + 1) (Nat.lt_succ_self m) hm)
  -- the event is the same, and so is the lookup
  rw [he] at he'; cases he'
  have hsame : k = k' := hworks.inj hworks'
  subst hsame
  rw [hop] at hop'; cases hop'
  exact hkey

theorem fromSearch_iff (hnames : x.state.traffic.gateway.names.Nodup) (h : Mirrors client x y)
    (hy : y.state.Untouched) (hcaches : Caches (worldAt x es n).state client.name p) :
    FromSearch x es n client.name p ↔ Cache.startsWith Lookup.searchPrefix p.1 = true := by
  constructor
  · rintro ⟨text, hp⟩
    rw [← hp.key_eq hnames h hy.sound, Lookup.startsWith_key_iff]
    exact ⟨text, rfl⟩
  · intro hstarts
    obtain ⟨what, hp⟩ := exists_storedBy hnames h hy hcaches
    rw [← hp.key_eq hnames h hy.sound, Lookup.startsWith_key_iff] at hstarts
    obtain ⟨text, rfl⟩ := hstarts
    exact ⟨text, hp⟩

theorem fromCompany_iff (hnames : x.state.traffic.gateway.names.Nodup) (h : Mirrors client x y)
    (hy : y.state.Untouched) (hcaches : Caches (worldAt x es n).state client.name p) (id : String) :
    FromCompany x es n client.name id p ↔ p.1 = (Lookup.company id).key := by
  constructor
  · rintro ⟨other, htrim, hp⟩
    rw [← hp.key_eq hnames h hy.sound, Lookup.key_eq_iff]
    exact .company htrim
  · intro hkey
    obtain ⟨what, hp⟩ := exists_storedBy hnames h hy hcaches
    rw [← hp.key_eq hnames h hy.sound, Lookup.key_eq_iff] at hkey
    cases hkey with
    | company htrim => exact ⟨_, htrim, hp⟩

end Entries

section Forgets

variable {n : Nat} {c : Client}

/-- An entry of a client is cached. -/
theorem caches_of_mem (hc : x.state.traffic.gateway.client? client.name = some c)
    (hp : p ∈ c.caller.cache.entries) : Caches x.state client.name p :=
  ⟨c, hc, p.2, hp, rfl, rfl⟩

/-- The count of the entries of a client is exact at every point. -/
theorem exact_at (hnames : x.state.traffic.gateway.names.Nodup) (h : Mirrors client x y)
    (hy : y.state.Sound) (hexact : y.state.cache.Exact)
    (hc : (worldAt x es n).state.traffic.gateway.client? client.name = some c) :
    c.caller.cache.Exact := by
  have hmir : Mirrors client (worldAt x es n) (clientAt client x y es n) := mirrored hnames h n
  have hsame := hmir.same
  rw [hc] at hsame; cases hsame
  exact Caller.kept_worldAt Cache.exact_kept hy hexact _ _

/-- The entries that go with the searches are those of searches. -/
theorem forgetSearches_eq (hexact : c.caller.cache.Exact)
    {gone : String × Cache.Entry Json → Prop} [DecidablePred gone]
    (hgone : ∀ p ∈ c.caller.cache.entries,
      gone p ↔ Cache.startsWith Lookup.searchPrefix p.1 = true) :
    c.forgetSearches = (c.caller.cache.entries.countP (fun p => gone p), c.without gone) := by
  unfold Client.forgetSearches
  rw [hexact.deleteStartingWith_eq hgone]
  rfl

/-- The entry that goes with an entity is that of its lookups. -/
theorem forgetCompany_eq (hexact : c.caller.cache.Exact) {id : String}
    {gone : String × Cache.Entry Json → Prop} [DecidablePred gone]
    (hgone : ∀ p ∈ c.caller.cache.entries, gone p ↔ p.1 = (Lookup.company id).key) :
    c.forgetCompany id = (decide (∃ p ∈ c.caller.cache.entries, gone p), c.without gone) := by
  unfold Client.forgetCompany
  rw [hexact.delete_eq hgone]
  rfl

end Forgets

open Classical in
/-- A client at a point of a run forgets just what it is told to forget. -/
structure ForgetsExactly (x : World) (es : List Event) (n : Nat) (registry : String)
    (c : Client) : Prop where
  stored : ∀ p ∈ c.caller.cache.entries, ∃ what, StoredBy x es n registry p what
  /-- With the searches go the entries that searches have stored, and their number is told. -/
  searches : c.forgetSearches =
    (c.caller.cache.entries.countP (fun p => FromSearch x es n registry p),
      c.without (FromSearch x es n registry))
  /-- What a lookup of an entity has stored is not among them. -/
  apart : ∀ id p, FromCompany x es n registry id p → ¬ FromSearch x es n registry p
  /-- With an entity goes what its lookups have stored, and it is told whether that was there. -/
  company : ∀ id, c.forgetCompany id =
    (decide (∃ p ∈ c.caller.cache.entries, FromCompany x es n registry id p),
      c.without (FromCompany x es n registry id))
  /-- That is one entry at most. -/
  single : ∀ id, c.caller.cache.entries.countP (fun p => FromCompany x es n registry id p) ≤ 1

/-- **A client forgets just what it is told to forget.** Two lookups share a key just when they are
of one kind and ask for the same, and every entry in the cache of a client was stored by a lookup.
So to forget the searches takes out the entries of all searches, and to forget an entity takes out
its own entry; nothing else changes. -/
theorem forgets_exactly {settings : Config.Settings} {g : Gateway} {now : Nat}
    (hg : ofSettings settings now = .ok g) (network : Http.Network) (es : List Event) {n : Nat}
    {registry : String} {c : Client}
    (hc : (worldAt (dawn g network now) es n).state.traffic.gateway.client? registry = some c) :
    (∀ a b : Lookup, a.key = b.key ↔ a.Alike b) ∧
      ForgetsExactly (dawn g network now) es n registry c := by
  classical
  obtain ⟨client, rfl, hstart⟩ := exists_client_at_dawn (ofSettings_names hg) hc
  have hnames := ofSettings_names hg
  have hmir : Mirrors client (dawn g network now) (Caller.dawn client.name settings now) :=
    dawn_mirrors hg hstart
  have hy : (Caller.dawn client.name settings now : Caller.World Json).state.Untouched :=
    Caller.make_untouched client.name settings now
  have hexact : c.caller.cache.Exact := exact_at hnames hmir hy.sound
    (Caller.make_exact client.name settings now) hc
  have hsearch : ∀ p ∈ c.caller.cache.entries,
      FromSearch (dawn g network now) es n client.name p ↔
        Cache.startsWith Lookup.searchPrefix p.1 = true :=
    fun p hp => fromSearch_iff hnames hmir hy (caches_of_mem hc hp)
  have hcompany : ∀ id, ∀ p ∈ c.caller.cache.entries,
      FromCompany (dawn g network now) es n client.name id p ↔ p.1 = (Lookup.company id).key :=
    fun id p hp => fromCompany_iff hnames hmir hy (caches_of_mem hc hp) id
  refine ⟨Lookup.key_eq_iff, fun p hp => exists_storedBy hnames hmir hy (caches_of_mem hc hp),
    forgetSearches_eq hexact hsearch, ?_, fun id => forgetCompany_eq hexact (hcompany id),
    fun id => ?_⟩
  · -- an entry has one key, and so one kind
    rintro id p ⟨other, -, hother⟩ ⟨text, htext⟩
    refine Lookup.key_company_ne_search other text ?_
    exact (hother.key_eq hnames hmir hy.sound).trans (htext.key_eq hnames hmir hy.sound).symm
  · rw [hexact.countP_gone (hcompany id)]
    split <;> decide

/-- An entity whose identifier looks like the beginning of a search is looked up, and the other way
round. -/
def crossed : List Event :=
  [.ask (.lookup "r" (.company " search: ") false none), .turn (.operation 0),
    .ask (.lookup "r" (.search "company:") false none), .turn (.operation 1), .pass 5,
    .turn (.client "r" (.call 0)), .turn (.client "r" (.call 1))]

/-- The search goes, and the entity stays. -/
theorem crossed_forgets :
    ofSettings single 0 = .ok singleGateway ∧ ∃ c,
      (worldAt (dawn singleGateway sevens 0) crossed 7).state.traffic.gateway.client? "r" =
        some c ∧
      Table.keys c.caller.cache.entries = ["company:search:", "search:company:"] ∧
      c.forgetSearches.1 = 1 ∧
      Table.keys c.forgetSearches.2.caller.cache.entries = ["company:search:"] ∧
      (∀ a b : Lookup, a.key = b.key ↔ a.Alike b) ∧
      ForgetsExactly (dawn singleGateway sevens 0) crossed 7 "r" c := by
  have hfacts : ((worldAt (dawn singleGateway sevens 0) crossed 7).state.traffic.gateway.client?
      "r").map (fun c => (Table.keys c.caller.cache.entries, c.forgetSearches.1,
        Table.keys c.forgetSearches.2.caller.cache.entries)) =
      some (["company:search:", "search:company:"], 1, ["company:search:"]) := by decide +kernel
  obtain ⟨c, hc, hfacts⟩ := Option.map_eq_some_iff.1 hfacts
  simp only [Prod.mk.injEq] at hfacts
  obtain ⟨hkeys, hcount, hleft⟩ := hfacts
  exact ⟨ofSettings_single, c, hc, hkeys, hcount, hleft,
    forgets_exactly ofSettings_single sevens crossed hc⟩

end Gateway

end RegistryLookup
