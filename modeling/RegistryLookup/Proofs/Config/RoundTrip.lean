import Mathlib.Data.List.Perm.Basic
import RegistryLookup.Config.Reader
import RegistryLookup.Config.Writer
import RegistryLookup.Proofs.Table

/-!
# Configurations that are written and read back

A configuration that is written is read back as it was. So is one that was edited on the way: fields
may be left out that have the value that is documented for them, fields of unknown names may be
added, and the fields may be put in any order (`readSettings_of_edited`, `settings_roundTrip`).

* `Edited`: the fields of a table after such edits.
* `SectionEdited`, `RegistriesEdited`, `SettingsEdited`: the same of a section, of the list of the
  registries, and of the whole.
* `Edited.optional`, `Edited.required`: a field is read as it was written, whether it is there or
  not.
-/

namespace RegistryLookup.Config

/-- The values that are documented for the fields of a section. -/
def CacheSettings.documented : Table String Datum :=
  [("cleanup_interval_secs", .int 300), ("max_entries", .int 10000)]

def BreakerSettings.documented : Table String Datum :=
  [("failure_threshold", .int 5), ("half_open_max", .int 2), ("reset_timeout_ms", .int 30000)]

def RetrySettings.documented : Table String Datum :=
  [("base_delay_ms", .int 100), ("max_attempts", .int 3), ("max_delay_ms", .int 5000),
    ("max_retry_after_secs", .int 60)]

def ConcurrencySettings.documented : Table String Datum := [("max_concurrent_requests", .int 5)]

def TimeoutSettings.documented : Table String Datum :=
  [("connect_secs", .int 5), ("request_secs", .int 30)]

def ObservabilitySettings.documented : Table String Datum :=
  [("log_format", .text "pretty"), ("log_level", .text "info"),
    ("metrics_address", .text "0.0.0.0:9090"), ("metrics_enabled", .bool false)]

/-- The same for a registry. A name and an address have to be given. -/
def Registry.documented : Table String Datum :=
  [("company_path", .text "/companies/\x7bid\x7d"), ("company_ttl_secs", .int 3600),
    ("search_path", .text "/companies?name=\x7bquery\x7d"), ("search_ttl_secs", .int 300),
    ("system_proxy", .bool true), ("user_agent", .null)]

/-- The sections, each with its documented values. -/
def Settings.sections : Table String (Table String Datum) :=
  [("cache", CacheSettings.documented), ("circuit_breaker", BreakerSettings.documented),
    ("retries", RetrySettings.documented), ("concurrency", ConcurrencySettings.documented),
    ("timeouts", TimeoutSettings.documented), ("observability", ObservabilitySettings.documented)]

/-- The values that are documented for the whole: all sections with theirs, and no registries. -/
def Settings.documented : Table String Datum :=
  Settings.sections.map (fun s => (s.1, .table s.2)) ++ [("registries", .list [])]

/-- What stands under a name, in a table in which a name may come more than once. -/
def under (t : Table String Datum) (name : String) : List Datum :=
  (t.filter (fun p => p.1 = name)).map (·.2)

/-- A table that holds each field of another one once, with a value as it may have become, or leaves
it out, if its value is the documented one. Nothing is said of the order of the fields, nor of fields
of other names. -/
def Edited (documented : Table String Datum) (may : String → Datum → Datum → Prop)
    (full t : Table String Datum) : Prop :=
  ∀ p ∈ full, (∃ d, under t p.1 = [d] ∧ may p.1 p.2 d) ∨
    (under t p.1 = [] ∧ documented.get? p.1 = some p.2)

/-- A table of a document after edits. -/
def TableEdited (documented : Table String Datum) (may : String → Datum → Datum → Prop)
    (d d' : Datum) : Prop :=
  ∃ full t, d = .table full ∧ d' = .table t ∧ Edited documented may full t

/-- A section after edits. The values that are still there are as they were. -/
def SectionEdited (documented : Table String Datum) : Datum → Datum → Prop :=
  TableEdited documented fun _ => Eq

/-- The list of the registries after edits of each of them. -/
def RegistriesEdited (d d' : Datum) : Prop :=
  ∃ items items', d = .list items ∧ d' = .list items' ∧
    List.Forall₂ (SectionEdited Registry.documented) items items'

/-- What a part of the whole may become. -/
def PartEdited (name : String) : Datum → Datum → Prop :=
  match Settings.sections.get? name with
  | some documented => SectionEdited documented
  | none => RegistriesEdited

/-- The whole after edits. -/
def SettingsEdited : Datum → Datum → Prop := TableEdited Settings.documented PartEdited

theorem get?_eq_head? (t : Table String Datum) (name : String) :
    t.get? name = (under t name).head? := by
  unfold Table.get? under
  rw [List.head?_map, List.head?_filter]

section Fields

variable {α : Type} {documented full t : Table String Datum}
  {may : String → Datum → Datum → Prop} {d : Datum} {read : Datum → Option α}

/-- **A field with a default is read as it was written**, whether it is there or not. -/
theorem Edited.optional (h : Edited documented may full t) (name : String) (fallback : α)
    (hfull : (name, d) ∈ full) {a : α} (hself : may name d d)
    (hread : ∀ d', may name d d' → read d' = some a)
    (hdefault : (documented.get? name).bind read = some fallback) :
    optional t name fallback read = some a := by
  unfold Config.optional
  rw [get?_eq_head?]
  rcases h _ hfull with ⟨d', hd', hmade⟩ | ⟨hnone, hdocumented⟩
  · simp only [hd', List.head?_cons]
    exact hread d' hmade
  · simp only [hnone, List.head?_nil]
    rw [hdocumented, Option.bind_some, hread d hself] at hdefault
    exact hdefault.symm

/-- **A field without a default is there.** -/
theorem Edited.required (h : Edited documented (fun _ => Eq) full t) (name : String)
    (hfull : (name, d) ∈ full) {a : α} (hread : read d = some a)
    (hdefault : documented.get? name = none) :
    required t name read = some a := by
  unfold Config.required
  rw [get?_eq_head?]
  rcases h _ hfull with ⟨d', hd', rfl⟩ | ⟨-, hdocumented⟩
  · rw [hd', List.head?_cons, Option.bind_some]
    exact hread
  · rw [hdefault] at hdocumented
    cases hdocumented

/-- A field whose value is not edited. -/
theorem Edited.kept (h : Edited documented (fun _ => Eq) full t) (name : String) (fallback : α)
    (hfull : (name, d) ∈ full) {a : α} (hread : read d = some a)
    (hdefault : (documented.get? name).bind read = some fallback) :
    Config.optional t name fallback read = some a := by
  refine h.optional name fallback hfull rfl (fun d' heq => ?_) hdefault
  rw [← heq]
  exact hread

theorem under_of_nodup (h : (Table.keys full).Nodup) {name : String} (hfull : (name, d) ∈ full) :
    under full name = [d] := by
  unfold under
  induction full with
  | nil => cases hfull
  | cons p rest ih =>
    obtain ⟨hnew, hrest⟩ := List.nodup_cons.1 h
    rcases List.mem_cons.1 hfull with rfl | hfull
    · -- no other field has the name
      have hother : rest.filter (fun p => p.1 = name) = [] := by
        refine List.filter_eq_nil_iff.2 fun q hq => ?_
        simp only [decide_eq_true_eq]
        rintro rfl
        exact hnew (List.mem_map.2 ⟨q, hq, rfl⟩)
      rw [List.filter_cons_of_pos (by simp), hother]
      rfl
    · have hne : p.1 ≠ name := fun hp => hnew (List.mem_map.2 ⟨(name, d), hfull, hp.symm⟩)
      rw [List.filter_cons_of_neg (by simpa using hne)]
      exact ih hrest hfull

/-- A table in which no name comes twice need not be edited. -/
theorem Edited.refl (h : (Table.keys full).Nodup) (hmay : ∀ p ∈ full, may p.1 p.2 p.2) :
    Edited documented may full full :=
  fun p hp => Or.inl ⟨p.2, under_of_nodup h hp, hmay p hp⟩

end Fields

theorem setField_perm {name : String} {value : Json} {fields : List (String × Json)}
    (h : name ∉ fields.map (·.1)) :
    (Json.setField name value fields).Perm ((name, value) :: fields) := by
  induction fields with
  | nil => exact .refl _
  | cons f rest ih =>
    obtain ⟨hne, hrest⟩ : name ≠ f.1 ∧ name ∉ rest.map (·.1) := by simpa using h
    unfold Json.setField
    by_cases hlt : name < f.1
    · rw [if_pos hlt]
    · rw [if_neg hlt, if_neg hne]
      exact ((ih hrest).cons f).trans (.swap _ _ _)

/-- An object holds the fields that it was made of. -/
theorem foldl_setField_perm {fields before : List (String × Json)}
    (h : ((before ++ fields).map (·.1)).Nodup) :
    (fields.foldl (fun acc f => Json.setField f.1 f.2 acc) before).Perm (before ++ fields) := by
  induction fields generalizing before with
  | nil => simp
  | cons f rest ih =>
    have hnew : f.1 ∉ before.map (·.1) := by
      simp only [List.map_append, List.map_cons] at h
      exact fun hmem => (List.nodup_append.1 h).2.2 f.1 hmem f.1 List.mem_cons_self rfl
    have hset : (Json.setField f.1 f.2 before ++ rest).Perm (before ++ f :: rest) :=
      ((setField_perm hnew).append_right rest).trans List.perm_middle.symm
    exact (ih ((hset.map _).nodup_iff.2 h)).trans hset

/-- The fields of an object as data. -/
def dataOf (fields : List (String × Json)) : Table String Datum :=
  fields.map (fun f => (f.1, .ofJson f.2))

theorem ofJsonFields_eq (fields : List (String × Json)) :
    Datum.ofJsonFields fields = dataOf fields := by
  induction fields with
  | nil => rfl
  | cons f rest ih => rw [Datum.ofJsonFields, ih]; rfl

theorem ofJsonItems_eq (items : List Json) : Datum.ofJsonItems items = items.map Datum.ofJson := by
  induction items with
  | nil => rfl
  | cons v rest ih => rw [Datum.ofJsonItems, ih]; rfl

theorem ofJson_ofFields {fields : List (String × Json)} (h : (fields.map (·.1)).Nodup) :
    ∃ full : Table String Datum, Datum.ofJson (.ofFields fields) = .table full ∧
      full.Perm (dataOf fields) := by
  have hperm : (fields.foldl (fun acc f => Json.setField f.1 f.2 acc) []).Perm fields :=
    foldl_setField_perm (by exact h)
  unfold Json.ofFields
  rw [Datum.ofJson, ofJsonFields_eq]
  exact ⟨_, rfl, hperm.map _⟩

/-- A written table after edits holds the fields that were written, after edits. -/
theorem TableEdited.edited {documented : Table String Datum}
    {may : String → Datum → Datum → Prop} {fields : List (String × Json)} {d : Datum}
    (h : TableEdited documented may (.ofJson (.ofFields fields)) d)
    (hnodup : (fields.map (·.1)).Nodup) :
    ∃ t, d = .table t ∧ Edited documented may (dataOf fields) t := by
  obtain ⟨full, t, hfull, rfl, hedited⟩ := h
  obtain ⟨full', hfull', hperm⟩ := ofJson_ofFields hnodup
  rw [hfull'] at hfull
  cases hfull
  exact ⟨t, rfl, fun p hp => hedited p (hperm.mem_iff.2 hp)⟩

theorem Edited.tableEdited {documented : Table String Datum}
    {may : String → Datum → Datum → Prop} {fields : List (String × Json)} {t : Table String Datum}
    (h : Edited documented may (dataOf fields) t) (hnodup : (fields.map (·.1)).Nodup) :
    TableEdited documented may (.ofJson (.ofFields fields)) (.table t) := by
  obtain ⟨full, hfull, hperm⟩ := ofJson_ofFields hnodup
  exact ⟨full, t, hfull, rfl, fun p hp => h p (hperm.mem_iff.1 hp)⟩

/-- A written table need not be edited. -/
theorem tableEdited_refl (documented : Table String Datum) {may : String → Datum → Datum → Prop}
    {fields : List (String × Json)} (hnodup : (fields.map (·.1)).Nodup)
    (hmay : ∀ p ∈ dataOf fields, may p.1 p.2 p.2) :
    TableEdited documented may (.ofJson (.ofFields fields)) (.ofJson (.ofFields fields)) := by
  obtain ⟨full, hfull, hperm⟩ := ofJson_ofFields hnodup
  have hkeys : (Table.keys full).Nodup := by
    refine (hperm.map _).nodup_iff.2 ?_
    rw [dataOf, List.map_map]
    exact hnodup
  exact ⟨full, full, hfull, hfull, Edited.refl hkeys fun p hp => hmay p (hperm.mem_iff.1 hp)⟩

theorem sectionEdited_refl (documented : Table String Datum) {fields : List (String × Json)}
    (hnodup : (fields.map (·.1)).Nodup) :
    SectionEdited documented (.ofJson (.ofFields fields)) (.ofJson (.ofFields fields)) :=
  tableEdited_refl documented hnodup fun _ _ => rfl

theorem readUInt32_write (n : UInt32) : readUInt32 (.ofJson (writeUInt32 n)) = some n := by
  have hlt : n.toNat < UInt32.size := n.toNat_lt_size
  unfold writeUInt32
  rw [Datum.ofJson, readUInt32, if_pos (by omega)]
  simp

theorem readUInt64_write (n : UInt64) : readUInt64 (.ofJson (writeUInt64 n)) = some n := by
  have hlt : n.toNat < UInt64.size := n.toNat_lt_size
  unfold writeUInt64
  rw [Datum.ofJson, readUInt64, if_pos (by omega)]
  simp

theorem readOptionalText_write (s : Option String) :
    readOptionalText (.ofJson (writeOptionalText s)) = some s := by
  cases s <;> rfl

theorem readLogFormat_write (dialect : Dialect) (f : LogFormat) :
    readLogFormat dialect (.ofJson (.string f.word)) = some f := by
  cases f <;> rfl

theorem readText_write (s : String) : readText (.ofJson (.string s)) = some s := rfl

theorem readBool_write (b : Bool) : readBool (.ofJson (.bool b)) = some b := rfl

variable (dialect : Dialect)

theorem readCache_of_edited (c : CacheSettings) {d : Datum}
    (h : SectionEdited CacheSettings.documented (.ofJson c.toJson) d) :
    readCache dialect d = some c := by
  obtain ⟨t, rfl, ht⟩ := TableEdited.edited h (show CacheSettings.names.Nodup by decide)
  have hentries := ht.kept "max_entries" 10000 (by simp [dataOf]) (readUInt64_write c.maxEntries)
    rfl
  have hinterval := ht.kept "cleanup_interval_secs" 300 (by simp [dataOf])
    (readUInt64_write c.cleanupIntervalSecs) rfl
  simp [readCache, Datum.fields?, hentries, hinterval]

theorem readBreaker_of_edited (c : BreakerSettings) {d : Datum}
    (h : SectionEdited BreakerSettings.documented (.ofJson c.toJson) d) :
    readBreaker dialect d = some c := by
  obtain ⟨t, rfl, ht⟩ := TableEdited.edited h (show BreakerSettings.names.Nodup by decide)
  have hthreshold := ht.kept "failure_threshold" 5 (by simp [dataOf])
    (readUInt32_write c.failureThreshold) rfl
  have hreset := ht.kept "reset_timeout_ms" 30000 (by simp [dataOf])
    (readUInt64_write c.resetTimeoutMs) rfl
  have hprobes := ht.kept "half_open_max" 2 (by simp [dataOf])
    (readUInt32_write c.halfOpenMax) rfl
  simp [readBreaker, Datum.fields?, hthreshold, hreset, hprobes]

theorem readRetries_of_edited (c : RetrySettings) {d : Datum}
    (h : SectionEdited RetrySettings.documented (.ofJson c.toJson) d) :
    readRetries dialect d = some c := by
  obtain ⟨t, rfl, ht⟩ := TableEdited.edited h (show RetrySettings.names.Nodup by decide)
  have hattempts := ht.kept "max_attempts" 3 (by simp [dataOf])
    (readUInt32_write c.maxAttempts) rfl
  have hdelay := ht.kept "base_delay_ms" 100 (by simp [dataOf])
    (readUInt64_write c.baseDelayMs) rfl
  have hcap := ht.kept "max_delay_ms" 5000 (by simp [dataOf])
    (readUInt64_write c.maxDelayMs) rfl
  have hafter := ht.kept "max_retry_after_secs" 60 (by simp [dataOf])
    (readUInt64_write c.maxRetryAfterSecs) rfl
  simp [readRetries, Datum.fields?, hattempts, hdelay, hcap, hafter]

theorem readConcurrency_of_edited (c : ConcurrencySettings) {d : Datum}
    (h : SectionEdited ConcurrencySettings.documented (.ofJson c.toJson) d) :
    readConcurrency dialect d = some c := by
  obtain ⟨t, rfl, ht⟩ := TableEdited.edited h (show ConcurrencySettings.names.Nodup by decide)
  have hlimit := ht.kept "max_concurrent_requests" 5 (by simp [dataOf])
    (readUInt64_write c.maxConcurrentRequests) rfl
  simp [readConcurrency, Datum.fields?, hlimit]

theorem readTimeouts_of_edited (c : TimeoutSettings) {d : Datum}
    (h : SectionEdited TimeoutSettings.documented (.ofJson c.toJson) d) :
    readTimeouts dialect d = some c := by
  obtain ⟨t, rfl, ht⟩ := TableEdited.edited h (show TimeoutSettings.names.Nodup by decide)
  have hconnect := ht.kept "connect_secs" 5 (by simp [dataOf])
    (readUInt64_write c.connectSecs) rfl
  have hrequest := ht.kept "request_secs" 30 (by simp [dataOf])
    (readUInt64_write c.requestSecs) rfl
  simp [readTimeouts, Datum.fields?, hconnect, hrequest]

theorem readObservability_of_edited (c : ObservabilitySettings) {d : Datum}
    (h : SectionEdited ObservabilitySettings.documented (.ofJson c.toJson) d) :
    readObservability dialect d = some c := by
  obtain ⟨t, rfl, ht⟩ := TableEdited.edited h (show ObservabilitySettings.names.Nodup by decide)
  have hlevel := ht.kept "log_level" "info" (by simp [dataOf]) (readText_write c.logLevel)
    rfl
  have hformat := ht.kept "log_format" .pretty (by simp [dataOf])
    (readLogFormat_write dialect c.logFormat) rfl
  have henabled := ht.kept "metrics_enabled" false (by simp [dataOf])
    (readBool_write c.metricsEnabled) rfl
  have haddress := ht.kept "metrics_address" "0.0.0.0:9090" (by simp [dataOf])
    (readText_write c.metricsAddress) rfl
  simp [readObservability, Datum.fields?, hlevel, hformat, henabled, haddress]

theorem readRegistry_of_edited (r : Registry) {d : Datum}
    (h : SectionEdited Registry.documented (.ofJson r.toJson) d) :
    readRegistry dialect d = some r := by
  obtain ⟨t, rfl, ht⟩ := TableEdited.edited h (show Registry.names.Nodup by decide)
  have hname := ht.required "name" (by simp [dataOf]) (readText_write r.name) rfl
  have haddress := ht.required "base_url" (by simp [dataOf]) (readText_write r.baseUrl) rfl
  have hcompanyPath := ht.kept "company_path" Registry.defaultCompanyPath (by simp [dataOf])
    (readText_write r.companyPath) rfl
  have hsearchPath := ht.kept "search_path" Registry.defaultSearchPath (by simp [dataOf])
    (readText_write r.searchPath) rfl
  have hcompanyTtl := ht.kept "company_ttl_secs" Registry.defaultCompanyTtlSecs (by simp [dataOf])
    (readUInt64_write r.companyTtlSecs) rfl
  have hsearchTtl := ht.kept "search_ttl_secs" Registry.defaultSearchTtlSecs (by simp [dataOf])
    (readUInt64_write r.searchTtlSecs) rfl
  have huserAgent := ht.kept "user_agent" none (by simp [dataOf])
    (readOptionalText_write r.userAgent) rfl
  have hproxy := ht.kept "system_proxy" true (by simp [dataOf])
    (readBool_write r.systemProxy) rfl
  simp [readRegistry, Datum.fields?, hname, haddress, hcompanyPath, hsearchPath, hcompanyTtl,
    hsearchTtl, huserAgent, hproxy]

theorem readRegistries_of_edited (rs : List Registry) {d : Datum}
    (h : RegistriesEdited (.ofJson (.array (rs.map Registry.toJson))) d) :
    readRegistries dialect d = some rs := by
  obtain ⟨items, items', hitems, rfl, hedited⟩ := h
  rw [Datum.ofJson, ofJsonItems_eq, List.map_map] at hitems
  cases hitems
  rw [readRegistries]
  -- by induction on the registries, each of which was edited by itself
  induction rs generalizing items' with
  | nil =>
    cases hedited
    rfl
  | cons r rest ih =>
    cases hedited with
    | cons hr hrest =>
      unfold readAll
      rw [readRegistry_of_edited dialect r hr, ih _ hrest]

theorem registriesEdited_refl (rs : List Registry) :
    RegistriesEdited (.ofJson (.array (rs.map Registry.toJson)))
      (.ofJson (.array (rs.map Registry.toJson))) := by
  rw [Datum.ofJson, ofJsonItems_eq, List.map_map]
  refine ⟨_, _, rfl, rfl, List.forall₂_same.2 fun d hd => ?_⟩
  obtain ⟨r, -, rfl⟩ := List.mem_map.1 hd
  exact sectionEdited_refl _ (show Registry.names.Nodup by decide)

/-- The parts of a written configuration. -/
def Settings.parts (c : Settings) : List (String × Json) :=
  [("cache", c.cache.toJson), ("circuit_breaker", c.breaker.toJson), ("retries", c.retries.toJson),
    ("concurrency", c.concurrency.toJson), ("timeouts", c.timeouts.toJson),
    ("observability", c.observability.toJson),
    ("registries", .array (c.registries.map Registry.toJson))]

theorem partEdited_refl (c : Settings) : ∀ p ∈ dataOf c.parts, PartEdited p.1 p.2 p.2 := by
  simp only [Settings.parts, dataOf, List.map_cons, List.map_nil, List.forall_mem_cons]
  exact ⟨sectionEdited_refl _ (show CacheSettings.names.Nodup by decide),
    sectionEdited_refl _ (show BreakerSettings.names.Nodup by decide),
    sectionEdited_refl _ (show RetrySettings.names.Nodup by decide),
    sectionEdited_refl _ (show ConcurrencySettings.names.Nodup by decide),
    sectionEdited_refl _ (show TimeoutSettings.names.Nodup by decide),
    sectionEdited_refl _ (show ObservabilitySettings.names.Nodup by decide),
    registriesEdited_refl c.registries, fun p hp => by cases hp⟩

/-- A written configuration need not be edited. -/
theorem settingsEdited_refl (c : Settings) :
    SettingsEdited (.ofJson c.toJson) (.ofJson c.toJson) :=
  tableEdited_refl Settings.documented (show Settings.names.Nodup by decide) (partEdited_refl c)

theorem optional_part {c : Settings} {t : Table String Datum}
    (h : Edited Settings.documented PartEdited (dataOf c.parts) t) (name : String) {v : Json}
    (hv : (name, v) ∈ c.parts) {α : Type} (fallback : α) {read : Datum → Option α} {a : α}
    (hread : ∀ d, PartEdited name (.ofJson v) d → read d = some a)
    (hdefault : (Settings.documented.get? name).bind read = some fallback) :
    optional t name fallback read = some a := by
  have hfull : (name, Datum.ofJson v) ∈ dataOf c.parts := List.mem_map.2 ⟨(name, v), hv, rfl⟩
  exact h.optional name fallback hfull (partEdited_refl c _ hfull) hread hdefault

/-- **A configuration that was edited on the way is read as it was written.** -/
theorem readSettings_of_edited (c : Settings) {d : Datum}
    (h : SettingsEdited (.ofJson c.toJson) d) : readSettings dialect d = some c := by
  obtain ⟨t, rfl, ht⟩ : ∃ t, d = .table t ∧
      Edited Settings.documented PartEdited (dataOf c.parts) t :=
    TableEdited.edited h (show Settings.names.Nodup by decide)
  have hcache := optional_part ht "cache" (by simp [Settings.parts]) {}
    (fun _ => readCache_of_edited dialect c.cache) rfl
  have hbreaker := optional_part ht "circuit_breaker" (by simp [Settings.parts]) {}
    (fun _ => readBreaker_of_edited dialect c.breaker) rfl
  have hretries := optional_part ht "retries" (by simp [Settings.parts]) {}
    (fun _ => readRetries_of_edited dialect c.retries) rfl
  have hconcurrency := optional_part ht "concurrency" (by simp [Settings.parts]) {}
    (fun _ => readConcurrency_of_edited dialect c.concurrency) rfl
  have htimeouts := optional_part ht "timeouts" (by simp [Settings.parts]) {}
    (fun _ => readTimeouts_of_edited dialect c.timeouts) rfl
  have hobservability := optional_part ht "observability" (by simp [Settings.parts]) {}
    (fun _ => readObservability_of_edited dialect c.observability) rfl
  have hregistries := optional_part ht "registries" (by simp [Settings.parts]) []
    (fun _ => readRegistries_of_edited dialect c.registries) rfl
  simp [readSettings, Datum.fields?, hcache, hbreaker, hretries, hconcurrency, htimeouts,
    hobservability, hregistries]

/-- **A configuration survives being written and read.** It is read as it was written, and so it is
if fields are left out that have their documented values, in any section, or whole sections, if
fields of unknown names are added, and if the fields come in another order. The same holds of a
registry; of a new one the name and the address are enough. -/
theorem settings_roundTrip (dialect : Dialect) :
    (∀ c : Settings, readSettings dialect (.ofJson c.toJson) = some c ∧
      ∀ d, SettingsEdited (.ofJson c.toJson) d → readSettings dialect d = some c) ∧
    (∀ r : Registry, readRegistry dialect (.ofJson r.toJson) = some r ∧
      ∀ d, SectionEdited Registry.documented (.ofJson r.toJson) d →
        readRegistry dialect d = some r) ∧
    ∀ name baseUrl : String,
      readRegistry dialect (.table [("name", .text name), ("base_url", .text baseUrl)]) =
        some (.new name baseUrl) :=
  ⟨fun c => ⟨readSettings_of_edited dialect c (settingsEdited_refl c),
      fun _ => readSettings_of_edited dialect c⟩,
    fun r => ⟨readRegistry_of_edited dialect r
        (sectionEdited_refl _ (show Registry.names.Nodup by decide)),
      fun _ => readRegistry_of_edited dialect r⟩,
    fun _ _ => rfl⟩

/-- A configuration with one registry, and with one value that is not the documented one. -/
def sparse : Settings where
  cache := { maxEntries := 7 }
  registries := [{ name := "no", baseUrl := "https://no.example" }]

/-- What is left of it when everything is left out that may be, with a field of an unknown name. -/
def sparseTable : Table String Datum :=
  [("comment", .null),
    ("registries", .list [.table [("base_url", .text "https://no.example"), ("name", .text "no")]]),
    ("cache", .table [("max_entries", .int 7)])]

theorem sparseTable_read : SettingsEdited (.ofJson sparse.toJson) (.table sparseTable) ∧
    readSettings .json (.table sparseTable) = some sparse := by
  have hcache : SectionEdited CacheSettings.documented (.ofJson sparse.cache.toJson)
      (.table [("max_entries", .int 7)]) := by
    refine Edited.tableEdited ?_ (show CacheSettings.names.Nodup by decide)
    simp only [Edited, dataOf, List.map_cons, List.map_nil, List.forall_mem_cons]
    exact ⟨Or.inl ⟨_, rfl, rfl⟩, Or.inr ⟨rfl, rfl⟩, fun p hp => by cases hp⟩
  have hregistry : SectionEdited Registry.documented
      (.ofJson ({ name := "no", baseUrl := "https://no.example" } : Registry).toJson)
      (.table [("base_url", .text "https://no.example"), ("name", .text "no")]) := by
    refine Edited.tableEdited ?_ (show Registry.names.Nodup by decide)
    simp only [Edited, dataOf, List.map_cons, List.map_nil, List.forall_mem_cons]
    exact ⟨Or.inl ⟨_, rfl, rfl⟩, Or.inl ⟨_, rfl, rfl⟩, Or.inr ⟨rfl, rfl⟩, Or.inr ⟨rfl, rfl⟩,
      Or.inr ⟨rfl, rfl⟩, Or.inr ⟨rfl, rfl⟩, Or.inr ⟨rfl, rfl⟩, Or.inr ⟨rfl, rfl⟩,
      fun p hp => by cases hp⟩
  have hparts : Edited Settings.documented PartEdited (dataOf sparse.parts) sparseTable := by
    simp only [Edited, Settings.parts, dataOf, List.map_cons, List.map_nil, List.forall_mem_cons]
    exact ⟨Or.inl ⟨_, rfl, hcache⟩, Or.inr ⟨rfl, rfl⟩, Or.inr ⟨rfl, rfl⟩, Or.inr ⟨rfl, rfl⟩,
      Or.inr ⟨rfl, rfl⟩, Or.inr ⟨rfl, rfl⟩,
      Or.inl ⟨_, rfl, _, _, rfl, rfl, .cons hregistry .nil⟩, fun p hp => by cases hp⟩
  have hedited : SettingsEdited (.ofJson sparse.toJson) (.table sparseTable) :=
    hparts.tableEdited (show Settings.names.Nodup by decide)
  exact ⟨hedited, ((settings_roundTrip .json).1 sparse).2 _ hedited⟩

end RegistryLookup.Config
