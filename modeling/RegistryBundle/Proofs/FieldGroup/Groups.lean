import RegistryBundle.FieldGroup.Synthesis
import RegistryBundle.Proofs.FieldGroup.Dumps
import RegistryBundle.Proofs.FieldGroup.Fields

/-!
# Groups that are read back

What is written of a field group is a small tree, and the check of the group's own
class finds the group in it.

* `ReadsBack` says so of a form and a check;
* `ScannerGroup.readsBack`, `RedisGroup.readsBack`, `DatabaseGroup.readsBack`,
  `StorageGroup.readsBack` and `HostGroup.readsBack` are the five groups, with any texts and any
  numbers that can be written.
-/

namespace RegistryBundle

open Value

/-- What is written of a form is a small tree, in which a check finds `a`. -/
structure ReadsBack {α : Type} (f : Form) (check : Value → Checked α) (a : α) (entries : Entries) :
    Prop where
  written : f.written = .ok (.map entries)
  tree : IsTree (.map entries)
  ne : entries ≠ []
  height : heightOfEntries entries ≤ 4
  fits : check (ordered (.map entries)) = .fits a

/-- Different texts as keys. -/
theorem nodup_keys (names : List String) (h : names.Nodup) :
    (names.map (Value.str : String → Value)).Nodup :=
  h.map fun _ _ => Value.str.inj

/-! ## Hostnames -/

namespace HostGroup

theorem names_eq : hostnameName = ⟨"server_hostname", "SERVER_HOSTNAME"⟩ ∧
    externalTerminationName = ⟨"external_tls_termination", "EXTERNAL_TLS_TERMINATION"⟩ ∧
    schemeName = ⟨"preferred_url_scheme", "PREFERRED_URL_SCHEME"⟩ := by decide

/-- What is written of a hostname. -/
def entries (g : HostGroup) : Entries :=
  [(.str "SERVER_HOSTNAME", .str g.hostname),
    (.str "EXTERNAL_TLS_TERMINATION", .bool g.externalTermination),
    (.str "PREFERRED_URL_SCHEME", .str g.scheme)]

theorem isTree_entries (g : HostGroup) : IsTree (.map g.entries) := by
  refine ⟨nodup_keys ["SERVER_HOSTNAME", "EXTERNAL_TLS_TERMINATION", "PREFERRED_URL_SCHEME"]
    (by simp), ?_⟩
  simp only [entries, AreBranches, IsTree, Value.str.injEq, exists_eq_left', true_and, and_true]
  decide

/-- A hostname is read back. -/
theorem readsBack (g : HostGroup) : ReadsBack g.form ofValue g g.entries where
  written := by
    simp [form, Form.written, Form.writtenFields, Form.isAbsent, bare, Document.plainForm, entries,
      names_eq]
  tree := g.isTree_entries
  ne := by simp [entries]
  height := by simp [entries, heightOfEntries, Value.height]
  fits := by
    have htree := g.isTree_entries
    rw [ofValue, Schema.record_ordered htree]
    simp only [Schema.field_ordered htree]
    simp [Schema.field, names_eq, FieldName.names, Schema.findFirst, entries, get?_cons,
      sameKey_str_str]

end HostGroup

/-! ## Scanners -/

namespace ScannerGroup

theorem names_eq : enabledName = ⟨"feature_security_scanner", "FEATURE_SECURITY_SCANNER"⟩ ∧
    endpointName = ⟨"security_scanner_v4_endpoint", "SECURITY_SCANNER_V4_ENDPOINT"⟩ ∧
    namespacesName = ⟨"security_scanner_v4_namespace_whitelist",
      "SECURITY_SCANNER_V4_NAMESPACE_WHITELIST"⟩ ∧
    intervalName = ⟨"security_scanner_indexing_interval", "SECURITY_SCANNER_INDEXING_INTERVAL"⟩ ∧
    notificationsName = ⟨"security_scanner_notifications", "SECURITY_SCANNER_NOTIFICATIONS"⟩ := by
      decide

/-- What is written of a scanner that has an endpoint. -/
def entries (g : ScannerGroup) (endpoint : String) : Entries :=
  [(.str "FEATURE_SECURITY_SCANNER", .bool g.enabled),
    (.str "SECURITY_SCANNER_V4_ENDPOINT", .str endpoint),
    (.str "SECURITY_SCANNER_V4_NAMESPACE_WHITELIST", .list (g.namespaces.map .str)),
    (.str "SECURITY_SCANNER_INDEXING_INTERVAL", .int g.interval),
    (.str "SECURITY_SCANNER_NOTIFICATIONS", .bool g.notifications)]

theorem isTree_entries {g : ScannerGroup} (h : IsTree (.int g.interval)) (endpoint : String) :
    IsTree (.map (g.entries endpoint)) := by
  refine ⟨nodup_keys ["FEATURE_SECURITY_SCANNER", "SECURITY_SCANNER_V4_ENDPOINT",
    "SECURITY_SCANNER_V4_NAMESPACE_WHITELIST", "SECURITY_SCANNER_INDEXING_INTERVAL",
    "SECURITY_SCANNER_NOTIFICATIONS"] (by simp), ?_⟩
  have htexts := (texts_tree g.namespaces).1
  simp only [IsTree] at h htexts
  simp only [entries, AreBranches, IsTree, h, htexts, Value.str.injEq, exists_eq_left', true_and,
    and_true]
  decide

/-- A scanner with an endpoint is read back. -/
theorem readsBack {g : ScannerGroup} (h : IsTree (.int g.interval)) {endpoint : String}
    (hendpoint : g.endpoint = some endpoint) : ReadsBack g.form ofValue g (g.entries endpoint) where
  written := by
    simp [form, Form.written, Form.writtenFields, Form.isAbsent, Form.optionalText, Form.texts,
      bare, Document.plainForm, Document.plainItems_texts, entries, names_eq, hendpoint]
  tree := isTree_entries h endpoint
  ne := by simp [entries]
  height := by
    have hheight := (texts_tree g.namespaces).2.1
    simp only [Value.height] at hheight
    simp only [entries, heightOfEntries, hheight, Value.height]
    decide
  fits := by
    have htree := isTree_entries h endpoint
    rw [ofValue, Schema.record_ordered htree]
    simp only [Schema.field_ordered htree]
    simp [Schema.field, names_eq, FieldName.names, Schema.findFirst, entries, get?_cons,
      sameKey_str_str, (texts_tree g.namespaces).2.2, ← hendpoint]

end ScannerGroup

/-! ## Key stores -/

namespace RedisEndpoint

/-- What is written of a key store without a password. -/
def entries (r : RedisEndpoint) : Entries :=
  [(.str "host", .str r.host), (.str "port", .int r.port)]

theorem isTree_entries {r : RedisEndpoint} (h : IsTree (.int r.port)) :
    IsTree (.map r.entries) := by
  refine ⟨nodup_keys ["host", "port"] (by simp), ?_⟩
  simp only [IsTree] at h
  simp only [entries, AreBranches, IsTree, h, Value.str.injEq, exists_eq_left', true_and, and_true]
  decide

/-- A key store without a password is read back. -/
theorem readsBack {r : RedisEndpoint} (h : IsTree (.int r.port)) (hpassword : r.password = none) :
    ReadsBack r.form ofValue r r.entries where
  written := by
    simp [form, Form.written, Form.writtenFields, Form.isAbsent, Form.optionalText, Form.absent,
      bare, Document.plainForm, entries, FieldName.same, hpassword]
  tree := isTree_entries h
  ne := by simp [entries]
  height := by simp [entries, heightOfEntries, Value.height]
  fits := by
    have htree := isTree_entries h
    rw [ofValue, Schema.record_ordered htree]
    simp only [Schema.field_ordered htree, Schema.required_ordered htree]
    simp [Schema.field, Schema.required, Schema.findFirst, entries, get?_cons, sameKey_str_str,
      ← hpassword]

end RedisEndpoint

namespace RedisGroup

theorem names_eq : buildLogsName = ⟨"buildlogs_redis", "BUILDLOGS_REDIS"⟩ ∧
    userEventsName = ⟨"user_events_redis", "USER_EVENTS_REDIS"⟩ := by decide

/-- What is written of two key stores. -/
def entries (buildLogs userEvents : RedisEndpoint) : Entries :=
  [(.str "BUILDLOGS_REDIS", .map buildLogs.entries),
    (.str "USER_EVENTS_REDIS", .map userEvents.entries)]

/-- Two key stores without passwords are read back. -/
theorem readsBack {buildLogs userEvents : RedisEndpoint} (hb : IsTree (.int buildLogs.port))
    (hu : IsTree (.int userEvents.port)) (hbp : buildLogs.password = none)
    (hup : userEvents.password = none) :
    ReadsBack (form ⟨some buildLogs, some userEvents⟩) ofValue ⟨some buildLogs, some userEvents⟩
      (entries buildLogs userEvents) := by
  have hbuild := RedisEndpoint.readsBack hb hbp
  have huser := RedisEndpoint.readsBack hu hup
  have htree : IsTree (.map (entries buildLogs userEvents)) := by
    refine ⟨nodup_keys ["BUILDLOGS_REDIS", "USER_EVENTS_REDIS"] (by simp), ?_⟩
    exact ⟨⟨_, rfl, by decide⟩, hbuild.tree, ⟨_, rfl, by decide⟩, huser.tree, trivial⟩
  refine ⟨?_, htree, by simp [entries], ?_, ?_⟩
  · have hfields := Form.writtenFields_cons (n := buildLogsName) rfl hbuild.written
      (Form.writtenFields_cons (n := userEventsName) rfl huser.written (by rw [Form.writtenFields]))
    rw [names_eq.1, names_eq.2] at hfields
    simp only [form, Form.written, Form.optional, names_eq, hfields]
    rfl
  · simp [entries, RedisEndpoint.entries, heightOfEntries, Value.height]
  · rw [ofValue, Schema.record_ordered htree]
    simp only [Schema.field_ordered htree]
    simp [Schema.field, names_eq, FieldName.names, Schema.findFirst, entries, get?_cons,
      sameKey_str_str, hbuild.fits, huser.fits]

end RedisGroup

/-! ## Databases -/

namespace DatabaseGroup

theorem names_eq : uriName = ⟨"db_uri", "DB_URI"⟩ ∧
    connectionArgsName = ⟨"db_connection_args", "DB_CONNECTION_ARGS"⟩ := by
  decide

/-- What is written of a database without further arguments. -/
def entries (uri : String) : Entries :=
  [(.str "DB_URI", .str uri)]

theorem isTree_entries (uri : String) : IsTree (.map (entries uri)) :=
  ⟨nodup_keys ["DB_URI"] (by simp), ⟨_, rfl, by decide⟩, trivial, trivial⟩

/-- A database without further arguments is read back. -/
theorem readsBack (uri : String) :
    ReadsBack (form ⟨some uri, none⟩) ofValue ⟨some uri, none⟩ (entries uri) where
  written := by
    simp [form, Form.written, Form.writtenFields, Form.isAbsent, Form.optionalText, Form.optional,
      Form.absent, bare, Document.plainForm, entries, names_eq]
  tree := isTree_entries uri
  ne := by simp [entries]
  height := by simp [entries, heightOfEntries, Value.height]
  fits := by
    have htree := isTree_entries uri
    rw [ofValue, Schema.record_ordered htree]
    simp only [Schema.field_ordered htree]
    simp [Schema.field, names_eq, FieldName.names, Schema.findFirst, entries, get?_cons,
      sameKey_str_str]

end DatabaseGroup

/-! ## Storage -/

namespace StorageArgs

/-- What is written of the arguments. -/
def entries (a : StorageArgs) : Entries :=
  [(.str "hostname", .str a.hostname), (.str "is_secure", .bool a.secure),
    (.str "port", .int a.port), (.str "storage_path", .str a.path),
    (.str "bucket_name", .str a.bucket), (.str "access_key", .str a.accessKey),
    (.str "secret_key", .str a.secretKey)]

theorem isTree_entries {a : StorageArgs} (h : IsTree (.int a.port)) : IsTree (.map a.entries) := by
  refine ⟨nodup_keys ["hostname", "is_secure", "port", "storage_path", "bucket_name", "access_key",
    "secret_key"] (by simp), ?_⟩
  simp only [IsTree] at h
  simp only [entries, AreBranches, IsTree, h, Value.str.injEq, exists_eq_left', true_and, and_true]
  decide

/-- Arguments are read back. -/
theorem readsBack {a : StorageArgs} (h : IsTree (.int a.port)) :
    ReadsBack a.form ofValue a a.entries where
  written := by
    simp [form, Form.written, Form.writtenFields, Form.isAbsent, bare, Document.plainForm, entries,
      FieldName.same]
  tree := isTree_entries h
  ne := by simp [entries]
  height := by simp [entries, heightOfEntries, Value.height]
  fits := by
    have htree := isTree_entries h
    rw [ofValue, Schema.record_ordered htree]
    simp only [Schema.field_ordered htree]
    simp [Schema.field, Schema.findFirst, entries, get?_cons, sameKey_str_str]

end StorageArgs

namespace StorageDefinition

/-- The pair in which a definition is written. -/
def pair (d : StorageDefinition) : Value :=
  .list [.str d.driver, .map d.args.entries]

/-- A definition is read back from its pair. -/
theorem ofValue_pair {d : StorageDefinition} (h : IsTree (.int d.args.port)) :
    ofValue (ordered d.pair) = .fits d := by
  rw [pair, ordered, orderedItems, orderedItems, orderedItems, ordered]
  exact ofValue_list (StorageArgs.readsBack h).fits d.driver

end StorageDefinition

namespace StorageGroup

theorem names_eq : proxyName = ⟨"feature_proxy_storage", "FEATURE_PROXY_STORAGE"⟩ ∧
    preferenceName = ⟨"distributed_storage_preference", "DISTRIBUTED_STORAGE_PREFERENCE"⟩ ∧
    defaultLocationsName = ⟨"distributed_storage_default_locations",
      "DISTRIBUTED_STORAGE_DEFAULT_LOCATIONS"⟩ ∧
    locationsName = ⟨"distributed_storage_config", "DISTRIBUTED_STORAGE_CONFIG"⟩ := by decide

/-- What is written of storage at one location. -/
def entries (g : StorageGroup) (location : String) (d : StorageDefinition) : Entries :=
  [(.str "FEATURE_PROXY_STORAGE", .bool g.proxy),
    (.str "DISTRIBUTED_STORAGE_PREFERENCE", .list (g.preference.map .str)),
    (.str "DISTRIBUTED_STORAGE_DEFAULT_LOCATIONS", .list (g.defaultLocations.map .str)),
    (.str "DISTRIBUTED_STORAGE_CONFIG", .map [(.str location, d.pair)])]

theorem isTree_entries (g : StorageGroup) {location : String} (hl : location.length ≤ maxKeyLength)
    {d : StorageDefinition} (h : IsTree (.int d.args.port)) :
      IsTree (.map (g.entries location d)) := by
  refine ⟨nodup_keys ["FEATURE_PROXY_STORAGE", "DISTRIBUTED_STORAGE_PREFERENCE",
    "DISTRIBUTED_STORAGE_DEFAULT_LOCATIONS", "DISTRIBUTED_STORAGE_CONFIG"] (by simp), ?_⟩
  have hargs : IsTree (.map d.args.entries) := StorageArgs.isTree_entries h
  have hlocations : IsTree (.map [(.str location, d.pair)]) :=
    ⟨nodup_keys [location] (by simp), ⟨_, rfl, hl⟩, ⟨trivial, hargs, trivial⟩, trivial⟩
  exact ⟨⟨_, rfl, by decide⟩, trivial, ⟨_, rfl, by decide⟩, (texts_tree g.preference).1,
    ⟨_, rfl, by decide⟩, (texts_tree g.defaultLocations).1, ⟨_, rfl, by decide⟩, hlocations,
    trivial⟩

/-- Storage at one location is read back. -/
theorem readsBack {g : StorageGroup} {location : String} (hl : location.length ≤ maxKeyLength)
    {d : StorageDefinition} (h : IsTree (.int d.args.port)) (hg : g.locations = [(location, d)]) :
    ReadsBack g.form ofValue g (g.entries location d) where
  written := by
    have hargs := (StorageArgs.readsBack h).written
    simp [form, Form.written, Form.writtenFields, Form.writtenEntries, Form.writtenItems,
      Form.isAbsent, Form.texts, bare, StorageDefinition.form, hargs, Document.plainForm,
      Document.plainItems_texts, entries, names_eq, hg, StorageDefinition.pair]
  tree := g.isTree_entries hl h
  ne := by simp [entries]
  height := by
    have hpreference := (texts_tree g.preference).2.1
    have hdefault := (texts_tree g.defaultLocations).2.1
    simp only [Value.height] at hpreference hdefault
    simp [entries, StorageDefinition.pair, StorageArgs.entries, heightOfEntries, heightOfItems,
      Value.height, hpreference, hdefault]
  fits := by
    have htree := g.isTree_entries hl h
    have hpair := StorageDefinition.ofValue_pair h
    rw [ofValue, Schema.record_ordered htree]
    simp only [Schema.field_ordered htree]
    simp [Schema.field, names_eq, FieldName.names, Schema.findFirst, entries, get?_cons,
      sameKey_str_str, (texts_tree g.preference).2.2, (texts_tree g.defaultLocations).2.2,
      Schema.mappingOf_singleton hpair, ← hg]

end StorageGroup

end RegistryBundle
