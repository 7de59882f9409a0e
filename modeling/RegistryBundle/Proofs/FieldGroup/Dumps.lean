import RegistryBundle.FieldGroup.Basic
import RegistryBundle.Proofs.Schema.Fits

/-!
# Dumps that are read back

A group is dumped with all its fields by key, or all by name. The check of its class finds the same
group in either, whatever the group was first read from.

* `FieldName.Apart` says that the fields of a record cannot be taken for one another, so that a
  check finds each of them in a dump (`Schema.field_dump`, `Schema.field_dump_same`,
  `Schema.required_dump_same`);
* `Restores` says that a check reads a form back from its dumps, `ScannerGroup.restores` and so on
  that the groups and their parts are such;
* `GroupModel` are all these classes, `GroupModel.check_dump` is the main statement.
-/

namespace RegistryBundle

open Value

/-! ## Fields of a dump -/

namespace FieldName

/-- The two ways to name the fields of a dump. -/
def Chosen (choose : FieldName → String) : Prop :=
  choose = FieldName.key ∨ choose = FieldName.name

/-- Fields that cannot be taken for one another, neither by key nor by name. -/
def Apart (fields : List FieldName) : Prop :=
  (fields.map FieldName.key).Nodup ∧ (fields.map FieldName.name).Nodup ∧
    ∀ m ∈ fields, ∀ n ∈ fields, m.key = n.name → m = n

instance (fields : List FieldName) : Decidable (Apart fields) :=
  inferInstanceAs (Decidable (_ ∧ _ ∧ _))

variable {choose : FieldName → String} {fields : List FieldName}

/-- Chosen names differ. -/
theorem Apart.nodup (h : Apart fields) (hchoose : Chosen choose) : (fields.map choose).Nodup := by
  rcases hchoose with rfl | rfl
  · exact h.1
  · exact h.2.1

/-- A chosen name is the key or the name of its own field only. -/
theorem Apart.eq_of_chosen (h : Apart fields) (hchoose : Chosen choose) {m n : FieldName}
    (hm : m ∈ fields)
    (hn : n ∈ fields) (heq : choose m = n.key ∨ choose m = n.name) : m = n := by
  obtain ⟨hkeys, hnames, hcrossed⟩ := h
  rcases hchoose with rfl | rfl <;> rcases heq with heq | heq
  · exact List.inj_on_of_nodup_map hkeys hm hn heq
  · exact hcrossed m hm n hn heq
  · exact (hcrossed n hn m hm heq.symm).symm
  · exact List.inj_on_of_nodup_map hnames hm hn heq

end FieldName

open FieldName

namespace Form

private theorem dumpFields_eq (choose : FieldName → String) (fields : List (FieldName × Form)) :
    dumpFields choose fields = Table.entries
      (fields.map fun p => (choose p.1, p.2.dump choose)) := by
  induction fields with
  | nil => rfl
  | cons p rest ih => rw [dumpFields, ih, List.map_cons, Table.entries_cons]

private theorem dumpEntries_eq (choose : FieldName → String) (entries : List (String × Form)) :
    dumpEntries choose entries = Table.entries (entries.map fun e => (e.1, e.2.dump choose)) := by
  induction entries with
  | nil => rfl
  | cons e rest ih => rw [dumpEntries, ih, List.map_cons, Table.entries_cons]

variable {choose : FieldName → String} {fields : List (FieldName × Form)} {n : FieldName} {f : Form}

/-- Under the chosen name of a field stands its dump. -/
theorem get?_dumpFields (hapart : Apart (fields.map Prod.fst)) (hchoose : Chosen choose)
    (hmem : (n, f) ∈ fields) :
    Value.get? (dumpFields choose fields) (choose n) = some (f.dump choose) := by
  have hnodup : ((fields.map fun p => (choose p.1, p.2.dump choose)).map Prod.fst).Nodup := by
    have hchosen := hapart.nodup hchoose
    rw [List.map_map] at hchosen ⊢
    exact hchosen
  rw [dumpFields_eq, Table.get?_entries, Table.lookup_eq_some_iff hnodup]
  exact List.mem_map.mpr ⟨_, hmem, rfl⟩

/-- Under its key and its name stands nothing else. -/
theorem eq_of_get?_dumpFields (hapart : Apart (fields.map Prod.fst)) (hchoose : Chosen choose)
    (hmem : (n, f) ∈ fields) {s : String} (hs : s = n.key ∨ s = n.name) {v : Value}
    (h : Value.get? (dumpFields choose fields) s = some v) : v = f.dump choose := by
  have hentry : (.str s, v) ∈ dumpFields choose fields := by
    rw [dumpFields_eq] at h ⊢
    exact mem_of_get? (Table.textKeys_entries _) h
  rw [dumpFields_eq, Table.mem_entries] at hentry
  obtain ⟨⟨m, g⟩, hm, heq⟩ := List.mem_map.mp hentry
  obtain ⟨rfl, -⟩ := Prod.mk.inj heq
  obtain rfl : m = n :=
    hapart.eq_of_chosen hchoose (List.mem_map_of_mem (f := Prod.fst) hm)
      (List.mem_map_of_mem (f := Prod.fst) hmem) hs
  exact Option.some.inj (h.symm.trans (get?_dumpFields hapart hchoose hmem))

end Form

namespace Schema

variable {α : Type} {choose : FieldName → String} {fields : List (FieldName × Form)} {n : FieldName}
  {f : Form}
  {check : Value → Checked α} {default a : α}

private theorem record_map (read : Entries → Checked α) (es : Entries) :
    record read (.map es) = read es := rfl

/-- Of several names for a field the first one present holds its dump. -/
theorem findFirst_dump (hapart : Apart (fields.map Prod.fst)) (hchoose : Chosen choose)
    (hmem : (n, f) ∈ fields)
    {names : List String} (hnames : ∀ s ∈ names, s = n.key ∨ s = n.name)
    (hchosen : choose n ∈ names) :
    ∃ s, findFirst (Form.dumpFields choose fields) names = some (s, f.dump choose) := by
  induction names with
  | nil => exact absurd hchosen List.not_mem_nil
  | cons s rest ih =>
      rw [findFirst]
      cases hget : Value.get? (Form.dumpFields choose fields) s with
      | some v =>
          obtain rfl := Form.eq_of_get?_dumpFields hapart hchoose hmem
            (hnames s List.mem_cons_self) hget
          exact ⟨s, rfl⟩
      | none =>
          have hne : choose n ≠ s := by
            rintro rfl
            rw [Form.get?_dumpFields hapart hchoose hmem] at hget
            contradiction
          exact ih (fun t ht => hnames t (List.mem_cons_of_mem s ht))
            (List.mem_of_ne_of_mem hne hchosen)

/-- **A field** is found in a dump, by key or by name. -/
theorem field_dump (hapart : Apart (fields.map Prod.fst)) (hchoose : Chosen choose) (i : Nat)
    (hi : fields[i]? = some (n, f)) (hcheck : check (f.dump choose) = .fits a) :
    field check default n.names (Form.dumpFields choose fields) = .fits a := by
  have hchosen : choose n ∈ n.names := by
    rcases hchoose with rfl | rfl <;> simp [names]
  obtain ⟨s, hs⟩ := findFirst_dump hapart hchoose (List.mem_of_getElem? hi)
    (fun s hs => by simpa [names] using hs) hchosen
  rw [field, hs]
  simp only [hcheck, Checked.under_fits]

/-- A field with one name only is found under it. -/
theorem get?_dump_same {s : String} (hapart : Apart (fields.map Prod.fst)) (hchoose : Chosen choose)
    (i : Nat)
    (hi : fields[i]? = some (.same s, f)) :
    Value.get? (Form.dumpFields choose fields) s = some (f.dump choose) := by
  have hfound := Form.get?_dumpFields hapart hchoose (List.mem_of_getElem? hi)
  rcases hchoose with rfl | rfl <;> exact hfound

theorem field_dump_same {s : String} (hapart : Apart (fields.map Prod.fst))
    (hchoose : Chosen choose) (i : Nat)
    (hi : fields[i]? = some (.same s, f)) (hcheck : check (f.dump choose) = .fits a) :
    field check default [s] (Form.dumpFields choose fields) = .fits a := by
  rw [field, findFirst, get?_dump_same hapart hchoose i hi]
  simp only [hcheck, Checked.under_fits]

theorem required_dump_same {s : String} (hapart : Apart (fields.map Prod.fst))
    (hchoose : Chosen choose) (i : Nat)
    (hi : fields[i]? = some (.same s, f)) (hcheck : check (f.dump choose) = .fits a) :
    required check s (Form.dumpFields choose fields) = .fits a := by
  rw [required, get?_dump_same hapart hchoose i hi]
  simp only [hcheck, Checked.under_fits]

end Schema

/-! ## Groups and their parts -/

/-- A check reads a form back from its dumps. -/
def Restores {α : Type} (f : Form) (check : Value → Checked α) (a : α) : Prop :=
  ∀ choose, Chosen choose → check (f.dump choose) = .fits a

/-- A text that may be absent. -/
theorem restores_optionalText (s : Option String) :
    Restores (.optionalText s) (Schema.optional Schema.text) s := by
  intro choose _
  cases s <;> rfl

/-- A list of texts. -/
theorem restores_texts (ss : List String) : Restores (.texts ss) (Schema.listOf Schema.text) ss :=
  fun _ _ => Schema.listOf_texts ss

namespace HostGroup

theorem restores (g : HostGroup) : Restores g.form ofValue g := by
  obtain ⟨hostname, externalTermination, scheme⟩ := g
  intro choose h
  have hapart : Apart [hostnameName, externalTerminationName, schemeName] := by decide
  rw [ofValue, form, Form.dump, Schema.record_map]
  refine Checked.seq_of_fits (Checked.seq_of_fits (Checked.map_of_fits ?_) ?_) ?_
  · exact Schema.field_dump hapart h 0 rfl rfl
  · exact Schema.field_dump hapart h 1 rfl rfl
  · exact Schema.field_dump hapart h 2 rfl rfl

end HostGroup

namespace ScannerGroup

theorem restores (g : ScannerGroup) : Restores g.form ofValue g := by
  obtain ⟨enabled, endpoint, namespaces, interval, notifications⟩ := g
  intro choose h
  have hapart : Apart [enabledName, endpointName, namespacesName, intervalName,
      notificationsName] := by
    decide
  rw [ofValue, form, Form.dump, Schema.record_map]
  refine Checked.seq_of_fits (Checked.seq_of_fits (Checked.seq_of_fits (Checked.seq_of_fits
    (Checked.map_of_fits ?_) ?_) ?_) ?_) ?_
  · exact Schema.field_dump hapart h 0 rfl rfl
  · exact Schema.field_dump hapart h 1 rfl (restores_optionalText endpoint choose h)
  · exact Schema.field_dump hapart h 2 rfl (restores_texts namespaces choose h)
  · exact Schema.field_dump hapart h 3 rfl rfl
  · exact Schema.field_dump hapart h 4 rfl rfl

end ScannerGroup

namespace RedisEndpoint

theorem restores (r : RedisEndpoint) : Restores r.form ofValue r := by
  obtain ⟨host, port, password⟩ := r
  intro choose h
  have hapart : Apart [.same "host", .same "port", .same "password"] := by decide
  rw [ofValue, form, Form.dump, Schema.record_map]
  refine Checked.seq_of_fits (Checked.seq_of_fits (Checked.map_of_fits ?_) ?_) ?_
  · exact Schema.required_dump_same hapart h 0 rfl rfl
  · exact Schema.field_dump_same hapart h 1 rfl rfl
  · exact Schema.field_dump_same hapart h 2 rfl (restores_optionalText password choose h)

/-- A key store that may be absent. -/
theorem restores_optional (r : Option RedisEndpoint) :
    Restores (.optional form r) (Schema.optional ofValue) r := by
  intro choose h
  cases r with
  | none => rfl
  | some r =>
      have hfits := r.restores choose h
      rw [form, Form.dump] at hfits
      rw [Form.optional, form, Form.dump, Schema.optional]
      simp only [bare, hfits, Checked.map_eq_fits]

end RedisEndpoint

namespace RedisGroup

theorem restores (g : RedisGroup) : Restores g.form ofValue g := by
  obtain ⟨buildLogs, userEvents⟩ := g
  intro choose h
  have hapart : Apart [buildLogsName, userEventsName] := by decide
  rw [ofValue, form, Form.dump, Schema.record_map]
  refine Checked.seq_of_fits (Checked.map_of_fits ?_) ?_
  · exact Schema.field_dump hapart h 0 rfl (RedisEndpoint.restores_optional buildLogs choose h)
  · exact Schema.field_dump hapart h 1 rfl (RedisEndpoint.restores_optional userEvents choose h)

end RedisGroup

namespace DatabaseGroup

/-- The names of further arguments differ. -/
def Distinct (g : DatabaseGroup) : Prop :=
  ∀ args, g.connectionArgs = some args → (args.map Prod.fst).Nodup

/-- Arguments of any kind, under different names. -/
theorem restores_args {args : Option (Table Value)}
    (h : ∀ t, args = some t → (t.map Prod.fst).Nodup) :
    Restores (.optional (fun t => .value (Value.record t)) args)
      (Schema.optional (Schema.mappingOf Checked.fits)) args := by
  intro choose _
  cases args with
  | none => rfl
  | some t =>
      have hrecord : Value.record t = .map (Table.entries (t.map fun e => (e.1, id e.2))) := by
        simp [Value.record, Table.entries]
      have hfits : Schema.mappingOf Checked.fits
          (.map (Table.entries (t.map fun e => (e.1, id e.2)))) = .fits t :=
        Schema.mappingOf_entries (h t rfl) fun _ _ => rfl
      rw [Form.optional, Form.dump, hrecord, Schema.optional]
      simp only [bare, hfits, Checked.map_eq_fits]

/-- The arguments that a check lets through have different names. -/
theorem distinct_ofValue {v : Value} {g : DatabaseGroup} (h : ofValue v = .fits g) :
    g.Distinct := by
  unfold ofValue Schema.record at h
  split at h
  · obtain ⟨_, args, hone, hargs, rfl⟩ := Checked.seq_eq_fits_iff.mp h
    obtain ⟨uri, -, rfl⟩ := Checked.map_eq_fits_iff.mp hone
    refine Schema.holds_of_field (P := fun o => ∀ t, o = some t → (t.map Prod.fst).Nodup)
      (fun w o hread => ?_)
      (fun t ht => ?_) hargs
    · exact Schema.holds_of_optional Schema.nodup_of_mappingOf hread
    · contradiction
  · contradiction

/-- **A database** whose arguments have different names. -/
theorem restores {g : DatabaseGroup} (hg : g.Distinct) : Restores g.form ofValue g := by
  obtain ⟨uri, connectionArgs⟩ := g
  intro choose h
  have hapart : Apart [uriName, connectionArgsName] := by decide
  rw [ofValue, form, Form.dump, Schema.record_map]
  refine Checked.seq_of_fits (Checked.map_of_fits ?_) ?_
  · exact Schema.field_dump hapart h 0 rfl (restores_optionalText uri choose h)
  · exact Schema.field_dump hapart h 1 rfl (restores_args hg choose h)

end DatabaseGroup

namespace StorageArgs

theorem restores (a : StorageArgs) : Restores a.form ofValue a := by
  obtain ⟨hostname, secure, port, path, bucket, accessKey, secretKey⟩ := a
  intro choose h
  have hapart : Apart [.same "hostname", .same "is_secure", .same "port", .same "storage_path",
    .same "bucket_name",
      .same "access_key", .same "secret_key"] := by decide
  rw [ofValue, form, Form.dump, Schema.record_map]
  refine Checked.seq_of_fits (Checked.seq_of_fits
    (Checked.seq_of_fits (Checked.seq_of_fits (Checked.seq_of_fits
    (Checked.seq_of_fits (Checked.map_of_fits ?_) ?_) ?_) ?_) ?_) ?_) ?_
  · exact Schema.field_dump_same hapart h 0 rfl rfl
  · exact Schema.field_dump_same hapart h 1 rfl rfl
  · exact Schema.field_dump_same hapart h 2 rfl rfl
  · exact Schema.field_dump_same hapart h 3 rfl rfl
  · exact Schema.field_dump_same hapart h 4 rfl rfl
  · exact Schema.field_dump_same hapart h 5 rfl rfl
  · exact Schema.field_dump_same hapart h 6 rfl rfl

end StorageArgs

namespace StorageDefinition

/-- A list of a driver and arguments that fit. -/
theorem ofValue_list {v : Value} {args : StorageArgs} (h : StorageArgs.ofValue v = .fits args)
    (driver : String) :
    ofValue (.list [.str driver, v]) = .fits ⟨driver, args⟩ := by
  simp only [ofValue, bare]
  rw [Value.record, Schema.record_map]
  refine Checked.seq_of_fits (Checked.map_of_fits ?_) ?_
  · rfl
  · have hfound : Schema.findFirst [(str "name", str driver), (str "args", v)] ["args"] =
      some ("args", v) := rfl
    rw [Schema.field, List.map_cons, List.map_cons, List.map_nil, hfound]
    simp only [h, Checked.under_fits]

/-- A definition, which is dumped as a list of the driver and its arguments. -/
theorem restores (d : StorageDefinition) : Restores d.form ofValue d := by
  intro choose h
  rw [form, Form.dump, Form.dumpItems, Form.dumpItems, Form.dumpItems, Form.dump]
  exact ofValue_list (d.args.restores choose h) d.driver

end StorageDefinition

namespace StorageGroup

/-- The locations that a check lets through have different names. -/
theorem nodup_ofValue {v : Value} {g : StorageGroup} (h : ofValue v = .fits g) :
    (g.locations.map Prod.fst).Nodup := by
  unfold ofValue Schema.record at h
  split at h
  · obtain ⟨_, locations, hthree, hlocations, rfl⟩ := Checked.seq_eq_fits_iff.mp h
    obtain ⟨_, _, htwo, -, rfl⟩ := Checked.seq_eq_fits_iff.mp hthree
    obtain ⟨_, _, hone, -, rfl⟩ := Checked.seq_eq_fits_iff.mp htwo
    obtain ⟨_, -, rfl⟩ := Checked.map_eq_fits_iff.mp hone
    exact Schema.nodup_of_field hlocations
  · contradiction

/-- **Storage** whose locations have different names. -/
theorem restores {g : StorageGroup} (hg : (g.locations.map Prod.fst).Nodup) :
    Restores g.form ofValue g := by
  obtain ⟨proxy, preference, defaultLocations, locations⟩ := g
  intro choose h
  have hapart : Apart [proxyName, preferenceName, defaultLocationsName, locationsName] := by decide
  have hlocations : Schema.mappingOf StorageDefinition.ofValue
      ((Form.table (locations.map fun l => (l.1, l.2.form))).dump choose) = .fits locations := by
    rw [Form.dump, Form.dumpEntries_eq, List.map_map]
    exact Schema.mappingOf_entries (w := fun d => d.form.dump choose) hg fun l _ =>
      l.2.restores choose h
  rw [ofValue, form, Form.dump, Schema.record_map]
  refine Checked.seq_of_fits (Checked.seq_of_fits (Checked.seq_of_fits (Checked.map_of_fits ?_) ?_)
    ?_) ?_
  · exact Schema.field_dump hapart h 0 rfl rfl
  · exact Schema.field_dump hapart h 1 rfl (restores_texts preference choose h)
  · exact Schema.field_dump hapart h 2 rfl (restores_texts defaultLocations choose h)
  · exact Schema.field_dump hapart h 3 rfl hlocations

end StorageGroup

/-! ## All classes -/

/-- The classes of groups, and those of their parts. -/
inductive GroupModel where
  | scanner
  | redis
  | database
  | storage
  | host
  | endpoint
  | definition
  | arguments
deriving DecidableEq, Repr

namespace GroupModel

/-- What a class holds. -/
def Content : GroupModel → Type
  | scanner => ScannerGroup
  | redis => RedisGroup
  | database => DatabaseGroup
  | storage => StorageGroup
  | host => HostGroup
  | endpoint => RedisEndpoint
  | definition => StorageDefinition
  | arguments => StorageArgs

/-- The check of a class. -/
def check : (m : GroupModel) → Value → Checked m.Content
  | scanner => ScannerGroup.ofValue
  | redis => RedisGroup.ofValue
  | database => DatabaseGroup.ofValue
  | storage => StorageGroup.ofValue
  | host => HostGroup.ofValue
  | endpoint => RedisEndpoint.ofValue
  | definition => StorageDefinition.ofValue
  | arguments => StorageArgs.ofValue

/-- What a class writes. -/
def form : (m : GroupModel) → m.Content → Form
  | scanner => ScannerGroup.form
  | redis => RedisGroup.form
  | database => DatabaseGroup.form
  | storage => StorageGroup.form
  | host => HostGroup.form
  | endpoint => RedisEndpoint.form
  | definition => StorageDefinition.form
  | arguments => StorageArgs.form

variable {m : GroupModel} {v : Value} {g : m.Content}

/-- A check reads back whatever it let through. -/
theorem restores (h : m.check v = .fits g) : Restores (m.form g) m.check g := by
  cases m with
  | scanner => exact ScannerGroup.restores g
  | redis => exact RedisGroup.restores g
  | database => exact DatabaseGroup.restores (DatabaseGroup.distinct_ofValue h)
  | storage => exact StorageGroup.restores (StorageGroup.nodup_ofValue h)
  | host => exact HostGroup.restores g
  | endpoint => exact RedisEndpoint.restores g
  | definition => exact StorageDefinition.restores g
  | arguments => exact StorageArgs.restores g

/-- **Dumps are read back.** Whatever value a check lets through, it finds the same group in the
group's dump by key and in its dump by name. -/
theorem check_dump (h : m.check v = .fits g) :
    m.check ((m.form g).dump FieldName.key) = .fits g ∧
      m.check ((m.form g).dump FieldName.name) = .fits g :=
  ⟨restores h FieldName.key (.inl rfl), restores h FieldName.name (.inr rfl)⟩

/-- A document that mixes keys and names, and words and numerals with truth values and numbers. -/
def mixed : Value :=
  .record [("feature_proxy_storage", .str "yes"), ("unknown", .null),
    ("DISTRIBUTED_STORAGE_PREFERENCE", .list [.str "far", .str "near"]),
    ("distributed_storage_config", .record
      [("far", .list [.str "S3Storage", .record [("port", .str "8443.0"), ("is_secure", .int 0)]]),
        ("near", .pair (.str "LocalStorage") (.record [])),
          ("spare", .record [("name", .str "RadosGWStorage")])])]

/-- The storage it holds. -/
def mixedStorage : StorageGroup :=
  { proxy := true, preference := ["far", "near"]
    locations := [("far", ⟨"S3Storage", { port := 8443, secure := false }⟩),
      ("near", ⟨"LocalStorage", {}⟩), ("spare", ⟨"RadosGWStorage", {}⟩)] }

/-- It is read back from either dump. -/
theorem check_dump_mixed :
    storage.check mixed = .fits mixedStorage ∧
      storage.check ((storage.form mixedStorage).dump FieldName.key) = .fits mixedStorage ∧
        storage.check ((storage.form mixedStorage).dump FieldName.name) = .fits mixedStorage := by
  have hfits : storage.check mixed = .fits mixedStorage := by rfl
  exact ⟨hfits, check_dump hfits⟩

end GroupModel

end RegistryBundle
