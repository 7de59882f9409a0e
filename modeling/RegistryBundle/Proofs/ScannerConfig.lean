import RegistryBundle.Proofs.FieldGroup.Fields
import RegistryBundle.Proofs.Settings.Login

/-!
# The scanner's configuration read back

The page that a scanner is configured with is read as the document it was written from: the
connection stands in it three times, the addresses of the notifications and the log level once each,
every text as it was given.

* `Value.at?` is what stands at a path of names; `Value.at?_ordered` says that the order of entries
  is no part of it;
* `ScannerConfig.Carries` is what a page tells of a registry and its settings;
* `ScannerConfig.page_carries` is the main statement: of a registry the page tells
  its name, and nothing else.
-/

namespace RegistryBundle

namespace Value

/-! ## Paths -/

/-- What stands at a path of names, from the outermost mapping inward. -/
def at? : List String → Value → Option Value
  | [], v => some v
  | name :: path, .map entries => (get? entries name).bind (at? path)
  | _ :: _, _ => none

/-- **What stands at a path** stands there in the order of keys. -/
theorem at?_ordered {v : Value} (h : IsTree v) (path : List String) :
    at? path (ordered v) = (at? path v).map ordered := by
  induction path generalizing v with
  | nil => rfl
  | cons name path ih =>
      cases v with
      | map entries =>
          have hkeys := h.2.textKeys
          rw [ordered_map hkeys, at?, at?, get?_ordered hkeys h.1]
          cases hget : get? entries name with
          | none => rfl
          | some w => exact ih (areBranches_iff.mp h.2 _ (mem_of_get? hkeys hget)).2
      | _ => rfl

/-- A record of trees under different short names is a tree. -/
theorem isTree_record {fields : List (String × Value)} (names : List String)
    (heq : fields.map Prod.fst = names)
    (hnames : names.Nodup ∧ ∀ name ∈ names, name.length ≤ maxKeyLength)
    (htrees : ∀ f ∈ fields, IsTree f.2) :
    IsTree (.record fields) := by
  subst heq
  refine ⟨Table.nodup_entries_iff.mpr hnames.1, areBranches_iff.mpr fun e he => ?_⟩
  obtain ⟨f, hf, rfl⟩ := List.mem_map.mp he
  exact ⟨⟨f.1, rfl, hnames.2 _ (List.mem_map_of_mem hf)⟩, htrees f hf⟩

end Value

namespace ScannerConfig

open Value

variable {d d' : Descriptor} {settings : Settings}

/-- Where the scanner sends its notifications. -/
def target (d : Descriptor) : String :=
  "http://" ++ d.name ++ "-quay-app/secscan/notification"

/-- Where they are asked for. -/
def callback (d : Descriptor) : String :=
  "http://" ++ d.name ++ "-clair/notifier/api/v1/notifications"

/-- A document that tells a scanner of its registry and its settings. -/
structure Carries (d : Descriptor) (settings : Settings) (v : Value) : Prop where
  indexer : v.at? ["indexer", "connstring"] = some (.str (settings.scanner.connection d))
  matcher : v.at? ["matcher", "connstring"] = some (.str (settings.scanner.connection d))
  notifier : v.at? ["notifier", "connstring"] = some (.str (settings.scanner.connection d))
  logLevel : v.at? ["log_level"] = some (.str settings.scannerLogLevel)
  target : v.at? ["notifier", "webhook", "target"] = some (.str (target d))
  callback : v.at? ["notifier", "webhook", "callback"] = some (.str (callback d))

/-- The numbers in the document can be written. -/
theorem isTree_numbers : IsTree (.int 10) ∧ IsTree (.int 5) ∧ IsTree (.int 100) := by
  simp only [IsTree]
  decide +kernel

/-- The document is a tree, whatever the texts in it. -/
theorem isTree_document (d : Descriptor) (level connection : String) :
    IsTree (document d level connection) := by
  obtain ⟨hten, hfive, hhundred⟩ := isTree_numbers
  have htext : ∀ s : String, IsTree (.str s) := fun _ => trivial
  have htruth : IsTree (.bool true) := trivial
  have hwebhook : ∀ target callback : String,
      IsTree (.record [("target", .str target), ("callback", .str callback)]) := fun _ _ =>
    isTree_record ["target", "callback"] rfl (by decide) (by simp [htext])
  have hindexer : IsTree (.record [("connstring", .str connection), ("scanlock_retry", .int 10),
      ("layer_scan_concurrency", .int 5), ("migrations", .bool true)]) :=
    isTree_record ["connstring", "scanlock_retry", "layer_scan_concurrency", "migrations"]
      rfl (by decide)
      (by simp [htext, hten, hfive, htruth])
  have hmatcher : IsTree (.record [("connstring", .str connection), ("max_conn_pool", .int 100),
      ("migrations", .bool true)]) :=
    isTree_record ["connstring", "max_conn_pool", "migrations"] rfl (by decide)
      (by simp [htext, hhundred, htruth])
  have hmetrics : IsTree (.record [("name", .str "prometheus")]) :=
    isTree_record ["name"] rfl (by decide) (by simp [htext])
  refine isTree_record ["http_listen_addr", "log_level", "indexer", "matcher", "notifier",
    "metrics"] rfl
    (by decide) ?_
  simp only [List.forall_mem_cons, List.not_mem_nil, false_imp_iff, forall_const, and_true]
  refine ⟨htext _, htext _, hindexer, hmatcher, ?_, hmetrics⟩
  exact isTree_record ["connstring", "migrations", "delivery_interval", "poll_interval", "webhook"]
    rfl
    (by decide) (by simp [htext, htruth, hwebhook])

/-- **The document is written and read back**, its entries in the order of their keys. -/
theorem exists_page (d : Descriptor) (level connection : String) :
    ∃ page, Document.encode (document d level connection) = .ok page ∧
      Document.decode page = .ok (ordered (document d level connection)) := by
  obtain ⟨entries, hentries, hne, hheight⟩ : ∃ entries, document d level connection = .map entries ∧
    entries ≠ [] ∧
      heightOfEntries entries = 2 := ⟨_, rfl, List.cons_ne_nil _ _, rfl⟩
  have htree := isTree_document d level connection
  rw [hentries] at htree ⊢
  obtain ⟨page, hwrite, -, hread⟩ := Yaml.read_write_of_height htree hne (by rw [hheight]; decide)
  refine ⟨page, ?_, ?_⟩
  · rw [Document.encode, hwrite, Outcome.mapError_ok]
  · rw [Document.decode, hread, ordered_map htree.2.textKeys, Outcome.mapError_ok]

/-- What is read back carries every text. -/
theorem carries_ordered (d : Descriptor) (settings : Settings) :
    Carries d settings
      (ordered (document d settings.scannerLogLevel (settings.scanner.connection d))) := by
  have htree := isTree_document d settings.scannerLogLevel (settings.scanner.connection d)
  constructor <;> rw [at?_ordered htree] <;> rfl

/-- The addresses tell the name of the registry. -/
theorem target_injective (h : target d' = target d) : d'.name = d.name := by
  simp only [target, ← String.toList_inj, String.toList_append] at h ⊢
  exact List.append_cancel_left (List.append_cancel_right h)

/-- Of a registry nothing but its name is in the page. -/
theorem page_congr (h : d'.name = d.name) (settings : Settings) :
    page d' settings = page d settings := by
  obtain ⟨name, space, annotations⟩ := d
  obtain ⟨name', space', annotations'⟩ := d'
  obtain rfl : name' = name := h
  rfl

/-- **The page of a scanner** is read as a document with the connection, the log level and the
addresses, each text as it was given; of two registries with the same settings it is the same
exactly if their names are equal. -/
theorem page_carries (d : Descriptor) (settings : Settings) (h : settings.scanner.writable = true) :
    ∃ content v, page d settings = .ok content ∧ Document.decode content = .ok v ∧
      Carries d settings v ∧ ∀ d', page d' settings = .ok content ↔ d'.name = d.name := by
  have hpage : ∀ d, page d settings =
      Document.encode (document d settings.scannerLogLevel (settings.scanner.connection d)) :=
        fun _ => if_pos h
  have hreads : ∀ d, ∃ content v, page d settings = .ok content ∧ Document.decode content = .ok v ∧
      Carries d settings v := by
    intro d
    obtain ⟨content, hwrite, hread⟩ :=
      exists_page d settings.scannerLogLevel (settings.scanner.connection d)
    exact ⟨content, _, (hpage d).trans hwrite, hread, carries_ordered d settings⟩
  obtain ⟨content, v, hcontent, hread, hcarries⟩ := hreads d
  refine ⟨content, v, hcontent, hread, hcarries, fun d' => ⟨fun hsame => ?_, fun hname => ?_⟩⟩
  · obtain ⟨content', v', hcontent', hread', hcarries'⟩ := hreads d'
    obtain rfl : content = content' := Except.ok.inj (hsame.symm.trans hcontent')
    obtain rfl : v = v' := Except.ok.inj (hread.symm.trans hread')
    have htarget := Option.some.inj (hcarries'.target.symm.trans hcarries.target)
    exact target_injective (Value.str.inj htarget)
  · rw [page_congr hname, hcontent]

/-- A registry and settings with quotes, line breaks, a mark of a comment and a text
that is longer than a line. -/
def knottyRegistry : Descriptor := { name := "r: '#\n\"\t-" }

def knottySettings : Settings :=
  { scanner := { user := "- a", password := "it's \n \"b\" # " ++ String.ofList (List.replicate 100
    'é') }
    scannerLogLevel := "null" }

theorem page_carries_knotty : ∃ content v, page knottyRegistry knottySettings = .ok content ∧
    Document.decode content = .ok v ∧ Carries knottyRegistry knottySettings v ∧
    page { knottyRegistry with space := "elsewhere", annotations := [("a", "b")] } knottySettings =
      .ok content ∧
    page { name := "r" } knottySettings ≠ .ok content := by
  obtain ⟨content, v, hcontent, hread, hcarries, hname⟩ :=
    page_carries knottyRegistry knottySettings rfl
  refine ⟨content, v, hcontent, hread, hcarries, (hname _).mpr rfl, fun hsame => ?_⟩
  exact absurd ((hname _).mp hsame) (by decide)

/-- **Settings without a page**: a port that is too long to be written is accepted, and then no
registry has a page. -/
theorem page_missing : ∃ settings : Settings,
    Settings.ofEntries [(.str "clair_postgres", .map [(.str "port", .int Value.longNumber)])] =
      .ok settings ∧ page { name := "r" } settings = .error (.breach .range) := by
  refine ⟨{ scanner := Credentials.farLogin "clair" }, rfl, ?_⟩
  rw [page, Credentials.writable_farLogin]
  rfl

end ScannerConfig

end RegistryBundle
