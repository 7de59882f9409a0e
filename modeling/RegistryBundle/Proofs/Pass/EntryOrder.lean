import RegistryBundle.Proofs.Pass.Choices
import RegistryBundle.Proofs.Pass.OtherEntries
import RegistryBundle.Proofs.Pass.Refusals
import RegistryBundle.Proofs.Yaml.EntryOrder

/-!
# Passes over reordered configurations

A pass does not tell in which order the entries of the user's configuration were made, at any depth:
it finds the same keys, reports the same, and makes the same files or fails for the same reason.

* `Pass.encode_document_of_reordered` says so of the base document;
* `SecretKey.provided?_of_reordered` and `Overlay.chosenHostname?_of_reordered` say
  so of what is looked up;
* `Pass.run_of_reordered` is the main statement.
-/

namespace RegistryBundle

open Value Yaml

variable {config config' : Entries}

/-! ## What is looked up -/

/-- What stands under a text is read alike. -/
theorem asText_get?_of_reordered (hkeyed : Keyed (.map config))
    (h : Reordered (.map config) (.map config'))
    (name : String) : (Value.get? config' name).map asText =
      (Value.get? config name).map asText := by
  generalize Value.get? config name = x, Value.get? config' name = y, h.get?_rel hkeyed name = hrel
  cases hrel with
  | none => rfl
  | some hv => exact congrArg some hv.asText_eq.symm

/-- A key of the user's configuration is a text, or refused for its type. -/
theorem SecretKey.provided?_eq (config : Entries) (name : String) :
    provided? config name =
      match (Value.get? config name).map asText with
      | none => .ok none
      | some (.ok s) => .ok (some s)
      | some (.error t) => .error (.malformedUserValue name (.notText t)) := by
  unfold provided?
  cases Value.get? config name with
  | none => rfl
  | some v =>
      simp only [Option.map_some, asText]
      cases v.bare <;> rfl

theorem SecretKey.provided?_of_reordered (hkeyed : Keyed (.map config))
    (h : Reordered (.map config) (.map config'))
    (name : String) : provided? config' name = provided? config name := by
  rw [provided?_eq, provided?_eq, asText_get?_of_reordered hkeyed h]

/-- So is a hostname, which may not be empty. -/
theorem Overlay.chosenHostname?_eq (config : Entries) :
    chosenHostname? config =
      match (Value.get? config hostnameKey).map asText with
      | none => .ok none
      | some (.ok s) => if s = "" then .error (.malformedUserValue hostnameKey
          .empty) else .ok (some s)
      | some (.error t) => .error (.malformedUserValue hostnameKey (.notText t)) := by
  unfold chosenHostname?
  cases Value.get? config hostnameKey with
  | none => rfl
  | some v =>
      simp only [Option.map_some, asText]
      cases v.bare <;> rfl

theorem Overlay.chosenHostname?_of_reordered (hkeyed : Keyed (.map config))
    (h : Reordered (.map config) (.map config')) :
      chosenHostname? config' = chosenHostname? config := by
  rw [chosenHostname?_eq, chosenHostname?_eq, asText_get?_of_reordered hkeyed h]

namespace Pass

/-! ## The base document -/

/-- What a writer sees of the base document: the keys over what it sees of the user's entries. -/
theorem carried_document (config : Entries) (secretKey databaseKey : String) :
    carried (document config secretKey databaseKey) =
      put (put ((carried config).foldl (fun acc e => put acc e.1 e.2) (carried baseConfig))
        (.str ManagedKey.secret.name) (Node.ofValue (.str secretKey)))
        (.str ManagedKey.database.name) (Node.ofValue (.str databaseKey)) := by
  simp only [carried, document, map_put, map_foldl_put]

/-- The user's entries in another order leave the base document in another order. -/
theorem carried_document_perm (hkeys : TextKeys config) (hdistinct : DistinctKeys config)
    (h : (carried config).Perm (carried config')) (secretKey databaseKey : String) :
    (carried (document config secretKey databaseKey)).Perm
      (carried (document config' secretKey databaseKey)) := by
  have hcarried := distinctKeys_carried hdistinct
  have hmerged := foldl_put_perm (textKeys_carried textKeys_baseConfig) hcarried
    (hcarried.of_perm (textKeys_carried hkeys) h) h
  have htexts := forall_mem_foldl_put (P := fun k => ∃ s, k = .str s)
    (textKeys_carried textKeys_baseConfig)
    (textKeys_carried hkeys)
  have hapart := distinctKeys_foldl_put (distinctKeys_carried distinctKeys_baseConfig)
    (carried config)
  rw [carried_document, carried_document]
  apply put_perm (textKeys_put htexts _ _) (distinctKeys_put hapart _ _)
  exact put_perm htexts hapart hmerged _ _

/-- **The base document** has the same page, or none for the same reason. -/
theorem encode_document_of_reordered (hkeyed : Keyed (.map config))
    (h : Reordered (.map config) (.map config'))
    (secretKey databaseKey : String) :
    Document.encode (.map (document config' secretKey databaseKey)) =
      Document.encode (.map (document config secretKey databaseKey)) := by
  rw [Keyed] at hkeyed
  obtain ⟨hkeys, hdistinct, hcarry⟩ := hkeyed
  obtain ⟨between, hentries, hperm⟩ := h.of_map
  have hcarried : (carried config).Perm (carried config') := by
    rw [Node.carried_eq_of_reordered hcarry hentries]
    exact hperm.map _
  have htexts : TextKeys (document config secretKey databaseKey) := by
    apply textKeys_put
    apply textKeys_put
    exact forall_mem_foldl_put (P := fun k => ∃ s, k = .str s) textKeys_baseConfig hkeys
  have hnode := Node.ofValue_map_eq_of_perm htexts
    (distinctKeys_document config secretKey databaseKey)
    (carried_document_perm hkeys hdistinct hcarried secretKey databaseKey)
  rw [Document.encode, Document.encode, Yaml.write, Yaml.write, hnode]
  -- A mapping is refused by the name of its type.
  cases Node.ofValue (.map (document config' secretKey databaseKey)) with
  | ok n => rfl
  | error e => cases e <;> rfl

/-! ## A pass -/

variable {settings : Settings} {now : Moment} {r : Request}

/-- **A pass over a reordered configuration** does the same: its keys, its snapshot, all its files,
its reports and what it draws are the same, and so is the reason if it fails. -/
theorem run_of_reordered (hkeyed : Keyed (.map r.config))
    (h : Reordered (.map r.config) (.map config)) (s : Session) :
    (run settings now { r with config := config }).perform s = (run settings now r).perform s := by
  rw [run_congr (fun k => SecretKey.provided?_of_reordered hkeyed h k.name)
    (Overlay.chosenHostname?_of_reordered hkeyed h) (encode_document_of_reordered hkeyed h)]

/-- A request whose configuration holds mappings inside a list and inside one another. -/
def nestedRequest : Request :=
  { descriptor := { name := "r" }, issueCertificate := false
    config := [(.str Overlay.hostnameKey, .str "h"),
      (.str "LDAP", .map [(.str "base", .list [.map [(.str "dc", .str "a"), (.str "ou", .null)]]),
        (.str "port", .int 389)])] }

/-- Its configuration with the entries of all these mappings turned round. -/
def turnedConfig : Entries :=
  [(.str "LDAP", .map [(.str "port", .int 389),
      (.str "base", .list [.map [(.str "ou", .null), (.str "dc", .str "a")]])]),
    (.str Overlay.hostnameKey, .str "h")]

/-- A pass over either succeeds with the same. -/
theorem run_of_reordered_nested :
    Keyed (.map nestedRequest.config) ∧ Reordered (.map nestedRequest.config) (.map turnedConfig) ∧
      ∃ made s', (run {} noon nestedRequest).perform .fresh = (.ok made, s') ∧
        (run {} noon { nestedRequest with config := turnedConfig }).perform .fresh =
          (.ok made, s') := by
  have hkeyed : Keyed (.map nestedRequest.config) := by
    simp only [nestedRequest, Keyed, CarryKeyed, AreKeyed, TextKeys, List.forall_mem_cons,
      List.not_mem_nil, false_implies, implies_true, Value.str.injEq, exists_eq']
    decide
  have hturned : Reordered (.map nestedRequest.config) (.map turnedConfig) := by
    have hunits : Reordered (.map [(.str "dc", .str "a"), (.str "ou", .null)])
        (.map [(.str "ou", .null), (.str "dc", .str "a")]) := .map (.refl _) (.swap _ _ _)
    have hdirectory := Reordered.map
      (.cons (.str "base") (.list (.cons hunits .nil)) (.refl [(.str "port", .int 389)]))
      (.swap _ _ _)
    exact .map (.cons _ (.same _) (.cons (.str "LDAP") hdirectory .nil)) (.swap _ _ _)
  obtain ⟨made, s', hmade⟩ : ∃ made s', (run {} noon nestedRequest).perform .fresh =
    (.ok made, s') := by
    apply run_succeeds
    · exact fun _ _ => rfl
    · exact fun t ht => absurd ht (by simp [nestedRequest])
    · rfl
    · rfl
    · rfl
  refine ⟨hkeyed, hturned, made, s', hmade, ?_⟩
  rw [run_of_reordered hkeyed hturned, hmade]

end Pass

end RegistryBundle
