import RegistryBundle.Pass
import RegistryBundle.Proofs.Keys.Draws
import RegistryBundle.Proofs.Run.Likeness
import RegistryBundle.Proofs.Yaml.FirstFault

/-!
# Entries that are no keys

Whether the base document is refused, and why, depends on the entries of the user's configuration
that are no managed keys.

* `Pass.others` are these entries, `Pass.SameOthers` says that two configurations have the same;
* `Pass.firstFault?_document` says that the first fault of the base document is among them and the
  entries of every bundle;
* `Pass.alike_encode` says that base documents of the same other entries are refused together;
* `Pass.SameFault` are the configurations that are then refused for the same reason.
-/

namespace RegistryBundle

open Outcome Value Yaml

namespace Pass

variable {config config' : Entries}

/-- Whether a key is a managed one. -/
def isManaged (k : Value) : Bool :=
  SecretKey.managedKeys.any fun m => k.sameKey (.str m.name)

/-- The entries under other keys. -/
def others (config : Entries) : Entries :=
  config.filter fun e => !isManaged e.1

private theorem isManaged_iff {k : Value} :
    isManaged k = true ↔ ∃ m : ManagedKey, k.bare = .str m.name := by
  have hmem : ∀ m, m ∈ SecretKey.managedKeys := fun m => by cases m <;> decide
  simp only [isManaged, List.any_eq_true, sameKey_str_iff, hmem, true_and]

/-- Of two equal keys both are managed or neither is. -/
theorem isManaged_eq_of_sameKey {a b : Value} (h : a.sameKey b = true) :
    isManaged a = isManaged b := by
  rw [Bool.eq_iff_iff, isManaged_iff, isManaged_iff]
  exact exists_congr fun m =>
    ⟨fun ha => (sameKey_iff_of_bare ha b).mp h, fun hb => (sameKey_iff_of_bare_right hb a).mp h⟩

/-! ## The other entries of the base document -/

private theorem others_put (es : Entries) (k v : Value) :
    others (put es k v) = if isManaged k then others es else put (others es) k v := by
  rw [others, filter_put (p := fun k => !isManaged k)
    (fun a b h => congrArg not (isManaged_eq_of_sameKey h)) es k v]
  cases isManaged k <;> rfl

private theorem others_foldl_put (config acc : Entries) :
    others (config.foldl (fun acc e => put acc e.1 e.2) acc) =
      (others config).foldl (fun acc e => put acc e.1 e.2) (others acc) :=
  filter_foldl_put (p := fun k => !isManaged k)
    (fun _ _ h => congrArg not (isManaged_eq_of_sameKey h)) config acc

/-- The user's other entries over those of every bundle. -/
theorem others_document (config : Entries) (secretKey databaseKey : String) :
    others (document config secretKey databaseKey) =
      (others config).foldl (fun acc e => put acc e.1 e.2) baseConfig := by
  have hmanaged : ∀ m : ManagedKey, isManaged (.str m.name) = true :=
    fun m => isManaged_iff.mpr ⟨m, rfl⟩
  have hbase : others baseConfig = baseConfig := List.filter_eq_self.mpr (by decide)
  rw [document, others_put, if_pos (hmanaged .database), others_put, if_pos (hmanaged .secret),
    others_foldl_put, hbase]

private theorem startsWithText_foldl_put {acc : Entries} (h : StartsWithText acc)
    (config : Entries) :
    StartsWithText (config.foldl (fun acc e => put acc e.1 e.2) acc) := by
  induction config generalizing acc with
  | nil => exact h
  | cons e rest ih => exact ih (h.put e.1 e.2)

private theorem startsWithText_baseConfig : StartsWithText baseConfig := ⟨_, _, _, rfl⟩

theorem distinctKeys_baseConfig : DistinctKeys baseConfig := by decide

theorem startsWithText_document (config : Entries) (secretKey databaseKey : String) :
    StartsWithText (document config secretKey databaseKey) :=
  ((startsWithText_foldl_put startsWithText_baseConfig config).put _ _).put _ _

theorem textKeys_baseConfig : TextKeys baseConfig := by
  intro e he
  obtain ⟨f, -, rfl⟩ := List.mem_map.mp he
  exact ⟨f.1, rfl⟩

theorem distinctKeys_document (config : Entries) (secretKey databaseKey : String) :
    DistinctKeys (document config secretKey databaseKey) :=
  distinctKeys_put (distinctKeys_put (distinctKeys_foldl_put distinctKeys_baseConfig config) _ _) _
    _

/-- The keys stand in the base document as they were resolved. -/
theorem get?_document_managed (config : Entries) (secretKey databaseKey : String) (m : ManagedKey) :
    ∃ key, Value.get? (document config secretKey databaseKey) m.name = some (.str key) := by
  cases m with
  | secret =>
      refine ⟨secretKey, ?_⟩
      rw [document, get?_put_other (by decide), get?_put_self]
  | database => exact ⟨databaseKey, get?_put_self _ _ _⟩

/-- A managed key of the base document can be written. -/
theorem fault?_managed {secretKey databaseKey : String} {e : Value × Value}
    (he : e ∈ document config secretKey databaseKey) (h : isManaged e.1 = true) :
    (∃ s, e.1.bare = .str s) ∧ fault? e = none := by
  obtain ⟨m, hm⟩ := isManaged_iff.mp h
  have hdistinct := distinctKeys_document config secretKey databaseKey
  obtain ⟨key, hkey⟩ := get?_document_managed config secretKey databaseKey m
  obtain ⟨f, hf, hfm, hfkey⟩ := hdistinct.get?_eq_some_iff.mp hkey
  rw [hdistinct.eq_of_bare he hf hm hfm]
  exact ⟨⟨_, hfm⟩, fault?_text hfm (t := key) (by rw [hfkey]; rfl)⟩

/-- **The first fault of the base document** is among the user's other entries
and those of every bundle. -/
theorem firstFault?_document (config : Entries) (secretKey databaseKey : String) :
    firstFault? (document config secretKey databaseKey) =
      firstFault? ((others config).foldl (fun acc e => put acc e.1 e.2) baseConfig) := by
  have hfilter : (document config secretKey databaseKey).filter (fun e => !isManaged e.1) =
      (others config).foldl (fun acc e => put acc e.1 e.2) baseConfig :=
        others_document config secretKey databaseKey
  rw [← hfilter]
  refine (firstFault?_filter (distinctKeys_document config secretKey databaseKey)
    (startsWithText_document config secretKey databaseKey) ?_ fun e he hother => ?_).symm
  · rw [hfilter]
    exact startsWithText_foldl_put startsWithText_baseConfig _
  · exact fault?_managed he (by simpa using hother)

/-! ## Configurations with the same other entries -/

/-- Two configurations in which each key occurs once have the same entries under other keys. -/
structure SameOthers (config config' : Entries) : Prop where
  first : DistinctKeys config
  second : DistinctKeys config'
  perm : (others config).Perm (others config')

/-- The other entries come in one order, or are all under texts, or hold no object that cannot be
written beside a number that is too long. -/
def SameFault (config config' : Entries) : Prop :=
  others config = others config' ∨ Texts (others config) ∨
    ¬ (holdsEntries isLong (others config) = true ∧ holdsEntries isForeign (others config) = true)

/-- What stands under another text is the same. -/
theorem SameOthers.get?_eq (h : SameOthers config config') {name : String}
    (hname : isManaged (.str name) = false) :
    Value.get? config name = Value.get? config' name := by
  have hothers : ∀ es : Entries, Value.get? (others es) name = Value.get? es name := by
    intro es
    rw [Value.get?, Value.get?, find?, find?, others, List.find?_filter]
    congr 2
    funext e
    rw [Bool.eq_iff_iff, decide_eq_true_iff]
    refine and_iff_right_of_imp fun hsame => ?_
    rw [isManaged_eq_of_sameKey hsame, hname]
    rfl
  rw [← hothers, ← hothers config']
  exact get?_eq_of_perm (h.first.sublist List.filter_sublist) (h.second.sublist List.filter_sublist)
    h.perm name

/-- What is found in entries over those of every bundle, and not in these, is found in those. -/
theorem holds_of_foldl_put {p : Value → Bool} {entries : Entries}
    (hbase : holdsEntries p baseConfig = false)
    (h : holdsEntries p (entries.foldl (fun acc e => put acc e.1 e.2) baseConfig) = true) :
    holdsEntries p entries = true := by
  rw [← Bool.not_eq_false]
  intro hnone
  exact absurd (h.symm.trans (holdsEntries_foldl_put hnone hbase)) Bool.false_ne_true.symm

/-- **Base documents of the same other entries** have the same first fault, or no fault, if the
entries are such that their order makes no difference; they are at fault together in any case. -/
theorem SameOthers.firstFault? (h : SameOthers config config')
    (secretKey databaseKey secretKey' databaseKey' : String) :
    (firstFault? (document config secretKey databaseKey) = none ↔
      firstFault? (document config' secretKey' databaseKey') = none) ∧
    (SameFault config config' → firstFault? (document config secretKey databaseKey) =
      firstFault? (document config' secretKey' databaseKey')) := by
  rw [firstFault?_document, firstFault?_document]
  have hperm := foldl_put_perm textKeys_baseConfig (h.first.sublist List.filter_sublist)
    (h.second.sublist List.filter_sublist) h.perm
  refine ⟨(firstFault?_perm hperm).1, ?_⟩
  rintro (hsame | htexts | hone)
  · rw [hsame]
  · have hbase : Texts baseConfig :=
      fun e he => (textKeys_baseConfig e he).imp fun _ hs => by rw [hs]; rfl
    refine firstFault?_eq_of_perm ?_ (distinctKeys_foldl_put distinctKeys_baseConfig _) hperm
    exact forall_mem_foldl_put (P := fun k => ∃ s, k.bare = .str s) hbase htexts
  · refine (firstFault?_perm hperm).2 fun hboth => hone ⟨?_, ?_⟩
    · exact holds_of_foldl_put rfl hboth.1
    · exact holds_of_foldl_put rfl hboth.2

/-- **Base documents of the same other entries** are refused together. -/
theorem SameOthers.alike_encode {exact : Prop} (h : SameOthers config config')
    (hfault : exact → SameFault config config')
    (secretKey databaseKey secretKey' databaseKey' : String) :
    Outcome.Alike exact (fun _ _ => True)
      (Document.encode (.map (document config secretKey databaseKey)))
      (Document.encode (.map (document config' secretKey' databaseKey'))) := by
  obtain ⟨hnone, hsame⟩ := h.firstFault? secretKey databaseKey secretKey' databaseKey'
  apply alike_of_failure? <;>
    rw [Document.failure?_encode_map (startsWithText_document config secretKey databaseKey),
      Document.failure?_encode_map (startsWithText_document config' secretKey' databaseKey')]
  · rw [Option.map_eq_none_iff, Option.map_eq_none_iff, hnone]
  · intro hexact
    rw [hsame (hfault hexact)]

end Pass

end RegistryBundle
