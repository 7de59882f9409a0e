import RegistryBundle.Proofs.FieldGroup.Groups
import RegistryBundle.Proofs.Pass.Run

/-!
# Overlays that are read back

The page of an overlay holds the group of its component, with the hostname that the user chooses.

* `FieldGroup.recheck` is the check of the class that a group belongs to, `FieldGroup.withHostname`
  the group with the user's choice;
* `Overlay.render_reads` is the main statement.
-/

namespace RegistryBundle

open RegistryBundle.Action Value

namespace FieldGroup

/-- The check of the class that a group belongs to. -/
def recheck : FieldGroup → Value → Checked FieldGroup
  | .scanner _, v => (ScannerGroup.ofValue v).map .scanner
  | .redis _, v => (RedisGroup.ofValue v).map .redis
  | .database _, v => (DatabaseGroup.ofValue v).map .database
  | .storage _, v => (StorageGroup.ofValue v).map .storage
  | .host _, v => (HostGroup.ofValue v).map .host

/-- The group with the hostname that the user chooses, if it has one. -/
def withHostname (config : Entries) : FieldGroup → FieldGroup
  | .host h =>
    match (Value.get? config Overlay.hostnameKey).map Value.bare with
    | some (.str s) => .host { h with hostname := s }
    | _ => .host h
  | g => g

/-- The numbers in the groups can be written. -/
theorem isTree_numbers : IsTree (.int 30) ∧ IsTree (.int 6379) ∧ IsTree (.int 443) := by
  simp only [IsTree]
  decide

/-- A group is read back by the check of its class. -/
theorem readsBack_recheck {α : Type} {f : Form} {check : Value → Checked α} {a : α}
    {entries : Entries}
    (wrap : α → FieldGroup) (h : ReadsBack f check a entries) :
    ReadsBack f (fun v => (check v).map wrap) (wrap a) entries where
  written := h.written
  tree := h.tree
  ne := h.ne
  height := h.height
  fits := by rw [h.fits, Checked.map_eq_fits]

/-- The groups of the services are read back. -/
theorem readsBack_ofComponent {settings : Settings} {d : Descriptor} {c : Component}
    {g : FieldGroup}
    (h : ofComponent settings d c = some g) : ∃ entries, ReadsBack g.form g.recheck g entries := by
  obtain ⟨hinterval, hredis, hstorage⟩ := isTree_numbers
  cases c with
  | clair =>
      obtain rfl := Option.some.inj h
      exact ⟨_, readsBack_recheck .scanner (ScannerGroup.readsBack hinterval rfl)⟩
  | redis =>
      obtain rfl := Option.some.inj h
      exact ⟨_, readsBack_recheck .redis (RedisGroup.readsBack hredis hredis rfl rfl)⟩
  | postgres =>
      obtain rfl := Option.some.inj h
      exact ⟨_, readsBack_recheck .database (DatabaseGroup.readsBack _)⟩
  | objectStorage =>
      obtain rfl := Option.some.inj h
      exact ⟨_, readsBack_recheck .storage (StorageGroup.readsBack (by decide) hstorage rfl)⟩
  | route =>
      obtain rfl := Option.some.inj h
      exact ⟨_, readsBack_recheck .host (HostGroup.readsBack _)⟩
  | podAutoscaler => exact absurd h (by simp [ofComponent])

/-- Only the group of the registry's database depends on a port. -/
theorem synthesize_of_ne (settings : Settings) (d : Descriptor) {c : Component}
    (h : c ≠ .postgres) :
    synthesize settings d c = .ok (ofComponent settings d c) := by
  rw [synthesize, if_neg fun hc => h hc.1]

/-- A group that was synthesized is read back. -/
theorem readsBack_of_synthesize {settings : Settings} {d : Descriptor} {c : Component}
    {g : FieldGroup}
    (h : synthesize settings d c = .ok (some g)) :
      ∃ entries, ReadsBack g.form g.recheck g entries := by
  rw [synthesize] at h
  split at h
  · exact absurd h (by simp)
  · exact readsBack_ofComponent (Except.ok.inj h)

/-- So it is with the hostname that the user chooses. -/
theorem readsBack_withHostname {g : FieldGroup} (config : Entries)
    (h : ∃ entries, ReadsBack g.form g.recheck g entries) :
    ∃ entries, ReadsBack (g.withHostname config).form g.recheck
      (g.withHostname config) entries := by
  cases g with
  | host g =>
      rw [withHostname]
      split <;> exact ⟨_, readsBack_recheck .host (HostGroup.readsBack _)⟩
  | _ => exact h

end FieldGroup

namespace Overlay

variable {settings : Settings} {d : Descriptor} {config : Entries} {c : Component} {s s' : Session}

/-- A hostname that is not refused is the text that the user's
configuration holds, if it holds any. -/
theorem bare_of_chosen {chosen : Option String} (h : chosenHostname? config = .ok chosen) :
    (Value.get? config hostnameKey).map Value.bare = chosen.map Value.str := by
  rw [chosenHostname?] at h
  cases hv : Value.get? config hostnameKey with
  | none =>
      rw [hv] at h
      obtain rfl := Except.ok.inj h
      rfl
  | some v =>
      rw [hv] at h
      simp only at h
      cases hb : v.bare with
      | str name =>
          simp only [hb] at h
          split at h
          · contradiction
          · obtain rfl := Except.ok.inj h
            exact congrArg some hb
      | _ => simp [hb] at h

/-- The group with the hostname that the user chooses, or its own. -/
theorem withHostname_of_chosen {chosen : Option String} (h : chosenHostname? config = .ok chosen)
    (g : HostGroup) :
    (FieldGroup.host g).withHostname config =
      .host { g with hostname := chosen.getD g.hostname } := by
  rw [FieldGroup.withHostname, bare_of_chosen h]
  cases chosen <;> rfl

/-- The user's choices change the hostname of the route and nothing else. -/
theorem withChoices_ok {g g' : FieldGroup} (h : (withChoices config g).perform s = (.ok g', s')) :
    g' = g.withHostname config := by
  cases g with
  | host g =>
      obtain ⟨chosen, hchosen, h⟩ := perform_ofExcept_bind_ok.mp h
      rw [withHostname_of_chosen hchosen]
      cases chosen with
      | none => exact (perform_pure_ok h).1.symm
      | some name =>
          simp only [perform_report_bind] at h
          exact (perform_pure_ok h).1.symm
  | _ => exact (perform_pure_ok h).1.symm

/-- **An overlay is read back**: its page holds the group that was synthesized for the component,
with the hostname that the user chooses for the route. -/
theorem render_reads {files : Table String} {g : FieldGroup}
    (h : (render settings d config c).perform s = (.ok files, s'))
    (hg : FieldGroup.synthesize settings d c = .ok (some g)) :
    ∃ page v, files = [(c.configFile, page)] ∧ Document.decode page = .ok v ∧
      g.recheck v = .fits (g.withHostname config) := by
  obtain ⟨group, hgroup, hfiles⟩ := render_ok h
  obtain rfl : group = some g := Except.ok.inj (hgroup.symm.trans hg)
  obtain ⟨g', t, t', page, hchoices, hpage, rfl⟩ := hfiles
  obtain rfl := withChoices_ok hchoices
  obtain ⟨entries, hreads⟩ := FieldGroup.readsBack_withHostname config
    (FieldGroup.readsBack_of_synthesize hg)
  obtain ⟨written, hwritten, hdecode⟩ :=
    Form.encode_reads hreads.written hreads.tree hreads.ne (Nat.le_trans hreads.height (by decide))
  obtain rfl : written = page := Except.ok.inj (hwritten.symm.trans hpage)
  exact ⟨_, _, rfl, hdecode, hreads.fits⟩

/-- A component whose group can be made is rendered if the user's choices are not refused. -/
theorem render_of_choices {g : FieldGroup} (hg : FieldGroup.synthesize settings d c = .ok (some g))
    (hchoices : ∀ t, ∃ g' t', (withChoices config g).perform t = (.ok g', t')) (s : Session) :
    ∃ files s', (render settings d config c).perform s = (.ok files, s') := by
  have hgroup : (ofExcept (FieldGroup.synthesize settings d c)).perform s = (.ok (some g), s) := by
    rw [hg, perform_ofExcept]
  rw [render, perform_bind_of_ok hgroup, perform_report_bind]
  obtain ⟨g', t', hg'⟩ := hchoices
    (logged s .debug .fieldGroups s!"Synthesized {c.name} field group for {d.name}")
  obtain rfl := withChoices_ok hg'
  obtain ⟨entries, hreads⟩ := FieldGroup.readsBack_withHostname config
    (FieldGroup.readsBack_of_synthesize hg)
  obtain ⟨page, hpage, -⟩ :=
    Form.encode_reads hreads.written hreads.tree hreads.ne (Nat.le_trans hreads.height (by decide))
  have hencode : (ofExcept (g.withHostname config).encode).perform t' = (.ok page, t') := by
    rw [FieldGroup.encode, hpage, perform_ofExcept]
  simp only
  rw [perform_bind_of_ok hg', perform_bind_of_ok hencode]
  exact ⟨_, _, rfl⟩

/-- A component whose group can be made is rendered, unless the user's hostname is refused. -/
theorem render_of_synthesize {g : FieldGroup}
    (hg : FieldGroup.synthesize settings d c = .ok (some g))
    {chosen : Option String} (hchosen : chosenHostname? config = .ok chosen) (s : Session) :
    ∃ files s', (render settings d config c).perform s = (.ok files, s') := by
  refine render_of_choices hg (fun t => ?_) s
  cases g with
  | host h =>
      have hfirst : (ofExcept (chosenHostname? config)).perform t = (.ok chosen, t) := by
        rw [hchosen, perform_ofExcept]
      unfold withChoices
      simp only
      rw [perform_bind_of_ok hfirst]
      cases chosen <;> exact ⟨_, _, rfl⟩
  | _ => exact ⟨_, _, rfl⟩

/-- The hostname that a user chooses for the route of a registry is read back from its page, with
the rest of the group as it was synthesized. -/
theorem render_reads_route :
    ∃ files s' page v,
      (render {} { name := "r" } [(.str hostnameKey, .str "h: #1")] .route).perform .fresh =
        (.ok files, s') ∧ files = [("route.config.yaml", page)] ∧ Document.decode page = .ok v ∧
        (HostGroup.ofValue v).map FieldGroup.host =
          .fits (.host { HostGroup.ofDescriptor { name := "r" } with hostname := "h: #1" }) := by
  have hg : FieldGroup.synthesize {} { name := "r" } .route =
    .ok (some (.host (.ofDescriptor { name := "r" }))) := rfl
  have hchosen : chosenHostname? [(.str hostnameKey, .str "h: #1")] = .ok (some "h: #1") := rfl
  obtain ⟨files, s', h⟩ := render_of_synthesize hg hchosen .fresh
  obtain ⟨page, v, hfiles, hdecode, hreads⟩ := render_reads h hg
  exact ⟨files, s', page, v, h, hfiles, hdecode, hreads⟩

end Overlay

end RegistryBundle
