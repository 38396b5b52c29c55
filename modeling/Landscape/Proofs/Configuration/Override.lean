import Landscape.CommandLine.Run

/-!
# One setting on top of a configuration

The flag for strict references is a single setting that is laid over everything
else. What it should do is replace one value in the configuration, and it does:
the fields beside it and the tables beside its table are left as they are
(`Json.field?_setField_of_ne`).

The exception is a file that gives the settings of the build as a list, in their
order and without their names. There is no field in a list. The list makes way
for a table with the one field that is set, and whatever else the list said is
gone with it, so duplicates are treated as they are by default
(`Configuration.policyIn_withStrictReferences`).
-/

namespace Landscape

/-! ## Fields of a table -/

namespace Json

theorem lookup_set_self {fields : List (String × Json)} {name : String} (value : Json)
    (h : fields.any (·.1 = name)) :
    (fields.map fun field => if field.1 = name then (name, value) else field).lookup name =
      some value := by
  induction fields with
  | nil => cases h
  | cons field rest ih =>
      rw [List.map_cons]
      by_cases hname : field.1 = name
      · rw [if_pos hname, List.lookup_cons_self]
      · rw [if_neg hname, List.lookup_cons, beq_false_of_ne (Ne.symm hname)]
        refine ih ?_
        simpa [hname] using h

theorem lookup_set_of_ne {fields : List (String × Json)} {name other : String} (value : Json)
    (h : other ≠ name) :
    (fields.map fun field => if field.1 = name then (name, value) else field).lookup other =
      fields.lookup other := by
  induction fields with
  | nil => rfl
  | cons field rest ih =>
      rw [List.map_cons]
      by_cases hname : field.1 = name
      · have hother : (other == field.1) = false := beq_false_of_ne (hname ▸ h)
        rw [if_pos hname, List.lookup_cons, List.lookup_cons, hother, beq_false_of_ne h]
        exact ih
      · rw [if_neg hname, List.lookup_cons, List.lookup_cons, ih]

theorem field?_setField_self (j : Json) (name : String) (value : Json) :
    (j.setField name value).field? name = some value := by
  rw [setField]
  split
  · next h => exact lookup_set_self value h
  · next h =>
      show (j.fields ++ [(name, value)]).lookup name = some value
      have hnone : j.fields.lookup name = none := by
        rw [List.lookup_eq_none_iff]
        intro field hfield
        simp only [List.any_eq_true, decide_eq_true_eq, not_exists, not_and] at h
        exact bne_iff_ne.2 (Ne.symm (h field hfield))
      rw [List.lookup_append, hnone, Option.none_or, List.lookup_cons_self]

theorem field?_setField_of_ne (j : Json) {name other : String} (h : other ≠ name)
    (value : Json) : (j.setField name value).field? other = j.field? other := by
  rw [setField]
  split
  · exact lookup_set_of_ne value h
  · show (j.fields ++ [(name, value)]).lookup other = j.fields.lookup other
    have hlast : [(name, value)].lookup other = none := by
      rw [List.lookup_cons, beq_false_of_ne h]
      rfl
    rw [List.lookup_append, hlast, Option.or_none]

theorem exists_setField_eq (j : Json) (name : String) (value : Json) :
    ∃ fields, j.setField name value = object fields := by
  rw [setField]
  split
  · exact ⟨_, rfl⟩
  · exact ⟨_, rfl⟩

end Json

/-! ## The settings of a configuration -/

namespace Configuration

variable {settings : Json}

/-- The settings of the build are given as a list, in their order. -/
def ListsBuild (settings : Json) : Prop :=
  ∃ items, settings.field? "build" = some (.array items)

instance (settings : Json) : Decidable (ListsBuild settings) :=
  match h : settings.field? "build" with
  | some (.array items) => isTrue ⟨items, h⟩
  | none | some .null | some (.bool _) | some (.number _) | some (.fraction _)
  | some (.string _) | some (.object _) => isFalse fun ⟨_, hitems⟩ => nomatch h.symm.trans hitems

/-- The policy that the two settings of the build come to. -/
def policyOf (references duplicates : Option Json) : Except ConfigurationError Policy := do
  return {
    references := ← settingOr .warn (choice? ReferencePolicy.name ReferencePolicy.all)
      "build.references" references
    duplicates := ← settingOr .shadow (choice? DuplicatePolicy.name DuplicatePolicy.all)
      "build.duplicates" duplicates }

theorem policyIn_of_object {fields : List (String × Json)}
    (h : settings.field? "build" = some (.object fields)) :
    policyIn settings = policyOf (fields.lookup "references") (fields.lookup "duplicates") := by
  rw [policyIn, groupIn, h]
  rfl

/-- There is a policy only if the settings of the build are a table or a list. -/
theorem exists_of_policyIn_eq_ok {policy : Policy} (h : policyIn settings = .ok policy) :
    (∃ fields, settings.field? "build" = some (.object fields)) ∨ ListsBuild settings := by
  cases hbuild : settings.field? "build" with
  | none =>
      rw [policyIn, groupIn, hbuild] at h
      cases h
  | some j =>
      cases j with
      | object fields => exact .inl ⟨fields, rfl⟩
      | array items => exact .inr ⟨items, hbuild⟩
      | _ =>
          rw [policyIn, groupIn, hbuild] at h
          cases h

theorem policyOf_eq_ok {references duplicates : Option Json} {policy : Policy}
    (h : policyOf references duplicates = .ok policy) :
    settingOr .shadow (choice? DuplicatePolicy.name DuplicatePolicy.all) "build.duplicates"
      duplicates = .ok policy.duplicates := by
  rw [policyOf] at h
  cases hreferences : settingOr ReferencePolicy.warn
      (choice? ReferencePolicy.name ReferencePolicy.all) "build.references" references with
  | error e =>
      rw [hreferences] at h
      cases h
  | ok reference =>
      rw [hreferences] at h
      cases hduplicates : settingOr DuplicatePolicy.shadow
          (choice? DuplicatePolicy.name DuplicatePolicy.all) "build.duplicates" duplicates with
      | error e =>
          rw [hduplicates] at h
          cases h
      | ok duplicate =>
          rw [hduplicates] at h
          obtain rfl := Except.ok.inj h
          rfl

/-- With the first setting replaced, the second one is what it was. -/
theorem policyOf_error {duplicates : Option Json} {duplicate : DuplicatePolicy}
    (h : settingOr .shadow (choice? DuplicatePolicy.name DuplicatePolicy.all)
      "build.duplicates" duplicates = .ok duplicate) :
    policyOf (some (.string ReferencePolicy.error.name)) duplicates = .ok ⟨.error, duplicate⟩ := by
  have hreferences : settingOr ReferencePolicy.warn
      (choice? ReferencePolicy.name ReferencePolicy.all) "build.references"
      (some (.string ReferencePolicy.error.name)) = .ok .error := by decide
  rw [policyOf, hreferences, h]
  rfl

/-! ## Strict references -/

/-- The settings with the flag laid over them. -/
def withStrictReferences (settings : Json) : Json :=
  settings.lay Invocation.strictReferencesOverride.key Invocation.strictReferencesOverride.value

theorem withStrictReferences_eq (settings : Json) :
    withStrictReferences settings =
      settings.setField "build" (((settings.field? "build").getD .null).setField "references"
        (.string ReferencePolicy.error.name)) := by
  have hbuild : lowered "build" = "build" := by decide
  have hreferences : lowered "references" = "references" := by decide
  rw [withStrictReferences, Json.lay, Invocation.strictReferencesOverride, Json.layAt,
    Json.layAt, hbuild, hreferences]
  rfl

theorem field?_withStrictReferences {name : String} (h : name ≠ "build") :
    (withStrictReferences settings).field? name = settings.field? name := by
  rw [withStrictReferences_eq, Json.field?_setField_of_ne _ h]

/-- With the flag the settings of the build are a table. Its other field is taken
from a table only. -/
theorem exists_build_withStrictReferences (settings : Json) :
    ∃ fields, (withStrictReferences settings).field? "build" = some (.object fields) ∧
      fields.lookup "references" = some (.string ReferencePolicy.error.name) ∧
      fields.lookup "duplicates" =
        ((settings.field? "build").getD .null).field? "duplicates" := by
  generalize hbuild : (settings.field? "build").getD .null = build
  obtain ⟨fields, hfields⟩ :=
    build.exists_setField_eq "references" (.string ReferencePolicy.error.name)
  refine ⟨fields, ?_, ?_, ?_⟩
  · rw [withStrictReferences_eq, Json.field?_setField_self, hbuild, hfields]
  · have hself := build.field?_setField_self "references" (.string ReferencePolicy.error.name)
    rwa [hfields] at hself
  · have hne : "duplicates" ≠ "references" := by decide
    have hother := build.field?_setField_of_ne hne (.string ReferencePolicy.error.name)
    rwa [hfields] at hother

theorem references_withStrictReferences {policy : Policy}
    (h : policyIn (withStrictReferences settings) = .ok policy) :
    policy.references = .error := by
  obtain ⟨fields, hbuild, hreferences, -⟩ := exists_build_withStrictReferences settings
  rw [policyIn_of_object hbuild, hreferences] at h
  have hduplicates := policyOf_eq_ok h
  rw [policyOf_error hduplicates] at h
  exact (congrArg Policy.references (Except.ok.inj h)).symm

/-- What the flag does to the policy: nothing to duplicates, unless there was a
list. -/
theorem policyIn_withStrictReferences {policy : Policy} (h : policyIn settings = .ok policy) :
    policyIn (withStrictReferences settings) =
      .ok ⟨.error, if ListsBuild settings then .shadow else policy.duplicates⟩ := by
  obtain ⟨fields', hbuild, hreferences, hduplicates⟩ :=
    exists_build_withStrictReferences settings
  rw [policyIn_of_object hbuild, hreferences, hduplicates]
  rcases exists_of_policyIn_eq_ok h with ⟨fields, hfields⟩ | ⟨items, hitems⟩
  · have hnot : ¬ListsBuild settings := fun ⟨_, hitems⟩ => nomatch hfields.symm.trans hitems
    rw [policyIn_of_object hfields] at h
    rw [hfields, if_neg hnot]
    exact policyOf_error (policyOf_eq_ok h)
  · rw [hitems, if_pos ⟨items, hitems⟩]
    exact policyOf_error rfl

/-- A configuration is read group by group. -/
theorem ofSettings_eq_ok_iff {c : Configuration} :
    ofSettings settings = .ok c ↔
      policyIn settings = .ok c.policy ∧ prettyJsonIn settings = .ok c.prettyJson ∧
        logLevelIn settings = .ok c.logLevel := by
  rw [ofSettings]
  cases policyIn settings with
  | error e => exact ⟨nofun, nofun⟩
  | ok policy =>
      cases prettyJsonIn settings with
      | error e => exact ⟨nofun, nofun⟩
      | ok pretty =>
          cases logLevelIn settings with
          | error e => exact ⟨nofun, nofun⟩
          | ok level =>
              obtain ⟨policy', pretty', level'⟩ := c
              show Except.ok (Configuration.mk policy pretty level) = _ ↔ _
              simp only [Except.ok.injEq, Configuration.mk.injEq]

/-- The flag leaves a configuration as it is except for its policy. -/
theorem ofSettings_withStrictReferences {c : Configuration} (h : ofSettings settings = .ok c) :
    ofSettings (withStrictReferences settings) =
      .ok { c with
        policy := ⟨.error, if ListsBuild settings then .shadow else c.policy.duplicates⟩ } := by
  obtain ⟨hpolicy, hpretty, hlevel⟩ := ofSettings_eq_ok_iff.1 h
  refine ofSettings_eq_ok_iff.2 ⟨policyIn_withStrictReferences hpolicy, ?_, ?_⟩
  · rw [← hpretty, prettyJsonIn, prettyJsonIn, groupIn, groupIn,
      field?_withStrictReferences (by decide)]
  · rw [← hlevel, logLevelIn, logLevelIn, groupIn, groupIn,
      field?_withStrictReferences (by decide)]

end Configuration

/-! ## Loading -/

/-- What reading comes to under each path. -/
abbrev Files : Type :=
  String → FileContents

/-- Reading, where the files are what they are all the while. -/
def Files.read (path : String) : ReaderM Files FileContents :=
  fun files => files path

theorem Files.run_bind {ε α β : Type} (files : Files) (x : ExceptT ε (ReaderM Files) α)
    (f : α → ExceptT ε (ReaderM Files) β) :
    (x >>= f).run.run files =
      match x.run.run files with
      | .ok a => (f a).run.run files
      | .error e => .error e := by
  rw [ExceptT.run_bind, ReaderT.run_bind]
  show (match x.run.run files with
    | .ok a => (f a).run
    | .error e => Pure.pure (Except.error e)).run files = _
  cases x.run.run files <;> rfl

namespace ConfigurationFile

theorem exists_candidates_eq (path : String) : ∃ others, candidates path = path :: others := by
  rw [candidates]
  split
  · exact ⟨_, rfl⟩
  · exact ⟨_, rfl⟩

/-- A file that is there is the one that is read. -/
theorem fetch_of_ok {files : Files} {file : ConfigurationFile} {bytes : List UInt8}
    (h : files file.path = .ok bytes) :
    (file.fetch Files.read).run.run files =
      match settings? bytes with
      | some settings => .ok settings
      | none => .error (.malformedFile file.path) := by
  obtain ⟨others, hcandidates⟩ := exists_candidates_eq file.path
  have hread : (ExceptT.lift (Files.read file.path)).run.run files =
      (.ok (files file.path) : Except ConfigurationError FileContents) := rfl
  rw [fetch, hcandidates, fetchFirst, Files.run_bind, hread, h]
  dsimp only
  cases settings? bytes <;> rfl

end ConfigurationFile

namespace Configuration

variable (files : Files) (layers : List ConfigurationFile)

/-- The configuration in some files with single settings on top. -/
def loadFrom (overrides : List Override) : Except ConfigurationError Configuration :=
  (load Files.read layers overrides).run.run files

/-- The settings in some files over the defaults, before any single setting. -/
def settingsFrom : Except ConfigurationError Json :=
  ((layers.mapM (ConfigurationFile.fetch Files.read)).run.run files).map (settingsOf · [])

theorem loadFrom_eq (overrides : List Override) :
    loadFrom files layers overrides =
      (settingsFrom files layers).bind fun settings =>
        ofSettings (overrides.foldl (fun settings o => settings.lay o.key o.value) settings) := by
  rw [loadFrom, load, Files.run_bind, settingsFrom]
  cases (layers.mapM (ConfigurationFile.fetch Files.read)).run.run files <;> rfl

/-- The configuration in one file that is there. -/
theorem loadFrom_singleton {file : ConfigurationFile} {bytes : List UInt8}
    (h : files file.path = .ok bytes) (overrides : List Override) :
    loadFrom files [file] overrides =
      match ConfigurationFile.settings? bytes with
      | some found =>
        ofSettings (overrides.foldl (fun settings o => settings.lay o.key o.value)
          (settingsOf [found] []))
      | none => .error (.malformedFile file.path) := by
  rw [loadFrom_eq, settingsFrom, List.mapM_cons, Files.run_bind, ConfigurationFile.fetch_of_ok h]
  cases ConfigurationFile.settings? bytes <;> rfl

theorem references_of_loadFrom {c : Configuration}
    (h : loadFrom files layers [Invocation.strictReferencesOverride] = .ok c) :
    c.policy.references = .error := by
  rw [loadFrom_eq] at h
  cases hsettings : settingsFrom files layers with
  | error e =>
      rw [hsettings] at h
      cases h
  | ok settings =>
      rw [hsettings] at h
      exact references_withStrictReferences (ofSettings_eq_ok_iff.1 h).1

/-- A configuration that loads without the flag also loads with it. -/
theorem loadFrom_strictReferences {c : Configuration} (h : loadFrom files layers [] = .ok c) :
    ∃ settings, settingsFrom files layers = .ok settings ∧
      loadFrom files layers [Invocation.strictReferencesOverride] =
        .ok { c with
          policy := ⟨.error, if ListsBuild settings then .shadow else c.policy.duplicates⟩ } := by
  rw [loadFrom_eq] at h ⊢
  cases hsettings : settingsFrom files layers with
  | error e =>
      rw [hsettings] at h
      cases h
  | ok settings =>
      rw [hsettings] at h
      exact ⟨settings, rfl, ofSettings_withStrictReferences h⟩

end Configuration

end Landscape
