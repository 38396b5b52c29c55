import Landscape.Proofs.Build.Order
import Landscape.Proofs.Configuration.Override
import Landscape.Proofs.Reading.Policy

/-!
# What the command reports

A run of the command that gets as far as a configuration reports on one outcome,
that of reading the file permissively under the policy in force (`Reports`). The
outcome decides the status, and everything that is printed is read off it: the
warnings and the errors, or else the result. The numbers in a summary are those
of a model, and they are the numbers of declarations in the document because
every declaration at the top is registered once, whatever its name.

The flag for strict references makes a run stricter in one respect and is
supposed to do nothing else. If nothing is wrong with the references then every
finding is graded as it is without the flag, so the two outcomes are one and the
same (`outcomeOfFile_eq_of_isOk`), and with them the two reports. That takes it
that duplicates are graded alike. They are not where a file gives the settings
of the build as a list, since the flag takes the place of the list
(`not_lenient_of_strict`).
-/

namespace Landscape

/-! ## Printed texts -/

theorem Report.printed_cons (text : String) (texts : List String) :
    printed (text :: texts) = text ++ "\n" ++ printed texts := by
  rw [printed, List.map_cons, String.join_cons]
  rfl

/-- Even an empty text ends a line. -/
theorem Report.printed_eq_empty_iff {texts : List String} : printed texts = "" ↔ texts = [] := by
  cases texts with
  | nil => exact iff_of_true rfl rfl
  | cons text texts =>
      rw [printed_cons]
      refine iff_of_false (fun h => ?_) nofun
      have hlength := congrArg String.length h
      simp [String.length_append] at hlength

/-! ## One report -/

/-- What a report on a file says, by the outcome of reading the file permissively
under the configuration. -/
structure Reports (i : Invocation) (c : Configuration) (file : String) (contents : FileContents)
    (outcome : Outcome) (report : Report) : Prop where
  status_eq : report.status = if outcome.errors = [] then 0 else 1
  output_eq_empty_iff : Report.printed report.output = "" ↔ report.status = 1
  errors_of_ok : outcome.errors = [] →
    report.errors = outcome.warnings.map fun w => "warning: " ++ w.render
  errors_of_failure : outcome.errors ≠ [] →
    report.errors = (outcome.warnings.map fun w => "warning: " ++ w.render) ++
      ("Error parsing " ++ file ++ ":") :: outcome.errors.map Diagnostic.render
  /-- The outcome in JSON, with the model of a strict reading in it. -/
  output_json : outcome.errors = [] → i.json →
    report.output =
        [if c.prettyJson then outcome.toJson.indented else outcome.toJson.compact] ∧
      ∃ text m, contents.text = .ok text ∧ (Source.mk text (some file) c.policy).model = .ok m ∧
        outcome.model = some m
  /-- A line, and the numbers of declarations if they were asked for. -/
  output_plain : outcome.errors = [] → ¬i.json →
    ∃ text d, contents.text = .ok text ∧ documentOf text = .ok d ∧
      report.output = ("Successfully parsed " ++ file) ::
        if i.summary then ["Domains: " ++ toString d.domains.length,
          "Context Maps: " ++ toString d.maps.length]
        else []

/-- The text of a file with the reason in words if there is none. -/
def FileContents.textOrReason (contents : FileContents) : Except String String :=
  contents.text.mapError FileFault.message

namespace Invocation

variable {i : Invocation} {c : Configuration} {file : String} {contents : FileContents}

/-- Only a file with a text in it is read without an error. -/
theorem exists_text_of_ok {policy : Policy}
    (h : (outcomeOfFile policy file contents.textOrReason).errors = []) :
    ∃ text, contents.text = .ok text ∧
      outcomeOfFile policy file contents.textOrReason =
        (Source.mk text (some file) policy).outcome := by
  rw [FileContents.textOrReason] at h ⊢
  cases htext : contents.text with
  | error fault =>
      rw [htext] at h
      cases h
  | ok text => exact ⟨text, rfl, rfl⟩

/-- Every declaration at the top is counted. -/
theorem summary_draft (d : Document) {policy : Policy} :
    Report.summary (d.draft policy).model =
      ["Domains: " ++ toString d.domains.length,
        "Context Maps: " ++ toString d.maps.length] := by
  rw [Report.summary, Document.draft_domains, d.domains_register, DomainDecl.length_number,
    d.draft_maps, List.length_mapIdx]

theorem reports_of_ok {text : String} (htext : contents.text = .ok text)
    (hok : (Source.mk text (some file) c.policy).outcome.errors = []) :
    Reports i c file contents (Source.mk text (some file) c.policy).outcome
      (.ofOutcome i c.prettyJson file (Source.mk text (some file) c.policy).outcome) := by
  have hisOk : (Source.mk text (some file) c.policy).outcome.isOk = true := by
    rw [Outcome.isOk, hok]
    rfl
  have hverdict := (Source.mk text (some file) c.policy).verdict
  obtain ⟨d, hd, -⟩ := Source.isOk_outcome_iff.1 hisOk
  have hmodel := Source.model_outcome hd hisOk
  rw [Report.ofOutcome, if_pos hisOk]
  refine ⟨?_, ?_, fun _ => rfl, fun hnot => absurd hok hnot, fun _ hjson => ⟨?_, ?_⟩,
    fun _ hjson => ⟨text, d, htext, hd, ?_⟩⟩
  · rw [if_pos hok]
  · rw [Report.printed_eq_empty_iff]
    refine iff_of_false (fun hnil => ?_) Nat.zero_ne_one
    rw [Report.result] at hnil
    split at hnil <;> cases hnil
  · rw [Report.result, if_pos hjson]
  · have hstrict := hverdict.ok_iff.2 hok
    exact hstrict.elim fun m hm => ⟨text, m, htext, hm, hverdict.model_eq m hm⟩
  · rw [Report.result, if_neg hjson, Outcome.modelOrEmpty, hmodel, Option.getD_some,
      summary_draft]

theorem reports_of_failure {o : Outcome} (hnot : o.errors ≠ []) :
    Reports i c file contents o (.ofOutcome i c.prettyJson file o) := by
  have hnotOk : ¬o.isOk = true := fun h => hnot (List.isEmpty_iff.1 h)
  rw [Report.ofOutcome, if_neg hnotOk]
  refine ⟨?_, iff_of_true rfl rfl, fun h => absurd h hnot, fun _ => rfl,
    fun h => absurd h hnot, fun h => absurd h hnot⟩
  rw [if_neg hnot]

theorem reports_report (i : Invocation) (c : Configuration) (file : String)
    (contents : FileContents) :
    Reports i c file contents (outcomeOfFile c.policy file contents.textOrReason)
      (i.report c file contents) := by
  show Reports i c file contents _
    (.ofOutcome i c.prettyJson file (outcomeOfFile c.policy file contents.textOrReason))
  by_cases hok : (outcomeOfFile c.policy file contents.textOrReason).errors = []
  · obtain ⟨text, htext, hsource⟩ := exists_text_of_ok hok
    rw [hsource] at hok ⊢
    exact reports_of_ok htext hok
  · exact reports_of_failure hok

end Invocation

/-! ## Two runs -/

/-- A finding is reported in the same way under policies that grade it alike. -/
theorem Finding.diagnostic_congr {p q : Policy} {finding : Finding} {source : Option String}
    (h : p.severityOf finding.code = q.severityOf finding.code) :
    finding.diagnostic p source = finding.diagnostic q source := by
  rw [diagnostic, diagnostic, graded, graded, severity_eq, severity_eq, h]

/-- If nothing is an error although references must be good, then they are good,
and it does not matter whether they must be. -/
theorem outcomeOfFile_eq_of_isOk {p q : Policy} {path : String}
    {contents : Except String String} (hduplicates : p.duplicates = q.duplicates)
    (hreferences : q.references = .error) (hok : (outcomeOfFile q path contents).isOk) :
    outcomeOfFile p path contents = outcomeOfFile q path contents := by
  cases contents with
  | error reason => cases hok
  | ok text =>
      show (Source.mk text (some path) p).outcome = (Source.mk text (some path) q).outcome
      obtain ⟨d, hd, hpassed⟩ :=
        Source.isOk_outcome_iff (s := ⟨text, some path, q⟩) |>.1 hok
      have hfindings : (Source.mk text (some path) p).findings d =
          (Source.mk text (some path) q).findings d := by
        rw [Source.findings, Source.findings, Document.diagnostics_build,
          Document.diagnostics_build, d.draft_findings_eq p q, List.map_map, List.map_map]
        refine List.map_congr_left fun finding hfinding => ?_
        have hpass := hpassed finding hfinding
        have hseverity : p.severityOf finding.code = q.severityOf finding.code := by
          cases hcode : finding.code with
          | duplicateName => rw [Policy.severityOf, Policy.severityOf, hduplicates]
          | unresolvedReference =>
              rw [hcode, Policy.severityOf, hreferences] at hpass
              exact absurd rfl hpass
          | unknownSubdomainType | syntaxError | unreadableFile => rfl
        show (Source.mk text (some path) p).named (finding.diagnostic p (some text)) =
          (Source.mk text (some path) q).named (finding.diagnostic q (some text))
        rw [Finding.diagnostic_congr hseverity]
        rfl
      rw [Source.outcome_of_ok (s := ⟨text, some path, p⟩) hd,
        Source.outcome_of_ok (s := ⟨text, some path, q⟩) hd, hfindings]
      exact congrArg (Outcome.ofDiagnostics · _ _ _) (d.draft_model_eq p q)

namespace Invocation

variable {i : Invocation} {files : Files} {file : String}

/-- What the command reports, where the files are what they are all the while. -/
def runOn (i : Invocation) (files : Files) : Report :=
  (i.run Files.read).run files

/-- The policy in force, by the settings in files and the policy they come to. -/
def policy (i : Invocation) (settings : Json) (configured : Policy) : Policy :=
  if i.strictReferences then
    ⟨.error, if Configuration.ListsBuild settings then .shadow else configured.duplicates⟩
  else configured

theorem runOn_of_ok {c : Configuration} (hfile : i.file = some file)
    (hc : Configuration.loadFrom files i.files i.overrides = .ok c) :
    i.runOn files = i.report c file (files file) := by
  have hload : (Configuration.load Files.read i.files i.overrides).run.run files = .ok c := hc
  rw [runOn, run, hfile]
  simp only [ReaderT.run_bind, hload]
  rfl

/-- Which configuration is in force, if there is one without the flag. -/
theorem loadFrom_overrides {c : Configuration}
    (hc : Configuration.loadFrom files i.files [] = .ok c) :
    ∃ settings, Configuration.settingsFrom files i.files = .ok settings ∧
      Configuration.loadFrom files i.files i.overrides =
        .ok { c with policy := i.policy settings c.policy } := by
  obtain ⟨settings, hsettings, hstrict⟩ :=
    Configuration.loadFrom_strictReferences files i.files hc
  refine ⟨settings, hsettings, ?_⟩
  rw [overrides, policy]
  by_cases hflag : i.strictReferences
  · rw [if_pos hflag, if_pos hflag, hstrict]
  · rw [if_neg hflag, if_neg hflag, hc]

/-- The flag for strict references, set or not. -/
def withStrict (i : Invocation) (flag : Bool) : Invocation :=
  { i with strictReferences := flag }

/-- Two runs with and without the flag are the same if all is well with it, and
if duplicates are graded alike. -/
theorem runOn_withStrict {c : Configuration} {settings : Json} (hfile : i.file = some file)
    (hc : Configuration.loadFrom files i.files [] = .ok c)
    (hsettings : Configuration.settingsFrom files i.files = .ok settings)
    (hlist : Configuration.ListsBuild settings → c.policy.duplicates = .shadow)
    (hstrict : ((i.withStrict true).runOn files).status = 0) :
    (i.withStrict false).runOn files = (i.withStrict true).runOn files := by
  obtain ⟨settings', hsettings', hload⟩ := loadFrom_overrides (i := i.withStrict true) hc
  obtain rfl : settings = settings' := Except.ok.inj (hsettings.symm.trans hsettings')
  have hduplicates :
      c.policy.duplicates = ((i.withStrict true).policy settings c.policy).duplicates := by
    show _ = if Configuration.ListsBuild settings then _ else _
    split
    · next h => exact hlist h
    · rfl
  have hlenient := runOn_of_ok (i := i.withStrict false) hfile hc
  rw [runOn_of_ok (i := i.withStrict true) hfile hload] at hstrict ⊢
  have hreports := reports_report (i.withStrict true)
    { c with policy := (i.withStrict true).policy settings c.policy } file (files file)
  have herrors : (outcomeOfFile ((i.withStrict true).policy settings c.policy) file
      (files file).textOrReason).errors = [] := by
    refine Decidable.byContradiction fun hne => ?_
    rw [hreports.status_eq, if_neg hne] at hstrict
    cases hstrict
  have hsame := outcomeOfFile_eq_of_isOk hduplicates rfl (List.isEmpty_iff.2 herrors)
  rw [hlenient]
  show Report.ofOutcome (i.withStrict false) c.prettyJson file
      (outcomeOfFile c.policy file (files file).textOrReason) = _
  rw [hsame]
  rfl

/-- A run with a configuration reports on the outcome of reading its file under
the policy in force. With the flag that is the configured policy with references
that must be good; duplicates are treated as configured, except that the flag
takes the place of a list. A file that is good with the flag is good without it,
and nothing that is printed tells the two runs apart. -/
theorem runOn_reports (i : Invocation) (files : Files) {file : String}
    (hfile : i.file = some file) :
    (∀ c, Configuration.loadFrom files i.files i.overrides = .ok c →
      (i.strictReferences → c.policy.references = .error) ∧
        Reports i c file (files file)
          (outcomeOfFile c.policy file (files file).textOrReason) (i.runOn files)) ∧
    ∀ c, Configuration.loadFrom files i.files [] = .ok c →
      ∃ settings, Configuration.settingsFrom files i.files = .ok settings ∧
        Configuration.loadFrom files i.files i.overrides =
          .ok { c with policy := i.policy settings c.policy } ∧
        ((Configuration.ListsBuild settings → c.policy.duplicates = .shadow) →
          ((i.withStrict true).runOn files).status = 0 →
            (i.withStrict false).runOn files = (i.withStrict true).runOn files) := by
  refine ⟨fun c hc => ⟨fun hflag => ?_, ?_⟩, fun c hc => ?_⟩
  · rw [overrides, if_pos hflag] at hc
    exact Configuration.references_of_loadFrom files i.files hc
  · rw [runOn_of_ok hfile hc]
    exact reports_report i c file (files file)
  · obtain ⟨settings, hsettings, hload⟩ := loadFrom_overrides (i := i) hc
    exact ⟨settings, hsettings, hload, runOn_withStrict hfile hc hsettings⟩

/-- A document with a type that does not exist, and settings in a table. -/
def tabledSettings : Files
  | "m.cml" =>
    .ok ("Domain D \x7b Subdomain S \x7b type = X \x7d \x7d " ++
      "BoundedContext B implements S").toUTF8.toList
  | "c.toml" => .ok "output.pretty_json = false".toUTF8.toList
  | _ => .error .missing

theorem tabledSettings_runOn :
    let i : Invocation :=
      { file := some "m.cml", configuration := some "c.toml", summary := true,
        strictReferences := true }
    let c : Configuration := ⟨⟨.error, .shadow⟩, false, .error⟩
    Configuration.loadFrom tabledSettings i.files i.overrides = .ok c ∧
      Reports i c "m.cml" (tabledSettings "m.cml")
        (outcomeOfFile c.policy "m.cml" (tabledSettings "m.cml").textOrReason)
        (i.runOn tabledSettings) ∧
      ((i.withStrict true).runOn tabledSettings).status = 0 ∧
      (i.withStrict false).runOn tabledSettings = (i.withStrict true).runOn tabledSettings := by
  intro i c
  have hbytes : tabledSettings "c.toml" = .ok "output.pretty_json = false".toUTF8.toList := rfl
  have hplain : Configuration.loadFrom tabledSettings i.files [] =
      .ok ⟨.lenient, false, .error⟩ := by
    rw [show i.files = [⟨"c.toml", true⟩] from rfl, Configuration.loadFrom_singleton _ hbytes]
    decide +kernel
  have hc : Configuration.loadFrom tabledSettings i.files i.overrides = .ok c := by
    rw [show i.files = [⟨"c.toml", true⟩] from rfl, Configuration.loadFrom_singleton _ hbytes]
    decide +kernel
  have hstatus : ((i.withStrict true).runOn tabledSettings).status = 0 := by
    rw [runOn_of_ok (i := i.withStrict true) rfl hc]
    decide +kernel
  obtain ⟨reported, graded⟩ := runOn_reports i tabledSettings rfl
  obtain ⟨settings, -, -, same⟩ := graded _ hplain
  exact ⟨hc, (reported c hc).2, hstatus, same (fun _ => rfl) hstatus⟩

/-- A domain that is declared twice, and settings of the build in their order. -/
def listedBuild : Files
  | "m.cml" => .ok "Domain A Domain A".toUTF8.toList
  | "c.toml" => .ok "build = [\"warn\", \"reject\"]".toUTF8.toList
  | _ => .error .missing

/-- Not every file that is good with the flag is good without it: the flag takes
the place of the list that has names rejected which are declared twice. -/
theorem not_lenient_of_strict :
    ¬∀ (i : Invocation) (files : Files) (c : Configuration), i.file.isSome →
      Configuration.loadFrom files i.files [] = .ok c →
        ((i.withStrict true).runOn files).status = 0 →
          ((i.withStrict false).runOn files).status = 0 := by
  intro h
  let i : Invocation := { file := some "m.cml", configuration := some "c.toml" }
  have hbytes :
      listedBuild "c.toml" = .ok "build = [\"warn\", \"reject\"]".toUTF8.toList := rfl
  have hplain : Configuration.loadFrom listedBuild i.files [] =
      .ok ⟨⟨.warn, .reject⟩, true, .error⟩ := by
    rw [show i.files = [⟨"c.toml", true⟩] from rfl, Configuration.loadFrom_singleton _ hbytes]
    decide +kernel
  have hflag : Configuration.loadFrom listedBuild i.files [strictReferencesOverride] =
      .ok ⟨⟨.error, .shadow⟩, true, .error⟩ := by
    rw [show i.files = [⟨"c.toml", true⟩] from rfl, Configuration.loadFrom_singleton _ hbytes]
    decide +kernel
  have hstrict : ((i.withStrict true).runOn listedBuild).status = 0 := by
    rw [runOn_of_ok (i := i.withStrict true) rfl hflag]
    decide +kernel
  have hlenient : ((i.withStrict false).runOn listedBuild).status = 1 := by
    rw [runOn_of_ok (i := i.withStrict false) rfl hplain]
    decide +kernel
  have hzero := h i listedBuild _ rfl hplain hstrict
  rw [hlenient] at hzero
  cases hzero

end Invocation

end Landscape
