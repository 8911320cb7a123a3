import TenantSql.Proofs.Build.Files
import TenantSql.Proofs.Build.Preparation

/-!
# Gates of a build

Before a build writes anything it has to pass three gates: the definition is
loaded, the audit lets it go on, and all queries are generated. A dry run stops
after that. What the report tells and counts is the same in a dry run and in one
that writes, and what is written are the files of the report.

Some failures have no place in a report. They end the build as well, with nothing
written, even if they concern a single file that a formatter is run on.
-/

namespace TenantSql

namespace Report

structure AgreesBeforeExport (a b : Report) : Prop where
  files : a.files = b.files
  models : a.models = b.models
  queries : a.queries = b.queries
  fileCount : a.fileCount = b.fileCount
  lines : a.lines = b.lines
  bytes : a.bytes = b.bytes
  validation : a.validationErrors = b.validationErrors ∧ a.validationWarnings = b.validationWarnings
  generation : a.generationErrors = b.generationErrors
  format : a.formatErrors = b.formatErrors

theorem AgreesBeforeExport.of_common {a b r : Report} (first : a.AgreesBeforeExport r)
    (second : b.AgreesBeforeExport r) : a.AgreesBeforeExport b where
  files := first.files.trans second.files.symm
  models := first.models.trans second.models.symm
  queries := first.queries.trans second.queries.symm
  fileCount := first.fileCount.trans second.fileCount.symm
  lines := first.lines.trans second.lines.symm
  bytes := first.bytes.trans second.bytes.symm
  validation := ⟨first.validation.1.trans second.validation.1.symm,
    first.validation.2.trans second.validation.2.symm⟩
  generation := first.generation.trans second.generation.symm
  format := first.format.trans second.format.symm

theorem agrees_mark_finished (r : Report) (dryRun : Bool) :
    (r.mark dryRun).finished.AgreesBeforeExport r :=
  ⟨rfl, rfl, rfl, rfl, rfl, rfl, ⟨rfl, rfl⟩, rfl, rfl⟩

theorem agrees_reportExport (r : Report) (done : Export.Exporter) :
    (Build.reportExport done (r.mark false)).finished.AgreesBeforeExport r :=
  ⟨rfl, rfl, rfl, rfl, rfl, rfl, ⟨rfl, rfl⟩, rfl, rfl⟩

theorem IsEmpty.congr {a b : Report} (empty : b.IsEmpty) (agrees : a.AgreesBeforeExport b) :
    a.IsEmpty :=
  ⟨agrees.files.trans empty.files, agrees.fileCount.trans empty.fileCount,
    agrees.queries.trans empty.queries⟩

theorem success_finished (r : Report) :
    r.finished.success ↔ r.validationErrors = [] ∧ r.generationErrors = [] ∧
      r.formatErrors = [] ∧ r.exportErrors = [] := by
  simp [finished, isClean, and_assoc]

end Report

namespace Build

theorem Counts.congr {env : Environment} {settings : Settings} {models : List Model} {a b : Report}
    (counts : Counts env settings models b) (agrees : a.AgreesBeforeExport b) :
    Counts env settings models a := by
  obtain ⟨ran, made, queries, paths, failures, fileCount⟩ := counts
  refine .intro ran made (agrees.queries.trans queries) ?_ ?_ ?_
  · rw [agrees.files, paths]
  · rw [agrees.format, failures]
  · rw [agrees.fileCount, agrees.files, fileCount]

/-! ## Sources and gates -/

inductive Source where
  | given (settings : Settings) (models : List Model)
  | file (path : Disk.Path) (overrides : Entries)

namespace Source

def load : Source → Disk.Tree → Except FileError (Settings × List Model)
  | .given settings models, _ => .ok (settings, models)
  | .file path overrides, t => readProject t path overrides

def build (env : Environment) (options : Options) :
    Source → Disk.Tree → Disk.Tree × Except Interruption Report
  | .given settings models => ofModels env options settings models
  | .file path overrides => ofFile env options path overrides

/-- A gate is closed: the definition is rejected, the audit finds an error, or a warning where these
end a build, or the generation fails. -/
inductive Stops (failOnWarnings : Bool) (source : Source) (t : Disk.Tree) : Prop
  | load {e : ConfigurationError} (fails : source.load t = .error (.unusable (.rejected e)))
  | audit {settings : Settings} {models : List Model}
      (loaded : source.load t = .ok (settings, models))
      (found : (Audit.findings models settings).errors ≠ [] ∨
        failOnWarnings ∧ (Audit.findings models settings).warnings ≠ [])
  | generation {settings : Settings} {models : List Model}
      (loaded : source.load t = .ok (settings, models)) {e : GenerateError}
      (fails : Generation.run models settings.operations = .error e)

/-- Something ends the build before anything is written and has no place in a report. -/
inductive Escapes (env : Environment) (options : Options) (source : Source) (t : Disk.Tree) : Prop
  | load {e : FileError} (fails : source.load t = .error e)
      (other : ∀ c, e ≠ .unusable (.rejected c))
  | directory {settings : Settings} {models : List Model} {failure : Disk.Failure}
      (loaded : source.load t = .ok (settings, models))
      (fails : target options settings t.working = .error failure)
  | stage {settings : Settings} {models : List Model}
      (loaded : source.load t = .ok (settings, models))
      (passes : lets options.failOnWarnings (Audit.findings models settings))
      (unreported : Unreported env settings models)

variable {source : Source} {t : Disk.Tree}

/-! ## Builds of sources -/

theorem build_of_ok {settings : Settings} {models : List Model}
    (loaded : source.load t = .ok (settings, models)) :
    ∃ stages, ∀ env options, source.build env options t =
      continueWith env options settings models { stages, dryRun := options.dryRun } t := by
  cases source with
  | given settings models =>
      cases loaded
      exact ⟨[], fun _ _ => rfl⟩
  | file path overrides =>
      rw [load, readProject] at loaded
      obtain ⟨raw, found, read⟩ := Result.bind_eq_ok.mp loaded
      -- The stages are read off the build; they depend neither on formatters nor on options.
      refine ⟨?stages, fun env options => ?same⟩
      case same =>
        rw [build, ofFile, found]
        simp only [Result.mapError_eq_ok.mp read]
        rfl

theorem build_of_rejected {e : ConfigurationError}
    (fails : source.load t = .error (.unusable (.rejected e))) :
    ∃ stages, ∀ env options, source.build env options t =
      (t, .ok (Report.finished
        { dryRun := options.dryRun, stages, generationErrors := [e.diagnostic.display] })) := by
  cases source with
  | given settings models => cases fails
  | file path overrides =>
      rw [load, readProject] at fails
      cases found : readDefinition t path with
      | error failure =>
          rw [found] at fails
          cases fails
          refine ⟨?stages, fun env options => ?same⟩
          case same =>
            rw [build, ofFile, found]
            rfl
      | ok raw =>
          rw [found] at fails
          obtain ⟨failure, read, same⟩ := Result.mapError_eq_error.mp fails
          cases same
          refine ⟨?both, fun env options => ?parsed⟩
          case parsed =>
            rw [build, ofFile, found]
            simp only [read]
            rfl

theorem build_of_error {e : FileError} (fails : source.load t = .error e)
    (other : ∀ c, e ≠ .unusable (.rejected c)) :
    ∃ i, ∀ env options, source.build env options t = (t, .error i) := by
  cases source with
  | given settings models => cases fails
  | file path overrides =>
      rw [load, readProject] at fails
      cases found : readDefinition t path with
      | error failure =>
          rw [found] at fails
          cases fails
          cases e with
          | unreachable failure =>
              refine ⟨.disk failure, fun env options => ?_⟩
              rw [build, ofFile, found]
          | unusable e =>
              refine ⟨.definition e, fun env options => ?_⟩
              cases e with
              | rejected c => exact absurd rfl (other c)
              | refused r | fault f => rw [build, ofFile, found]
      | ok raw =>
          rw [found] at fails
          obtain ⟨failure, read, rfl⟩ := Result.mapError_eq_error.mp fails
          refine ⟨.definition failure, fun env options => ?_⟩
          rw [build, ofFile, found]
          simp only [read]
          cases failure with
          | rejected c => exact absurd rfl (other c)
          | refused r | fault f => rfl

section

variable {settings : Settings} {models : List Model}

/-- Once there are models, a gate is closed by the audit or by the generation. -/
theorem stops_iff (failOnWarnings : Bool) (loaded : source.load t = .ok (settings, models)) :
    source.Stops failOnWarnings t ↔
      lets failOnWarnings (Audit.findings models settings) = false ∨
        ∃ e, Generation.run models settings.operations = .error e := by
  rw [lets_eq_false]
  constructor
  · rintro (fails | ⟨again, found⟩ | ⟨again, fails⟩)
    · rw [loaded] at fails
      cases fails
    · rw [loaded] at again
      cases again
      exact .inl found
    · rw [loaded] at again
      cases again
      exact .inr ⟨_, fails⟩
  · rintro (found | ⟨e, fails⟩)
    · exact .audit loaded found
    · exact .generation loaded fails

theorem escapes_iff (env : Environment) {options : Options} {directory : Disk.Path}
    (loaded : source.load t = .ok (settings, models))
    (aimed : target options settings t.working = .ok directory) :
    source.Escapes env options t ↔
      lets options.failOnWarnings (Audit.findings models settings) ∧
        Unreported env settings models := by
  constructor
  · rintro (⟨fails, _⟩ | ⟨again, fails⟩ | ⟨again, passes, unreported⟩)
    · rw [loaded] at fails
      cases fails
    · rw [loaded] at again
      cases again
      rw [aimed] at fails
      cases fails
    · rw [loaded] at again
      cases again
      exact ⟨passes, unreported⟩
  · rintro ⟨passes, unreported⟩
    exact .stage loaded passes unreported

end

theorem not_escapes_of_rejected {env : Environment} {options : Options} {e : ConfigurationError}
    (fails : source.load t = .error (.unusable (.rejected e))) : ¬ source.Escapes env options t := by
  rintro (⟨again, other⟩ | ⟨loaded, _⟩ | ⟨loaded, _, _⟩)
  · rw [fails] at again
    cases again
    exact other e rfl
  all_goals
    rw [fails] at loaded
    cases loaded

end Source

/-! ## Ends of a build -/

def exporterTo (env : Environment) (settings : Settings) (directory : Disk.Path) : Export.Exporter :=
  { Export.Exporter.create settings directory with
    timestamp := env.timestamp, token := env.token }

def exported (exporter : Export.Exporter) (r : Report) (t : Disk.Tree) :
    Disk.Tree × Except Interruption Report :=
  match exporter.exportAll t r.files with
  | (t, .ok done) => (t, .ok (reportExport done r).finished)
  | (t, .error failure) => (t, .error (.disk failure))

theorem exported_eq_ok {exporter : Export.Exporter} {r report : Report} {t : Disk.Tree}
    (done : (exported exporter r t).2 = .ok report) :
    ∃ after, report = (reportExport after r).finished := by
  rw [exported] at done
  split at done
  · cases done
    exact ⟨_, rfl⟩
  · cases done

theorem exportFiles_eq_exported (env : Environment) (settings : Settings) (directory : Disk.Path)
    (r : Report) (t : Disk.Tree) :
    (match exportFiles env settings directory r.files r t with
      | (t, result) => (t, Report.finished <$> result)) =
        exported (exporterTo env settings directory) r t := by
  have receives : exportFiles env settings directory r.files r t =
      match (exporterTo env settings directory).exportAll t r.files with
      | (t, .ok done) => (t, .ok (reportExport done r))
      | (t, .error failure) => (t, .error (.disk failure)) := rfl
  rw [exported, receives]
  cases (exporterTo env settings directory).exportAll t r.files with
  | mk t result => cases result <;> rfl

def concluded (exporter : Export.Exporter) (r : Report) (dryRun : Bool) (t : Disk.Tree) :
    Disk.Tree × Except Interruption Report :=
  if dryRun then (t, .ok (r.mark true).finished) else exported exporter (r.mark false) t

def Options.dry (options : Options) : Options :=
  { options with dryRun := true }

inductive Ending (env : Environment) (options : Options) (source : Source) (t : Disk.Tree) : Prop
  | escaped {i : Interruption} (escapes : source.Escapes env options t)
      (both : ∀ dryRun, source.build env { options with dryRun } t = (t, .error i))
  | stopped {r : Report} (stops : source.Stops options.failOnWarnings t)
      (told : ¬ source.Escapes env options t) (empty : r.IsEmpty) (unwritten : r.exportErrors = [])
      (both : ∀ dryRun, source.build env { options with dryRun } t =
        (t, .ok (r.mark dryRun).finished))
  | passed {settings : Settings} {models : List Model} {directory : Disk.Path} {r : Report}
      (loaded : source.load t = .ok (settings, models))
      (aimed : target options settings t.working = .ok directory)
      (passes : ¬ source.Stops options.failOnWarnings t) (told : ¬ source.Escapes env options t)
      (counts : Counts env settings models r) (unwritten : r.exportErrors = [])
      (both : ∀ dryRun, source.build env { options with dryRun } t =
        concluded (exporterTo env settings directory) r dryRun t)

/-- With models and a directory, a build ends as the stages before the export do. -/
theorem ending_of_target {env : Environment} {options : Options} {source : Source} {t : Disk.Tree}
    {settings : Settings} {models : List Model} {directory : Disk.Path}
    (loaded : source.load t = .ok (settings, models))
    (aimed : target options settings t.working = .ok directory) :
    Ending env options source t := by
  obtain ⟨stages, builds⟩ := Source.build_of_ok loaded
  have ended (dryRun : Bool) := (builds env { options with dryRun }).trans
    (continueWith_eq env { options with dryRun } settings models stages t aimed)
  -- What is prepared does not depend on whether the run is dry.
  have unrelated (dryRun : Bool) :
      prepare env { options with dryRun } settings models
          (begin directory settings models { stages }) =
        prepare env options settings models (begin directory settings models { stages }) := rfl
  have result : Prepared env options.failOnWarnings settings models
      (prepare env options settings models (begin directory settings models { stages })) :=
    prepared env options settings models
  have escapes := Source.escapes_iff env loaded aimed
  have stops := Source.stops_iff options.failOnWarnings loaded
  simp only [unrelated] at ended
  generalize prepare env options settings models (begin directory settings models { stages }) =
    outcome at result ended
  cases result with
  | audit held empty unwritten =>
      refine .stopped (stops.mpr (.inl held)) ?_ empty unwritten ended
      rw [escapes, held]
      exact fun both => Bool.false_ne_true both.1
  | generation fails empty unwritten =>
      refine .stopped (stops.mpr (.inr ⟨_, fails⟩)) ?_ empty unwritten ended
      rw [escapes]
      rintro ⟨_, unreported⟩
      obtain ⟨modules, ran⟩ := unreported.exists_run
      rw [fails] at ran
      cases ran
  | unreported passes unreported => exact .escaped (escapes.mpr ⟨passes, unreported⟩) ended
  | @files r modules passes ran told counts unwritten =>
      have opened : ¬ source.Stops options.failOnWarnings t := by
        rw [stops, passes, ran]
        rintro (held | ⟨e, fails⟩)
        · cases held
        · cases fails
      refine .passed loaded aimed opened (fun both => told (escapes.mp both).2) counts unwritten
        fun dryRun => (ended dryRun).trans ?_
      cases dryRun with
      | true => rfl
      | false => exact exportFiles_eq_exported env settings directory (r.mark false) t

theorem ending (env : Environment) (options : Options) (source : Source) (t : Disk.Tree) :
    Ending env options source t := by
  cases load : source.load t with
  | error e =>
      by_cases rejection : ∃ c, e = .unusable (.rejected c)
      · obtain ⟨c, rfl⟩ := rejection
        obtain ⟨stages, builds⟩ := Source.build_of_rejected load
        exact .stopped (r := { stages, generationErrors := [c.diagnostic.display] }) (.load load)
          (Source.not_escapes_of_rejected load) ⟨rfl, rfl, rfl⟩ rfl
          fun dryRun => builds env { options with dryRun }
      · have other : ∀ c, e ≠ .unusable (.rejected c) := fun c same => rejection ⟨c, same⟩
        obtain ⟨i, builds⟩ := Source.build_of_error load other
        exact .escaped (.load load other) fun dryRun => builds env { options with dryRun }
  | ok p =>
      obtain ⟨settings, models⟩ := p
      cases aimed : target options settings t.working with
      | ok directory => exact ending_of_target load aimed
      | error failure =>
          obtain ⟨stages, builds⟩ := Source.build_of_ok load
          refine .escaped (i := .disk failure) (.directory load aimed) fun dryRun => ?_
          have misses : target { options with dryRun } settings t.working = .error failure := aimed
          rw [builds env { options with dryRun }, continueWith, misses]

section

variable {env : Environment} {options : Options} {source : Source} {t : Disk.Tree}

theorem exists_report {report : Report} (found : (source.build env options t).2 = .ok report) :
    ∃ r before : Report, report = before.finished ∧ report.AgreesBeforeExport r ∧
      source.build env options.dry t = (t, .ok (r.mark true).finished) ∧ r.exportErrors = [] ∧
      ((source.Stops options.failOnWarnings t ∧ r.IsEmpty) ∨
        ∃ settings models, source.load t = .ok (settings, models) ∧ Counts env settings models r) := by
  cases ending env options source t with
  | @escaped i escapes both =>
      have ends : source.build env options t = (t, .error i) := both options.dryRun
      rw [ends] at found
      cases found
  | @stopped r stops told empty unwritten both =>
      have ends : source.build env options t = (t, .ok (r.mark options.dryRun).finished) :=
        both options.dryRun
      rw [ends] at found
      cases found
      exact ⟨r, _, rfl, r.agrees_mark_finished _, both true, unwritten, .inl ⟨stops, empty⟩⟩
  | @passed settings models directory r loaded aimed passes told counts unwritten both =>
      have ends : source.build env options t =
          concluded (exporterTo env settings directory) r options.dryRun t := both options.dryRun
      have known : ∃ before : Report, report = before.finished ∧ report.AgreesBeforeExport r := by
        rw [ends, concluded] at found
        split at found
        · cases found
          exact ⟨_, rfl, r.agrees_mark_finished true⟩
        · obtain ⟨done, rfl⟩ := exported_eq_ok found
          exact ⟨_, rfl, r.agrees_reportExport done⟩
      obtain ⟨before, finished, agrees⟩ := known
      exact ⟨r, before, finished, agrees, both true, unwritten,
        .inr ⟨settings, models, loaded, counts⟩⟩

theorem escapes_iff_dry :
    source.Escapes env options t ↔ ∃ i, source.build env options.dry t = (t, .error i) := by
  cases ending env options source t with
  | @escaped i escapes both => exact iff_of_true escapes ⟨i, both true⟩
  | stopped _ told _ _ both | passed _ _ _ told _ _ both =>
      refine iff_of_false told ?_
      rintro ⟨i, fails⟩
      cases (both true).symm.trans fails

theorem build_of_escapes (escapes : source.Escapes env options t) :
    source.build env options t = source.build env options.dry t := by
  cases ending env options source t with
  | escaped _ both => exact (both options.dryRun).trans (both true).symm
  | stopped _ told | passed _ _ _ told => exact absurd escapes told

theorem exported_of_open (passes : ¬ source.Stops options.failOnWarnings t)
    (writes : options.dryRun = false) (told : ¬ source.Escapes env options t) :
    ∃ settings models directory r, source.load t = .ok (settings, models) ∧
      target options settings t.working = .ok directory ∧
      source.build env options.dry t = (t, .ok r) ∧
      source.build env options t = exported (exporterTo env settings directory) (r.mark false) t := by
  cases ending env options source t with
  | escaped escapes => exact absurd escapes told
  | stopped stops => exact absurd stops passes
  | @passed settings models directory r loaded aimed _ _ _ _ both =>
      have ends : source.build env options t =
          concluded (exporterTo env settings directory) r options.dryRun t := both options.dryRun
      rw [writes] at ends
      exact ⟨settings, models, directory, _, loaded, aimed, both true, ends⟩

theorem tree_of_closed (ends : source.Stops options.failOnWarnings t ∨ options.dryRun ∨
    source.Escapes env options t) : (source.build env options t).1 = t := by
  cases ending env options source t with
  | @escaped i _ both => exact congrArg Prod.fst (both options.dryRun)
  | stopped _ _ _ _ both => exact congrArg Prod.fst (both options.dryRun)
  | @passed settings models directory r _ _ passes told _ _ both =>
      rcases ends with stops | dry | escapes
      · exact absurd stops passes
      · have ended : source.build env options t =
            concluded (exporterTo env settings directory) r options.dryRun t := both options.dryRun
        rw [ended, dry]
        rfl
      · exact absurd escapes told

end

structure Gated (env : Environment) (options : Options) (source : Source) (t : Disk.Tree) :
    Prop where
  closed : source.Stops options.failOnWarnings t ∨ options.dryRun ∨ source.Escapes env options t →
    (source.build env options t).1 = t
  opened : ¬ source.Stops options.failOnWarnings t → options.dryRun = false →
    ¬ source.Escapes env options t →
      ∃ settings models directory r, source.load t = .ok (settings, models) ∧
        target options settings t.working = .ok directory ∧
        source.build env options.dry t = (t, .ok r) ∧
        source.build env options t = exported (exporterTo env settings directory) (r.mark false) t
  escapes : source.Escapes env options t ↔ ∃ i, source.build env options.dry t = (t, .error i)
  interrupts : source.Escapes env options t →
    source.build env options t = source.build env options.dry t
  agrees : ∀ report, (source.build env options t).2 = .ok report →
    ∃ dry, source.build env options.dry t = (t, .ok dry) ∧ report.AgreesBeforeExport dry ∧
      dry.exportErrors = []
  counts : ∀ report, (source.build env options t).2 = .ok report →
    (source.Stops options.failOnWarnings t ∧ report.IsEmpty) ∨
      ∃ settings models, source.load t = .ok (settings, models) ∧ Counts env settings models report
  success : ∀ report, (source.build env options t).2 = .ok report →
    (report.success ↔ report.validationErrors = [] ∧ report.generationErrors = [] ∧
      report.formatErrors = [] ∧ report.exportErrors = [])

/-- All this is sure of every build, whatever it begins with and whatever formatters do. -/
theorem gated (env : Environment) (options : Options) (source : Source) (t : Disk.Tree) :
    Gated env options source t where
  closed := tree_of_closed
  opened := exported_of_open
  escapes := escapes_iff_dry
  interrupts := build_of_escapes
  agrees report found := by
    obtain ⟨r, _, _, agrees, dry, unwritten, _⟩ := exists_report found
    exact ⟨_, dry, .of_common agrees (r.agrees_mark_finished true), unwritten⟩
  counts report found := by
    obtain ⟨r, _, _, agrees, _, _, known⟩ := exists_report found
    refine known.imp (fun ⟨stops, empty⟩ => ⟨stops, empty.congr agrees⟩) ?_
    rintro ⟨settings, models, loaded, counts⟩
    exact ⟨settings, models, loaded, counts.congr agrees⟩
  success report found := by
    obtain ⟨_, before, rfl, _⟩ := exists_report found
    exact before.success_finished

def noisyCopy : Formatter.Program := fun _ text =>
  .ended { exitCode := 0, output := text.toUTF8, errors := ⟨#[255]⟩, seconds := .ofInt 0 }

theorem format_noisyCopy (command : List String) (file text : String) :
    Formatter.format noisyCopy Formatter.usualLimit command file text = .error .noText := by
  have inTime : Formatter.exceeded (.ofInt 0) Formatter.usualLimit = .ok none := rfl
  have noText : Formatter.outputText? ⟨#[255]⟩ = none := by decide
  rw [Formatter.format, noisyCopy]
  simp only [Formatter.judge, inTime, noText]
  cases Formatter.outputText? text.toUTF8 <;> rfl

def noisyEnvironment : Environment :=
  { program := noisyCopy, available := fun _ => false }

def deletions : Settings :=
  { Settings.default with formatter := some ["cat"], migrations := false, operations := [.delete] }

end Build

def posts : Entries := .ofFields [("models", .list [
  .ofFields [("name", .text "Post"), ("fields", .list [.text "title"])]])]

/-- Posts pass every gate, and the formatter succeeds for each file: yet what it says besides leaves
the build without a report and without an export. -/
theorem posts_notExported : ∃ models, loadModels posts .default none = .ok models ∧
    ∀ t : Disk.Tree, ¬ (Build.Source.given Build.deletions models).Stops false t ∧
      ∃ i, Build.ofModels Build.noisyEnvironment {} Build.deletions models t = (t, .error i) := by
  obtain ⟨models, m, loaded, _, checked⟩ := exists_loaded posts
    (fun _ models => !(Audit.findings models Build.deletions).hasErrors &&
      Build.lets false (Audit.findings models Build.deletions) &&
      (Build.joined (Build.byModule models [.delete]) []).any fun file => Build.isSql file.1)
    (by decide +kernel)
  simp only [Bool.and_eq_true, Bool.not_eq_true', List.any_eq_true] at checked
  obtain ⟨⟨audited, passes⟩, file, among, sql⟩ := checked
  have ran : Generation.run models Build.deletions.operations =
      .ok (Build.byModule models [.delete]) := Generation.runBy_eq_ok audited [] _
  have untold (e : FormatError) : Formatter.Failure.noText ≠ .reported e := by
    intro same
    cases same
  have unreported : Build.Unreported Build.noisyEnvironment Build.deletions models :=
    .formatter ran rfl rfl among sql (Build.format_noisyCopy _ _ _) untold
  refine ⟨models, loaded, fun t => ?_⟩
  have given : (Build.Source.given Build.deletions models).load t =
      .ok (Build.deletions, models) := rfl
  constructor
  · rw [Build.Source.stops_iff false given, passes, ran]
    rintro (held | ⟨e, fails⟩)
    · cases held
    · cases fails
  · have escapes : (Build.Source.given Build.deletions models).Escapes Build.noisyEnvironment {} t :=
      .stage given passes unreported
    obtain ⟨i, ends⟩ := Build.escapes_iff_dry.mp escapes
    exact ⟨i, (Build.build_of_escapes escapes).trans ends⟩

end TenantSql
