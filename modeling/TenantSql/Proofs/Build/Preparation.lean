import TenantSql.Build.Project
import TenantSql.Proofs.Build.Formatting

/-!
# Before the export

How the stages of a build end that write nothing: the audit or the generation
closes a gate, something escapes the report, or there are files for an exporter.
All this is the same in a dry run.
-/

namespace TenantSql

def Report.mark (r : Report) (dryRun : Bool) : Report :=
  { r with dryRun }

structure Report.IsEmpty (r : Report) : Prop where
  files : r.files = []
  fileCount : r.fileCount = 0
  queries : r.queries = 0

namespace Build

/-- A failure of the last stages before the export for which there is no place in a report: of the
migrations, of a formatter, or of a list of queries. -/
inductive Unreported (env : Environment) (settings : Settings) (models : List Model) : Prop
  | migrations {modules : Generation.ByModule} {e : Migration.ScriptError}
      (ran : Generation.run models settings.operations = .ok modules) (wanted : settings.migrations)
      (fails : Migration.scripts models = .error e)
  | formatter {modules : Generation.ByModule} {generated : Generated} {command : List String}
      {file : String × String} {failure : Formatter.Failure}
      (ran : Generation.run models settings.operations = .ok modules)
      (made : filesOf models settings modules = .ok generated)
      (chosen : Formatter.choose env.available settings = some command)
      (among : file ∈ generated.files) (sql : isSql file.1)
      (fails : formatText env command file.1 file.2 = .error failure)
      (untold : ∀ e, failure ≠ .reported e)
  | queryList {modules : Generation.ByModule} {generated : Generated} {command : List String}
      {formatted : Formatted} {e : Output.DropError}
      (ran : Generation.run models settings.operations = .ok modules)
      (made : filesOf models settings modules = .ok generated)
      (chosen : Formatter.choose env.available settings = some command)
      (done : formatFiles (formatText env command) generated.files = .ok formatted)
      (fails : Output.dropEntries formatted.files (formatted.failures.map FormatError.file) =
        .error e)

inductive Counts (env : Environment) (settings : Settings) (models : List Model) (r : Report) : Prop
  | intro {modules : Generation.ByModule} {generated : Generated}
      (ran : Generation.run models settings.operations = .ok modules)
      (made : filesOf models settings modules = .ok generated)
      (queries : r.queries = ((modules.map fun entry => entry.2.length).sum : Nat))
      (paths : r.files.paths =
        FileMap.paths (generated.files.filter fun file => !failsFor env settings file))
      (failures : r.formatErrors.length = (generated.files.filter (failsFor env settings)).length)
      (fileCount : r.fileCount = r.files.length)

section

variable {env : Environment} {options : Options} {settings : Settings} {models : List Model}
  {modules : Generation.ByModule} {generated : Generated}

/-! ## What escapes -/

theorem exists_filesOf_iff :
    (∃ generated, filesOf models settings modules = .ok generated) ↔
      (settings.migrations → ∃ scripts, Migration.scripts models = .ok scripts) := by
  simp only [filesOf, migrationFiles, Result.bind_eq_ok]
  cases settings.migrations <;> simp [Result.map_eq_ok]

theorem Unreported.exists_run (unreported : Unreported env settings models) :
    ∃ modules, Generation.run models settings.operations = .ok modules := by
  cases unreported with
  | migrations ran | formatter ran | queryList ran => exact ⟨_, ran⟩

theorem unreported_of_filesOf (ran : Generation.run models settings.operations = .ok modules)
    (fails : ¬ ∃ generated, filesOf models settings modules = .ok generated) :
    Unreported env settings models := by
  rw [exists_filesOf_iff] at fails
  push Not at fails
  obtain ⟨wanted, none⟩ := fails
  cases scripted : Migration.scripts models with
  | ok scripts => exact absurd scripted (none scripts)
  | error e => exact .migrations ran wanted scripted

theorem unreported_of_format (ran : Generation.run models settings.operations = .ok modules)
    (made : filesOf models settings modules = .ok generated) {r : Report}
    (fails : ¬ ∃ p, format env settings generated.files r = .ok p) :
    Unreported env settings models := by
  cases chosen : Formatter.choose env.available settings with
  | none =>
      rw [format, chosen] at fails
      exact absurd ⟨_, rfl⟩ fails
  | some command =>
      rw [exists_format_iff chosen] at fails
      by_cases all : ∃ formatted, formatFiles (formatText env command) generated.files = .ok formatted
      · obtain ⟨formatted, done⟩ := all
        cases dropped : Output.dropEntries formatted.files
            (formatted.failures.map FormatError.file) with
        | ok kept => exact absurd ⟨formatted, done, kept, dropped⟩ fails
        | error e => exact .queryList ran made chosen done dropped
      · rw [formatFiles_ok_iff] at all
        push Not at all
        obtain ⟨file, among, sql, failure, fails, untold⟩ := all
        exact .formatter ran made chosen among sql fails untold

theorem Unreported.not_format (unreported : Unreported env settings models)
    (ran : Generation.run models settings.operations = .ok modules)
    (made : filesOf models settings modules = .ok generated) (r : Report) :
    ¬ ∃ p, format env settings generated.files r = .ok p := by
  cases unreported with
  | migrations _ wanted fails =>
      obtain ⟨scripts, scripted⟩ := exists_filesOf_iff.mp ⟨generated, made⟩ wanted
      rw [fails] at scripted
      cases scripted
  | @formatter _ _ command file failure again remade chosen among sql fails untold =>
      rw [ran] at again
      cases again
      rw [made] at remade
      cases remade
      rw [exists_format_iff chosen]
      rintro ⟨formatted, done, _⟩
      obtain ⟨e, told⟩ := formatFiles_ok_iff.mp ⟨formatted, done⟩ file among sql failure fails
      exact untold e told
  | @queryList _ _ command formatted e again remade chosen done fails =>
      rw [ran] at again
      cases again
      rw [made] at remade
      cases remade
      rw [exists_format_iff chosen]
      rintro ⟨other, redone, kept, dropped⟩
      rw [done] at redone
      cases redone
      rw [fails] at dropped
      cases dropped

/-! ## The stages -/

theorem lets_eq_false {failOnWarnings : Bool} {findings : Findings} :
    lets failOnWarnings findings = false ↔
      findings.errors ≠ [] ∨ failOnWarnings ∧ findings.warnings ≠ [] := by
  cases failOnWarnings <;> simp [lets, imp_iff_not_or]

theorem queries_of_filesOf (made : filesOf models settings modules = .ok generated) :
    generated.queries = (modules.map fun entry => entry.2.length).sum := by
  obtain ⟨migrations, _, same⟩ := Result.bind_eq_ok.mp made
  cases same
  rfl

theorem exists_generate (ran : Generation.run models settings.operations = .ok modules)
    (made : filesOf models settings modules = .ok generated) (r : Report) :
    ∃ counted, generate models settings r = .ok (counted, some generated.files) ∧
      counted.queries = generated.queries ∧ counted.formatErrors = r.formatErrors ∧
      counted.exportErrors = r.exportErrors := by
  rw [generate, ran]
  simp only [made]
  exact ⟨_, rfl, rfl, rfl, rfl⟩

theorem prepare_of_generate {r counted : Report} {files : FileMap}
    (passes : lets options.failOnWarnings (Audit.findings models settings))
    (generated : generate models settings
      (reportFindings options.failOnWarnings (Audit.findings models settings) r) =
        .ok (counted, some files)) :
    prepare env options settings models r =
      (fun p => (p.1.withFiles p.2, some p.2)) <$> format env settings files counted := by
  have step : prepare env options settings models r =
      format env settings files counted >>= fun p => pure (p.1.withFiles p.2, some p.2) := by
    simp only [prepare, passes]
    rw [generated]
    rfl
  rw [step]
  cases format env settings files counted <;> rfl

inductive Prepared (env : Environment) (failOnWarnings : Bool) (settings : Settings)
    (models : List Model) : Except Interruption (Report × Option FileMap) → Prop
  | audit {r : Report} (held : lets failOnWarnings (Audit.findings models settings) = false)
      (empty : r.IsEmpty) (unwritten : r.exportErrors = []) :
      Prepared env failOnWarnings settings models (.ok (r, none))
  | generation {r : Report} {e : GenerateError}
      (fails : Generation.run models settings.operations = .error e)
      (empty : r.IsEmpty) (unwritten : r.exportErrors = []) :
      Prepared env failOnWarnings settings models (.ok (r, none))
  | unreported {i : Interruption} (passes : lets failOnWarnings (Audit.findings models settings))
      (unreported : Unreported env settings models) :
      Prepared env failOnWarnings settings models (.error i)
  | files {r : Report} {modules : Generation.ByModule}
      (passes : lets failOnWarnings (Audit.findings models settings))
      (ran : Generation.run models settings.operations = .ok modules)
      (told : ¬ Unreported env settings models) (counts : Counts env settings models r)
      (unwritten : r.exportErrors = []) :
      Prepared env failOnWarnings settings models (.ok (r, some r.files))

/-- Once the audit lets a build go on and all files are generated, they are formatted and counted. -/
theorem prepared_of_filesOf {r : Report}
    (passes : lets options.failOnWarnings (Audit.findings models settings))
    (ran : Generation.run models settings.operations = .ok modules)
    (made : filesOf models settings modules = .ok generated) (untold : r.formatErrors = [])
    (unwritten : r.exportErrors = []) :
    Prepared env options.failOnWarnings settings models
      (prepare env options settings models r) := by
  obtain ⟨counted, generates, queries, formatErrors, exportErrors⟩ := exists_generate ran made
    (reportFindings options.failOnWarnings (Audit.findings models settings) r)
  rw [prepare_of_generate passes generates]
  cases done : format env settings generated.files counted with
  | error i =>
      have fails : ¬ ∃ p, format env settings generated.files counted = .ok p := by
        rw [done]
        rintro ⟨p, same⟩
        cases same
      exact .unreported passes (unreported_of_format ran made fails)
  | ok p =>
      have formatted := format_spec done
      have none : counted.formatErrors.length = 0 :=
        congrArg List.length (formatErrors.trans untold)
      refine .files passes ran (fun fails => fails.not_format ran made _ ⟨_, done⟩) ?_
        (formatted.exportErrors.trans (exportErrors.trans unwritten))
      refine .intro ran made ((formatted.queries.trans queries).trans
        (congrArg Nat.cast (queries_of_filesOf made))) formatted.paths ?_ rfl
      exact formatted.failures.trans (by rw [none, Nat.zero_add])

theorem prepared (env : Environment) (options : Options) (settings : Settings)
    (models : List Model) {directory : Disk.Path} {stages : List Stage} :
    Prepared env options.failOnWarnings settings models
      (prepare env options settings models (begin directory settings models { stages })) := by
  cases passes : lets options.failOnWarnings (Audit.findings models settings) with
  | false =>
      simp only [prepare, passes]
      exact .audit passes ⟨rfl, rfl, rfl⟩ rfl
  | true =>
      cases ran : Generation.run models settings.operations with
      | error e =>
          simp only [prepare, passes, generate, ran]
          exact .generation ran ⟨rfl, rfl, rfl⟩ rfl
      | ok modules =>
          cases made : filesOf models settings modules with
          | error i =>
              have fails : ¬ ∃ generated, filesOf models settings modules = .ok generated := by
                rw [made]
                rintro ⟨generated, same⟩
                cases same
              simp only [prepare, passes, generate, ran, made]
              exact .unreported passes (unreported_of_filesOf ran fails)
          | ok generated => exact prepared_of_filesOf passes ran made rfl rfl

end

/-! ## Dry runs -/

def marked {α : Type} (dryRun : Bool) (p : Report × α) : Report × α :=
  (p.1.mark dryRun, p.2)

theorem generate_mark (models : List Model) (settings : Settings) (r : Report) (dryRun : Bool) :
    generate models settings (r.mark dryRun) = marked dryRun <$> generate models settings r := by
  rw [generate, generate]
  cases Generation.run models settings.operations with
  | error e => rfl
  | ok modules => cases made : filesOf models settings modules <;> simp only [made] <;> rfl

theorem format_mark (env : Environment) (settings : Settings) (files : FileMap) (r : Report)
    (dryRun : Bool) :
    format env settings files (r.mark dryRun) = marked dryRun <$> format env settings files r := by
  rw [format, format]
  cases Formatter.choose env.available settings with
  | none => rfl
  | some command =>
      simp only [map_bind, map_pure]
      rfl

theorem prepare_mark (env : Environment) (options : Options) (settings : Settings)
    (models : List Model) (r : Report) (dryRun : Bool) :
    prepare env options settings models (r.mark dryRun) =
      marked dryRun <$> prepare env options settings models r := by
  cases passes : lets options.failOnWarnings (Audit.findings models settings) with
  | false =>
      simp only [prepare, passes]
      rfl
  | true =>
      have audited : reportFindings options.failOnWarnings (Audit.findings models settings)
          (r.mark dryRun) =
            (reportFindings options.failOnWarnings (Audit.findings models settings) r).mark dryRun :=
        rfl
      -- The findings, queries and files are the same; only the report bears the mark.
      have marks := generate_mark models settings
        (reportFindings options.failOnWarnings (Audit.findings models settings) r) dryRun
      cases generated : generate models settings
          (reportFindings options.failOnWarnings (Audit.findings models settings) r) with
      | error i =>
          rw [generated] at marks
          simp only [prepare, passes, audited, marks, generated]
          rfl
      | ok p =>
          obtain ⟨counted, files⟩ := p
          rw [generated] at marks
          cases files with
          | none =>
              simp only [prepare, passes, audited, marks, generated]
              rfl
          | some files =>
              rw [prepare_of_generate passes (audited ▸ marks), prepare_of_generate passes generated,
                format_mark]
              cases format env settings files counted <;> rfl

theorem continueWith_eq (env : Environment) (options : Options) (settings : Settings)
    (models : List Model) (stages : List Stage) (t : Disk.Tree) {directory : Disk.Path}
    (aimed : target options settings t.working = .ok directory) :
    continueWith env options settings models { stages, dryRun := options.dryRun } t =
      match prepare env options settings models (begin directory settings models { stages }) with
      | .error i => (t, .error i)
      | .ok (r, none) => (t, .ok (r.mark options.dryRun).finished)
      | .ok (r, some files) =>
          if options.dryRun then (t, .ok (r.mark true).finished)
          else
            let (t, result) := exportFiles env settings directory files (r.mark false) t
            (t, Report.finished <$> result) := by
  have begins : begin directory settings models { stages, dryRun := options.dryRun } =
      (begin directory settings models { stages }).mark options.dryRun := rfl
  rw [continueWith, aimed]
  simp only [begins, prepare_mark]
  cases prepare env options settings models (begin directory settings models { stages }) with
  | error i => rfl
  | ok p =>
      obtain ⟨r, files⟩ := p
      cases files with
      | none => rfl
      | some files => cases dry : options.dryRun <;> rfl

end Build

end TenantSql
