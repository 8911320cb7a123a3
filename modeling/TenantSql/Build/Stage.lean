import TenantSql.Audit.Project
import TenantSql.Definition.File
import TenantSql.Export.Exporter
import TenantSql.Formatter.Command
import TenantSql.Generation.Task
import TenantSql.Output.Files
import TenantSql.Report.Report

/-!
# Stages of a build

A build goes from the models of a project to files on the disk in four stages:
audit, generation, formatting and export. Every stage adds to the report; what a
report has no place for interrupts the build.
-/

namespace TenantSql.Build

structure Options where
  output : Option String := none
  dryRun : Bool := false
  failOnWarnings : Bool := false

structure Environment where
  program : Formatter.Program
  /-- What formatters do with the text of each file, should they tell the files apart. -/
  programFor : String → Formatter.Program := fun _ => program
  available : String → Bool
  timestamp : String := ""
  token : String := "________"

inductive Interruption where
  | definition (e : LoadError)
  | script (e : Migration.ScriptError)
  | queryList (e : Output.DropError)
  | formatter (failure : Formatter.Failure)
  | disk (failure : Disk.Failure)
  deriving DecidableEq, Repr

/-! ## Audit -/

def warningsAsErrors : String :=
  "Warnings treated as errors (fail_on_warnings)."

def lets (failOnWarnings : Bool) (findings : Findings) : Bool :=
  findings.errors.isEmpty && !(failOnWarnings && !findings.warnings.isEmpty)

def auditDetail (findings : Findings) : String :=
  if !findings.errors.isEmpty then s!"{findings.errors.length} error(s)"
  else if !findings.warnings.isEmpty then s!"{findings.warnings.length} warning(s)"
  else "all checks passed"

def reportFindings (failOnWarnings : Bool) (findings : Findings) (r : Report) : Report :=
  let ok := lets failOnWarnings findings
  let shown := { r with
    validationErrors := r.validationErrors ++ findings.errors.map Finding.display ++
      if !ok && findings.errors.isEmpty then [warningsAsErrors] else []
    validationWarnings := r.validationWarnings ++ findings.warnings.map Finding.display }
  shown.addStage "Validate Models" ok (auditDetail findings)

/-! ## Generation -/

structure Generated where
  queries : Nat
  files : FileMap

def migrationFiles (models : List Model) (settings : Settings) : Except Interruption FileMap :=
  if settings.migrations then
    (Output.migrationFiles <$> Migration.scripts models).mapError .script
  else .ok []

def filesOf (models : List Model) (settings : Settings) (modules : Generation.ByModule) :
    Except Interruption Generated := do
  let queryFiles := FileMap.union [] (modules.flatMap fun entry =>
    Output.queryFiles entry.1 entry.2)
  let migrations ← migrationFiles models settings
  return ⟨(modules.map fun entry => entry.2.length).sum, queryFiles.union migrations⟩

def generate (models : List Model) (settings : Settings) (r : Report) :
    Except Interruption (Report × Option FileMap) :=
  match Generation.run models settings.operations with
  | .error e =>
      let shown := { r with generationErrors := r.generationErrors ++ [e.diagnostic.display] }
      .ok (shown.addStage "Generate Queries" false "0 queries, 0 files", none)
  | .ok modules => do
      let generated ← filesOf models settings modules
      let detail := s!"{generated.queries} queries, {generated.files.length} files"
      let counted := { r with queries := generated.queries }
      return (counted.addStage "Generate Queries" true detail, some generated.files)

/-! ## Formatting -/

def isSql (path : String) : Bool :=
  ".sql".toList.isSuffixOf path.toList

structure Formatted where
  files : FileMap
  failures : List FormatError

def formatFiles (formatText : String → String → Except Formatter.Failure String) :
    FileMap → Except Interruption Formatted
  | [] => .ok ⟨[], []⟩
  | (path, text) :: rest =>
      if isSql path then
        match formatText path text with
        | .ok text => do
            let later ← formatFiles formatText rest
            return { later with files := (path, text) :: later.files }
        | .error (.reported e) => do
            let later ← formatFiles formatText rest
            return { later with failures := e :: later.failures }
        | .error failure => .error (.formatter failure)
      else do
        let later ← formatFiles formatText rest
        return { later with files := (path, text) :: later.files }

def formatText (env : Environment) (command : List String) (path text : String) :
    Except Formatter.Failure String :=
  Formatter.format (env.programFor path) Formatter.usualLimit command path text

def format (env : Environment) (settings : Settings) (files : FileMap) (r : Report) :
    Except Interruption (Report × FileMap) :=
  match Formatter.choose env.available settings with
  | none => .ok (r, files)
  | some command => do
      let formatted ← formatFiles (formatText env command) files
      let failed := formatted.failures.map FormatError.file
      let kept ← (Output.dropEntries formatted.files failed).mapError .queryList
      let shown := { r with formatErrors := r.formatErrors ++
        formatted.failures.map fun e : FormatError => e.diagnostic.display }
      let detail := s!"{Formatter.commandText command}, {formatted.failures.length} failure(s)"
      return (shown.addStage "Format SQL" formatted.failures.isEmpty detail, kept)

/-! ## Export -/

def exportDetail (m : Export.Manifest) : String :=
  s!"{m.totalFiles} files, {Text.grouped m.totalBytes} bytes"

def reportExport (e : Export.Exporter) (r : Report) : Report :=
  let shown := { r with
    exportErrors := r.exportErrors ++ e.errors
    skippedFiles := r.skippedFiles ++ e.skipped
    manifest := some e.manifest }
  shown.addStage "Export to Filesystem" e.success (exportDetail e.manifest)

def exportFiles (env : Environment) (settings : Settings) (directory : Disk.Path)
    (files : FileMap) (r : Report) (t : Disk.Tree) : Disk.Tree × Except Interruption Report :=
  let exporter := { Export.Exporter.create settings directory with
    timestamp := env.timestamp, token := env.token }
  match exporter.exportAll t files with
  | (t, .ok done) => (t, .ok (reportExport done r))
  | (t, .error failure) => (t, .error (.disk failure))

end TenantSql.Build
