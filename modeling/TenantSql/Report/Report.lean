import TenantSql.Export.Manifest
import TenantSql.Number.Decimal
import TenantSql.Output.FileMap

/-!
# Reports

What a run produced and what it ran into: counts, stages, the messages of every
kind, and the files.
-/

namespace TenantSql

structure Stage where
  name : String
  success : Bool
  seconds : Number.Binary64
  detail : String
  deriving DecidableEq, Repr

structure Report where
  success : Bool := false
  dryRun : Bool := false
  projectName : String := ""
  outputDirectory : String := ""
  models : Int := 0
  queries : Int := 0
  fileCount : Int := 0
  bytes : Int := 0
  lines : Int := 0
  seconds : Number.Binary64 := .ofInt 0
  stages : List Stage := []
  validationErrors : List String := []
  validationWarnings : List String := []
  generationErrors : List String := []
  formatErrors : List String := []
  exportErrors : List String := []
  skippedFiles : List String := []
  files : FileMap := []
  manifest : Option Export.Manifest := none
  deriving DecidableEq, Repr

namespace Report

def addStage (r : Report) (name : String) (success : Bool) (detail : String) : Report :=
  { r with stages := r.stages ++ [⟨name, success, .ofInt 0, detail⟩] }

def isClean (r : Report) : Bool :=
  r.validationErrors.isEmpty && r.generationErrors.isEmpty && r.formatErrors.isEmpty &&
    r.exportErrors.isEmpty

def finished (r : Report) : Report :=
  { r with success := r.isClean }

def withFiles (r : Report) (files : FileMap) : Report :=
  { r with
    files
    fileCount := files.length
    lines := (files.map fun file => (Text.countLines file.2 : Int)).sum
    bytes := (files.map fun file => (file.2.utf8ByteSize : Int)).sum }

def heavyRule : String := Text.rule 60 '='

def lightRule : String := Text.rule 60 '─'

def stageLine (s : Stage) : String :=
  let sign := if s.success then "✓" else "✗"
  let seconds := Text.padLeft 7 ' ' (s.seconds.fixed 3)
  s!"    {sign} {Text.padRight 24 s.name} {seconds}s  {s.detail}"

def messageSection (title sign : String) (items : List String) : List String :=
  if items.isEmpty then []
  else lightRule :: s!"  {title} ({items.length}):" :: items.map fun item => s!"    {sign} {item}"

def status (r : Report) : String :=
  (if r.success then "✅ SUCCESS" else "❌ FAILED") ++ if r.dryRun then " (dry run)" else ""

def summary (r : Report) : String :=
  "\n".intercalate (
    [heavyRule, "  NexaFlow QueryGen - Generation Report", heavyRule,
      s!"  Status:           {r.status}", s!"  Project:          {r.projectName}",
      s!"  Output:           {r.outputDirectory}", s!"  Models:           {r.models}",
      s!"  Queries:          {r.queries}", s!"  Files:            {r.fileCount}",
      s!"  Total lines:      {Text.grouped r.lines}",
      s!"  Total time:       {r.seconds.fixed 3}s", lightRule] ++
    (if r.stages.isEmpty then [] else "  Pipeline Steps:" :: r.stages.map stageLine) ++
    messageSection "Validation Errors" "✗" r.validationErrors ++
    messageSection "Validation Warnings" "⚠" r.validationWarnings ++
    messageSection "Generation Errors" "✗" r.generationErrors ++
    messageSection "Format Errors" "✗" r.formatErrors ++
    messageSection "Export Errors" "✗" r.exportErrors ++
    messageSection "Skipped Files" "⊘" r.skippedFiles ++ [heavyRule])

end Report

structure Timing where
  label : String := "operation"
  seconds : Number.Binary64 := .ofInt 0
  deriving DecidableEq, Repr

def Timing.describe (t : Timing) : String :=
  s!"<Timer {t.label}: {t.seconds.fixed 4}s>"

end TenantSql
