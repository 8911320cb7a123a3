import TenantSql.Build.Project
import TenantSql.CommandLine.Arguments
import TenantSql.Model.Record
import TenantSql.Text.Blank

/-!
# The command

One run of the program: from the words of a command line and the disk to a text
for the standard output, an ending and the disk afterwards. The formatter is a
command of its own, in one text that is split into words.
-/

namespace TenantSql.CommandLine

/-! ## Words

A command in one text is split at blanks into words. Quotes keep blanks in a
word; a backslash keeps the next character, within double quotes only a quote or
another backslash. A word may be empty if it has quotes. -/

def partsWords (c : Char) : Bool :=
  c == ' ' || c == '\t' || c == '\r' || c == '\n'

inductive Quoting where
  | between
  | within
  | inside (quote : Char)
  | escaped
  | escapedInside

/-- The words of a text from a place on; `read` is the word before that place, from its last
character to its first. There are none if a quote stays open or nothing follows a backslash. -/
def wordsFrom (state : Quoting) (read : List Char) : List Char → Option (List String)
  | [] =>
      match state with
      | .between => some []
      | .within => some [String.ofList read.reverse]
      | _ => none
  | c :: rest =>
      match state with
      | .inside quote =>
          if c == quote then wordsFrom .within read rest
          else if quote == '"' && c == '\\' then wordsFrom .escapedInside read rest
          else wordsFrom (.inside quote) (c :: read) rest
      | .escaped => wordsFrom .within (c :: read) rest
      | .escapedInside =>
          let kept := if c == '"' || c == '\\' then c :: read else c :: '\\' :: read
          wordsFrom (.inside '"') kept rest
      | _ =>
          if partsWords c then
            match state with
            | .within => (String.ofList read.reverse :: ·) <$> wordsFrom .between [] rest
            | _ => wordsFrom .between [] rest
          else if c == '\'' || c == '"' then wordsFrom (.inside c) read rest
          else if c == '\\' then wordsFrom .escaped read rest
          else wordsFrom .within (c :: read) rest

def words? (s : String) : Option (List String) :=
  wordsFrom .between [] s.toList

/-! ## Runs -/

def programName : String := "querygen"

def versionText : String :=
  s!"NexaFlow QueryGen v{Export.generatorVersion}\n"

def helpText : String :=
  let shown := Flag.all.map fun flag =>
    "  " ++ ", ".intercalate flag.names ++ if flag.takesValue then " VALUE" else ""
  s!"usage: {programName} -d PATH [options]\n\noptions:\n" ++ "\n".intercalate shown ++ "\n"

def UsageError.lastLine (e : UsageError) : String :=
  Text.lastLine (programName ++ ": error: " ++ e.message)

inductive Ending where
  | exit (code : Nat)
  | misused (e : UsageError)
  | fault (f : Fault)
  | unreachable (failure : Disk.Failure)
  | interrupted (i : Build.Interruption)
  deriving DecidableEq, Repr

structure Outcome where
  output : String
  ending : Ending
  deriving DecidableEq, Repr

def silent (ending : Ending) : Outcome :=
  ⟨"", ending⟩

def exitSuccess : Nat := 0

def exitValidation : Nat := 1

def exitGeneration : Nat := 2

def exitExport : Nat := 3

def exitInput : Nat := 4

def exitFormat : Nat := 5

def Given.toValue {α : Type} (write : α → Value) : Given α → Value
  | .value a => write a
  | .nothing => .list []

def overrides (a : Arguments) (formatter : Option (List String)) : Entries :=
  let text := Given.toValue Value.text
  let texts := [("project_name", a.projectName), ("project_version", a.projectVersion),
    ("default_schema", a.defaultSchema), ("auth_schema", a.authSchema)]
  Entries.ofFields (
    texts.filterMap (fun entry => entry.2.map fun given => (entry.1, text given)) ++
    (a.operations.map fun names => ("operations", Value.list (names.map text))).toList ++
    (a.output.map fun directory => ("output_dir", text directory)).toList ++
    (if a.noMigrations then [("generate_migrations", .bool false)] else []) ++
    (formatter.map fun command => ("formatter", Value.ofTexts command)).toList ++
    (if a.autoFormat then [("auto_detect_formatter", .bool true)] else []) ++
    (a.workers.map fun count => ("max_workers", count.toValue Value.int)).toList ++
    (if a.noOverwrite then [("overwrite_existing", .bool false)] else []))

/-! ## Auditing alone -/

def auditRule : String := Text.rule 50 '='

def auditReport (fileName : String) (models : List Model) (findings : Findings) : String :=
  let valid := !findings.hasErrors
  let verdict :=
    if !findings.isEmpty then ["", findings.report]
    else ["", "  ✅ All validations passed!"]
  let answer := if valid then "Yes" else "No"
  let lines :=
    ["", auditRule, "  Model Validation Report", auditRule, s!"  File:     {fileName}",
      s!"  Models:   {models.length}", "  Time:     0.000s", s!"  Valid:    {answer}"] ++
    verdict ++ [auditRule, ""]
  String.join (lines.map (· ++ "\n"))

def auditFile (t : Disk.Tree) (path : Disk.Path) (overrides : Entries) : Outcome :=
  match readProject t path overrides with
  | .error (.unreachable failure) => silent (.unreachable failure)
  | .error (.unusable (.rejected e)) => ⟨s!"✗ {e.diagnostic.display}\n", .exit exitInput⟩
  | .error (.unusable e) => silent (.interrupted (.definition e))
  | .ok (settings, models) =>
      let findings := Audit.findings models settings
      ⟨auditReport path.name models findings,
        .exit (if findings.hasErrors then exitValidation else exitSuccess)⟩

/-! ## Building -/

def exitCode (r : Report) : Nat :=
  if r.success then exitSuccess
  else if !r.validationErrors.isEmpty then exitValidation
  else if !r.generationErrors.isEmpty then exitGeneration
  else if !r.formatErrors.isEmpty then exitFormat
  else exitExport

def buildOutput (dryRun : Bool) (r : Report) : String :=
  let files := if dryRun then (Text.sorted r.files.paths).map fun path => s!"  {path}" else []
  String.join ((r.summary :: files).map (· ++ "\n"))

def buildFile (env : Build.Environment) (a : Arguments) (t : Disk.Tree) (path : Disk.Path)
    (overrides : Entries) : Disk.Tree × Outcome :=
  let options : Build.Options := { dryRun := a.dryRun, failOnWarnings := a.failOnWarnings }
  match Build.ofFile env options path overrides t with
  | (t, .error interruption) => (t, silent (.interrupted interruption))
  | (t, .ok r) => (t, ⟨buildOutput a.dryRun r, .exit (exitCode r)⟩)

/-! ## The whole run -/

def formatterWords (a : Arguments) : Except Fault (Option (List String)) :=
  match a.formatter with
  | none => .ok none
  | some .nothing => .error .notARecord
  | some (.value command) =>
      match words? command with
      | some words => .ok (some words)
      | none => .error .wrongContent

def runAt (env : Build.Environment) (a : Arguments) (t : Disk.Tree) (path : Disk.Path) :
    Disk.Tree × Outcome :=
  match t.look path with
  | .error failure => (t, silent (.unreachable failure))
  | .ok (some (.file _)) =>
      match formatterWords a with
      | .error f => (t, silent (.fault f))
      | .ok formatter =>
          let given := overrides a formatter
          if a.validateOnly then (t, auditFile t path given) else buildFile env a t path given
  | .ok _ => (t, silent (.exit exitInput))

def Arguments.definitionPath? (a : Arguments) (working : Disk.Place) :
    Option (Except Disk.Failure Disk.Path) :=
  match a.definition with
  | some (.value written) => some ((Disk.Path.ofText written).resolve ⟨true, working⟩)
  | _ => none

def run (env : Build.Environment) (words : List String) (t : Disk.Tree) : Disk.Tree × Outcome :=
  match Arguments.read words with
  | .error .help => (t, ⟨helpText, .exit exitSuccess⟩)
  | .error .version => (t, ⟨versionText, .exit exitSuccess⟩)
  | .error (.misused e) => (t, silent (.misused e))
  | .ok a =>
      match a.definitionPath? t.working with
      | some (.error failure) => (t, silent (.unreachable failure))
      | some (.ok path) => runAt env a t path
      | none => (t, silent (.fault .wrongKind))

end TenantSql.CommandLine
