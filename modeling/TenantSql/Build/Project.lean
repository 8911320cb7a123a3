import TenantSql.Build.Stage

/-!
# Builds

A build of models that are there already, and one that begins with the file of a
definition. A stage that fails ends the build, except that files a formatter
fails for are left out and the others are written all the same. The disk changes
in the last stage alone, and in a dry run not at all.
-/

namespace TenantSql.Build

def begin (directory : Disk.Path) (settings : Settings) (models : List Model) (r : Report) :
    Report :=
  { r with
    projectName := settings.projectName
    outputDirectory := directory.text
    models := models.length }

def prepare (env : Environment) (options : Options) (settings : Settings) (models : List Model)
    (r : Report) : Except Interruption (Report × Option FileMap) := do
  let findings := Audit.findings models settings
  let audited := reportFindings options.failOnWarnings findings r
  if !lets options.failOnWarnings findings then return (audited, none)
  match ← generate models settings audited with
  | (failed, none) => return (failed, none)
  | (generated, some files) =>
      let (formatted, files) ← format env settings files generated
      return (formatted.withFiles files, some files)

def target (options : Options) (settings : Settings) (working : Disk.Place) :
    Except Disk.Failure Disk.Path :=
  (Disk.Path.ofText (options.output.getD settings.outputDir)).resolve ⟨true, working⟩

def continueWith (env : Environment) (options : Options) (settings : Settings)
    (models : List Model) (r : Report) (t : Disk.Tree) :
    Disk.Tree × Except Interruption Report :=
  match target options settings t.working with
  | .error failure => (t, .error (.disk failure))
  | .ok directory =>
    match prepare env options settings models (begin directory settings models r) with
    | .error interruption => (t, .error interruption)
    | .ok (r, none) => (t, .ok r.finished)
    | .ok (r, some files) =>
        if options.dryRun then (t, .ok r.finished)
        else
          let (t, result) := exportFiles env settings directory files r t
          (t, Report.finished <$> result)

def ofModels (env : Environment) (options : Options) (settings : Settings) (models : List Model)
    (t : Disk.Tree) : Disk.Tree × Except Interruption Report :=
  continueWith env options settings models { dryRun := options.dryRun } t

def rejected (stage : String) (e : ConfigurationError) (r : Report) : Report :=
  let shown := { r with generationErrors := r.generationErrors ++ [e.diagnostic.display] }
  (shown.addStage stage false e.diagnostic.message).finished

def ofFile (env : Environment) (options : Options) (path : Disk.Path) (overrides : Entries)
    (t : Disk.Tree) : Disk.Tree × Except Interruption Report :=
  let start : Report := { dryRun := options.dryRun }
  match readDefinition t path with
  | .error (.unreachable failure) => (t, .error (.disk failure))
  | .error (.unusable (.rejected e)) => (t, .ok (rejected "Load Definition" e start))
  | .error (.unusable e) => (t, .error (.definition e))
  | .ok raw =>
      let loaded := start.addStage "Load Definition" true ("from " ++ path.name)
      match readModels raw overrides (some path.text) with
      | .error (.rejected e) => (t, .ok (rejected "Parse Models" e loaded))
      | .error e => (t, .error (.definition e))
      | .ok (settings, models) =>
          let detail := s!"{models.length} models"
          continueWith env options settings models (loaded.addStage "Parse Models" true detail) t

end TenantSql.Build
