import TenantSql.Disk.Tree
import TenantSql.Export.Manifest
import TenantSql.Model.Settings
import TenantSql.Output.FileMap
import TenantSql.Text.Order

/-!
# Exporting files

Files are written below an output directory in the order of their paths, each
under a temporary name first. A file that cannot be written is recorded as an
error and the rest is written all the same; a file that exists is skipped where
that is asked for. At the end comes a manifest of all that was written.
-/

namespace TenantSql.Export

open Disk

def manifestName : String := "manifest.json"

structure Exporter where
  projectName : String
  projectVersion : String
  overwrite : Bool
  directory : Path
  writesManifest : Bool := true
  timestamp : String := ""
  token : String := "________"
  errors : List String := []
  warnings : List String := []
  skipped : List String := []
  records : List FileRecord := []

namespace Exporter

def create (settings : Settings) (directory : Path) : Exporter where
  projectName := settings.projectName
  projectVersion := settings.projectVersion
  overwrite := settings.overwrite
  directory := directory

def manifest (e : Exporter) : Manifest where
  projectName := e.projectName
  projectVersion := e.projectVersion
  generatorVersion := generatorVersion
  timestamp := e.timestamp
  outputDirectory := e.directory.text
  files := e.records

def success (e : Exporter) : Bool :=
  e.errors.isEmpty

def temporaryName (e : Exporter) (name : String) : String :=
  "." ++ name ++ "." ++ e.token ++ ".tmp"

def writeFile (e : Exporter) (t : Tree) (path : Path) (content : String) :
    Tree × Except Failure Unit :=
  match t.makeDirectories path.parent.steps.length path.parent with
  | (t, .ok ()) => t.replaceFile path (e.temporaryName path.name) content
  | failed => failed

def pathOf (e : Exporter) (relative : String) : Path :=
  e.directory.join (Path.ofText relative)

def failureMessage (relative : String) (failure : Failure) : String :=
  s!"Failed to write {relative}: {failure.cause.className}: {failure.message}"

def note (e : Exporter) (relative content : String) : Except Failure Unit → Except Failure Exporter
  | .ok () => .ok { e with records := e.records ++ [FileRecord.ofContent relative content] }
  | .error failure =>
      if failure.cause.isSystems then
        .ok { e with errors := e.errors ++ [failureMessage relative failure] }
      else .error failure

def exportFile (e : Exporter) (t : Tree) (relative content : String) :
    Tree × Except Failure Exporter :=
  let path := e.pathOf relative
  match t.look path with
  | .error failure => (t, .error failure)
  | .ok there =>
      if there.isSome && !e.overwrite then
        (t, .ok { e with skipped := e.skipped ++ [relative] })
      else
        let (t, result) := e.writeFile t path content
        (t, e.note relative content result)

def exportFiles (e : Exporter) (t : Tree) : List (String × String) → Tree × Except Failure Exporter
  | [] => (t, .ok e)
  | (relative, content) :: rest =>
      match e.exportFile t relative content with
      | (t, .ok e) => exportFiles e t rest
      | failed => failed

def exportManifest (e : Exporter) (t : Tree) : Tree × Except Failure Exporter :=
  if e.writesManifest then
    match e.writeFile t (e.pathOf manifestName) (e.manifest.json (some "  ")) with
    | (t, .ok ()) => (t, .ok e)
    | (t, .error failure) =>
        if failure.cause.isSystems then
          let warning := "Could not write manifest: " ++ failure.message
          (t, .ok { e with warnings := e.warnings ++ [warning] })
        else (t, .error failure)
  else (t, .ok e)

def inOrder (files : FileMap) : FileMap :=
  files.mergeSort fun a b => !decide (b.1 < a.1)

def exportAll (e : Exporter) (t : Tree) (files : FileMap) : Tree × Except Failure Exporter :=
  match t.makeDirectories e.directory.steps.length e.directory with
  | (t, .error failure) => (t, .error failure)
  | (t, .ok ()) =>
      match e.exportFiles t (inOrder files) with
      | (t, .ok e) => e.exportManifest t
      | failed => failed

end Exporter

end TenantSql.Export
