import TenantSql.Definition.Project
import TenantSql.Disk.Tree
import TenantSql.Text.Blank
import TenantSql.Yaml.Reader

/-!
# Definition files

The name of a definition's file says whether it holds YAML or JSON. Under any
other name the text is read as JSON first, and as YAML if that gives no object.
-/

namespace TenantSql

inductive FileError where
  | unreachable (failure : Disk.Failure)
  | unusable (e : LoadError)
  deriving DecidableEq, Repr

def readJsonText (source : Option String) (text : String) : Except LoadError Entries :=
  match Json.read text with
  | .error { problem := .beyond f, .. } => .error (.fault f)
  | .error e => reject source (.invalidJson e)
  | .ok (.object entries) => .ok entries
  | .ok other => reject source (.topLevelNotObject other.kindName)

def readYamlText (source : Option String) (text : String) : Except LoadError Entries :=
  match Value.bare <$> Yaml.read text with
  | .error .malformed => reject source .invalidYaml
  | .error (.fault f) => .error (.fault f)
  | .ok (.object entries) => .ok entries
  | .ok other => reject source (.topLevelNotMapping other.kindName)

def readDefinitionText (source : Option String) (ending text : String) :
    Except LoadError Entries :=
  let text := Text.withLineFeeds text
  match String.ofList (ending.toList.map Char.toLower) with
  | ".yaml" | ".yml" => readYamlText source text
  | ".json" => readJsonText source text
  | _ =>
    match readJsonText source text with
    | .error (.rejected _) => readYamlText source text
    | result => result

def readDefinition (t : Disk.Tree) (path : Disk.Path) : Except FileError Entries :=
  let source := some path.text
  match t.look path with
  | .error failure => .error (.unreachable failure)
  | .ok none => (reject source .fileNotFound).mapError .unusable
  | .ok (some .directory) => (reject source .notAFile).mapError .unusable
  | .ok (some (.file text)) => (readDefinitionText source path.ending text).mapError .unusable

def readModels (raw overrides : Entries) (source : Option String) :
    Except LoadError (Settings × List Model) := do
  let settings ← loadSettings raw overrides source
  let models ← loadModels raw settings source
  return (settings, models)

def readProject (t : Disk.Tree) (path : Disk.Path) (overrides : Entries) :
    Except FileError (Settings × List Model) := do
  let raw ← readDefinition t path
  (readModels raw overrides path.text).mapError .unusable

end TenantSql
