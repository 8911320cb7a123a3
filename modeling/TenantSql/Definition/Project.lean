import TenantSql.Definition.Relations
import TenantSql.Model.Read

/-!
# Projects

A definition as a whole: its settings, with changes from outside on top, and its
models in the order of declaration. Relations may name models that are declared
later, so each step is taken for all models before the next one begins.
-/

namespace TenantSql

def usualSort : String := "-updated_at"

def Typed.toModel (settings : Settings) (source : Option String) (t : Typed)
    (children : List Child) (references : List Reference) : Except LoadError Model :=
  let given := t.sketch.given
  let keys := ["owner_permission", "write_permission", "read_permission"]
  let permissions := keys.filterMap fun key =>
    if (given.getD key).isTruthy then some (key, given.getD key) else none
  let entries := Entries.ofFields (
    [("name", .text t.name), ("module_name", .text t.sketch.snakeName),
      ("schema_name", t.sketch.schema), ("table", t.sketch.table),
      ("global", .bool t.sketch.isGlobal), ("auth_schema", .text settings.authSchema),
      ("auth_check_in_query", .bool (given.getD "auth_check_in_query").isTruthy),
      ("pagination_disabled", .bool ((given.getD "pagination").same (.bool false) &&
        (given.getD "pagination").kindName == "bool")),
      ("default_sort", (given.get? "default_sort").getD (.text usualSort)),
      ("indexes", Sketch.truthyOr given "indexes" (.list []))] ++ permissions)
  ((Model.ofParts entries
    { fields := .ok t.fields
      join := .ok t.linked.join
      parents := .ok t.linked.parents
      children := .ok children
      references := .ok references }).andThen Model.checkRules).orReject Model.title source
    (.model t.name)

def loadModels (raw : Entries) (settings : Settings) (source : Option String) :
    Except LoadError (List Model) := do
  match (raw.getD "models").bare with
  | .list (first :: rest) => do
      let sketches ← Sketch.ofValues settings source (first :: rest)
      let linked ← sketches.mapM (Linked.ofSketch sketches source)
      let typed ← linked.mapM (Typed.ofLinked source)
      let related ← typed.mapM fun t => do
        return (t, ← t.childrenOf typed source, ← t.referencesOf typed source)
      related.mapM fun (t, children, references) => t.toModel settings source children references
  | _ => reject source .noModels

def loadSettings (raw : Entries) (overrides : Entries) (source : Option String) :
    Except LoadError Settings :=
  match (Sketch.truthyOr raw "config" (.object [])).bare with
  | .object own =>
      let merged := overrides.foldl (fun (merged : Entries) entry =>
        match entry.2 with
        | .null => merged
        | value => merged.insert entry.1 value) own
      (Settings.ofEntries merged).orReject Settings.title source .settings
  | _ => reject source .configNotMapping

end TenantSql
