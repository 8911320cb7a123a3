import TenantSql.Value.Sequence
import TenantSql.Definition.Error
import TenantSql.Model.Settings
import TenantSql.Model.Relation
import TenantSql.Text.SnakeCase

/-!
# Sketches of models

A sketch is what a definition says about one model on its own: its names, its
table, and its fields with the standard ones in front. Relations to other
models are left for later, as the definition gives them.
-/

namespace TenantSql

structure Sketch where
  name : String
  snakeName : String
  schema : Value
  table : Value
  isGlobal : Bool
  given : Entries
  fields : List Entries

namespace Entries

def ofFields (fields : List (String × Value)) : Entries :=
  fields.map fun field => (.text field.1, field.2)

end Entries

namespace Sketch

/-- The fields that every model has without asking; only the definition's own are declared. -/
def standardNames : List String :=
  ["id", "organization_id", "updated_at", "created_at"]

def keys : List String :=
  ["name", "table", "schema", "global", "fields", "joins", "belongs_to", "has", "references",
    "default_sort", "pagination", "auth_check_in_query", "indexes", "owner_permission",
    "write_permission", "read_permission"]

def orFault {α : Type} (result : Except Fault α) : Except LoadError α :=
  result.mapError .fault

def shown (v : Value) : Except LoadError String :=
  orFault v.shown

def fullTable (s : Sketch) : Except LoadError String := do
  return (← shown s.schema) ++ "." ++ (← shown s.table)

def timeField (name : String) : Entries :=
  .ofFields [("name", .text name), ("sql_type", .text SqlType.timestamp.name),
    ("default", .text "now()"), ("sortable", .text Sortable.defaultDescending.name)]

def standardFields (isGlobal isJoin : Bool) : List Entries :=
  (if isJoin then []
    else [.ofFields [("name", .text "id"), ("sql_type", .text SqlType.uuid.name)]]) ++
  (if isGlobal then []
    else [.ofFields [("name", .text "organization_id"), ("sql_type", .text SqlType.uuid.name),
      ("indexed", .bool true)]]) ++
  [timeField "updated_at", timeField "created_at"]

def fieldKey : Scalar → Scalar
  | .text "type" => .text "sql_type"
  | .text "column" => .text "sql_name"
  | key => key

def declaredField (model : String) (source : Option String) (v : Value) :
    Except LoadError Entries :=
  let v := match v with
    | .text s => Value.ofFields [("name", .text s)]
    | other => other.bare
  match v with
  | .object entries =>
      let entries : Entries := entries
      let name := entries.getD "name"
      if !name.isTruthy then reject source (.fieldWithoutName model)
      else if standardNames.any fun standard => name.same (.text standard) then
        reject source (.standardField model name.display)
      else
        .ok (entries.foldl (fun renamed entry => renamed.insert (fieldKey entry.1) entry.2) [])
  | _ => reject source (.fieldWithoutName model)

def truthyOr (entries : Entries) (key : String) (instead : Value) : Value :=
  let v := entries.getD key
  if v.isTruthy then v else instead

def ofEntries (settings : Settings) (source : Option String) (entries : Entries) :
    Except LoadError Sketch := do
  let name ← shown (entries.getD "name")
  let others := (entries.map (·.1)).filter fun key => !keys.any fun known => key == .text known
  let unknown ← orFault (Value.sorted (others.map .scalar))
  if !unknown.isEmpty then reject source (.unknownKeys name (← shown (.list unknown)))
  let snakeName := Text.snakeCase name
  let isGlobal := (entries.getD "global").isTruthy
  let declared ← (← orFault (entries.getD "fields").partsOrNone).mapM (declaredField name source)
  return {
    name, snakeName, isGlobal
    schema := truthyOr entries "schema" (.text settings.defaultSchema)
    table := truthyOr entries "table" (.text (Text.plural snakeName))
    given := entries
    fields := standardFields isGlobal (entries.has "joins") ++ declared }

def ofValue (settings : Settings) (source : Option String) (v : Value) : Except LoadError Sketch :=
  match v.bare with
  | .object entries =>
      let entries : Entries := entries
      if (entries.getD "name").isTruthy then ofEntries settings source entries
      else reject source .modelWithoutName
  | _ => reject source .modelWithoutName

def ofValues (settings : Settings) (source : Option String) (models : List Value) :
    Except LoadError (List Sketch) :=
  models.foldlM (fun sketches v => do
    let sketch ← ofValue settings source v
    if sketches.any (·.name == sketch.name) then reject source (.duplicateModel sketch.name)
    else return sketches ++ [sketch]) []

def find (sketches : List Sketch) (source : Option String) (owner what name : String) :
    Except LoadError Sketch :=
  match sketches.find? (·.name == name) with
  | some sketch => .ok sketch
  | none => reject source (.unknownModel owner what name)

end Sketch

end TenantSql
