import TenantSql.Model.Field

/-!
# Relations between models

The records by which a model knows its parents, its children and the rows it
refers to. They name schemas, tables and columns, so that statements can be
written without the related model.
-/

namespace TenantSql

structure Join where
  ids : String × String
  models : Option (String × String)
  deriving DecidableEq, Repr, Inhabited

namespace Join

def title : String := "JoinInfo"

def idNames (j : Join) : List String :=
  [j.ids.1, j.ids.2]

def checkIds (ids : Checked (String × String)) : Checked (String × String) :=
  ids.ensure (fun pair => pair.1 != pair.2) fun pair => .equalJoinIds pair.1

def make (ids : String × String) (models : Option (String × String)) : Checked Join :=
  (Join.mk · models) <$> (checkIds (.ok ids)).within (.field "model_ids")

def read : Value → Checked Join :=
  Value.readRecord title fun entries =>
    (Join.mk
      <$> entries.required "model_ids" (fun v => checkIds v.readPair)
      <*> entries.optional "models" none (Value.readOptional Value.readPair))
      <* entries.only ["model_ids", "models"]

end Join

structure Parent where
  model : String
  snakeName : String
  fieldName : String
  column : String
  globallyUnique : Bool
  deriving DecidableEq, Repr, Inhabited

namespace Parent

def title : String := "BelongsTo"

def ofEntries (entries : Entries) : Checked Parent :=
  (Parent.mk
    <$> entries.required "model" Value.readNonEmptyText
    <*> entries.required "model_snake_name" (Value.readIdentifier "Identifier")
    <*> entries.required "field_name" Value.readText
    <*> entries.required "sql_name" (Value.readIdentifier "Identifier")
    <*> entries.optional "globally_unique" false Value.readBool)
    <* entries.only ["model", "model_snake_name", "field_name", "sql_name", "globally_unique"]

def read : Value → Checked Parent :=
  Value.readRecord title ofEntries

end Parent

structure Through where
  model : String
  schema : String
  table : String
  childColumn : String
  deriving DecidableEq, Repr, Inhabited

namespace Through

def title : String := "ThroughInfo"

def ofEntries (entries : Entries) : Checked Through :=
  (Through.mk
    <$> entries.required "model" Value.readText
    <*> entries.required "schema_name" (Value.readIdentifier "Identifier")
    <*> entries.required "table" (Value.readIdentifier "Identifier")
    <*> entries.required "to_id_field" (Value.readIdentifier "Identifier"))
    <* entries.only ["model", "schema_name", "table", "to_id_field"]

def read : Value → Checked Through :=
  Value.readRecord title ofEntries

end Through

structure Child where
  model : String
  schema : String
  table : String
  parentColumn : String
  many : Bool
  onGet : FetchType
  onList : FetchType
  getName : String
  listName : String
  fields : List Field
  through : Option Through
  deriving DecidableEq, Repr, Inhabited

namespace Child

def title : String := "ChildRelation"

def keys : List String :=
  ["model", "schema_name", "table", "parent_field", "many", "populate_on_get",
    "populate_on_list", "get_field_name", "list_field_name"]

def ofParts (entries : Entries) (fields : Checked (List Field))
    (through : Checked (Option Through)) : Checked Child :=
  let fetch := Value.readChoice FetchType.all FetchType.name
  Child.mk
    <$> entries.required "model" Value.readText
    <*> entries.required "schema_name" (Value.readIdentifier "Identifier")
    <*> entries.required "table" (Value.readIdentifier "Identifier")
    <*> entries.required "parent_field" (Value.readIdentifier "Identifier")
    <*> entries.optional "many" true Value.readBool
    <*> entries.optional "populate_on_get" .none fetch
    <*> entries.optional "populate_on_list" .none fetch
    <*> entries.required "get_field_name" Value.readText
    <*> entries.required "list_field_name" Value.readText
    <*> fields <*> through

def read : Value → Checked Child :=
  Value.readRecord title fun entries =>
    ofParts entries
      (entries.optional "fields" [] (Value.readList Field.read))
      (entries.optional "through" none (Value.readOptional Through.read))
      <* entries.only ("fields" :: "through" :: keys)

end Child

structure Reference where
  name : String
  outputName : String
  model : String
  schema : String
  table : String
  idColumn : String
  fields : List Field
  onGet : Bool
  onList : Bool
  isGlobal : Bool
  deriving DecidableEq, Repr, Inhabited

namespace Reference

def title : String := "ReferencePopulation"

def tableAlias (r : Reference) : String :=
  "ref_" ++ r.name

def keys : List String :=
  ["name", "full_name", "model", "schema_name", "table", "id_field", "on_get", "on_list",
    "is_global"]

def ofParts (entries : Entries) (fields : Checked (List Field)) : Checked Reference :=
  Reference.mk
    <$> entries.required "name" (Value.readIdentifier "Identifier")
    <*> entries.required "full_name" Value.readText
    <*> entries.required "model" Value.readText
    <*> entries.required "schema_name" (Value.readIdentifier "Identifier")
    <*> entries.required "table" (Value.readIdentifier "Identifier")
    <*> entries.required "id_field" (Value.readIdentifier "Identifier")
    <*> fields
    <*> entries.optional "on_get" false Value.readBool
    <*> entries.optional "on_list" false Value.readBool
    <*> entries.optional "is_global" false Value.readBool

def read : Value → Checked Reference :=
  Value.readRecord title fun entries =>
    ofParts entries (entries.optional "fields" [] (Value.readList Field.read))
      <* entries.only ("fields" :: keys)

end Reference

end TenantSql
