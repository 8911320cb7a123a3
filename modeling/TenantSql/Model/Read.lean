import TenantSql.Model.Basic

/-!
# Reading models

A model from an object of a definition. Permissions are named after the model
where none are given, and a field's full name after the table.
-/

namespace TenantSql

inductive GivenField where
  | value (v : Value)
  | record (f : Field)
  deriving Repr

structure GivenFields where
  items : List GivenField
  isList : Bool
  deriving Repr

def GivenFields.ofValue? (v : Value) : Option GivenFields :=
  let isList := match v.bare with
    | .list _ => true
    | _ => false
  v.items?.map fun items => ⟨items.map .value, isList⟩

namespace Model

def keys : List String :=
  ["name", "module_name", "schema_name", "table", "fields", "join", "belongs_to", "children",
    "reference_populations", "auth_schema", "owner_permission", "write_permission",
    "read_permission", "auth_check_in_query", "pagination_disabled", "default_sort", "indexes"]

def withPermission (entries : Entries) (tier : String) : Entries :=
  let key := tier ++ "_permission"
  let name := entries.getD "name"
  if !(entries.getD key).isTruthy && name.isTruthy then
    entries.set key (.text (name.display ++ "::" ++ tier))
  else entries

def withPermissions (entries : Entries) : Entries :=
  ["owner", "write", "read"].foldl withPermission entries

def someFields (fields : Checked (List Field)) : Checked (List Field) :=
  fields.andThen fun fields => if fields.isEmpty then .refuse .noItems else .ok fields

structure Parts where
  fields : Checked (List Field)
  join : Checked (Option Join)
  parents : Checked (List Parent)
  children : Checked (List Child)
  references : Checked (List Reference)

def ofParts (given : Entries) (parts : Parts) : Checked Model :=
  let entries := withPermissions given
  let identifier := Value.readIdentifier "Identifier"
  Model.mk
    <$> entries.required "name" Value.readNonEmptyText
    <*> entries.required "module_name" identifier
    <*> entries.optional "schema_name" "public" identifier
    <*> entries.required "table" identifier
    <*> entries.aliased "global" "is_global" false Value.readBool
    <*> parts.fields <*> parts.join <*> parts.parents <*> parts.children <*> parts.references
    <*> entries.optional "auth_schema" "auth" identifier
    <*> entries.optional "owner_permission" "" Value.readText
    <*> entries.optional "write_permission" "" Value.readText
    <*> entries.optional "read_permission" "" Value.readText
    <*> entries.optional "auth_check_in_query" false Value.readBool
    <*> entries.optional "pagination_disabled" false Value.readBool
    <*> entries.optional "default_sort" none (Value.readOptional Value.readText)
    <*> entries.optional "indexes" [] (Value.readList (Value.readList Value.readText))

def withFullName (table : Value) (field : Entries) : Entries :=
  if (field.getD "sql_full_name").isTruthy || !table.isTruthy then field
  else
    let column := field.getD "sql_name"
    let column := if column.isTruthy then column else field.getD "name"
    field.set "sql_full_name" (.text (table.display ++ "." ++ column.display))

def readField (table : Value) : GivenField → Checked Field
  | .value v =>
      v.readRecord Field.title fun entries => Field.ofEntries (withFullName table entries)
  | .record f => .ok (if table.isTruthy then f.withFullName table.display else f)

/-- The fields of a model with the given table. Outside a list, no full name is filled in. -/
def readFields (table : Value) (given : GivenFields) : Checked (List Field) :=
  let table := if given.isList then table else .null
  .all (given.items.zipIdx.map fun (item, index) => (readField table item).within (.item index))

def readParts (entries : Entries) (fields : Checked (List Field)) : Parts where
  fields := fields
  join := entries.optional "join" none (Value.readOptional Join.read)
  parents := entries.optional "belongs_to" [] (Value.readList Parent.read)
  children := entries.optional "children" [] (Value.readList Child.read)
  references := entries.optional "reference_populations" [] (Value.readList Reference.read)

def ofEntries (entries : Entries) (fields : Checked (List Field)) : Checked Model :=
  (ofParts entries (readParts entries fields)
    <* entries.only (entries.nameOf "global" "is_global" :: keys)).andThen checkRules

def read : Value → Checked Model :=
  Value.readRecord title fun entries =>
    ofEntries entries (entries.required "fields" fun v => someFields <|
      match GivenFields.ofValue? v with
      | some given => readFields (entries.getD "table") given
      | none => .refuse .notList)

def readGiven (given : GivenFields) : Value → Checked Model :=
  Value.readRecord title fun entries =>
    ofEntries entries ((someFields (readFields (entries.getD "table") given)).within
      (.field "fields"))

def readWithFields (fields : List Field) : Value → Checked Model :=
  readGiven ⟨fields.map .record, true⟩

end Model

end TenantSql
