import TenantSql.Model.Kinds
import TenantSql.Model.Identifier
import TenantSql.Value.Display

/-!
# Fields

One column of a model, and how it is read from a definition. The column is
named like the field unless it has a name of its own.
-/

namespace TenantSql

structure Field where
  name : String
  column : String
  fullName : String
  statedType : Option SqlType
  nullable : Bool
  unique : Bool
  indexed : Bool
  ownerWrite : Bool
  writable : Bool
  neverRead : Bool
  omitInList : Bool
  sortable : Sortable
  defaultSql : Option String
  references : Option String
  deriving DecidableEq, Repr, Inhabited

namespace Field

def title : String := "ModelField"

def sqlType (f : Field) : SqlType :=
  f.statedType.getD .text

def ownerWritable (f : Field) : Bool :=
  f.ownerWrite || f.writable

def qualified (f : Field) (table : String) : String :=
  table ++ "." ++ f.column

/-- Name and type of the field. A type that was not stated is shown as the default it is. -/
def describe (f : Field) : String :=
  let type := match f.statedType with
    | some type => type.name
    | none => "SqlType.TEXT"
  "<ModelField " ++ f.name ++ " " ++ type ++ ">"

def keys : List String :=
  ["name", "sql_name", "sql_full_name", "sql_type", "nullable", "unique", "indexed",
    "owner_write", "writable", "never_read", "omit_in_list", "sortable", "references"]

def withColumn (entries : Entries) : Entries :=
  if !(entries.getD "sql_name").isTruthy && (entries.getD "name").isTruthy then
    entries.set "sql_name" (entries.getD "name")
  else entries

def ofEntries (given : Entries) : Checked Field :=
  let entries := withColumn given
  let flag := fun key => entries.optional key false Value.readBool
  let text := Value.readOptional Value.readText
  (Field.mk
    <$> entries.required "name" Value.readNonEmptyText
    <*> entries.optional "sql_name" "" (Value.readIdentifier "Column name")
    <*> entries.optional "sql_full_name" "" Value.readText
    <*> entries.optional "sql_type" none
      (fun v => some <$> Value.readChoice SqlType.all SqlType.name v)
    <*> flag "nullable" <*> flag "unique" <*> flag "indexed" <*> flag "owner_write"
    <*> flag "writable" <*> flag "never_read" <*> flag "omit_in_list"
    <*> entries.optional "sortable" .none (Value.readChoice Sortable.all Sortable.name)
    <*> entries.aliased "default" "default_sql" none text
    <*> entries.optional "references" none text)
    <* entries.only (entries.nameOf "default" "default_sql" :: keys)

def read : Value → Checked Field :=
  Value.readRecord title ofEntries

def withFullName (table : String) (f : Field) : Field :=
  if f.fullName.isEmpty && !table.isEmpty then { f with fullName := f.qualified table } else f

end Field

end TenantSql
