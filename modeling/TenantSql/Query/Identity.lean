import TenantSql.Model.Basic
import TenantSql.Sql.Statement

/-!
# Binding names and row identity

The names under which statements bind the values that are no fields. A row is
found by its `id`, or by the ids of both parents if its table is a join table.
-/

namespace TenantSql.Binding

/-! ## Binding names

A field binds under its own name, so a field that callers may set must not have one of
the reserved names. `id` and `organization_id` are not reserved: the columns of these
names bind under them anyway. -/

def id : String := "id"
def organization : String := "organization_id"
def parentId : String := "parent_id"
def joinId0 : String := "join_id_0"
def joinId1 : String := "join_id_1"
def actorIds : String := "actor_ids"
def ids : String := "ids"
def limit : String := "limit"
def offset : String := "offset"

def reserved : List String :=
  [parentId, joinId0, joinId1, actorIds, ids, limit, offset]

def isReserved (name : String) : Bool :=
  reserved.contains name

end TenantSql.Binding

namespace TenantSql

/-! ## Row identity -/

open Sql

namespace Model

def tableName (m : Model) : TableName :=
  ⟨m.schema, m.table⟩

def idColumns (m : Model) : List (String × String) :=
  match m.join with
  | some join => [(join.ids.1, Binding.joinId0), (join.ids.2, Binding.joinId1)]
  | none => [("id", Binding.id)]

def idBindings (m : Model) : List String :=
  m.idColumns.map (·.2)

def idComparisons (m : Model) (tableAlias : Option String) : List (Comparison String) :=
  m.idColumns.map fun column => .equals ⟨tableAlias, column.1⟩ (.param column.2)

def otherIdColumn (m : Model) (column : String) : String :=
  match m.join with
  | some join => if column == join.ids.1 then join.ids.2 else join.ids.1
  | none => "id"

end Model

end TenantSql
