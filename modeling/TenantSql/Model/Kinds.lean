import TenantSql.Check.Read

/-!
# The fixed choices of a model

Column types, the ways a relation is fetched, the sort policies of a field, and
the kinds of statements that a model gives rise to.
-/

namespace TenantSql

inductive SqlType where
  | text | integer | bigint | float | numeric | boolean | uuid | timestamp | date | jsonb
  | textArray | uuidArray
  deriving DecidableEq, Repr, Inhabited

namespace SqlType

def all : List SqlType :=
  [.text, .integer, .bigint, .float, .numeric, .boolean, .uuid, .timestamp, .date, .jsonb,
    .textArray, .uuidArray]

def name : SqlType → String
  | .text => "text"
  | .integer => "integer"
  | .bigint => "bigint"
  | .float => "float"
  | .numeric => "numeric"
  | .boolean => "boolean"
  | .uuid => "uuid"
  | .timestamp => "timestamp"
  | .date => "date"
  | .jsonb => "jsonb"
  | .textArray => "text[]"
  | .uuidArray => "uuid[]"

theorem mem_all (t : SqlType) : t ∈ all := by
  cases t <;> decide

end SqlType

inductive FetchType where
  | none | id | data
  deriving DecidableEq, Repr, Inhabited

namespace FetchType

def all : List FetchType := [.none, .id, .data]

def name : FetchType → String
  | .none => "none"
  | .id => "id"
  | .data => "data"

def ofName? (name : String) : Option FetchType :=
  all.find? fun fetch => fetch.name == name

theorem mem_all (fetch : FetchType) : fetch ∈ all := by
  cases fetch <;> decide

end FetchType

inductive Sortable where
  | none | defaultAscending | defaultDescending | ascendingOnly | descendingOnly
  deriving DecidableEq, Repr, Inhabited

namespace Sortable

def all : List Sortable :=
  [.none, .defaultAscending, .defaultDescending, .ascendingOnly, .descendingOnly]

def name : Sortable → String
  | .none => "none"
  | .defaultAscending => "default_ascending"
  | .defaultDescending => "default_descending"
  | .ascendingOnly => "ascending_only"
  | .descendingOnly => "descending_only"

def allows (policy : Sortable) (descending : Bool) : Bool :=
  match policy with
  | .none => false
  | .ascendingOnly => !descending
  | .descendingOnly => descending
  | .defaultAscending | .defaultDescending => true

theorem mem_all (policy : Sortable) : policy ∈ all := by
  cases policy <;> decide

end Sortable

inductive OperationKind where
  | insert | update | updateOneWithParent | selectOne | selectOnePopulated | delete
  | deleteChildren | list | listPopulated | upsert | lookupObjectPermissions
  deriving DecidableEq, Repr, Inhabited

namespace OperationKind

def all : List OperationKind :=
  [.insert, .update, .updateOneWithParent, .selectOne, .selectOnePopulated, .delete,
    .deleteChildren, .list, .listPopulated, .upsert, .lookupObjectPermissions]

def name : OperationKind → String
  | .insert => "insert"
  | .update => "update"
  | .updateOneWithParent => "update_one_with_parent"
  | .selectOne => "select_one"
  | .selectOnePopulated => "select_one_populated"
  | .delete => "delete"
  | .deleteChildren => "delete_children"
  | .list => "list"
  | .listPopulated => "list_populated"
  | .upsert => "upsert"
  | .lookupObjectPermissions => "lookup_object_permissions"

def ofName? (name : String) : Option OperationKind :=
  all.find? fun kind => kind.name == name

theorem mem_all (kind : OperationKind) : kind ∈ all := by
  cases kind <;> decide

end OperationKind

end TenantSql
