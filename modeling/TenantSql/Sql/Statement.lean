import TenantSql.Sql.Piece

/-!
# Statements

The statements that a model gives rise to, as data: which columns are read,
written, compared and returned, in which tables, and where parameters stand.
-/

namespace TenantSql.Sql

structure TableName where
  schema : String
  table : String
  deriving DecidableEq, Repr, Inhabited

structure Column where
  table : Option String := none
  name : String
  deriving DecidableEq, Repr, Inhabited

inductive Operand (π : Type) where
  | column (c : Column)
  | param (p : π)
  deriving DecidableEq, Repr

inductive Comparison (π : Type) where
  | equals (column : Column) (value : Operand π)
  | inArray (column : Column) (array : π)
  | notInArray (column : Column) (array : π)
  | oneOf (column : Column) (constants : List String)
  deriving DecidableEq, Repr

inductive Condition (π : Type) where
  | holds (comparison : Comparison π)
  | someRow (table : TableName) (comparisons : List (Comparison π))
  deriving DecidableEq, Repr

inductive RowValue where
  | column (c : Column)
  | object (entries : List (String × Column))
  deriving DecidableEq, Repr

structure InnerJoin (π : Type) where
  table : TableName
  tableAlias : String
  condition : Comparison π
  deriving DecidableEq, Repr

structure Subquery (π : Type) where
  value : RowValue
  gathered : Option String
  table : TableName
  tableAlias : String
  join : Option (InnerJoin π)
  conditions : List (Comparison π)
  firstOnly : Bool
  deriving DecidableEq, Repr

inductive SelectItem (π : Type) where
  | column (c : Column)
  | nested (query : Subquery π) (label : String)
  | joined (tableAlias : String) (entries : List (String × Column)) (label : String)
  deriving DecidableEq, Repr

structure LeftJoin (π : Type) where
  table : TableName
  tableAlias : String
  conditions : List (Comparison π)
  deriving DecidableEq, Repr

structure OrderTerm where
  column : Column
  descending : Bool
  deriving DecidableEq, Repr

structure Select (π : Type) where
  items : List (SelectItem π)
  table : TableName
  tableAlias : String
  joins : List (LeftJoin π) := []
  conditions : List (Condition π)
  order : Option OrderTerm := none
  page : Option (π × π) := none
  deriving DecidableEq, Repr

inductive Assigned (π : Type) where
  | param (p : π)
  | proposed
  | now
  deriving DecidableEq, Repr

structure Assignment (π : Type) where
  column : String
  value : Assigned π
  deriving DecidableEq, Repr

inductive Resolution (π : Type) where
  | keep
  | change (assignments : List (Assignment π)) (conditions : List (Condition π))
  deriving DecidableEq, Repr

structure Conflict (π : Type) where
  target : List String
  resolution : Resolution π
  deriving DecidableEq, Repr

structure Insert (π : Type) where
  table : TableName
  columns : List String
  values : List π
  conflict : Option (Conflict π) := none
  returning : List String
  deriving DecidableEq, Repr

inductive PermissionTest where
  | oneOf (permissions : List String)
  | exactly (permission : String)
  deriving DecidableEq, Repr

structure TierLookup (π : Type) where
  tiers : List (PermissionTest × String)
  table : TableName
  conditions : List (Comparison π)
  deriving DecidableEq, Repr

inductive Statement (π : Type) where
  | insert (s : Insert π)
  | update (table : TableName) (assignments : List (Assignment π)) (conditions : List (Condition π))
  | delete (table : TableName) (conditions : List (Condition π))
  | select (s : Select π)
  | lookup (s : TierLookup π)
  deriving DecidableEq, Repr

end TenantSql.Sql
