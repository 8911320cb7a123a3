import TenantSql.Query.Identity
import TenantSql.Text.Order

/-!
# Table definitions

The table that a migration creates for a model: its columns, its key, the
constraints on single columns, and its indexes. A column that refers to the
table of another known model is a foreign key to that table's `id`.
-/

namespace TenantSql.Migration

open Sql

inductive ColumnType where
  | plain (type : SqlType)
  | serial
  | bigSerial
  deriving DecidableEq, Repr

structure ColumnDefinition where
  name : String
  type : ColumnType
  default : Option String
  notNull : Bool
  deriving DecidableEq, Repr

inductive Constraint where
  | unique (column : String)
  | foreignKey (column : String) (table : TableName)
  deriving DecidableEq, Repr

structure Index where
  name : String
  columns : List String
  deriving DecidableEq, Repr

structure TableDefinition where
  name : TableName
  columns : List ColumnDefinition
  primaryKey : List String
  constraints : List Constraint
  indexes : List Index
  deriving DecidableEq, Repr

def target? (models : List Model) (f : Field) : Option Model :=
  match f.references with
  | none => none
  | some fullTable => models.find? (·.fullTable == fullTable)

def keyNames (m : Model) : List String :=
  if m.isJoin then m.joinIdNames else ["id"]

def isKey (m : Model) (f : Field) : Bool :=
  (keyNames m).contains f.name

def default? (f : Field) : Option String :=
  f.defaultSql.filter (· != "")

/-- The only key of a table is counted up by the database if it is an integer that has neither a
default nor a table that it refers to. -/
def columnType (models : List Model) (m : Model) (f : Field) : ColumnType :=
  let counted := isKey m f && (m.fields.filter (isKey m)).length == 1 && (default? f).isNone &&
    (target? models f).isNone
  match counted, f.sqlType with
  | true, .integer => .serial
  | true, .bigint => .bigSerial
  | _, type => .plain type

def columnDefinition (models : List Model) (m : Model) (f : Field) : ColumnDefinition where
  name := f.column
  type := columnType models m f
  default := default? f
  notNull := isKey m f || !f.nullable

def fieldConstraints (models : List Model) (f : Field) : List Constraint :=
  (if f.unique then [.unique f.column] else []) ++
    match target? models f with
    | some target => [.foreignKey f.column target.tableName]
    | none => []

def indexName (m : Model) (columns : List String) : String :=
  m.table ++ "_" ++ "_".intercalate columns ++ "_idx"

def indexOf (m : Model) (columns : List String) : Index :=
  ⟨indexName m columns, columns⟩

def indexColumns (m : Model) : List (List String) :=
  (m.fields.filter fun f => f.indexed && !f.unique && !isKey m f).map (fun f => [f.column]) ++
    m.indexes.filter (!·.isEmpty)

def tableDefinition (models : List Model) (m : Model) : TableDefinition where
  name := m.tableName
  columns := m.fields.map (columnDefinition models m)
  primaryKey := (m.fields.filter (isKey m)).map Field.column
  constraints := m.fields.flatMap (fieldConstraints models)
  indexes := ((indexColumns m).map (indexOf m)).mergeSort fun a b => !decide (b.name < a.name)

end TenantSql.Migration
