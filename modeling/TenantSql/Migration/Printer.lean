import TenantSql.Sql.Quoting
import TenantSql.Text.WordChar
import TenantSql.Migration.Table
import TenantSql.Model.Identifier
import TenantSql.Text.Blank

/-!
# Printing migrations

The text that creates a table with its indexes, and the text that removes it.
Names stand bare unless they are reserved words or hold anything but the
characters of an identifier.
-/

namespace TenantSql.Migration

/-! ## Default expressions

A column's default is an SQL expression that goes into a migration almost as it
is. Percent signs are doubled; a colon with a word after it marks a parameter,
which no migration has a value for; and a backslash keeps a colon from doing so. -/

def shieldsColon (c : Char) : Bool :=
  c == ':' || c == '\\' || Text.isWordChar c

/-- The text with `NULL` for every parameter; `before` is the character in front of it. -/
def withoutParameters (before : Option Char) (cs : List Char) : List Char :=
  match cs with
  | [] => []
  | c :: rest =>
      let word := rest.takeWhile Text.isWordChar
      let after := rest.dropWhile Text.isWordChar
      if c == ':' && !before.any shieldsColon && !word.isEmpty && after.head? != some ':' then
        "NULL".toList ++ withoutParameters word.getLast? after
      else c :: withoutParameters (some c) rest
termination_by cs.length
decreasing_by
  · have := (List.dropWhile_sublist (l := rest) Text.isWordChar).length_le
    simp only [List.length_cons]
    omega
  · simp

def withoutShields : List Char → List Char
  | '\\' :: ':' :: rest =>
      let after := rest.dropWhile Text.isWordChar
      if after.head? == some ':' then '\\' :: ':' :: withoutShields rest
      else ':' :: withoutShields rest
  | c :: rest => c :: withoutShields rest
  | [] => []

def defaultText (expression : String) : String :=
  String.ofList (withoutShields
    (withoutParameters none (Sql.percentDoubled expression).toList))

/-! ## Tables and indexes -/

open Sql

def nameText (name : String) : String :=
  if isQuotedWord name || !(withoutLastBreak name.toList).all isIdentifierChar then label name
  else name

def nameList (names : List String) : String :=
  "(" ++ ", ".intercalate (names.map nameText) ++ ")"

def tableText (t : TableName) : String :=
  nameText t.schema ++ "." ++ nameText t.table

def typeText : SqlType → String
  | .text => "TEXT"
  | .integer => "INTEGER"
  | .bigint => "BIGINT"
  | .float => "FLOAT"
  | .numeric => "NUMERIC"
  | .boolean => "BOOLEAN"
  | .uuid => "UUID"
  | .timestamp => "TIMESTAMP WITH TIME ZONE"
  | .date => "DATE"
  | .jsonb => "JSONB"
  | .textArray => "TEXT[]"
  | .uuidArray => "UUID[]"

def ColumnType.text : ColumnType → String
  | .plain type => typeText type
  | .serial => "SERIAL"
  | .bigSerial => "BIGSERIAL"

def ColumnDefinition.text (c : ColumnDefinition) : String :=
  nameText c.name ++ " " ++ c.type.text ++
    (match c.default with
      | some expression => " DEFAULT " ++ defaultText expression
      | none => "") ++
    if c.notNull then " NOT NULL" else ""

def Constraint.text : Constraint → String
  | .unique column => "UNIQUE " ++ nameList [column]
  | .foreignKey column table =>
      "FOREIGN KEY" ++ nameList [column] ++ " REFERENCES " ++ tableText table ++
        " (id) ON DELETE CASCADE"

def TableDefinition.createText (t : TableDefinition) : String :=
  let items := t.columns.map ColumnDefinition.text ++ ["PRIMARY KEY " ++ nameList t.primaryKey] ++
    t.constraints.map Constraint.text
  "CREATE TABLE " ++ tableText t.name ++ " (\n\t" ++ ", \n\t".intercalate items ++ "\n)"

def Index.text (table : TableName) (index : Index) : String :=
  "CREATE INDEX " ++ nameText index.name ++ " ON " ++ tableText table ++ " " ++
    nameList index.columns

def TableDefinition.upText (t : TableDefinition) : String :=
  ";\n\n".intercalate (t.createText :: t.indexes.map (Index.text t.name)) ++ ";\n"

def TableDefinition.downText (t : TableDefinition) : String :=
  Text.trimRight ("DROP TABLE IF EXISTS " ++ tableText t.name) ++ ";\n"

end TenantSql.Migration
