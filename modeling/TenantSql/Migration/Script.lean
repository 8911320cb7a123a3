import TenantSql.Migration.Order
import TenantSql.Migration.Printer

/-!
# Migration scripts

The two texts of every model: one that creates its table and one that removes
it. The tables must be distinct, indexes must be over columns that exist and
have names of at most 63 characters, and a foreign key must find an `id`.
-/

namespace TenantSql.Migration

inductive ScriptError where
  | repeatedTable (fullTable : String)
  | unknownColumn (fullTable column : String)
  | noIdColumn (fullTable : String)
  | longIndexName (name : String)
  deriving DecidableEq, Repr

structure Script where
  moduleName : String
  up : String
  down : String
  deriving DecidableEq, Repr

def maxNameLength : Nat := 63

def tableError? (earlier : List String) (m : Model) : Option ScriptError :=
  if earlier.contains m.fullTable then some (.repeatedTable m.fullTable)
  else
    (m.indexes.flatten.find? fun column => !(m.fields.map Field.column).contains column).map
      (.unknownColumn m.fullTable)

def tablesError? (earlier : List String) : List Model → Option ScriptError
  | [] => none
  | m :: rest => (tableError? earlier m).or (tablesError? (m.fullTable :: earlier) rest)

def hasIdColumn (m : Model) : Bool :=
  (m.fields.map Field.column).contains "id"

def targetError? (models : List Model) (m : Model) : Option ScriptError :=
  ((m.fields.filterMap (target? models)).find? (!hasIdColumn ·)).map fun t =>
    .noIdColumn t.fullTable

def indexError? (t : TableDefinition) : Option ScriptError :=
  ((t.indexes.map Index.name).find? (maxNameLength < ·.length)).map .longIndexName

def upText (models : List Model) (m : Model) : Except ScriptError String :=
  let definition := tableDefinition models m
  match (targetError? models m).or (indexError? definition) with
  | some e => .error e
  | none => .ok definition.upText

def downText (models : List Model) (m : Model) : String :=
  (tableDefinition models m).downText

def checkTables (models : List Model) : Except ScriptError Unit :=
  match tablesError? [] models with
  | some e => .error e
  | none => .ok ()

def script (models : List Model) (m : Model) : Except ScriptError Script := do
  return ⟨m.moduleName, ← upText models m, downText models m⟩

def scripts (models : List Model) : Except ScriptError (List Script) := do
  checkTables models
  (order models).mapM (script models)

end TenantSql.Migration
