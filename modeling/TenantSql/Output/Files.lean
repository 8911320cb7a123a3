import TenantSql.Json.Printer
import TenantSql.Json.Reader
import TenantSql.Output.FileMap
import TenantSql.Sql.Draft
import TenantSql.Text.Order
import TenantSql.Value.Sequence
import TenantSql.Migration.Script

/-!
# Files of queries and migrations

Every query of a model has a file of its own in the directory of the model's
module, beside a list of the queries; every migration has two numbered files.
-/

namespace TenantSql.Output

/-! ## Query files

`queries.json` lists the queries of a module with their bindings and files. -/

open Sql

def listName : String := "queries.json"

def pathIn (moduleName fileName : String) : String :=
  moduleName ++ "/" ++ fileName

def fileName (q : Query) : String :=
  q.name ++ ".sql"

def queryText (q : Query) : String :=
  Text.trimRight q.text ++ "\n"

def queryEntry (q : Query) : Value :=
  .ofFields [("operation_name", .text q.name), ("bindings", .list (q.bindings.map .text)),
    ("field_bindings", .list (q.fieldBindings.map .text)), ("file", .text (fileName q))]

def listText (entries : List Value) : String :=
  (Json.Layout.mk .ascii (some "  ")).print (.list entries) ++ "\n"

def queryFiles (moduleName : String) (queries : List Query) : FileMap :=
  FileMap.insert
    (FileMap.union [] (queries.map fun q => (pathIn moduleName (fileName q), queryText q)))
    (pathIn moduleName listName) (listText (queries.map queryEntry))

def splitPath (path : String) : String × String :=
  let reversed := path.toList.reverse
  let name := reversed.takeWhile (· != '/')
  (String.ofList ((reversed.drop (name.length + 1)).reverse), String.ofList name.reverse)

inductive DropError where
  | notJson (e : Json.ReadError)
  | fault (f : Fault)
  deriving DecidableEq, Repr

def DropError.ofRead (e : Json.ReadError) : DropError :=
  match e.problem with
  | .beyond f => .fault f
  | _ => .notJson e

def namesOneOf (names : List String) (entry : Value) : Except Fault Bool :=
  match entry with
  | .object fields =>
      match Entries.get? fields "file" with
      | none => .error .missingEntry
      | some v => (fun key => names.any fun name => key == .text name) <$> v.asKey
  | _ => .error .wrongKind

def withoutEntries (names : List String) (text : String) : Except DropError String := do
  let list ← (Json.read text).mapError .ofRead
  let entries ← list.parts.mapError .fault
  let kept ← (entries.filterM fun entry => (!·) <$> namesOneOf names entry).mapError .fault
  return listText kept

def dropFromDirectory (dropped : List (String × String)) (files : FileMap) (directory : String) :
    Except DropError FileMap :=
  let path := pathIn directory listName
  match files.get? path with
  | none => .ok files
  | some text =>
      (files.insert path ·) <$>
        withoutEntries ((dropped.filter (·.1 == directory)).map (·.2)) text

def dropEntries (files : FileMap) (dropped : List String) : Except DropError FileMap :=
  let split := dropped.map splitPath
  (Text.distinct (split.map (·.1))).foldlM (dropFromDirectory split) files

/-! ## Migration files -/

def migrationDirectory : String := "migrations"

def migrationStem (number : Nat) (script : Migration.Script) : String :=
  migrationDirectory ++ "/" ++ Text.padLeft 4 '0' (toString number) ++ "_" ++ script.moduleName

def migrationFiles (scripts : List Migration.Script) : FileMap :=
  FileMap.union [] ((scripts.zipIdx 1).flatMap fun (script, number) =>
    let stem := migrationStem number script
    [(stem ++ ".up.sql", script.up), (stem ++ ".down.sql", script.down)])

end TenantSql.Output
