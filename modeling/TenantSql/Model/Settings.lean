import TenantSql.Model.Kinds
import TenantSql.Model.Identifier

/-!
# Settings

What a run needs to know besides the models.
-/

namespace TenantSql

structure Settings where
  projectName : String
  projectVersion : String
  outputDir : String
  defaultSchema : String
  authSchema : String
  operations : List OperationKind
  migrations : Bool
  formatter : Option (List String)
  detectFormatter : Bool
  workers : Option Nat
  overwrite : Bool
  deriving DecidableEq, Repr

namespace Settings

def title : String := "GenerationConfig"

def default : Settings where
  projectName := "querygen_project"
  projectVersion := "0.1.0"
  outputDir := "./generated"
  defaultSchema := "public"
  authSchema := "auth"
  operations := OperationKind.all
  migrations := true
  formatter := none
  detectFormatter := false
  workers := none
  overwrite := true

instance : Inhabited Settings := ⟨default⟩

inductive Key where
  | projectName | projectVersion | outputDir | defaultSchema | authSchema | operations
  | migrations | formatter | detectFormatter | workers | overwrite
  deriving DecidableEq, Repr

namespace Key

def all : List Key :=
  [.projectName, .projectVersion, .outputDir, .defaultSchema, .authSchema, .operations,
    .migrations, .formatter, .detectFormatter, .workers, .overwrite]

def name : Key → String
  | .projectName => "project_name"
  | .projectVersion => "project_version"
  | .outputDir => "output_dir"
  | .defaultSchema => "default_schema"
  | .authSchema => "auth_schema"
  | .operations => "operations"
  | .migrations => "generate_migrations"
  | .formatter => "formatter"
  | .detectFormatter => "auto_detect_formatter"
  | .workers => "max_workers"
  | .overwrite => "overwrite_existing"

end Key

def readFormatter (v : Value) : Checked (Option (List String)) :=
  (Value.readOptional (Value.readList Value.readText) v).ensure (· != some []) fun _ =>
    .emptyFormatter

def readKey (key : Key) (v : Value) : Checked (Settings → Settings) :=
  let schema := Value.readIdentifier "Schema name" v
  match key with
  | .projectName => (fun x s => { s with projectName := x }) <$> v.readNonEmptyText
  | .projectVersion => (fun x s => { s with projectVersion := x }) <$> v.readText
  | .outputDir => (fun x s => { s with outputDir := x }) <$> v.readText
  | .defaultSchema => (fun x s => { s with defaultSchema := x }) <$> schema
  | .authSchema => (fun x s => { s with authSchema := x }) <$> schema
  | .operations =>
      (fun x s => { s with operations := x }) <$>
        v.readList (Value.readChoice OperationKind.all OperationKind.name)
  | .migrations => (fun x s => { s with migrations := x }) <$> v.readBool
  | .formatter => (fun x s => { s with formatter := x }) <$> readFormatter v
  | .detectFormatter => (fun x s => { s with detectFormatter := x }) <$> v.readBool
  | .workers => (fun x s => { s with workers := x }) <$> Value.readOptional Value.readPositive v
  | .overwrite => (fun x s => { s with overwrite := x }) <$> v.readBool

def assign (settings : Settings) (key : Key) (v : Value) : Checked Settings :=
  (· settings) <$> (readKey key v).within (.field key.name)

def readEntry (entries : Entries) (key : Key) : Checked (Settings → Settings) :=
  entries.optional key.name id (readKey key)

def ofEntries (entries : Entries) : Checked Settings :=
  (fun changes => changes.foldl (fun settings change => change settings) default) <$>
    Checked.all (Key.all.map (readEntry entries))
    <* entries.only (Key.all.map Key.name)

def read : Value → Checked Settings :=
  Value.readRecord title ofEntries

end Settings

end TenantSql
