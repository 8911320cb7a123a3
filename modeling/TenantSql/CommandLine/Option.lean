import TenantSql.Model.Kinds
import TenantSql.Text.Quoted

/-!
# Options

The options of the command line, their names, and what is wrong with a command
line that cannot be understood.
-/

namespace TenantSql.CommandLine

inductive Flag where
  | help
  | version
  | definition
  | output
  | validateOnly
  | dryRun
  | projectName
  | projectVersion
  | defaultSchema
  | authSchema
  | operation
  | noMigrations
  | formatter
  | autoFormat
  | workers
  | noOverwrite
  | failOnWarnings
  | verbose
  | quiet
  deriving DecidableEq, Repr

namespace Flag

def all : List Flag :=
  [.help, .version, .definition, .output, .validateOnly, .dryRun, .projectName, .projectVersion,
    .defaultSchema, .authSchema, .operation, .noMigrations, .formatter, .autoFormat, .workers,
    .noOverwrite, .failOnWarnings, .verbose, .quiet]

def names : Flag → List String
  | help => ["-h", "--help"]
  | version => ["--version"]
  | definition => ["-d", "--definition"]
  | output => ["-o", "--output"]
  | validateOnly => ["--validate-only"]
  | dryRun => ["--dry-run"]
  | projectName => ["--project-name"]
  | projectVersion => ["--project-version"]
  | defaultSchema => ["--schema"]
  | authSchema => ["--auth-schema"]
  | operation => ["--operation"]
  | noMigrations => ["--no-migrations"]
  | formatter => ["--formatter"]
  | autoFormat => ["--auto-format"]
  | workers => ["--workers"]
  | noOverwrite => ["--no-overwrite"]
  | failOnWarnings => ["--fail-on-warnings"]
  | verbose => ["-v", "--verbose"]
  | quiet => ["-q", "--quiet"]

def takesValue : Flag → Bool
  | definition | output | projectName | projectVersion | defaultSchema | authSchema | operation
  | formatter | workers => true
  | _ => false

def title (f : Flag) : String :=
  "/".intercalate f.names

theorem mem_all (f : Flag) : f ∈ all := by
  cases f <;> decide

end Flag

structure NamedFlag where
  flag : Flag
  name : String
  deriving DecidableEq, Repr

def namedFlags : List NamedFlag :=
  Flag.all.flatMap fun flag => flag.names.map fun name => ⟨flag, name⟩

def flag? (name : String) : Option NamedFlag :=
  namedFlags.find? (·.name == name)

inductive UsageError where
  | ambiguous (written : String) (names : List String)
  | valueExpected (flag : Flag)
  | valueIgnored (flag : Flag) (value : String)
  | invalidChoice (flag : Flag) (value : String) (choices : List String)
  | invalidInteger (flag : Flag) (value : String)
  | missing (flag : Flag)
  | unrecognized (words : List String)
  deriving DecidableEq, Repr

namespace UsageError

def about (flag : Flag) (what : String) : String :=
  s!"argument {flag.title}: {what}"

def message : UsageError → String
  | ambiguous written names =>
      s!"ambiguous option: {written} could match " ++ ", ".intercalate names
  | valueExpected flag => about flag "expected one argument"
  | valueIgnored flag value => about flag ("ignored explicit argument " ++ Text.quoted value)
  | invalidChoice flag value choices => about flag
      (s!"invalid choice: {Text.quoted value} (choose from " ++
        ", ".intercalate (choices.map Text.quoted) ++ ")")
  | invalidInteger flag value => about flag ("invalid int value: " ++ Text.quoted value)
  | missing flag => "the following arguments are required: " ++ flag.title
  | unrecognized words => "unrecognized arguments: " ++ " ".intercalate words

end UsageError

end TenantSql.CommandLine
