import TenantSql.Query.Order
import TenantSql.Value.Display

/-!
# Findings and concerns

What an audit reports, and what it is concerned about: whatever can be wrong with
models that are each sound on their own, and with settings. A concern says what
it is about; its level, code, message and particulars follow from that.
-/

namespace TenantSql

/-! ## Findings

Each is an error or a warning with a code, a message and particulars under names.
A report of findings counts them and lists them in order. -/

inductive Level where
  | error
  | warning
  deriving DecidableEq, Repr

namespace Level

def name : Level → String
  | .error => "error"
  | .warning => "warning"

def capitals : Level → String
  | .error => "ERROR"
  | .warning => "WARNING"

def sign : Level → String
  | .error => "❌"
  | .warning => "⚠️"

end Level

structure Finding where
  level : Level
  code : String
  message : String
  context : List (String × Value) := []
  deriving Repr

namespace Finding

def isError (f : Finding) : Bool :=
  f.level == .error

def display (f : Finding) : String :=
  s!"[{f.level.capitals}] {f.code}: {f.message}"

def reportLines (f : Finding) : List String :=
  s!"  {f.level.sign} [{f.code}] {f.message}" ::
    f.context.map fun entry => s!"       {entry.1}: {entry.2.display}"

end Finding

abbrev Findings := List Finding

namespace Findings

def errors (findings : Findings) : List Finding :=
  findings.filter Finding.isError

def warnings (findings : Findings) : List Finding :=
  findings.filter fun f => !f.isError

def hasErrors (findings : Findings) : Bool :=
  findings.any Finding.isError

def summary (findings : Findings) : String :=
  s!"Validation: {findings.errors.length} error(s), {findings.warnings.length} warning(s), " ++
    s!"{findings.length} total item(s)."

def describe (findings : Findings) : String :=
  s!"<ValidationResult {findings.summary}>"

def report (findings : Findings) : String :=
  "\n".intercalate (findings.summary :: "" :: findings.flatMap Finding.reportLines)

theorem hasErrors_append (front back : Findings) :
    hasErrors (front ++ back) = (hasErrors front || hasErrors back) := by
  simp [hasErrors]

end Findings

/-! ## Concerns -/

def tenancyWord (isGlobal : Bool) : String :=
  if isGlobal then "global" else "tenant-scoped"

inductive Concern where
  | sharedModelName (name : String) (count : Nat)
  | sharedTable (fullTable : String) (count : Nat)
  | sharedModule (name : String) (count : Nat)
  | reservedTableName (word fullTable owner : String)
  | reservedColumnName (column table field owner : String)
  | shadowedBinding (field owner : String) (settable : Bool)
  | unknownParent (owner parent : String)
  | parentIsJoin (owner parent : String)
  | missingParentField (owner field parent : String)
  | unknownChild (owner child : String)
  | childTenancy (owner : String) (ownerGlobal : Bool) (child : String) (childGlobal : Bool)
  | invalidThrough (owner output join : String)
  | unknownReference (owner target : String)
  | referenceIsJoin (owner target : String)
  | globalReference (owner target : String)
  | fieldReferencesJoin (field owner fullTable : String)
  | unknownJoinParent (join parent : String)
  | joinTenancy (join parent : String)
  | joinOfJoin (join parent : String)
  | invalidDefaultSort (owner sort : String) (reason : OrderReason)
  | emptyIndex (owner : String)
  | unknownIndexColumns (owner : String) (index missing : List String)
  | invalidProjectName (name : String)
  | invalidVersion (version : String)
  | emptyOutputDir
  | noOperations
  deriving DecidableEq, Repr

namespace Concern

def level : Concern → Level
  | .shadowedBinding _ _ false | .globalReference .. | .invalidVersion _ | .noOperations => .warning
  | _ => .error

def code : Concern → String
  | .sharedModelName .. => "DUPLICATE_MODEL_NAME"
  | .sharedTable .. => "DUPLICATE_TABLE"
  | .sharedModule .. => "DUPLICATE_MODULE_NAME"
  | .reservedTableName .. => "TABLE_NAME_SQL_RESERVED"
  | .reservedColumnName .. => "COLUMN_NAME_SQL_RESERVED"
  | .shadowedBinding .. => "FIELD_SHADOWS_BINDING"
  | .unknownParent .. => "UNKNOWN_PARENT"
  | .parentIsJoin .. => "PARENT_IS_JOIN"
  | .missingParentField .. => "MISSING_PARENT_FIELD"
  | .unknownChild .. => "UNKNOWN_CHILD"
  | .childTenancy .. => "CHILD_TENANCY_MISMATCH"
  | .invalidThrough .. => "INVALID_THROUGH"
  | .unknownReference .. => "UNKNOWN_REFERENCE"
  | .referenceIsJoin .. | .fieldReferencesJoin .. => "REFERENCE_IS_JOIN"
  | .globalReference .. => "GLOBAL_REFERENCES_TENANT"
  | .unknownJoinParent .. => "UNKNOWN_JOIN_PARENT"
  | .joinTenancy .. => "JOIN_TENANCY_MISMATCH"
  | .joinOfJoin .. => "JOIN_OF_JOIN"
  | .invalidDefaultSort .. => "INVALID_DEFAULT_SORT"
  | .emptyIndex _ => "EMPTY_INDEX"
  | .unknownIndexColumns .. => "INDEX_UNKNOWN_COLUMN"
  | .invalidProjectName _ => "INVALID_PROJECT_NAME"
  | .invalidVersion _ => "INVALID_SEMVER"
  | .emptyOutputDir => "EMPTY_OUTPUT_DIR"
  | .noOperations => "NO_OPERATIONS"

def message : Concern → String
  | .sharedModelName name count => s!"Model name '{name}' is used by {count} models."
  | .sharedTable fullTable count => s!"Table '{fullTable}' is used by {count} models."
  | .sharedModule name count => s!"Module name '{name}' is used by {count} models."
  | .reservedTableName word fullTable _ => s!"'{word}' in {fullTable} is a SQL reserved word."
  | .reservedColumnName column table _ _ => s!"Column '{table}.{column}' is a SQL reserved word."
  | .shadowedBinding field owner _ =>
      s!"Field '{owner}.{field}' uses the reserved binding name '{field}'."
  | .unknownParent owner parent => s!"{owner} belongs to unknown model '{parent}'."
  | .parentIsJoin owner parent =>
      s!"{owner} belongs to join model '{parent}', which has no 'id'."
  | .missingParentField owner field parent =>
      s!"{owner} has no field '{field}' for parent '{parent}'."
  | .unknownChild owner child => s!"{owner} has unknown child model '{child}'."
  | .childTenancy owner ownerGlobal child childGlobal =>
      s!"{owner} ({tenancyWord ownerGlobal}) cannot populate {child} ({tenancyWord childGlobal})."
  | .invalidThrough owner output join =>
      s!"{owner}.{output} goes through '{join}', which is not a join model."
  | .unknownReference owner target => s!"{owner} references unknown model '{target}'."
  | .referenceIsJoin owner target =>
      s!"{owner} references join model '{target}', which has no 'id'."
  | .globalReference owner target =>
      s!"Global model {owner} references tenant-scoped '{target}'; " ++
        "the reference is not filtered by organization."
  | .fieldReferencesJoin field owner fullTable =>
      s!"Field '{owner}.{field}' references join table {fullTable}, which has no 'id'."
  | .unknownJoinParent join parent => s!"Join model {join} joins unknown model '{parent}'."
  | .joinTenancy join parent => s!"Join model {join} and parent {parent} disagree on tenancy."
  | .joinOfJoin join parent =>
      s!"Join model {join} cannot join another join model '{parent}'."
  | .invalidDefaultSort owner sort reason =>
      s!"{owner} default_sort '{sort}' is rejected: {reason.text}."
  | .emptyIndex owner => s!"{owner} declares an index with no columns."
  | .unknownIndexColumns owner index missing =>
      s!"{owner} index " ++ Text.quotedList index ++ " names unknown column(s) " ++
        Text.quotedList missing ++ "."
  | .invalidProjectName name => s!"Project name '{name}' is not a valid package name."
  | .invalidVersion version =>
      s!"Project version '{version}' does not follow semantic versioning (e.g. 1.0.0)."
  | .emptyOutputDir => "output_dir must not be empty."
  | .noOperations => "No operations selected; only migrations will be written."

def context : Concern → List (String × Value)
  | .sharedModelName .. | .sharedTable .. | .sharedModule .. | .emptyIndex _ | .emptyOutputDir
  | .noOperations => []
  | .reservedColumnName _ _ field owner | .shadowedBinding field owner _
  | .fieldReferencesJoin field owner _ => [("model", .text owner), ("field", .text field)]
  | .childTenancy owner _ child _ => [("model", .text owner), ("child", .text child)]
  | .reservedTableName _ _ owner | .unknownParent owner _ | .parentIsJoin owner _
  | .missingParentField owner _ _ | .unknownChild owner _ | .invalidThrough owner _ _
  | .unknownReference owner _ | .referenceIsJoin owner _ | .globalReference owner _
  | .unknownJoinParent owner _ | .joinTenancy owner _ | .joinOfJoin owner _
  | .invalidDefaultSort owner _ _ | .unknownIndexColumns owner _ _ => [("model", .text owner)]
  | .invalidProjectName name => [("project_name", .text name)]
  | .invalidVersion version => [("version", .text version)]

def finding (c : Concern) : Finding :=
  ⟨c.level, c.code, c.message, c.context⟩

end Concern

end TenantSql
