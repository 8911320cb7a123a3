import TenantSql.Audit.Concern
import TenantSql.Model.Settings
import TenantSql.Sql.Quoting
import TenantSql.Text.CharRange

/-!
# The audit of a project

The audit of relations, names, lists and settings, and of a whole project, which
is all that is looked at before anything is generated.
-/

namespace TenantSql.Audit

/-! ## Relations

The models that a model is related to exist and have an `id`, and both belong to
organizations or neither does. -/

def lookup (models : List Model) (name : String) : Option Model :=
  models.reverse.find? (·.name == name)

def isJoinTable (models : List Model) (fullTable : String) : Bool :=
  models.any fun m => m.isJoin && m.fullTable == fullTable

def parentConcerns (models : List Model) (m : Model) (p : Parent) : List Concern :=
  match lookup models p.model with
  | none => [.unknownParent m.name p.model]
  | some target =>
      if target.isJoin then [.parentIsJoin m.name target.name]
      else if (m.field? p.fieldName).isNone then [.missingParentField m.name p.fieldName p.model]
      else []

def throughConcerns (models : List Model) (m : Model) (c : Child) : List Concern :=
  match c.through with
  | none => []
  | some through =>
      if (lookup models through.model).any Model.isJoin then []
      else [.invalidThrough m.name c.getName through.model]

def childConcerns (models : List Model) (m : Model) (c : Child) : List Concern :=
  match lookup models c.model with
  | none => [.unknownChild m.name c.model]
  | some target =>
      (if target.isGlobal != m.isGlobal then
        [.childTenancy m.name m.isGlobal target.name target.isGlobal] else []) ++
        throughConcerns models m c

def referenceConcerns (models : List Model) (m : Model) (r : Reference) : List Concern :=
  match lookup models r.model with
  | none => [.unknownReference m.name r.model]
  | some target =>
      if target.isJoin then [.referenceIsJoin m.name r.model]
      else if m.isGlobal && !r.isGlobal then [.globalReference m.name r.model]
      else []

def isRelationField (m : Model) (f : Field) : Bool :=
  (m.parents.map Parent.fieldName).contains f.name ||
    (m.references.map Reference.idColumn).contains f.column

def plainFieldConcerns (models : List Model) (m : Model) (f : Field) : List Concern :=
  match f.references with
  | none => []
  | some fullTable =>
      if !isRelationField m f && isJoinTable models fullTable then
        [.fieldReferencesJoin f.name m.name fullTable]
      else []

def relationConcerns (models : List Model) (m : Model) : List Concern :=
  m.parents.flatMap (parentConcerns models m) ++ m.children.flatMap (childConcerns models m) ++
    m.references.flatMap (referenceConcerns models m) ++
    m.fields.flatMap (plainFieldConcerns models m)

def relations (models : List Model) : List Concern :=
  models.flatMap (relationConcerns models)

def joinParentConcerns (models : List Model) (m : Model) (name : String) : List Concern :=
  match lookup models name with
  | none => [.unknownJoinParent m.name name]
  | some parent =>
      if parent.isGlobal != m.isGlobal then [.joinTenancy m.name parent.name]
      else if parent.isJoin then [.joinOfJoin m.name parent.name]
      else []

def joinConcerns (models : List Model) (m : Model) : List Concern :=
  match m.join.bind Join.models with
  | none => []
  | some (first, second) => [first, second].flatMap (joinParentConcerns models m)

def joins (models : List Model) : List Concern :=
  models.flatMap (joinConcerns models)

/-! ## Names

Models share no name, table or module; no table or column is a reserved word; and no
field that callers set binds under a reserved name. -/

def sharedCounts (texts : List String) : List (String × Nat) :=
  ((Text.distinct texts).map fun s => (s, texts.count s)).filter fun entry => 1 < entry.2

def sharedNames (models : List Model) : List Concern :=
  let shared := fun (name : Model → String) (concern : String → Nat → Concern) =>
    (sharedCounts (models.map name)).map fun entry => concern entry.1 entry.2
  shared Model.name .sharedModelName ++ shared Model.fullTable .sharedTable ++
    shared Model.moduleName .sharedModule

def reservedTableNames (m : Model) : List Concern :=
  ([m.schema, m.table].filter Sql.isForbidden).map (.reservedTableName · m.fullTable m.name)

def modelNames (models : List Model) : List Concern :=
  sharedNames models ++ models.flatMap reservedTableNames

def fieldConcerns (m : Model) (f : Field) : List Concern :=
  (if Sql.isForbidden f.column then [.reservedColumnName f.column m.table f.name m.name] else []) ++
    if Binding.isReserved f.name then [.shadowedBinding f.name m.name f.ownerWritable] else []

def fieldNames (models : List Model) : List Concern :=
  models.flatMap fun m => m.fields.flatMap (fieldConcerns m)

/-! ## Orders and indexes

The usual order of a list is one that the model admits, and indexes have columns that
exist. -/

def sortConcerns (m : Model) : List Concern :=
  match m.defaultSort with
  | none => []
  | some request =>
      match m.orderOf request with
      | .ok _ => []
      | .error e => [.invalidDefaultSort m.name request e.reason]

def sorting (models : List Model) : List Concern :=
  models.flatMap sortConcerns

def indexConcerns (m : Model) (index : List String) : List Concern :=
  let missing := index.filter fun column => !(m.fields.map Field.column).contains column
  if index.isEmpty then [.emptyIndex m.name]
  else if missing.isEmpty then []
  else [.unknownIndexColumns m.name index missing]

def indexes (models : List Model) : List Concern :=
  models.flatMap fun m => m.indexes.flatMap (indexConcerns m)

/-! ## Projects

The settings have a usable name and version, a place to write to and something to
generate. -/

def isNameChar (c : Char) : Bool :=
  c.isAlphanum || c == '_'

def isProjectName : List Char → Bool
  | [] => false
  | c :: rest => isNameChar c && !c.isDigit && rest.all fun d => isNameChar d || d == '-'

def afterDigits? (cs : List Char) : Option (List Char) :=
  match cs.dropWhile Text.isDecimalDigit with
  | rest => if rest.length < cs.length then some rest else none

def afterPoint? : List Char → Option (List Char)
  | '.' :: rest => some rest
  | _ => none

def isVersion (cs : List Char) : Bool :=
  let tail := do
    let afterMajor ← afterPoint? (← afterDigits? cs)
    let afterMinor ← afterPoint? (← afterDigits? afterMajor)
    afterDigits? afterMinor
  tail.any fun tail => tail.all fun c => c.isAlphanum || c == '.' || c == '-'

def settings (s : Settings) : List Concern :=
  (if isProjectName (withoutLastBreak s.projectName.toList) then []
    else [Concern.invalidProjectName s.projectName]) ++
  (if isVersion (withoutLastBreak s.projectVersion.toList) then []
    else [Concern.invalidVersion s.projectVersion]) ++
  (if s.outputDir.isEmpty then [Concern.emptyOutputDir] else []) ++
  (if s.operations.isEmpty then [Concern.noOperations] else [])

def models (ms : List Model) : List Concern :=
  modelNames ms ++ fieldNames ms ++ relations ms ++ joins ms ++ sorting ms ++ indexes ms

def project (ms : List Model) (s : Settings) : List Concern :=
  models ms ++ settings s

def findings (ms : List Model) (s : Settings) : Findings :=
  (project ms s).map Concern.finding

end TenantSql.Audit
