import TenantSql.Proofs.Audit.Passed
import TenantSql.Proofs.Definition.Accepted
import TenantSql.Proofs.Migration.Scripts

/-!
# How migrations spell names

Statements write names bare. Migrations put some words in quotes, of which the
audit keeps only a part out of schemas, tables and columns. So the two spell a
name alike unless it is one of the words that the audit overlooks.
-/

namespace TenantSql

namespace Sql

/-- The words that stand in quotes where tables are created, and that may still name anything. -/
def overlookedWords : List String :=
  ["analyse", "analyze", "asymmetric", "authorization", "between", "binary", "cross",
    "current_catalog", "current_date", "current_role", "current_schema", "current_time",
    "current_timestamp", "current_user", "deferrable", "freeze", "full", "ilike", "initially",
    "inner", "is", "isnull", "join", "left", "like", "localtime", "localtimestamp", "natural",
    "new", "notnull", "of", "off", "old", "outer", "over", "overlaps", "placing", "right",
    "session_user", "similar", "symmetric", "variadic", "verbose"]

theorem overlookedWords_eq :
    overlookedWords = quotedWords.filter fun word => !isForbidden word := by
  decide +kernel

theorem mem_overlookedWords {name : String} :
    name ∈ overlookedWords ↔ isQuotedWord name ∧ isForbidden name = false := by
  have split : name ∈ overlookedWords ↔ name ∈ quotedWords ∧ (!isForbidden name) = true := by
    rw [overlookedWords_eq]
    exact List.mem_filter
  have quoted : isQuotedWord name ↔ name ∈ quotedWords := List.contains_iff_mem
  exact split.trans (and_congr quoted.symm (Bool.not_eq_true' _ ▸ Iff.rfl))

end Sql

namespace Migration

open Sql

/-- An identifier is put in quotes only if it is one of the words. -/
theorem nameText_eq_self_iff {name : String} (valid : isIdentifier name) :
    nameText name = name ↔ isQuotedWord name = false := by
  have plain : (withoutLastBreak name.toList).all isIdentifierChar :=
    List.all_eq_true.mpr (isIdentifierWord_chars valid)
  rw [nameText, plain, Bool.not_true, Bool.or_false]
  cases isQuotedWord name with
  | false => simp
  | true =>
      refine iff_of_false (fun same => ?_) nofun
      rw [if_pos rfl] at same
      have quote : '"' ∈ name.toList := by
        rw [← same, label, String.toList_ofList]
        exact List.mem_cons_self
      rcases isIdentifier_chars valid '"' quote with allowed | broken
      · exact absurd allowed (by decide)
      · exact absurd broken (by decide)

/-! ## Printing with another spelling -/

section

variable (spell : String → String)

def nameListBy (names : List String) : String :=
  "(" ++ ", ".intercalate (names.map spell) ++ ")"

def tableTextBy (t : TableName) : String :=
  spell t.schema ++ "." ++ spell t.table

def ColumnDefinition.textBy (c : ColumnDefinition) : String :=
  spell c.name ++ " " ++ c.type.text ++
    (match c.default with
      | some expression => " DEFAULT " ++ defaultText expression
      | none => "") ++
    if c.notNull then " NOT NULL" else ""

def Constraint.textBy : Constraint → String
  | .unique column => "UNIQUE " ++ nameListBy spell [column]
  | .foreignKey column table =>
      "FOREIGN KEY" ++ nameListBy spell [column] ++ " REFERENCES " ++ tableTextBy spell table ++
        " (id) ON DELETE CASCADE"

def TableDefinition.createTextBy (t : TableDefinition) : String :=
  let items := t.columns.map (ColumnDefinition.textBy spell) ++
    ["PRIMARY KEY " ++ nameListBy spell t.primaryKey] ++ t.constraints.map (Constraint.textBy spell)
  "CREATE TABLE " ++ tableTextBy spell t.name ++ " (\n\t" ++ ", \n\t".intercalate items ++ "\n)"

def Index.textBy (table : TableName) (index : Index) : String :=
  "CREATE INDEX " ++ nameText index.name ++ " ON " ++ tableTextBy spell table ++ " " ++
    nameListBy spell index.columns

def TableDefinition.upTextBy (t : TableDefinition) : String :=
  ";\n\n".intercalate (t.createTextBy spell :: t.indexes.map (Index.textBy spell t.name)) ++ ";\n"

def TableDefinition.downTextBy (t : TableDefinition) : String :=
  Text.trimRight ("DROP TABLE IF EXISTS " ++ tableTextBy spell t.name) ++ ";\n"

end

theorem TableDefinition.upTextBy_nameText (t : TableDefinition) :
    t.upTextBy nameText = t.upText := rfl

theorem TableDefinition.downTextBy_nameText (t : TableDefinition) :
    t.downTextBy nameText = t.downText := rfl

def Constraint.names : Constraint → List String
  | .unique column => [column]
  | .foreignKey column table => [column, table.schema, table.table]

def TableDefinition.names (t : TableDefinition) : List String :=
  [t.name.schema, t.name.table] ++ t.columns.map ColumnDefinition.name ++ t.primaryKey ++
    t.constraints.flatMap Constraint.names ++ t.indexes.flatMap Index.columns

variable {spell other : String → String}

theorem nameListBy_congr {names : List String} (same : ∀ name ∈ names, spell name = other name) :
    nameListBy spell names = nameListBy other names := by
  rw [nameListBy, nameListBy, List.map_congr_left same]

theorem tableTextBy_congr {t : TableName} (schema : spell t.schema = other t.schema)
    (table : spell t.table = other t.table) : tableTextBy spell t = tableTextBy other t := by
  rw [tableTextBy, tableTextBy, schema, table]

theorem Constraint.textBy_congr {c : Constraint} (same : ∀ name ∈ c.names, spell name = other name) :
    c.textBy spell = c.textBy other := by
  cases c with
  | unique column =>
      exact congrArg ("UNIQUE " ++ ·) (nameListBy_congr same)
  | foreignKey column table =>
      have own : ∀ name ∈ [column], spell name = other name := fun name listed =>
        same name (List.mem_singleton.mp listed ▸ List.mem_cons_self)
      exact congrArg₂ (fun columns table =>
          "FOREIGN KEY" ++ columns ++ " REFERENCES " ++ table ++ " (id) ON DELETE CASCADE")
        (nameListBy_congr own)
        (tableTextBy_congr (same _ (by simp [names])) (same _ (by simp [names])))

theorem TableDefinition.upTextBy_congr {t : TableDefinition}
    (same : ∀ name ∈ t.names, spell name = other name) : t.upTextBy spell = t.upTextBy other := by
  simp only [names, List.mem_append, List.mem_cons, List.not_mem_nil, or_false, List.mem_map,
    List.mem_flatMap, or_imp, forall_and, forall_eq, forall_exists_index, and_imp,
    forall_apply_eq_imp_iff₂] at same
  obtain ⟨⟨⟨⟨⟨schema, table⟩, columns⟩, key⟩, constraints⟩, indexes⟩ := same
  have own : tableTextBy spell t.name = tableTextBy other t.name := tableTextBy_congr schema table
  have declared : t.columns.map (ColumnDefinition.textBy spell) =
      t.columns.map (ColumnDefinition.textBy other) :=
    List.map_congr_left fun c listed => by
      rw [ColumnDefinition.textBy, ColumnDefinition.textBy, columns c listed]
  have constrained : t.constraints.map (Constraint.textBy spell) =
      t.constraints.map (Constraint.textBy other) :=
    List.map_congr_left fun c listed =>
      Constraint.textBy_congr fun name among => constraints name c listed among
  have indexed : t.indexes.map (Index.textBy spell t.name) =
      t.indexes.map (Index.textBy other t.name) :=
    List.map_congr_left fun index listed =>
      congrArg₂ (fun table columns =>
          "CREATE INDEX " ++ nameText index.name ++ " ON " ++ table ++ " " ++ columns)
        own (nameListBy_congr fun name among => indexes name index listed among)
  have items : t.columns.map (ColumnDefinition.textBy spell) ++
        ["PRIMARY KEY " ++ nameListBy spell t.primaryKey] ++
        t.constraints.map (Constraint.textBy spell) =
      t.columns.map (ColumnDefinition.textBy other) ++
        ["PRIMARY KEY " ++ nameListBy other t.primaryKey] ++
        t.constraints.map (Constraint.textBy other) := by
    rw [declared, constrained, nameListBy_congr key]
  have created : t.createTextBy spell = t.createTextBy other :=
    congrArg₂ (fun table items =>
        "CREATE TABLE " ++ table ++ " (\n\t" ++ ", \n\t".intercalate items ++ "\n)")
      own items
  exact congrArg₂ (fun created indexed => ";\n\n".intercalate (created :: indexed) ++ ";\n")
    created indexed

theorem TableDefinition.downTextBy_congr {t : TableDefinition}
    (same : ∀ name ∈ t.names, spell name = other name) :
    t.downTextBy spell = t.downTextBy other := by
  rw [downTextBy, downTextBy, tableTextBy_congr (same _ (by simp [names])) (same _ (by simp [names]))]

theorem exists_of_mem_names {models : List Model} {settings : Settings} {m : Model}
    (passes : Audit.Passes models settings) (member : m ∈ models) {name : String}
    (among : name ∈ (tableDefinition models m).names) : ∃ o ∈ models, name ∈ o.sqlNames := by
  have column {f : Field} (held : f ∈ m.fields) : f.column ∈ m.sqlNames :=
    List.mem_cons_of_mem _ (List.mem_cons_of_mem _ (List.mem_map_of_mem held))
  simp only [TableDefinition.names, List.mem_append, or_assoc] at among
  rcases among with own | declared | key | constrained | indexed
  · refine ⟨m, member, ?_⟩
    rcases List.mem_cons.mp own with rfl | own
    · exact List.mem_cons_self
    · rw [List.mem_singleton.mp own]
      exact List.mem_cons_of_mem _ List.mem_cons_self
  · obtain ⟨_, listed, rfl⟩ := List.mem_map.mp declared
    obtain ⟨f, held, rfl⟩ := List.mem_map.mp listed
    exact ⟨m, member, column held⟩
  · obtain ⟨f, held, _, rfl⟩ := mem_primaryKey.mp key
    exact ⟨m, member, column held⟩
  · obtain ⟨c, listed, among⟩ := List.mem_flatMap.mp constrained
    obtain ⟨f, held, stated⟩ := List.mem_flatMap.mp listed
    rw [fieldConstraints, List.mem_append] at stated
    rcases stated with unique | refers
    · split at unique
      · rw [List.mem_singleton.mp unique] at among
        rw [List.mem_singleton.mp among]
        exact ⟨m, member, column held⟩
      · cases unique
    · split at refers
      · rename_i target found
        rw [List.mem_singleton.mp refers] at among
        rcases List.mem_cons.mp among with rfl | there
        · exact ⟨m, member, column held⟩
        · refine ⟨target, (mem_of_target? found).1, ?_⟩
          exact List.mem_of_mem_take (i := 2) there
      · cases refers
  · obtain ⟨index, listed, among⟩ := List.mem_flatMap.mp indexed
    simp only [tableDefinition, List.mem_mergeSort, List.mem_map] at listed
    obtain ⟨columns, stated, rfl⟩ := listed
    refine ⟨m, member, ?_⟩
    rw [indexColumns, List.mem_append] at stated
    rcases stated with single | extra
    · obtain ⟨f, held, rfl⟩ := List.mem_map.mp single
      rw [List.mem_singleton.mp among]
      exact column (List.mem_filter.mp held).1
    · have known := passes.index_known member (List.mem_filter.mp extra).1 among
      exact List.mem_cons_of_mem _ (List.mem_cons_of_mem _ known)

end Migration

open Sql Migration

theorem Audit.Passes.not_forbidden {models : List Model} {settings : Settings}
    (passes : Audit.Passes models settings) {m : Model} (member : m ∈ models) {name : String}
    (among : name ∈ m.sqlNames) : isForbidden name = false := by
  refine Bool.eq_false_iff.mpr fun forbidden => ?_
  have ofTable (own : name ∈ [m.schema, m.table]) : False := by
    refine passes.noError (c := .reservedTableName name m.fullTable m.name) ?_ rfl
    simp only [Audit.models, Audit.modelNames, List.mem_append]
    refine .inl (.inl (.inl (.inl (.inl (.inr (List.mem_flatMap.mpr ⟨m, member, ?_⟩))))))
    exact List.mem_map_of_mem (f := (Concern.reservedTableName · m.fullTable m.name))
      (List.mem_filter.mpr ⟨own, forbidden⟩)
  rcases List.mem_cons.mp among with own | among
  · exact ofTable (own ▸ List.mem_cons_self)
  · rcases List.mem_cons.mp among with own | among
    · exact ofTable (own ▸ List.mem_cons_of_mem _ List.mem_cons_self)
    · obtain ⟨f, held, column⟩ := List.mem_map.mp among
      refine passes.noError (c := .reservedColumnName f.column m.table f.name m.name) ?_ rfl
      simp only [Audit.models, Audit.fieldNames, List.mem_append]
      refine .inl (.inl (.inl (.inl (.inr (List.mem_flatMap.mpr ⟨m, member, ?_⟩)))))
      refine List.mem_flatMap.mpr ⟨f, held, List.mem_append_left _ ?_⟩
      rw [column, if_pos forbidden]
      exact List.mem_singleton_self _

/-- The names of accepted models that pass the audit stand in quotes exactly if they are words
that the audit overlooks. If none is, migrations write them bare, as statements do. -/
theorem spelled_bare_iff {models : List Model} {settings : Settings}
    (accepted : ∀ m ∈ models, m.Accepted) (passes : Audit.Passes models settings) :
    (∀ m ∈ models, ∀ name ∈ m.sqlNames,
      (isQuotedWord name ↔ name ∈ overlookedWords) ∧
        (nameText name = name ↔ name ∉ overlookedWords)) ∧
      ((∀ m ∈ models, ∀ name ∈ m.sqlNames, name ∉ overlookedWords) →
        ∀ m ∈ models, ∀ s, script models m = .ok s →
          s.up = (tableDefinition models m).upTextBy id ∧
            s.down = (tableDefinition models m).downTextBy id) := by
  have quoted {m : Model} (member : m ∈ models) {name : String} (among : name ∈ m.sqlNames) :
      isQuotedWord name ↔ name ∈ overlookedWords := by
    rw [mem_overlookedWords]
    exact (and_iff_left (passes.not_forbidden member among)).symm
  have bare {m : Model} (member : m ∈ models) {name : String} (among : name ∈ m.sqlNames) :
      nameText name = name ↔ name ∉ overlookedWords := by
    rw [nameText_eq_self_iff ((accepted m member).isIdentifier_of_mem among),
      ← quoted member among, Bool.not_eq_true]
  refine ⟨fun m member name among => ⟨quoted member among, bare member among⟩, ?_⟩
  intro known m member s made
  have same : ∀ name ∈ (tableDefinition models m).names, nameText name = id name := by
    intro name among
    obtain ⟨o, listed, named⟩ := exists_of_mem_names passes member among
    exact (bare listed named).mpr (known o listed name named)
  have down : s.down = (tableDefinition models m).downText := by
    simp only [script, Result.bind_eq_ok, Result.pure_eq_ok] at made
    obtain ⟨_, _, rfl⟩ := made
    rfl
  rw [up_of_script made, down]
  exact ⟨TableDefinition.upTextBy_congr same, TableDefinition.downTextBy_congr same⟩

theorem blog_spelledBare : ∃ models m s, loadModels (blog "id") .default none = .ok models ∧
    Audit.Passes models .default ∧ m ∈ models ∧ script models m = .ok s ∧
    s.up = (tableDefinition models m).upTextBy id ∧
    s.down = (tableDefinition models m).downTextBy id := by
  have loaded := loadModels_blog .id
  have renders : Renders (blogModels .id) (blogPost .id) := by decide +kernel
  have known : ∀ m ∈ blogModels .id, ∀ name ∈ m.sqlNames, name ∉ overlookedWords := by
    decide +kernel
  obtain ⟨s, made⟩ := exists_script_iff.mpr renders
  obtain ⟨_, bare⟩ := spelled_bare_iff (fun _ listed => .loaded loaded listed) (blog_passes .id)
  exact ⟨_, _, s, loaded, blog_passes .id, blogPost_mem .id, made,
    bare known _ (blogPost_mem .id) s made⟩

def leftPosts : Entries := .ofFields [("models", .list [
  .ofFields [("name", .text "Post"), ("fields", .list [
    .ofFields [("name", .text "left"), ("writable", .bool true)]])]])]

/-- The table is created with a quoted column that no statement quotes. -/
theorem leftPosts_spelledApart : ∃ models m q, loadModels leftPosts .default none = .ok models ∧
    Audit.Passes models .default ∧ m ∈ models ∧ "left" ∈ m.sqlNames ∧
    "\"left\" TEXT NOT NULL" ∈ (tableDefinition models m).columns.map ColumnDefinition.text ∧
    m.HasQuery q ∧ q.text = "INSERT INTO public.posts (id, organization_id, left) " ++
      "VALUES ($1, $2, $3) RETURNING posts.id, posts.organization_id, posts.updated_at, " ++
      "posts.created_at, posts.left" := by
  obtain ⟨models, m, loaded, member, checked⟩ := exists_loaded leftPosts
    (fun m models => !(Audit.findings models .default).hasErrors && m.sqlNames.contains "left" &&
      ((tableDefinition models m).columns.map ColumnDefinition.text).contains
        "\"left\" TEXT NOT NULL" &&
      m.insertPlan.bytes == Text.bytes ("INSERT INTO public.posts (id, organization_id, left) " ++
        "VALUES ($1, $2, $3) RETURNING posts.id, posts.organization_id, posts.updated_at, " ++
        "posts.created_at, posts.left")) (by decide +kernel)
  simp only [Bool.and_eq_true, Bool.not_eq_true', List.contains_iff_mem, beq_iff_eq] at checked
  obtain ⟨⟨⟨passes, named⟩, declared⟩, text⟩ := checked
  exact ⟨models, m, _, loaded, passes, member, named, declared,
    Model.hasQuery_iff.mpr ⟨_, .insert, rfl⟩, Plan.text_eq_of_bytes text⟩

end TenantSql
