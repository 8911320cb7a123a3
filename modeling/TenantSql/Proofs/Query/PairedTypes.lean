import TenantSql.Proofs.Definition.ColumnTypes
import TenantSql.Proofs.Migration.Scripts
import TenantSql.Proofs.Query.Pairings

/-!
# Columns of one type

A foreign key and the `id` that it refers to must be of one type, and so must two
columns that a read compares. The columns that loading adds for this all hold
ids; a column that the definition declares is what the definition says, even if a
reference reads by it.
-/

namespace TenantSql

open Sql Migration

def ColumnOf (models : List Model) (type : SqlType) (table : TableName) (column : String) : Prop :=
  ∃ m ∈ models, m.tableName = table ∧ m.HasColumnOf type column

instance (models : List Model) (type : SqlType) (table : TableName) (column : String) :
    Decidable (ColumnOf models type table column) :=
  inferInstanceAs (Decidable (∃ m ∈ models, _ ∧ _))

def Sql.Pairing.Alike (models : List Model) (p : Pairing) : Prop :=
  ∃ type, p.left.Known (ColumnOf models type) p.scopes ∧
    p.right.Known (ColumnOf models type) p.scopes

def Model.KeysAlike (models : List Model) (m : Model) : Prop :=
  ∀ s, script models m = .ok s →
    ∀ column table, .foreignKey column table ∈ (tableDefinition models m).constraints →
      ∃ type, m.HasColumnOf type column ∧ ColumnOf models type table "id"

def Reference.ReadsAlike (models : List Model) (m : Model) (r : Reference)
    (tables : List TableName) : Prop :=
  ∃ f ∈ m.fields, f.column = r.idColumn ∧ ∀ table ∈ tables, ColumnOf models f.sqlType table "id"

instance (models : List Model) (m : Model) (r : Reference) (tables : List TableName) :
    Decidable (r.ReadsAlike models m tables) :=
  inferInstanceAs (Decidable (∃ f ∈ m.fields, _ ∧ ∀ table ∈ tables, _))

def Model.joinedAs (m : Model) (r : Reference) : List TableName :=
  (m.referencesOnGet.filter (·.name == r.name)).map Reference.tableName

structure Model.LinksAlike (models : List Model) (m : Model) : Prop where
  keys : Renders models m → ∀ f ∈ m.fields, ∀ target ∈ target? models f,
    target.HasColumnOf f.sqlType "id"
  listed : ∀ c ∈ m.children, c.onList ≠ .none → m.HasColumnOf .uuid "id"
  through : ∀ c ∈ m.children, c.onGet = .data ∨ c.onList = .data → c.through.isSome →
    ColumnOf models .uuid c.tableName "id"
  joined : m.children ≠ [] → ∀ r ∈ m.referencesOnGet, r.ReadsAlike models m (m.joinedAs r)
  organizations : m.children ≠ [] → m.isGlobal = false → ∀ r ∈ m.referencesOnGet,
    r.isGlobal = false → ∀ table ∈ m.joinedAs r, ColumnOf models .uuid table "organization_id"
  nested : m.children ≠ [] → ∀ r ∈ m.referencesOnList, r.ReadsAlike models m [r.tableName]

instance (models : List Model) (m : Model) : Decidable (m.LinksAlike models) :=
  decidable_of_iff (_ ∧ _ ∧ _ ∧ _ ∧ _ ∧ _)
    ⟨fun ⟨keys, listed, through, joined, organizations, nested⟩ =>
        ⟨keys, listed, through, joined, organizations, nested⟩,
      fun alike => ⟨alike.keys, alike.listed, alike.through, alike.joined, alike.organizations,
        alike.nested⟩⟩

namespace Model

variable {models : List Model} {m : Model} {settings : Settings}

structure AreTyped (models : List Model) : Prop where
  loaded : ∀ m ∈ models, m.Loaded models
  apart : ∀ a ∈ models, ∀ b ∈ models, a.tableName = b.tableName → a = b
  parents : ∀ m ∈ models, ∀ p ∈ m.parents, m.HasColumnOf .uuid p.column
  organization : ∀ m ∈ models, m.isGlobal = false → m.HasColumnOf .uuid "organization_id"

/-! ## Columns of a type -/

namespace AreTyped

variable (typed : AreTyped models)

include typed

theorem lawful (member : m ∈ models) : m.Lawful :=
  lawful_of_rules (typed.loaded m member).rules

theorem columnOf_own (member : m ∈ models) {type : SqlType} {column : String} :
    ColumnOf models type m.tableName column ↔ m.HasColumnOf type column := by
  refine ⟨fun ⟨other, listed, same, held⟩ => ?_, fun held => ⟨m, member, rfl, held⟩⟩
  exact typed.apart other listed m member same ▸ held

theorem columnOf_unique {a b : SqlType} {table : TableName} {column : String}
    (first : ColumnOf models a table column) (second : ColumnOf models b table column) : a = b := by
  obtain ⟨m, member, rfl, held⟩ := first
  exact held.unique (typed.lawful member) ((typed.columnOf_own member).mp second)

theorem exists_columnOf_iff {type : SqlType} {table : TableName} {column : String}
    (held : ColumnOf models type table column) {holds : SqlType → Prop} :
    (∃ type, ColumnOf models type table column ∧ holds type) ↔ holds type := by
  refine ⟨fun ⟨other, found, holding⟩ => ?_, fun holding => ⟨type, held, holding⟩⟩
  exact typed.columnOf_unique found held ▸ holding

theorem columnOf_parent (member : m ∈ models) {column : String}
    (parent : m.HasParentColumn column) :
    ColumnOf models .uuid m.tableName column := by
  obtain ⟨p, held, rfl⟩ := parent
  exact (typed.columnOf_own member).mpr (typed.parents m member p held)

theorem columnOf_organization (member : m ∈ models) (tenant : m.isGlobal = false) :
    ColumnOf models .uuid m.tableName "organization_id" :=
  (typed.columnOf_own member).mpr (typed.organization m member tenant)

/-! ## Foreign keys -/

theorem keysAlike_iff (member : m ∈ models) : m.KeysAlike models ↔
    (Renders models m →
      ∀ f ∈ m.fields, ∀ target ∈ target? models f, target.HasColumnOf f.sqlType "id") := by
  have own {f : Field} (held : f ∈ m.fields) : m.HasColumnOf f.sqlType f.column :=
    ⟨f, held, rfl, rfl⟩
  constructor
  · intro alike renders f held target found
    obtain ⟨s, made⟩ := exists_script_iff.mpr renders
    obtain ⟨type, column, id⟩ :=
      alike s made _ _ (foreignKey_mem_constraints.mpr ⟨f, held, target, found, rfl, rfl⟩)
    rw [(own held).unique (typed.lawful member) column]
    exact (typed.columnOf_own (mem_of_target? found).1).mp id
  · intro fits s made column table key
    obtain ⟨f, held, target, found, rfl, rfl⟩ := foreignKey_mem_constraints.mp key
    have renders := exists_script_iff.mp ⟨s, made⟩
    exact ⟨f.sqlType, own held,
      (typed.columnOf_own (mem_of_target? found).1).mpr (fits renders f held target found)⟩

end AreTyped

/-! ## Children -/

section Children

variable {c : Child} {target : Model} {fetch : FetchType} {parent : Operand String}
  {q : Subquery String} {outer : List Scope}

namespace AreTyped

variable (typed : AreTyped models)

include typed

theorem columnOf_parentColumn (leads : c.Leads models target) :
    ColumnOf models .uuid c.idTable c.parentColumn := by
  cases given : c.through with
  | none =>
      rw [idTable_direct given, leads.table]
      exact typed.columnOf_parent leads.listed (leads.direct given)
  | some through =>
      obtain ⟨join, listed, joins⟩ := leads.indirect through given
      rw [idTable_through given, joins.table]
      exact typed.columnOf_parent listed joins.ownerColumn

theorem alike_join (leads : c.Leads models target) {through : Through}
    (given : c.through = some through) {organization : Option String} :
    Pairing.Alike models ⟨(c.dataSubquery organization parent).scope :: outer,
      ⟨some "tt", through.childColumn⟩, ⟨some "t", "id"⟩⟩ ↔
        ColumnOf models .uuid c.tableName "id" := by
  obtain ⟨join, listed, joins⟩ := leads.indirect through given
  have child : ColumnOf models .uuid c.idTable through.childColumn := by
    obtain ⟨p, held, _, column⟩ := joins.childColumn
    rw [idTable_through given, joins.table]
    exact typed.columnOf_parent listed ⟨p, held, column⟩
  have owner : (c.dataSubquery organization parent).tableAlias = "tt" := by
    simp [Child.dataSubquery, given]
  have second : (c.dataSubquery organization parent).join = some
      { table := c.tableName
        tableAlias := "t"
        condition := .equals ⟨some "tt", through.childColumn⟩ (.column ⟨some "t", "id"⟩) } := by
    rw [Child.dataSubquery, given]
    rfl
  have apart : ∀ join ∈ (c.dataSubquery organization parent).join,
      join.tableAlias ≠ (c.dataSubquery organization parent).tableAlias := by
    simp [second, owner]
  have left {type : SqlType} : Column.Known (ColumnOf models type)
      ((c.dataSubquery organization parent).scope :: outer) ⟨some "tt", through.childColumn⟩ ↔
        ColumnOf models type c.idTable through.childColumn := by
    rw [← owner]
    exact Subquery.known_first apart
  have right {type : SqlType} : Column.Known (ColumnOf models type)
      ((c.dataSubquery organization parent).scope :: outer) ⟨some "t", "id"⟩ ↔
        ColumnOf models type c.tableName "id" :=
    Subquery.known_second second (apart _ second)
  exact (exists_congr fun _ => and_congr left right).trans (typed.exists_columnOf_iff child)

theorem alike_subquery (leads : c.Leads models target)
    (found : c.subquery? fetch m.nestedOrganization parent = some q) :
    (∀ p ∈ q.pairings outer, p.Alike models) ↔
      (fetch = .data → c.through.isSome → ColumnOf models .uuid c.tableName "id") ∧
        ∀ column, parent = .column column →
          column.Known (ColumnOf models .uuid) (q.scope :: outer) := by
  obtain ⟨table, _, _, apart⟩ := subquery_shape found
  have first {type : SqlType} {name : String} :
      Column.Known (ColumnOf models type) (q.scope :: outer) ⟨some q.tableAlias, name⟩ ↔
        ColumnOf models type c.idTable name :=
    table ▸ Subquery.known_first fun join given => (apart join given).1
  rw [pairings_subquery found, List.forall_mem_append]
  refine and_congr ?_ ?_
  · cases fetch with
    | none => cases found
    | id => simp
    | data =>
        cases found
        cases given : c.through with
        | none => simp
        | some through => simpa using typed.alike_join leads given
  · cases parent with
    | param => simp [Comparison.pairings]
    | column column =>
        simp only [Comparison.pairings, List.forall_mem_singleton, Operand.column.injEq,
          forall_eq']
        refine (exists_congr fun type => and_congr_left' first).trans ?_
        exact typed.exists_columnOf_iff (typed.columnOf_parentColumn leads)

theorem alike_childOnGet (leads : c.Leads models target) :
    (∀ q, c.subquery? c.onGet m.nestedOrganization (.param Binding.id) = some q →
      ∀ p ∈ q.pairings outer, p.Alike models) ↔
        (c.onGet = .data → c.through.isSome → ColumnOf models .uuid c.tableName "id") := by
  constructor
  · intro alike fetched
    have read : c.onGet ≠ .none := fetched ▸ by decide
    obtain ⟨q, found⟩ := exists_subquery read m.nestedOrganization (.param Binding.id)
    exact ((typed.alike_subquery leads found).mp (alike q found)).1 fetched
  · intro fits q found
    exact (typed.alike_subquery leads found).mpr ⟨fits, fun _ same => by cases same⟩

theorem alike_childOnList (member : m ∈ models) (leads : c.Leads models target)
    {references : List Reference} :
    (∀ q, c.subquery? c.onList m.nestedOrganization (.column ⟨some mainAlias, "id"⟩) = some q →
      ∀ p ∈ q.pairings [m.mainScope references], p.Alike models) ↔
        (c.onList = .data → c.through.isSome → ColumnOf models .uuid c.tableName "id") ∧
          (c.onList ≠ .none → m.HasColumnOf .uuid "id") := by
  have id {q : Subquery String}
      (found :
        c.subquery? c.onList m.nestedOrganization (.column ⟨some mainAlias, "id"⟩) = some q) :
      Column.Known (ColumnOf models .uuid) [q.scope, m.mainScope references]
        ⟨some mainAlias, "id"⟩ ↔ m.HasColumnOf .uuid "id" :=
    ((Column.known_outer (scope_ne_mainAlias found)).trans known_main).trans
      (typed.columnOf_own member)
  have alike_iff {q : Subquery String}
      (found :
        c.subquery? c.onList m.nestedOrganization (.column ⟨some mainAlias, "id"⟩) = some q) :
      (∀ p ∈ q.pairings [m.mainScope references], p.Alike models) ↔
        (c.onList = .data → c.through.isSome → ColumnOf models .uuid c.tableName "id") ∧
          m.HasColumnOf .uuid "id" := by
    rw [typed.alike_subquery leads found, ← id found]
    simp
  constructor
  · intro alike
    have both (read : c.onList ≠ .none) :
        (c.onList = .data → c.through.isSome → ColumnOf models .uuid c.tableName "id") ∧
          m.HasColumnOf .uuid "id" := by
      obtain ⟨q, found⟩ := exists_subquery read m.nestedOrganization
        (.column ⟨some mainAlias, "id"⟩)
      exact (alike_iff found).mp (alike q found)
    exact ⟨fun fetched => (both (fetched ▸ by decide)).1 fetched, fun read => (both read).2⟩
  · intro fits q found
    refine (alike_iff found).mpr ⟨fits.1, fits.2 fun same => ?_⟩
    rw [same] at found
    cases found

end AreTyped

end Children

/-! ## References -/

section References

variable {r : Reference} {scopes : List Scope}

theorem known_joinedAs (among : r ∈ m.referencesOnGet) {has : TableName → String → Prop}
    {name : String} :
    Column.Known has [m.mainScope m.referencesOnGet] ⟨some r.tableAlias, name⟩ ↔
      ∀ table ∈ m.joinedAs r, has table name := by
  rw [known_joined among, joinedAs, List.forall_mem_map]
  simp only [List.mem_filter, beq_iff_eq, and_imp]

namespace AreTyped

variable (typed : AreTyped models)

include typed

theorem readsAlike_iff (member : m ∈ models) {tables : List TableName} :
    (∃ type, (∀ table ∈ tables, ColumnOf models type table "id") ∧
      ColumnOf models type m.tableName r.idColumn) ↔ r.ReadsAlike models m tables := by
  constructor
  · rintro ⟨type, ids, own⟩
    obtain ⟨f, held, column, rfl⟩ := (typed.columnOf_own member).mp own
    exact ⟨f, held, column, ids⟩
  · rintro ⟨f, held, column, ids⟩
    exact ⟨f.sqlType, ids, (typed.columnOf_own member).mpr ⟨f, held, column, rfl⟩⟩

theorem alike_reference (member : m ∈ models) {tables : List TableName}
    (main : ∀ {has : TableName → String → Prop} {name : String},
      Column.Known has scopes ⟨some mainAlias, name⟩ ↔ has m.tableName name)
    (other : ∀ {has : TableName → String → Prop} {name : String},
      Column.Known has scopes ⟨some r.tableAlias, name⟩ ↔ ∀ table ∈ tables, has table name) :
    (∀ p ∈ r.pairings m scopes, p.Alike models) ↔
      r.ReadsAlike models m tables ∧ (m.isGlobal = false → r.isGlobal = false →
        ∀ table ∈ tables, ColumnOf models .uuid table "organization_id") := by
  rw [pairings_reference, List.forall_mem_cons]
  refine and_congr ?_ ?_
  · exact (exists_congr fun _ => and_congr other main).trans (typed.readsAlike_iff member)
  · split
    · rename_i both
      simp only [Bool.and_eq_true, Bool.not_eq_true'] at both
      rw [List.forall_mem_singleton]
      have own := typed.columnOf_organization member both.1
      refine (exists_congr fun _ => (and_congr other main).trans and_comm).trans
        ((typed.exists_columnOf_iff own).trans ?_)
      simp [both]
    · rename_i apart
      simp only [Bool.and_eq_true, Bool.not_eq_true', not_and] at apart
      exact iff_of_true nofun fun tenant owned => absurd owned (apart tenant)

end AreTyped

end References

/-! ## Populated reads -/

/-- All statements of a model compare columns of one type if its populated reads do. -/
theorem alike_plans_iff (passes : Audit.Passes models settings) (member : m ∈ models) :
    (∀ p, m.HasPlan p → ∀ pair ∈ p.statement.pairings, pair.Alike models) ↔
      (m.children ≠ [] → (∀ p ∈ (m.selectOneStatement true).pairings, p.Alike models) ∧
        ∀ p ∈ (m.listStatement true none).pairings, p.Alike models) := by
  constructor
  · intro alike children
    obtain ⟨order, admitted⟩ := passes.listOrder member
    exact ⟨alike _ (.selectOne fun _ => children), alike _ (.list (fun _ => children) admitted)⟩
  · intro reads p plan pair paired
    rcases plan.pairings_eq with none | ⟨children, one | list⟩
    · rw [none] at paired
      cases paired
    · exact (reads children).1 pair (one ▸ paired)
    · exact (reads children).2 pair (list ▸ paired)

namespace AreTyped

variable (typed : AreTyped models)

include typed

theorem alike_selectOne (member : m ∈ models) :
    (∀ p ∈ (m.selectOneStatement true).pairings, p.Alike models) ↔
      (∀ c ∈ m.children, c.onGet = .data → c.through.isSome →
        ColumnOf models .uuid c.tableName "id") ∧
      ∀ r ∈ m.referencesOnGet, r.ReadsAlike models m (m.joinedAs r) ∧
        (m.isGlobal = false → r.isGlobal = false →
          ∀ table ∈ m.joinedAs r, ColumnOf models .uuid table "organization_id") := by
  rw [pairings_selectOne, List.forall_mem_append]
  refine and_congr ?_ (List.forall_mem_flatMap.trans (forall₂_congr fun r among => ?_))
  · refine forall_childPairings.trans (forall₂_congr fun c child => ?_)
    obtain ⟨target, leads⟩ := (typed.loaded m member).children c child
    exact typed.alike_childOnGet leads
  · exact typed.alike_reference member known_main (known_joinedAs among)

theorem alike_list (member : m ∈ models) :
    (∀ p ∈ (m.listStatement true none).pairings, p.Alike models) ↔
      (∀ c ∈ m.children, (c.onList = .data → c.through.isSome →
        ColumnOf models .uuid c.tableName "id") ∧ (c.onList ≠ .none → m.HasColumnOf .uuid "id")) ∧
      ∀ r ∈ m.referencesOnList, r.ReadsAlike models m [r.tableName] := by
  rw [pairings_list, List.forall_mem_append]
  refine and_congr ?_ (List.forall_mem_flatMap.trans (forall₂_congr fun r among => ?_))
  · refine forall_childPairings.trans (forall₂_congr fun c child => ?_)
    obtain ⟨target, leads⟩ := (typed.loaded m member).children c child
    exact typed.alike_childOnList member leads
  · have apart : ∀ entry ∈ [(r.tableAlias, r.tableName)], entry.1 ≠ mainAlias := by
      simpa using r.tableAlias_ne_mainAlias
    have other {has : TableName → String → Prop} {name : String} :
        Column.Known has [[(r.tableAlias, r.tableName)], m.mainScope []]
          ⟨some r.tableAlias, name⟩ ↔ ∀ table ∈ [r.tableName], has table name := by
      rw [List.forall_mem_singleton]
      exact known_nested
    refine (typed.alike_reference member ((Column.known_outer apart).trans known_main) other).trans
      (and_iff_left fun _ owned => ?_)
    obtain ⟨target, leads⟩ := (typed.loaded m member).references r (List.mem_filter.mp among).1
    rw [List.forall_mem_singleton, leads.table]
    exact typed.columnOf_organization leads.listed (leads.isGlobal.symm.trans owned)

theorem linksAlike_iff (passes : Audit.Passes models settings) (member : m ∈ models) :
    (m.KeysAlike models ∧ ∀ p, m.HasPlan p → ∀ pair ∈ p.statement.pairings, pair.Alike models) ↔
      m.LinksAlike models := by
  rw [typed.keysAlike_iff member, alike_plans_iff passes member, typed.alike_selectOne member,
    typed.alike_list member]
  constructor
  · rintro ⟨keys, reads⟩
    constructor
    case keys => exact keys
    case listed =>
      exact fun c child => ((reads (List.ne_nil_of_mem child)).2.1 c child).2
    case through =>
      intro c child fetched
      obtain ⟨⟨onGet, _⟩, onList, _⟩ := reads (List.ne_nil_of_mem child)
      exact fetched.elim (onGet c child) (onList c child).1
    case joined => exact fun children r among => ((reads children).1.2 r among).1
    case organizations =>
      exact fun children tenant r among owned => ((reads children).1.2 r among).2 tenant owned
    case nested => exact fun children => (reads children).2.2
  · intro alike
    refine ⟨alike.keys, fun children => ⟨⟨fun c child fetched => ?_, fun r among => ?_⟩,
      fun c child => ⟨fun fetched => ?_, ?_⟩, ?_⟩⟩
    · exact alike.through c child (.inl fetched)
    · exact ⟨alike.joined children r among,
        fun tenant owned => alike.organizations children tenant r among owned⟩
    · exact alike.through c child (.inr fetched)
    · exact alike.listed c child
    · exact alike.nested children

end AreTyped

end Model

theorem Model.areTyped_of_loaded {raw : Entries} {settings audited : Settings}
    {source : Option String} {models : List Model}
    (loaded : loadModels raw settings source = .ok models)
    (passes : Audit.Passes models audited) : Model.AreTyped models where
  loaded := fun _ member => loadModels_loaded loaded member
  apart := fun _ first _ second same => passes.eq_of_tableName first second same
  parents := fun _ member => (loadModels_holdsIds loaded member).parents
  organization := fun _ member => (loadModels_holdsIds loaded member).organization

/-- Whatever definition is loaded and passes the audit, the columns that loading adds for ids hold
ids, so only declared columns can be of another type than the ids that they are compared with. All
foreign keys are of the type of what they refer to, and all columns that queries compare are of one
type, if and only if the columns that link models are. -/
theorem loadModels_alike_iff {raw : Entries} {settings audited : Settings}
    {source : Option String} {models : List Model}
    (loaded : loadModels raw settings source = .ok models)
    (passes : Audit.Passes models audited) :
    (∀ m ∈ models, m.HoldsIds raw) ∧
      ((∀ m ∈ models, m.KeysAlike models ∧
          ∀ q s, m.Generates q s → ∀ p ∈ s.pairings, p.Alike models) ↔
        ∀ m ∈ models, m.LinksAlike models) := by
  have typed := Model.areTyped_of_loaded loaded passes
  refine ⟨fun m member => loadModels_holdsIds loaded member, forall₂_congr fun m member => ?_⟩
  rw [← typed.linksAlike_iff passes member]
  refine and_congr_right fun _ => ⟨fun alike p plan => ?_, ?_⟩
  · exact alike p.query p.statement ⟨p, plan, rfl, rfl⟩
  · rintro alike q s ⟨p, plan, rfl, rfl⟩
    exact alike p plan

theorem blog_alike : ∃ models m q s, loadModels (blog "data") .default none = .ok models ∧
    Audit.Passes models .default ∧ m ∈ models ∧ m.Generates q s ∧ s.pairings ≠ [] ∧
    ∀ m ∈ models, m.KeysAlike models ∧
      ∀ q s, m.Generates q s → ∀ p ∈ s.pairings, p.Alike models := by
  have loaded := loadModels_blog .data
  have paired : ((blogPost .data).selectOneStatement true).pairings ≠ [] := by decide +kernel
  have alike : ∀ m ∈ blogModels .data, m.LinksAlike (blogModels .data) := by decide +kernel
  exact ⟨_, _, _, _, loaded, blog_passes .data, blogPost_mem .data,
    ⟨_, .selectOne fun _ => blogPost_children .data, rfl, rfl⟩, paired,
    (loadModels_alike_iff loaded (blog_passes .data)).2.mpr alike⟩

def bylinedPosts : Entries := .ofFields [("models", .list [
  .ofFields [("name", .text "Post"), ("fields", .list [
    .ofFields [("name", .text "author"), ("references", .text "Author")]])],
  .ofFields [("name", .text "Author")]])]

def bylinedPostsTable : String :=
  "CREATE TABLE public.posts (\n\tid UUID NOT NULL, \n\torganization_id UUID NOT NULL, " ++
    "\n\tupdated_at TIMESTAMP WITH TIME ZONE DEFAULT now() NOT NULL, " ++
    "\n\tcreated_at TIMESTAMP WITH TIME ZONE DEFAULT now() NOT NULL, \n\tauthor TEXT NOT NULL, " ++
    "\n\tPRIMARY KEY (id), " ++
    "\n\tFOREIGN KEY(author) REFERENCES public.authors (id) ON DELETE CASCADE\n);\n\n" ++
    "CREATE INDEX posts_organization_id_idx ON public.posts (organization_id);\n"

theorem bylinedPosts_notAlike : ∃ models m s, loadModels bylinedPosts .default none = .ok models ∧
    Audit.Passes models .default ∧ m ∈ models ∧ script models m = .ok s ∧ s.up = bylinedPostsTable ∧
    m.HasColumnOf .text "author" ∧ ColumnOf models .uuid ⟨"public", "authors"⟩ "id" ∧
    ¬ m.KeysAlike models := by
  obtain ⟨models, m, loaded, member, checked⟩ := exists_loaded bylinedPosts
    (fun m models => !(Audit.findings models .default).hasErrors && decide (Renders models m) &&
      Text.bytes (tableDefinition models m).upText == Text.bytes bylinedPostsTable &&
      decide (m.HasColumnOf .text "author") &&
      decide (ColumnOf models .uuid ⟨"public", "authors"⟩ "id") &&
      (tableDefinition models m).constraints.contains
        (.foreignKey "author" ⟨"public", "authors"⟩)) (by decide +kernel)
  simp only [Bool.and_eq_true, Bool.not_eq_true', decide_eq_true_eq, beq_iff_eq,
    List.contains_iff_mem] at checked
  obtain ⟨⟨⟨⟨⟨passes, renders⟩, up⟩, text⟩, id⟩, key⟩ := checked
  obtain ⟨s, made⟩ := exists_script_iff.mpr renders
  refine ⟨models, m, s, loaded, passes, member, made,
    (up_of_script made).trans (Text.eq_of_bytes up), text, id, fun alike => ?_⟩
  have typed := Model.areTyped_of_loaded loaded passes
  obtain ⟨type, column, target⟩ := alike s made _ _ key
  have both : SqlType.text = .uuid := (text.unique (typed.lawful member) column).trans
    (typed.columnOf_unique target id)
  cases both

end TenantSql
