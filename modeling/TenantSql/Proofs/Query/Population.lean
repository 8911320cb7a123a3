import TenantSql.Proofs.Audit.Passed
import TenantSql.Proofs.Query.Placeholder

/-!
# Tenancy of nested rows

A read that fills in children and referenced rows places further tables beside
its main one. The rows of such a table are guarded if a test of its alias keeps
them to the organization of the query. All tables of organizations are guarded
but one kind: the children's own table behind a join table, of which only the
join table is.
-/

namespace TenantSql

open Sql

namespace Sql

structure Placed where
  table : TableName
  tableAlias : String
  tests : List (Comparison String)
  second : Bool

/-- Some test keeps the rows of the table to the organization that is bound, or to that of the main
row. -/
def Placed.Guarded (placed : Placed) : Prop :=
  ∃ value ∈ [Operand.param Binding.organization, .column ⟨some mainAlias, "organization_id"⟩],
    .equals ⟨some placed.tableAlias, "organization_id"⟩ value ∈ placed.tests

instance (placed : Placed) : Decidable placed.Guarded :=
  inferInstanceAs (Decidable (∃ value ∈ _, _ ∈ placed.tests))

/-- The tables of a subquery. The test that pairs their rows holds of both. -/
def Subquery.placed (q : Subquery String) : List Placed :=
  let tests := q.join.toList.map InnerJoin.condition ++ q.conditions
  ⟨q.table, q.tableAlias, tests, false⟩ ::
    q.join.toList.map fun join => ⟨join.table, join.tableAlias, tests, true⟩

def SelectItem.placed : SelectItem String → List Placed
  | .nested q _ => q.placed
  | .column _ | .joined .. => []

def Select.placed (s : Select String) : List Placed :=
  s.items.flatMap SelectItem.placed ++
    s.joins.map fun join => ⟨join.table, join.tableAlias, join.conditions, false⟩

end Sql

def IsTenantTable (models : List Model) (table : TableName) : Prop :=
  ∃ m ∈ models, m.tableName = table ∧ m.isGlobal = false

instance (models : List Model) (table : TableName) : Decidable (IsTenantTable models table) :=
  inferInstanceAs (Decidable (∃ m ∈ models, _))

def Sql.Select.KeepsTenancy (models : List Model) (s : Select String) : Prop :=
  ∀ placed ∈ s.placed, IsTenantTable models placed.table → placed.Guarded

instance (models : List Model) (s : Select String) : Decidable (s.KeepsTenancy models) :=
  inferInstanceAs (Decidable (∀ placed ∈ s.placed, _))

/-! ## Children -/

namespace Child

variable {c : Child} {fetch : FetchType} {parent : Operand String} {q : Subquery String}

/-- In the subquery for children of one organization the first table is guarded, and a second one
is not. -/
theorem guarded_iff (found : c.subquery? fetch (some Binding.organization) parent = some q) :
    ∀ placed ∈ q.placed, (placed.Guarded ↔ placed.second = false) := by
  intro placed member
  cases fetch with
  | none => cases found
  | id =>
      cases found
      rw [List.mem_singleton.mp member]
      refine iff_of_true ⟨_, List.mem_cons_self, ?_⟩ rfl
      simp [idSubquery, comparisons]
  | data =>
      cases found
      cases given : c.through with
      | none =>
          simp only [Subquery.placed, dataSubquery, given, Option.map_none, Option.toList_none,
            List.map_nil, List.nil_append, List.mem_singleton] at member
          rw [member]
          refine iff_of_true ⟨_, List.mem_cons_self, ?_⟩ rfl
          simp [comparisons]
      | some through =>
          simp only [Subquery.placed, dataSubquery, given, Option.map_some, Option.toList_some,
            List.map_cons, List.map_nil, List.mem_cons, List.not_mem_nil, or_false] at member
          rcases member with rfl | rfl
          · refine iff_of_true ⟨_, List.mem_cons_self, ?_⟩ rfl
            simp [comparisons]
          · refine iff_of_false ?_ (by simp)
            rintro ⟨value, _, tested⟩
            simp [comparisons] at tested

theorem exists_second_iff (found : c.subquery? fetch (some Binding.organization) parent = some q) :
    (∃ placed ∈ q.placed, placed.second) ↔ fetch = .data ∧ c.through.isSome := by
  cases fetch with
  | none => cases found
  | id =>
      cases found
      simp [Subquery.placed, idSubquery]
  | data =>
      cases found
      cases given : c.through <;> simp [Subquery.placed, dataSubquery, given]

theorem table_of_second (found : c.subquery? fetch (some Binding.organization) parent = some q) :
    ∀ placed ∈ q.placed, placed.second → placed.table = c.tableName := by
  intro placed member second
  obtain ⟨rfl, _⟩ := (exists_second_iff found).mp ⟨placed, member, second⟩
  cases found
  rcases List.mem_cons.mp member with rfl | other
  · cases second
  · obtain ⟨join, given, rfl⟩ := List.mem_map.mp other
    obtain ⟨through, _, rfl⟩ := Option.map_eq_some_iff.mp (Option.mem_toList.mp given)
    rfl

end Child

/-! ## References -/

namespace Reference

def placed (r : Reference) : Placed :=
  ⟨r.tableName, r.tableAlias, r.comparisons true, false⟩

theorem placed_guarded {r : Reference} (tenant : r.isGlobal = false) : r.placed.Guarded := by
  refine ⟨_, List.mem_cons_of_mem _ List.mem_cons_self, ?_⟩
  simp [placed, comparisons, tenant]

end Reference

/-! ## Populated reads -/

namespace Model

variable {models : List Model} {m : Model} {fetch : Child → FetchType} {s : Select String}

def Populates (m : Model) (fetch : Child → FetchType) (s : Select String) : Prop :=
  ∃ parent references, references ⊆ m.references ∧ ∀ placed, placed ∈ s.placed ↔
    (∃ c ∈ m.children, ∃ q,
      c.subquery? (fetch c) (some Binding.organization) parent = some q ∧ placed ∈ q.placed) ∨
    ∃ r ∈ references, r.placed = placed

theorem placed_columnItems (fields : List Field) :
    (columnItems fields).flatMap SelectItem.placed = [] :=
  List.flatMap_eq_nil_iff.mpr fun _ member => by
    obtain ⟨f, _, rfl⟩ := List.mem_map.mp member
    rfl

theorem selectOne_populates (tenant : m.isGlobal = false) :
    m.Populates Child.onGet (m.selectOneStatement true) := by
  refine ⟨.param Binding.id, m.referencesOnGet, List.filter_subset_self _, fun placed => ?_⟩
  have joined : (m.referencesOnGet.map Reference.joinedItem).flatMap SelectItem.placed = [] :=
    List.flatMap_eq_nil_iff.mpr fun _ member => by
      obtain ⟨r, _, rfl⟩ := List.mem_map.mp member
      rfl
  simp only [Select.placed, selectOneStatement, if_true, List.flatMap_append, placed_columnItems,
    joined, List.nil_append, List.append_nil, List.mem_append, tenant, Bool.not_false, List.map_map]
  refine or_congr ?_ (by rw [List.mem_map]; rfl)
  simp [childItemsOnGet, nestedOrganization, tenant, SelectItem.placed, and_assoc]

theorem list_populates (tenant : m.isGlobal = false) (order : Option OrderBy) :
    m.Populates Child.onList (m.listStatement true order) := by
  refine ⟨.column ⟨some mainAlias, "id"⟩, m.referencesOnList, List.filter_subset_self _,
    fun placed => ?_⟩
  simp only [Select.placed, listStatement, if_true, List.flatMap_append, placed_columnItems,
    List.nil_append, List.map_nil, List.append_nil, List.mem_append, tenant, Bool.not_false]
  refine or_congr ?_ ?_
  · simp [childItemsOnList, nestedOrganization, tenant, SelectItem.placed, and_assoc]
  · simp [SelectItem.placed, Reference.nestedItem, Subquery.placed, Reference.placed,
      Reference.tableName, eq_comm]

/-- Among the tables of organizations, those that are the second one of a subquery are not
guarded, and all others are. -/
theorem Populates.guarded_iff (populates : m.Populates fetch s) {settings : Settings}
    (passes : Audit.Passes models settings) (loaded : m.Loaded models) :
    ∀ placed ∈ s.placed, IsTenantTable models placed.table →
      (placed.Guarded ↔ placed.second = false) := by
  obtain ⟨parent, references, own, all⟩ := populates
  intro placed member ⟨other, listed, table, owned⟩
  rcases (all placed).mp member with ⟨c, _, q, found, among⟩ | ⟨r, among, rfl⟩
  · exact Child.guarded_iff found placed among
  · obtain ⟨target, leads⟩ := loaded.references r (own among)
    have same : other = target := passes.eq_of_tableName listed leads.listed
      (table.trans leads.table)
    exact iff_of_true (Reference.placed_guarded (leads.isGlobal.trans (same ▸ owned))) rfl

/-- Every table of organizations is guarded, unless the data of children is fetched by a join
table. -/
theorem Populates.keepsTenancy_iff (populates : m.Populates fetch s) {settings : Settings}
    (passes : Audit.Passes models settings) (loaded : m.Loaded models) (member : m ∈ models)
    (tenant : m.isGlobal = false) :
    s.KeepsTenancy models ↔ ∀ c ∈ m.children, fetch c = .data → c.through = none := by
  have guarded := populates.guarded_iff passes loaded
  obtain ⟨parent, references, own, all⟩ := populates
  constructor
  · intro keeps c child data
    refine Option.not_isSome_iff_eq_none.mp fun through => ?_
    obtain ⟨target, leads⟩ := loaded.children c child
    have tenantTable : IsTenantTable models c.tableName :=
      ⟨target, leads.listed, leads.table.symm,
        (passes.child_tenancy member leads.listed child leads.model).trans tenant⟩
    have found : c.subquery? (fetch c) (some Binding.organization) parent =
        some (c.dataSubquery (some Binding.organization) parent) := by
      rw [data]
      rfl
    obtain ⟨placed, among, second⟩ := (Child.exists_second_iff found).mpr ⟨data, through⟩
    have listed := (all placed).mpr (.inl ⟨c, child, _, found, among⟩)
    rw [← Child.table_of_second found placed among second] at tenantTable
    have first := (guarded placed listed tenantTable).mp (keeps placed listed tenantTable)
    rw [second] at first
    cases first
  · intro direct placed listed tenantTable
    refine (guarded placed listed tenantTable).mpr (Bool.eq_false_iff.mpr fun second => ?_)
    rcases (all placed).mp listed with ⟨c, child, q, found, among⟩ | ⟨r, _, rfl⟩
    · obtain ⟨data, through⟩ := (Child.exists_second_iff found).mp ⟨placed, among, second⟩
      rw [direct c child data] at through
      cases through
    · cases second

inductive PopulatedRead (m : Model) (q : Query) : (Child → FetchType) → Select String → Prop
  | get {queries : List Query} (generated : m.queriesOf .selectOnePopulated = .ok queries)
      (member : q ∈ queries) : PopulatedRead m q Child.onGet (m.selectOneStatement true)
  | list {queries : List Query} {order : Option OrderBy}
      (generated : m.queriesOf .listPopulated = .ok queries) (member : q ∈ queries)
      (admitted : m.listOrder none = .ok order) :
      PopulatedRead m q Child.onList (m.listStatement true order)
  | ordered {request : Option String} {order : Option OrderBy}
      (generated : m.listQuery true request = .ok (some q))
      (admitted : m.listOrder request = .ok order) :
      PopulatedRead m q Child.onList (m.listStatement true order)

theorem PopulatedRead.populates {q : Query} (read : m.PopulatedRead q fetch s)
    (tenant : m.isGlobal = false) : m.Populates fetch s := by
  cases read with
  | get => exact selectOne_populates tenant
  | list => exact list_populates tenant _
  | ordered => exact list_populates tenant _

theorem queriesOf_selectOnePopulated (children : m.children ≠ []) :
    m.queriesOf .selectOnePopulated = .ok [(m.selectOnePlan true).query] := by
  have planned : m.selectOne? true = some (m.selectOnePlan true) :=
    selectOne?_eq_some.mpr ⟨fun _ => children, rfl⟩
  refine queriesOf_eq_ok.mpr ⟨[m.selectOnePlan true], ?_, rfl⟩
  rw [Model.plans, planned]
  rfl

theorem PopulatedRead.writes {q : Query} (read : m.PopulatedRead q fetch s) :
    q.Writes (.select s) := by
  have listed {request : Option String} {p : Plan} {order : Option OrderBy}
      (planned : m.list? true request = .ok (some p)) (admitted : m.listOrder request = .ok order) :
      p.statement = .select (m.listStatement true order) := by
    obtain ⟨_, other, found, rfl⟩ := list?_eq_some.mp planned
    rw [admitted] at found
    cases found
    rfl
  cases read with
  | get generated member =>
      obtain ⟨plans, planned, rfl⟩ := queriesOf_eq_ok.mp generated
      obtain ⟨p, among, rfl⟩ := List.mem_map.mp member
      cases planned
      obtain ⟨_, rfl⟩ := selectOne?_eq_some.mp (Option.mem_toList.mp among)
      exact (m.selectOnePlan true).writes_query
  | list generated member admitted =>
      obtain ⟨plans, planned, rfl⟩ := queriesOf_eq_ok.mp generated
      obtain ⟨p, among, rfl⟩ := List.mem_map.mp member
      obtain ⟨plan, found, rfl⟩ := Result.map_eq_ok.mp planned
      rw [Option.mem_toList.mp among] at found
      exact listed found admitted ▸ p.writes_query
  | ordered generated admitted =>
      obtain ⟨p, found, rfl⟩ := listQuery_eq_ok.mp generated
      exact listed found admitted ▸ p.writes_query

end Model

/-- Whatever definition is loaded and passes the audit, a populated read for the rows of an
organization guards every other table of organizations, but for the second table of a subquery.
There is such a table if and only if the data of some children is fetched by a join table. -/
theorem loadModels_keepsTenancy_iff {raw : Entries} {settings audited : Settings}
    {source : Option String} {models : List Model}
    (loaded : loadModels raw settings source = .ok models)
    (passes : Audit.Passes models audited) {m : Model} (member : m ∈ models)
    (tenant : m.isGlobal = false) {q : Query} {fetch : Child → FetchType} {s : Select String}
    (read : m.PopulatedRead q fetch s) :
    q.Writes (.select s) ∧
      (∀ placed ∈ s.placed, IsTenantTable models placed.table →
        (placed.Guarded ↔ placed.second = false)) ∧
      (s.KeepsTenancy models ↔ ∀ c ∈ m.children, fetch c = .data → c.through = none) := by
  have known := loadModels_loaded loaded member
  have populates := read.populates tenant
  exact ⟨read.writes, populates.guarded_iff passes known,
    populates.keepsTenancy_iff passes known member tenant⟩

theorem blog_keepsTenancy : ∃ models m q, loadModels (blog "id") .default none = .ok models ∧
    Audit.Passes models .default ∧ m ∈ models ∧ m.isGlobal = false ∧
    m.PopulatedRead q Child.onGet (m.selectOneStatement true) ∧
    (m.selectOneStatement true).placed ≠ [] ∧ (m.selectOneStatement true).KeepsTenancy models := by
  have loaded := loadModels_blog .id
  have member := blogPost_mem .id
  have read : (blogPost .id).PopulatedRead ((blogPost .id).selectOnePlan true).query Child.onGet
      ((blogPost .id).selectOneStatement true) :=
    .get (Model.queriesOf_selectOnePopulated (blogPost_children .id)) (List.mem_singleton_self _)
  have ids : ∀ c ∈ (blogPost .id).children, c.onGet = .data → c.through = none := by
    decide +kernel
  exact ⟨_, _, _, loaded, blog_passes .id, member, rfl, read, by decide +kernel,
    (loadModels_keepsTenancy_iff loaded (blog_passes .id) member rfl read).2.2.mpr ids⟩

def postWithTags : String :=
  "SELECT tb.id, tb.organization_id, tb.updated_at, tb.created_at, tb.title, " ++
    "(SELECT COALESCE(ARRAY_AGG(JSONB_BUILD_OBJECT('id', t.id, 'organization_id', " ++
    "t.organization_id, 'updated_at', t.updated_at, 'created_at', t.created_at, " ++
    "'label', t.label)), ARRAY[]::jsonb[]) FROM public.post_tags tt " ++
    "JOIN public.tags t ON tt.tag_id = t.id " ++
    "WHERE tt.post_id = $1 AND tt.organization_id = $2) AS \"tags\" " ++
    "FROM public.posts tb WHERE tb.id = $1 AND tb.organization_id = $2"

/-- The data of a post's tags comes from rows of any organization. -/
theorem blog_leaks : ∃ models m q, loadModels (blog "data") .default none = .ok models ∧
    Audit.Passes models .default ∧ m ∈ models ∧ m.isGlobal = false ∧
    m.queriesOf .selectOnePopulated = .ok [q] ∧ q.text = postWithTags ∧
    m.PopulatedRead q Child.onGet (m.selectOneStatement true) ∧
    ¬ (m.selectOneStatement true).KeepsTenancy models := by
  have text : ((blogPost .data).selectOnePlan true).query.text = postWithTags :=
    Plan.text_eq_of_bytes (by decide +kernel)
  have leaks : ¬ ((blogPost .data).selectOneStatement true).KeepsTenancy (blogModels .data) := by
    decide +kernel
  have generated := Model.queriesOf_selectOnePopulated (blogPost_children .data)
  exact ⟨_, _, _, loadModels_blog .data, blog_passes .data, blogPost_mem .data, rfl, generated,
    text, .get generated (List.mem_singleton_self _), leaks⟩

end TenantSql
