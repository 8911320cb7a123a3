import TenantSql.Proofs.Query.Deletion
import TenantSql.Proofs.Query.Outputs

/-!
# Fields that are never read

A field that is never read is left out wherever statements return rows: after an
insertion, in reads and lists, in the objects of children and of referenced
rows, and in the ids that stand for children. Its column is returned in spite of
this only if a field that may be read has the same column, as names are read, or
a full name that is read as this column; or if it is the `id` of children that
are fetched by their ids.
-/

namespace TenantSql

open Sql

def IsColumnOf (models : List Model) (kind : Field → Bool) (table : TableName) (column : String) :
    Prop :=
  ∃ m ∈ models, m.tableName.read = table.read ∧
    ∃ f ∈ m.fields, kind f ∧ readName column = readName f.column

instance (models : List Model) (kind : Field → Bool) (table : TableName) (column : String) :
    Decidable (IsColumnOf models kind table column) :=
  inferInstanceAs (Decidable (∃ m ∈ models, _ ∧ ∃ f ∈ m.fields, _))

/-- As names are read, the full name is that of a column of the table that is never to be read. -/
def ShowsWithheld (models : List Model) (table : TableName) (full : String) : Prop :=
  ∃ m ∈ models, m.tableName.read = table.read ∧
    ∃ f ∈ m.fields, f.neverRead ∧ readName full = readName m.table ++ "." ++ readName f.column

instance (models : List Model) (table : TableName) (full : String) :
    Decidable (ShowsWithheld models table full) :=
  inferInstanceAs (Decidable (∃ m ∈ models, _ ∧ ∃ f ∈ m.fields, _))

namespace Sql

def Statement.Withholds (models : List Model) (s : Statement String) : Prop :=
  ∀ m ∈ models, ∀ f ∈ m.fields, f.neverRead → ¬ s.Returns m.tableName f.column

/-- No column at the top of the query is that of a field that lists omit. -/
def Statement.OmitsFromList (models : List Model) (s : Statement String) : Prop :=
  ∀ query, s = .select query → ∀ column, .column column ∈ query.items → ∀ m ∈ models,
    ∀ f ∈ m.fields, f.omitInList → ¬ Use.Names ⟨[query.scope], column⟩ m.tableName f.column

end Sql

namespace Model

variable {models : List Model} {m : Model}

structure Discreet (models : List Model) (m : Model) : Prop where
  columns : ∀ f ∈ m.readableFields, ¬ IsColumnOf models Field.neverRead m.tableName f.column
  fullNames : ∀ f ∈ m.readableFields, ¬ ShowsWithheld models m.tableName f.fullName
  ids : ∀ c ∈ m.children, m.ReturnsIds c → ¬ IsColumnOf models Field.neverRead c.tableName "id"
  lists : m.CanList → ∀ f ∈ m.listFields, ¬ IsColumnOf models Field.omitInList m.tableName f.column

/-! ## Discreet models withhold -/

theorem returns_of_insertion {fields : List Field} {conflict : Option (Conflict String)}
    (discreet : m.Discreet models) :
    (Statement.insert (m.insertion fields conflict)).Withholds models := by
  rintro other listed g among never (⟨u, output, _⟩ | ⟨into, full, returned, read⟩)
  · cases output
  · obtain ⟨f, held, rfl⟩ := List.mem_map.mp returned
    exact discreet.fullNames f held ⟨other, listed, into.symm, g, among, never, read⟩

/-- Whatever a statement returns besides full names is not withheld. -/
theorem HasPlan.outputs_withheld (all : ∀ m ∈ models, m.Loaded models)
    (discreet : ∀ m ∈ models, m.Discreet models) (member : m ∈ models) {p : Plan}
    (plan : m.HasPlan p) {other : Model} (listed : other ∈ models) {g : Field}
    (among : g ∈ other.fields) (never : g.neverRead) :
    ∀ u ∈ p.statement.outputs, ¬ u.Names other.tableName g.column := by
  intro u output names
  have read := names.column
  cases plan.mayReturn all member u output with
  | @field target f isModel held of column =>
      rw [column] at read
      exact (discreet target isModel).columns f held
        ⟨other, listed, (names.read_eq of).symm, g, among, never, read⟩
  | @id c returned of column =>
      rw [column] at read
      exact (discreet m member).ids c returned.child returned
        ⟨other, listed, (names.read_eq of).symm, g, among, never, read⟩

theorem HasPlan.withholds (all : ∀ m ∈ models, m.Loaded models)
    (discreet : ∀ m ∈ models, m.Discreet models) (member : m ∈ models) {p : Plan}
    (plan : m.HasPlan p) : p.statement.Withholds models := by
  rintro other listed g among never (⟨u, output, names⟩ | returned)
  · exact plan.outputs_withheld all discreet member listed among never u output names
  · cases plan with
    | insert =>
        exact returns_of_insertion (discreet m member) other listed g among never (.inr returned)
    | upsert =>
        exact returns_of_insertion (discreet m member) other listed g among never (.inr returned)
    | update | updateWithParent | selectOne | delete | deleteAllChildren | deleteRemovedChildren
    | deleteWithParent | list | lookup => cases returned

theorem omitsFromList_listPlan (discreet : m.Discreet models) {populated : Bool}
    {order : Option OrderBy} (canList : m.CanList) :
    (m.listPlan populated order).statement.OmitsFromList models := by
  intro _ same column item other listed f among omitted names
  cases same
  simp only [listStatement, List.mem_append] at item
  rcases item with own | nested
  · obtain ⟨g, held, same⟩ := List.mem_map.mp own
    cases same
    rw [scope_list] at names
    obtain ⟨read, table⟩ := names_main.mp names
    exact discreet.lists canList g held ⟨other, listed, table.symm, f, among, omitted, read⟩
  · cases populated with
    | false => cases nested
    | true =>
        simp only [if_true, List.mem_append] at nested
        rcases nested with child | reference
        · obtain ⟨c, _, made⟩ := List.mem_filterMap.mp child
          obtain ⟨q, _, same⟩ := Option.map_eq_some_iff.mp made
          cases same
        · obtain ⟨r, _, same⟩ := List.mem_map.mp reference
          cases same

theorem HasPlan.eq_listPlan {p : Plan} (plan : m.HasPlan p)
    (named : p.name = "list" ∨ p.name = "list_populated") :
    ∃ populated order, m.CanList ∧ p = m.listPlan populated order := by
  have forParent {kind : OperationKind} {stem : String} (member : stem ∈ kind.stems)
      (parent : String) : ¬ (stem ++ parent = "list" ∨ stem ++ parent = "list_populated") :=
    not_or.mpr ⟨OperationKind.stem_append_ne .list rfl member parent,
      OperationKind.stem_append_ne .listPopulated rfl member parent⟩
  have ofChildren {stem : String} (member : stem ∈ OperationKind.deleteChildren.stems) :=
    forParent member
  cases plan with
  | @list populated request order children admitted =>
      exact ⟨populated, order, ⟨request, order, admitted⟩, rfl⟩
  | insert | update | delete => simp [insertPlan, updatePlan, deletePlan] at named
  | lookup => simp at named
  | @selectOne populated children => cases populated <;> simp [selectOnePlan] at named
  | @updateWithParent parent plain listed =>
      have among : "update_one_with_parent_of_" ∈ OperationKind.updateOneWithParent.stems :=
        List.mem_cons_self
      exact absurd named (forParent among parent.snakeName)
  | @deleteAllChildren parent listed =>
      exact absurd named (ofChildren List.mem_cons_self parent.snakeName)
  | @deleteRemovedChildren parent listed =>
      exact absurd named (ofChildren (List.mem_cons_of_mem _ List.mem_cons_self) parent.snakeName)
  | @deleteWithParent parent listed =>
      exact absurd named (ofChildren (List.mem_cons_of_mem _
        (List.mem_cons_of_mem _ List.mem_cons_self)) parent.snakeName)
  | @upsert parent listed =>
      have among : "upsert_single_child_of_" ∈ OperationKind.upsert.stems := List.mem_cons_self
      exact absurd named (forParent among parent.snakeName)

/-! ## Models that do not are found out -/

def AllWithhold (models : List Model) : Prop :=
  ∀ m ∈ models, ∀ q s, m.Generates q s → s.Withholds models ∧
    (q.name = "list" ∨ q.name = "list_populated" → s.OmitsFromList models)

theorem names_childId {c : Child} (direct : c.through = none) {organization : Option String}
    {parent : Operand String} {outer : List Scope} {table : TableName} {name : String}
    (same : c.tableName.read = table.read) (read : readName "id" = readName name) :
    Use.Names ⟨(c.idSubquery organization parent).scope :: outer, ⟨some "ct", c.idColumn⟩⟩ table
      name := by
  have column : c.idColumn = "id" := by rw [Child.idColumn, direct]
  refine ⟨column ▸ read, (Column.known_qualified ⟨_, List.mem_cons_self, rfl⟩).mpr ?_⟩
  intro entry among _
  rw [List.mem_singleton.mp among]
  exact (congrArg TableName.read (idTable_direct direct)).trans same

theorem discreet_of_allWithhold (all : AllWithhold models) (member : m ∈ models) :
    m.Discreet models where
  columns f held := by
    rintro ⟨other, listed, same, g, among, never, read⟩
    -- The plain read returns every field that may be read.
    have plan : m.HasPlan (m.selectOnePlan false) := .selectOne nofun
    exact (all m member _ _ plan.generates).1 other listed g among never
      (.inl ⟨_, m.mem_outputs_selectOne held, names_main.mpr ⟨read, same.symm⟩⟩)
  fullNames f held := by
    rintro ⟨other, listed, same, g, among, never, read⟩
    -- The insertion returns the same fields, by their full names.
    have plan : m.HasPlan m.insertPlan := .insert
    exact (all m member _ _ plan.generates).1 other listed g among never
      (.inr ⟨same.symm, f.fullName, List.mem_map_of_mem held, read⟩)
  ids c _ returned := by
    rintro ⟨other, listed, same, g, among, never, read⟩
    -- The ids of children are nested in a populated read, or in a populated list.
    have children : m.children ≠ [] := List.ne_nil_of_mem returned.child
    rcases returned.fetched with onGet | ⟨⟨request, order, admitted⟩, onList⟩
    · have plan : m.HasPlan (m.selectOnePlan true) := .selectOne fun _ => children
      have item : .nested (c.idSubquery m.nestedOrganization (.param Binding.id)) c.getName ∈
          m.childItemsOnGet :=
        List.mem_filterMap.mpr ⟨c, returned.child, by rw [onGet]; rfl⟩
      have output : _ ∈ (m.selectOneStatement true).outputs :=
        List.mem_flatMap.mpr ⟨_, List.mem_append_right _ (List.mem_append_left _ item),
          List.mem_singleton_self _⟩
      exact (all m member _ _ plan.generates).1 other listed g among never
        (.inl ⟨_, output, names_childId returned.direct same.symm read⟩)
    · have plan : m.HasPlan (m.listPlan true order) := .list (fun _ => children) admitted
      have item : .nested (c.idSubquery m.nestedOrganization (.column ⟨some mainAlias, "id"⟩))
          c.listName ∈ m.childItemsOnList :=
        List.mem_filterMap.mpr ⟨c, returned.child, by rw [onList]; rfl⟩
      have output : _ ∈ (m.listStatement true order).outputs :=
        List.mem_flatMap.mpr ⟨_, List.mem_append_right _ (List.mem_append_left _ item),
          List.mem_singleton_self _⟩
      exact (all m member _ _ plan.generates).1 other listed g among never
        (.inl ⟨_, output, names_childId returned.direct same.symm read⟩)
  lists canList f held := by
    rintro ⟨other, listed, same, g, among, omitted, read⟩
    obtain ⟨request, order, admitted⟩ := canList
    have plan : m.HasPlan (m.listPlan false order) := .list nofun admitted
    have item : .column ⟨some mainAlias, f.column⟩ ∈ (m.listStatement false order).items :=
      List.mem_append_left _ (List.mem_map_of_mem held)
    have names : Use.Names ⟨[m.mainScope []], ⟨some mainAlias, f.column⟩⟩ other.tableName g.column :=
      names_main.mpr ⟨read, same.symm⟩
    exact (all m member _ _ plan.generates).2 (.inl rfl) _ rfl _ item other listed g among omitted
      names

theorem allWithhold_of_discreet (all : ∀ m ∈ models, m.Loaded models)
    (discreet : ∀ m ∈ models, m.Discreet models) : AllWithhold models := by
  rintro m member _ _ ⟨p, plan, rfl, rfl⟩
  refine ⟨plan.withholds all discreet member, fun named => ?_⟩
  obtain ⟨populated, order, canList, rfl⟩ := plan.eq_listPlan named
  exact omitsFromList_listPlan (discreet m member) canList

end Model

/-- Whatever definition is loaded, every query is written from a statement, and no statement returns
a column that is never to be read, and no list a column that lists omit at its top, if and only if
all models are discreet. -/
theorem loadModels_withholds_iff {raw : Entries} {settings : Settings} {source : Option String}
    {models : List Model} (loaded : loadModels raw settings source = .ok models) :
    (∀ m ∈ models, ∀ q, m.HasQuery q → ∃ s, m.Generates q s ∧ q.Writes s) ∧
      (Model.AllWithhold models ↔ ∀ m ∈ models, m.Discreet models) := by
  have all : ∀ m ∈ models, m.Loaded models := fun _ listed => loadModels_loaded loaded listed
  refine ⟨fun m _ q query => ?_,
    fun withhold m member => Model.discreet_of_allWithhold withhold member,
    Model.allWithhold_of_discreet all⟩
  obtain ⟨p, plan, rfl⟩ := Model.hasQuery_iff.mp query
  exact ⟨p.statement, plan.generates, p.writes_query⟩

def accounts (hint : String) : Entries := .ofFields [("models", .list [
  .ofFields [("name", .text "User"),
    ("fields", .list [
      .ofFields [("name", .text "password"), ("never_read", .bool true)],
      .ofFields [("name", .text "hint"), ("column", .text hint), ("omit_in_list", .bool true)]]),
    ("has", .list [
      .ofFields [("model", .text "Session"), ("populate_on_get", .text "data"),
        ("populate_on_list", .text "id")]])],
  .ofFields [("name", .text "Session"), ("belongs_to", .list [.text "User"]),
    ("fields", .list [.ofFields [("name", .text "token"), ("never_read", .bool true)]])]])]

theorem accounts_withhold : ∃ models m, loadModels (accounts "hint") .default none = .ok models ∧
    m ∈ models ∧ m.HasQuery (m.selectOnePlan true).query ∧
    (∃ f ∈ m.fields, f.column = "password" ∧ f.neverRead) ∧ Model.AllWithhold models := by
  obtain ⟨models, m, loaded, member, checked⟩ := exists_loaded (accounts "hint")
    (fun m models => !m.children.isEmpty &&
      m.fields.any (fun f => f.column == "password" && f.neverRead) &&
      decide (∀ m ∈ models,
        (∀ f ∈ m.readableFields, ¬ IsColumnOf models Field.neverRead m.tableName f.column ∧
          ¬ ShowsWithheld models m.tableName f.fullName) ∧
        (∀ c ∈ m.children, ¬ IsColumnOf models Field.neverRead c.tableName "id") ∧
        ∀ f ∈ m.listFields, ¬ IsColumnOf models Field.omitInList m.tableName f.column))
    (by decide +kernel)
  simp only [Bool.and_eq_true, Bool.not_eq_true', decide_eq_true_eq, List.isEmpty_eq_false_iff,
    List.any_eq_true, beq_iff_eq] at checked
  obtain ⟨⟨children, password⟩, apart⟩ := checked
  have discreet : ∀ m ∈ models, m.Discreet models := fun other listed =>
    { columns := fun f held => ((apart other listed).1 f held).1
      fullNames := fun f held => ((apart other listed).1 f held).2
      ids := fun c child _ => (apart other listed).2.1 c child
      lists := fun _ => (apart other listed).2.2 }
  exact ⟨models, m, loaded, member, Model.hasQuery_iff.mpr ⟨_, .selectOne fun _ => children, rfl⟩,
    password, (loadModels_withholds_iff loaded).2.mpr discreet⟩

def accountWithPassword : String :=
  "SELECT tb.id, tb.organization_id, tb.updated_at, tb.created_at, tb.password\n " ++
    "FROM public.users tb WHERE tb.id = $1 AND tb.organization_id = $2"

/-- A line end is admitted after the name of a column, so the hint can be in the column of the
password and is read from there. -/
theorem accounts_showPassword : ∃ models m q s,
    loadModels (accounts "password\n") .default none = .ok models ∧
    Audit.Passes models .default ∧ m ∈ models ∧ m.HasQuery q ∧ m.Generates q s ∧
    q.text = accountWithPassword ∧ ¬ s.Withholds models ∧ ¬ Model.AllWithhold models := by
  obtain ⟨models, m, loaded, member, checked⟩ := exists_loaded (accounts "password\n")
    (fun m models => !(Audit.findings models .default).hasErrors &&
      (m.selectOnePlan false).bytes == Text.bytes accountWithPassword &&
      m.readableFields.any (fun f => f.column == "password\n") &&
      m.fields.any fun f => f.column == "password" && f.neverRead) (by decide +kernel)
  simp only [Bool.and_eq_true, Bool.not_eq_true', beq_iff_eq, List.any_eq_true] at checked
  obtain ⟨⟨⟨passes, text⟩, f, held, column⟩, g, among, password, never⟩ := checked
  have plan : m.HasPlan (m.selectOnePlan false) := .selectOne nofun
  have same : readName f.column = readName g.column := by
    rw [column, password]
    decide
  have returned : ¬ (m.selectOnePlan false).statement.Withholds models := fun withholds =>
    withholds m member g among never
      (.inl ⟨_, m.mem_outputs_selectOne held, Model.names_main.mpr ⟨same, rfl⟩⟩)
  exact ⟨models, m, _, _, loaded, passes, member, Model.hasQuery_iff.mpr ⟨_, plan, rfl⟩,
    plan.generates, Plan.text_eq_of_bytes text, returned,
    fun all => returned (all m member _ _ plan.generates).1⟩

end TenantSql
