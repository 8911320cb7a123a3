import TenantSql.Proofs.Query.Closure
import TenantSql.Proofs.Sql.Uses

/-!
# What statements return

The columns that the statements of a model return, at the top and inside nested
rows. They are the columns of fields that may be read, each in the table of its
model, with one exception: children that are fetched by their ids alone are
returned by `id`, whether or not that is a field.
-/

namespace TenantSql

open Sql

namespace Model

variable {models : List Model} {m : Model}

def CanList (m : Model) : Prop :=
  ∃ request order, m.listOrder request = .ok order

structure ReturnsIds (m : Model) (c : Child) : Prop where
  child : c ∈ m.children
  direct : c.through = none
  fetched : c.onGet = .id ∨ m.CanList ∧ c.onList = .id

inductive MayReturn (models : List Model) (m : Model) (u : Use) : Prop
  | field {target : Model} {f : Field} (listed : target ∈ models) (held : f ∈ target.readableFields)
      (of : u.Of target.tableName) (column : u.column.name = f.column)
  | id {c : Child} (returned : m.ReturnsIds c) (of : u.Of c.tableName)
      (column : u.column.name = "id")

/-! ## Scopes of reads -/

theorem scope_list (m : Model) (populated : Bool) (order : Option OrderBy) :
    (m.listStatement populated order).scope = m.mainScope [] := rfl

theorem main_mem_mainScope (m : Model) (references : List Reference) :
    (mainAlias, m.tableName) ∈ m.mainScope references :=
  List.mem_cons_self

theorem reference_mem_mainScope {references : List Reference} {r : Reference}
    (among : r ∈ references) : (r.tableAlias, r.tableName) ∈ m.mainScope references :=
  List.mem_cons_of_mem _ (List.mem_map_of_mem among)

theorem names_main {references : List Reference} {column name : String} {table : TableName} :
    Use.Names ⟨[m.mainScope references], ⟨some mainAlias, column⟩⟩ table name ↔
      readName column = readName name ∧ m.tableName.read = table.read := by
  refine ⟨fun names => ⟨names.column, ?_⟩, fun ⟨column, same⟩ => ⟨column, ?_⟩⟩
  · exact names.read_eq (Use.of_qualified (main_mem_mainScope m references))
  · refine (Column.known_qualified ⟨_, main_mem_mainScope m references, rfl⟩).mpr ?_
    intro entry among named
    rcases List.mem_cons.mp among with rfl | joined
    · exact same
    · obtain ⟨r, _, rfl⟩ := List.mem_map.mp joined
      exact absurd named r.tableAlias_ne_mainAlias

theorem mem_outputs_columnItems {fields : List Field} {f : Field} (held : f ∈ fields)
    (scopes : List Scope) :
    ⟨scopes, ⟨some mainAlias, f.column⟩⟩ ∈
      (columnItems fields).flatMap (SelectItem.outputs scopes) :=
  List.mem_flatMap.mpr ⟨.column ⟨some mainAlias, f.column⟩, List.mem_map_of_mem held,
    List.mem_singleton_self _⟩

theorem mem_outputs_selectOne (m : Model) {f : Field} (held : f ∈ m.readableFields) :
    ⟨[m.mainScope []], ⟨some mainAlias, f.column⟩⟩ ∈ (m.selectOneStatement false).outputs := by
  rw [Select.outputs, scope_selectOne, selectOneStatement, List.flatMap_append]
  exact List.mem_append_left _ (mem_outputs_columnItems held _)

theorem outputs_objectOf (scopes : List Scope) (fields : List Field) (owner : Option String) :
    (RowValue.object (objectOf fields owner)).outputs scopes =
      fields.map fun f => ⟨scopes, ⟨owner, f.column⟩⟩ := by
  rw [RowValue.outputs, objectOf, List.map_map]
  rfl

/-! ## Items -/

theorem mayReturn_of_columnItems (member : m ∈ models) {fields : List Field}
    (readable : ∀ f ∈ fields, f ∈ m.readableFields) {references : List Reference} {u : Use}
    (output : u ∈ (columnItems fields).flatMap (SelectItem.outputs [m.mainScope references])) :
    m.MayReturn models u := by
  obtain ⟨item, listed, among⟩ := List.mem_flatMap.mp output
  obtain ⟨f, held, rfl⟩ := List.mem_map.mp listed
  rw [List.mem_singleton.mp among]
  exact .field member (readable f held)
    (Use.of_qualified (main_mem_mainScope m references)) rfl

theorem mayReturn_childColumn (all : ∀ m ∈ models, m.Loaded models) {c : Child} {target : Model}
    (leads : c.Leads models target) {through : Through} (given : c.through = some through)
    {u : Use} (of : u.Of c.idTable) (column : u.column.name = through.childColumn) :
    m.MayReturn models u := by
  -- In a join table the id of a child is a parent's field, and these may be read.
  obtain ⟨join, listed, joins⟩ := leads.indirect through given
  obtain ⟨p, parent, _, same⟩ := joins.childColumn
  obtain ⟨f, held, _, fieldColumn, _, neverRead⟩ := (all join listed).parentFields p parent
  rw [idTable_through given, joins.table] at of
  refine .field listed (List.mem_filter.mpr ⟨held, by simp [neverRead]⟩) of ?_
  rw [column, fieldColumn, same]

theorem of_data {c : Child} {organization : Option String} {parent : Operand String}
    {outer : List Scope} {name : String} :
    Use.Of ⟨(c.dataSubquery organization parent).scope :: outer, ⟨some "t", name⟩⟩ c.tableName := by
  have among : ("t", c.tableName) ∈ (c.dataSubquery organization parent).scope := by
    cases given : c.through with
    | none => simp [Subquery.scope, Child.dataSubquery, given, idTable_direct given]
    | some through => simp [Subquery.scope, Child.dataSubquery, given, Child.tableName]
  exact Use.of_qualified among

theorem mayReturn_of_subquery (all : ∀ m ∈ models, m.Loaded models) {c : Child} {target : Model}
    (leads : c.Leads models target) {fetch : FetchType}
    (returned : fetch = .id → c.through = none → m.ReturnsIds c)
    {organization : Option String} {parent : Operand String} {q : Subquery String}
    (found : c.subquery? fetch organization parent = some q) {outer : List Scope} {u : Use}
    (output : u ∈ q.value.outputs (q.scope :: outer)) : m.MayReturn models u := by
  cases fetch with
  | none => cases found
  | id =>
      cases found
      rw [List.mem_singleton.mp output]
      have of : Use.Of ⟨(c.idSubquery organization parent).scope :: outer,
          ⟨some "ct", c.idColumn⟩⟩ c.idTable := Use.of_first
      cases given : c.through with
      | none =>
          refine .id (returned rfl given) (idTable_direct given ▸ of) ?_
          rw [Child.idColumn, given]
      | some through =>
          refine mayReturn_childColumn all leads given of ?_
          rw [Child.idColumn, given]
  | data =>
      cases found
      have value : (c.dataSubquery organization parent).value =
          .object (objectOf c.fields (some "t")) := rfl
      rw [value, outputs_objectOf] at output
      obtain ⟨f, held, rfl⟩ := List.mem_map.mp output
      rw [leads.fields] at held
      exact .field leads.listed held (leads.table ▸ of_data) rfl

theorem mayReturn_of_reference {r : Reference} {target : Model} (leads : r.Leads models m target)
    {scopes : List Scope} {u : Use}
    (of : ∀ name, Use.Of ⟨scopes, ⟨some r.tableAlias, name⟩⟩ r.tableName)
    (output : u ∈ (RowValue.object r.objectEntries).outputs scopes) : m.MayReturn models u := by
  rw [Reference.objectEntries, outputs_objectOf] at output
  obtain ⟨f, held, rfl⟩ := List.mem_map.mp output
  exact .field leads.listed (leads.fields f held) (leads.table ▸ of f.column) rfl

/-! ## Reads -/

theorem mayReturn_of_selectOne (all : ∀ m ∈ models, m.Loaded models) (member : m ∈ models)
    (populated : Bool) {u : Use} (output : u ∈ (m.selectOneStatement populated).outputs) :
    m.MayReturn models u := by
  rw [Select.outputs, scope_selectOne] at output
  simp only [selectOneStatement, List.flatMap_append, List.mem_append] at output
  rcases output with own | nested
  · exact mayReturn_of_columnItems member (fun _ held => held) own
  · cases populated with
    | false => cases nested
    | true =>
        simp only [if_true, List.flatMap_append, List.mem_append, List.mem_flatMap] at nested
        rcases nested with ⟨item, child, among⟩ | ⟨item, reference, among⟩
        · obtain ⟨c, listed, made⟩ := List.mem_filterMap.mp child
          obtain ⟨q, found, rfl⟩ := Option.map_eq_some_iff.mp made
          obtain ⟨target, leads⟩ := (all m member).children c listed
          exact mayReturn_of_subquery all leads (fun byId direct => ⟨listed, direct, .inl byId⟩) found
            among
        · obtain ⟨r, listed, rfl⟩ := List.mem_map.mp reference
          obtain ⟨target, leads⟩ := (all m member).references r (List.mem_filter.mp listed).1
          exact mayReturn_of_reference leads
            (fun _ => Use.of_qualified (reference_mem_mainScope listed)) among

theorem mayReturn_of_list (all : ∀ m ∈ models, m.Loaded models) (member : m ∈ models)
    (populated : Bool) {order : Option OrderBy} (canList : m.CanList) {u : Use}
    (output : u ∈ (m.listStatement populated order).outputs) : m.MayReturn models u := by
  rw [Select.outputs, scope_list] at output
  simp only [listStatement, List.flatMap_append, List.mem_append] at output
  rcases output with own | nested
  · refine mayReturn_of_columnItems member (fun f held => ?_) own
    obtain ⟨held, listed⟩ := List.mem_filter.mp held
    exact List.mem_filter.mpr ⟨held, (Bool.and_eq_true _ _ ▸ listed).1⟩
  · cases populated with
    | false => cases nested
    | true =>
        simp only [if_true, List.flatMap_append, List.mem_append, List.mem_flatMap] at nested
        rcases nested with ⟨item, child, among⟩ | ⟨item, reference, among⟩
        · obtain ⟨c, listed, made⟩ := List.mem_filterMap.mp child
          obtain ⟨q, found, rfl⟩ := Option.map_eq_some_iff.mp made
          obtain ⟨target, leads⟩ := (all m member).children c listed
          exact mayReturn_of_subquery all leads
            (fun byId direct => ⟨listed, direct, .inr ⟨canList, byId⟩⟩) found among
        · obtain ⟨r, listed, rfl⟩ := List.mem_map.mp reference
          obtain ⟨target, leads⟩ := (all m member).references r (List.mem_filter.mp listed).1
          have placed : (r.tableAlias, r.tableName) ∈ [(r.tableAlias, r.tableName)] :=
            List.mem_cons_self
          exact mayReturn_of_reference leads (fun _ => Use.of_qualified placed) among

/-- What the statements of a model return are columns of fields that may be read, or ids of
children. -/
theorem HasPlan.mayReturn (all : ∀ m ∈ models, m.Loaded models) (member : m ∈ models) {p : Plan}
    (plan : m.HasPlan p) : ∀ u ∈ p.statement.outputs, m.MayReturn models u := by
  intro u output
  cases plan with
  | insert | update | updateWithParent | delete | deleteAllChildren | deleteRemovedChildren
  | deleteWithParent | upsert | lookup => cases output
  | @selectOne populated children => exact mayReturn_of_selectOne all member populated output
  | @list populated request order children admitted =>
      exact mayReturn_of_list all member populated ⟨request, order, admitted⟩ output

end Model

end TenantSql
