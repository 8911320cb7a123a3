import TenantSql.Proofs.Definition.Loaded
import TenantSql.Proofs.Query.Global
import TenantSql.Proofs.Query.Placeholder
import TenantSql.Proofs.Query.Population
import TenantSql.Proofs.Sql.Written
import TenantSql.Proofs.Text.Distinct

/-!
# Populated reads beside plain ones

A populated read is the plain one with more items behind its columns and, for
one row, with more tables behind the main one. What it adds needs no binding that
the plain read does not have, so both filter, order and page the same rows with
the same parameters.
-/

namespace TenantSql

open Sql Fragment

/-! ## What reads are made of -/

def Model.mainTable (m : Model) : String :=
  " FROM " ++ m.fullTable ++ " " ++ mainAlias

structure Sql.Select.Reads (s : Select String) (m : Model) (fields : List Field) : Prop where
  items : s.items = Model.columnItems fields
  table : s.table = m.tableName
  tableAlias : s.tableAlias = mainAlias
  joins : s.joins = []

/-- The populated query is the plain one and more: both bind the same names and write the same
columns, the same main table and the same rest. Further items stand directly before the main table,
and further tables directly behind it. -/
structure Sql.Query.Extends (populated plain : Query) (m : Model) (fields : List Field)
    (items : List (SelectItem String)) (joins : List (LeftJoin String)) (rest : Fragment String) :
    Prop where
  bindings : populated.bindings = plain.bindings
  fieldBindings : populated.fieldBindings = plain.fieldBindings
  plainText : plain.text =
    "SELECT " ++ ", ".intercalate (fields.map (·.qualified mainAlias)) ++ m.mainTable ++
      rest.write plain.parameter
  populatedText : populated.text =
    "SELECT " ++ ", ".intercalate (fields.map (·.qualified mainAlias)) ++
      String.join (items.map fun item => ", " ++ item.fragment.write plain.parameter) ++
      m.mainTable ++ String.join (joins.map fun join => join.fragment.write plain.parameter) ++
      rest.write plain.parameter

namespace Sql.Select

variable {s : Select String} {m : Model} {fields : List Field} {writeParam : String → String}
  {items : List (SelectItem String)} {joins : List (LeftJoin String)}

theorem Reads.write_columns (reads : s.Reads m fields) :
    (s.items.map fun item => item.fragment.write writeParam) =
      fields.map (·.qualified mainAlias) := by
  rw [reads.items, Model.columnItems, List.map_map]
  refine List.map_congr_left fun f _ => ?_
  simp only [Function.comp_apply, SelectItem.fragment, Column.write_fragment, Field.qualified]

theorem Reads.write_main (reads : s.Reads m fields) :
    " FROM " ++ (s.table.schema ++ "." ++ s.table.table) ++ " " ++ s.tableAlias = m.mainTable := by
  rw [reads.table, reads.tableAlias]
  rfl

theorem Reads.write_plain (reads : s.Reads m fields) :
    s.fragment.write writeParam =
      "SELECT " ++ ", ".intercalate (fields.map (·.qualified mainAlias)) ++ m.mainTable ++
        s.rest.write writeParam := by
  rw [write_fragment, reads.write_columns, reads.write_main, reads.joins, List.map_nil,
    String.join_nil, String.append_empty]

theorem Reads.write_extend (reads : s.Reads m fields) (some : fields ≠ []) :
    (s.extend items joins).fragment.write writeParam =
      "SELECT " ++ ", ".intercalate (fields.map (·.qualified mainAlias)) ++
        String.join (items.map fun item => ", " ++ item.fragment.write writeParam) ++
        m.mainTable ++ String.join (joins.map fun join => join.fragment.write writeParam) ++
        s.rest.write writeParam := by
  have columns : fields.map (·.qualified mainAlias) ≠ [] := by simpa using some
  have rest : (s.extend items joins).rest = s.rest := rfl
  rw [write_fragment, rest, extend, reads.joins, List.nil_append, List.map_append,
    reads.write_columns, reads.write_main, intercalate_append _ columns, List.map_map]
  simp only [Function.comp_def, String.append_assoc]

theorem Reads.params_items (reads : s.Reads m fields) : s.items.flatMap SelectItem.params = [] := by
  rw [reads.items, Model.params_columnItems]

end Sql.Select

/-! ## Bindings -/

namespace Plan

variable {plain populated : Plan} {s : Select String} {m : Model} {fields : List Field}
  {items : List (SelectItem String)} {joins : List (LeftJoin String)}

/-- Names that are reserved again, and those that the added parts use, are bound already. -/
theorem bindings_extend (again : List String) (reads : s.Reads m fields)
    (first : plain.statement = .select s)
    (second : populated.statement = .select (s.extend items joins))
    (reserved : populated.reserved = plain.reserved ++ again)
    (known : again ++ items.flatMap SelectItem.params ⊆ plain.reserved)
    (free : joins.flatMap (fun join => join.conditions.flatMap Comparison.params) = []) :
    populated.query.bindings = plain.query.bindings := by
  have used : plain.statement.fragment.params =
      s.conditions.flatMap Condition.params ++
        s.page.toList.flatMap fun page => [page.1, page.2] := by
    rw [first, Statement.fragment, Select.params_fragment, Select.params, reads.params_items,
      reads.joins]
    rfl
  have more : populated.statement.fragment.params =
      items.flatMap SelectItem.params ++ plain.statement.fragment.params := by
    rw [used, second, Statement.fragment, Select.params_fragment, Select.params, Select.extend,
      List.flatMap_append, reads.params_items, reads.joins, List.nil_append, List.nil_append, free,
      List.append_nil, List.append_assoc]
  -- What is bound already may be used again, wherever it stands.
  rw [bindings_query, bindings_query, reserved, more, ← Text.distinct_drop known]
  simp only [List.append_assoc]

theorem extends_of_reads (reads : s.Reads m fields) (some : fields ≠ [])
    (first : plain.statement = .select s)
    (second : populated.statement = .select (s.extend items joins))
    (data : populated.fields = plain.fields)
    (same : populated.query.bindings = plain.query.bindings) :
    populated.query.Extends plain.query m fields items joins s.rest := by
  have parameter : populated.query.parameter = plain.query.parameter := by
    funext name
    rw [Query.parameter, Query.parameter, same]
  have writesPlain : plain.query.text = plain.statement.fragment.write plain.query.parameter :=
    plain.writes_query
  have writes : populated.query.text =
      populated.statement.fragment.write populated.query.parameter := populated.writes_query
  refine ⟨same, ?_, ?_, ?_⟩
  · have bound (p : Plan) : p.query.fieldBindings = p.query.bindings.filter p.fields.contains := rfl
    rw [bound, bound, same, data]
  · rw [writesPlain, first]
    exact reads.write_plain
  · rw [writes, second, parameter]
    exact reads.write_extend some

end Plan

/-! ## The reads of a model -/

namespace Model

variable {m : Model}

theorem selectOne_reads : (m.selectOneStatement false).Reads m m.readableFields :=
  ⟨List.append_nil _, rfl, rfl, rfl⟩

theorem selectOne_extend : m.selectOneStatement true = (m.selectOneStatement false).extend
    (m.childItemsOnGet ++ m.referencesOnGet.map Reference.joinedItem)
    (m.referencesOnGet.map (·.leftJoin !m.isGlobal)) := by
  simp [selectOneStatement, Select.extend]

theorem list_reads (order : Option OrderBy) : (m.listStatement false order).Reads m m.listFields :=
  ⟨List.append_nil _, rfl, rfl, rfl⟩

theorem list_extend (order : Option OrderBy) : m.listStatement true order =
    (m.listStatement false order).extend
      (m.childItemsOnList ++ m.referencesOnList.map (·.nestedItem !m.isGlobal)) [] := by
  simp [listStatement, Select.extend]

theorem params_childItems {parent : Operand String} {fetch : Child → FetchType}
    {label : Child → String} :
    (m.children.filterMap fun c => (c.subquery? (fetch c) m.nestedOrganization parent).map
      (SelectItem.nested · (label c))).flatMap SelectItem.params ⊆
        parent.params ++ m.organizationBinding := by
  intro name used
  obtain ⟨item, listed, among⟩ := List.mem_flatMap.mp used
  obtain ⟨c, _, made⟩ := List.mem_filterMap.mp listed
  obtain ⟨q, found, rfl⟩ := Option.map_eq_some_iff.mp made
  have organization : m.nestedOrganization.toList = m.organizationBinding := by
    cases tenancy : m.isGlobal <;> simp [nestedOrganization, organizationBinding, tenancy]
  have params : name ∈ q.params := among
  rwa [params_subquery found, organization] at params

theorem params_references {item : Reference → SelectItem String}
    (free : ∀ r, (item r).params = []) (references : List Reference) :
    (references.map item).flatMap SelectItem.params = [] := by
  rw [List.flatMap_map, List.flatMap_eq_nil_iff]
  exact fun r _ => free r

/-- The populated read of a row binds what the plain one binds: the id of the row and its
organization are bound in front of all. -/
theorem bindings_selectOne (lawful : m.Lawful) (children : m.children ≠ []) :
    (m.selectOnePlan true).query.bindings = (m.selectOnePlan false).query.bindings := by
  have bound : Binding.id ∈ (m.selectOnePlan false).reserved := by
    simp [selectOnePlan, id_mem_idBindings lawful children]
  have organization : m.organizationBinding ⊆ (m.selectOnePlan false).reserved := by
    intro name among
    simp [selectOnePlan, among]
  refine Plan.bindings_extend [Binding.id] selectOne_reads rfl
    (congrArg Statement.select selectOne_extend) (by simp [selectOnePlan]) ?_ ?_
  · refine List.append_subset.mpr ⟨List.cons_subset.mpr ⟨bound, List.nil_subset _⟩, ?_⟩
    rw [List.flatMap_append, params_references (fun _ => rfl), List.append_nil]
    refine List.Subset.trans params_childItems ?_
    exact List.append_subset.mpr ⟨List.cons_subset.mpr ⟨bound, List.nil_subset _⟩, organization⟩
  · rw [List.flatMap_map, List.flatMap_eq_nil_iff]
    exact fun r _ => params_referenceTests r _

/-- The populated list binds what the plain one binds: its children belong to rows of the list. -/
theorem bindings_list (order : Option OrderBy) :
    (m.listPlan true order).query.bindings = (m.listPlan false order).query.bindings := by
  refine Plan.bindings_extend [] (list_reads order) rfl
    (congrArg Statement.select (list_extend order)) (List.append_nil _).symm ?_ rfl
  have free (r : Reference) : (r.nestedItem !m.isGlobal).params = [] := params_referenceTests r _
  rw [List.nil_append, List.flatMap_append, params_references free, List.append_nil]
  exact params_childItems

theorem write_rest_selectOne {writeParam : String → String} :
    (m.selectOneStatement false).rest.write writeParam =
      " WHERE " ++ " AND ".intercalate ((m.idTests (some mainAlias) ++
        m.organizationTest (some mainAlias)).map fun c => c.fragment.write writeParam) := by
  have tests : m.idTests (some mainAlias) ++ m.organizationTest (some mainAlias) ≠ [] := by
    cases joined : m.join <;> simp [idTests, idComparisons, idColumns, joined]
  simp only [Select.rest, selectOneStatement, List.append_nil, write_whereClause tests]

theorem selectOne_extends (lawful : m.Lawful) (children : m.children ≠ [])
    (some : m.readableFields ≠ []) :
    (m.selectOnePlan true).query.Extends (m.selectOnePlan false).query m m.readableFields
      (m.childItemsOnGet ++ m.referencesOnGet.map Reference.joinedItem)
      (m.referencesOnGet.map (·.leftJoin !m.isGlobal)) (m.selectOneStatement false).rest :=
  Plan.extends_of_reads selectOne_reads some rfl (congrArg Statement.select selectOne_extend) rfl
    (bindings_selectOne lawful children)

theorem list_extends (some : m.listFields ≠ []) (order : Option OrderBy) :
    (m.listPlan true order).query.Extends (m.listPlan false order).query m m.listFields
      (m.childItemsOnList ++ m.referencesOnList.map (·.nestedItem !m.isGlobal)) []
      (m.listStatement false order).rest :=
  Plan.extends_of_reads (list_reads order) some rfl (congrArg Statement.select (list_extend order))
    rfl (bindings_list order)

end Model

/-- Whatever definition is loaded, the populated reads of a model with children extend its plain
ones, in every order that is admitted. -/
theorem loadModels_extends {raw : Entries} {settings : Settings} {source : Option String}
    {models : List Model} (loaded : loadModels raw settings source = .ok models) {m : Model}
    (member : m ∈ models) (children : m.children ≠ []) :
    (∃ plain populated tests, m.queriesOf .selectOne = .ok [plain] ∧
      m.queriesOf .selectOnePopulated = .ok [populated] ∧
      populated.Extends plain m m.readableFields
        (m.childItemsOnGet ++ m.referencesOnGet.map Reference.joinedItem)
        (m.referencesOnGet.map (·.leftJoin !m.isGlobal)) (m.selectOneStatement false).rest ∧
      (m.selectOneStatement false).rest.write plain.parameter = " WHERE " ++ tests) ∧
    ∀ request order, m.listOrder request = .ok order →
      ∃ plain populated, m.listQuery false request = .ok (some plain) ∧
        m.listQuery true request = .ok (some populated) ∧
        populated.Extends plain m m.listFields
          (m.childItemsOnList ++ m.referencesOnList.map (·.nestedItem !m.isGlobal)) []
          (m.listStatement false order).rest := by
  have lawful := Model.lawful_of_rules (loadModels_loaded loaded member).rules
  have lists := listFields_ne_nil loaded member
  constructor
  · refine ⟨_, _, _, ?_, Model.queriesOf_selectOnePopulated children,
      Model.selectOne_extends lawful children (Model.readableFields_ne_nil lists),
      Model.write_rest_selectOne⟩
    exact Model.queriesOf_eq_ok.mpr ⟨[m.selectOnePlan false], rfl, rfl⟩
  · intro request order admitted
    have query (populated : Bool) : m.listQuery populated request =
        .ok (some (m.listPlan populated order).query) :=
      Model.listQuery_eq_ok.mpr
        ⟨_, Model.list?_eq_some.mpr ⟨fun _ => children, order, admitted, rfl⟩, rfl⟩
    exact ⟨_, _, query false, query true, Model.list_extends lists order⟩

def journal : Entries := .ofFields [("models", .list [
  .ofFields [("name", .text "Post"), ("fields", .list [.text "title"]),
    ("has", .list [.ofFields [("model", .text "Comment"), ("populate_on_get", .text "data"),
      ("populate_on_list", .text "id")]]),
    ("references", .list [.ofFields [("model", .text "Author")]])],
  .ofFields [("name", .text "Comment"), ("belongs_to", .list [.text "Post"])],
  .ofFields [("name", .text "Author")]])]

theorem journal_extends : ∃ models m order read joins lists plain populated listed filled,
    loadModels journal .default none = .ok models ∧ m ∈ models ∧ m.children ≠ [] ∧
      List.length read = 2 ∧ List.length joins = 1 ∧ List.length lists = 1 ∧
      m.queriesOf .selectOne = .ok [plain] ∧ m.queriesOf .selectOnePopulated = .ok [populated] ∧
      populated.Extends plain m m.readableFields read joins (m.selectOneStatement false).rest ∧
      m.listOrder (some "-created_at") = .ok order ∧
      m.listQuery false (some "-created_at") = .ok (some listed) ∧
      m.listQuery true (some "-created_at") = .ok (some filled) ∧
      filled.Extends listed m m.listFields lists [] (m.listStatement false order).rest := by
  obtain ⟨models, m, loaded, member, checked⟩ := exists_loaded journal
    (fun m _ => !m.children.isEmpty &&
      (m.childItemsOnGet ++ m.referencesOnGet.map Reference.joinedItem).length == 2 &&
      (m.referencesOnGet.map (·.leftJoin (π := String) !m.isGlobal)).length == 1 &&
      (m.childItemsOnList ++
        m.referencesOnList.map fun (r : Reference) => r.nestedItem !m.isGlobal).length == 1 &&
      (m.listOrder (some "-created_at")).isOk) (by decide +kernel)
  simp only [Bool.and_eq_true, Bool.not_eq_true', beq_iff_eq, List.isEmpty_eq_false_iff] at checked
  obtain ⟨⟨⟨⟨children, read⟩, joins⟩, lists⟩, accepted⟩ := checked
  obtain ⟨order, admitted⟩ : ∃ order, m.listOrder (some "-created_at") = .ok order := by
    cases ordered : m.listOrder (some "-created_at") with
    | ok order => exact ⟨order, rfl⟩
    | error e =>
        rw [ordered] at accepted
        cases accepted
  obtain ⟨⟨plain, populated, _, one, more, readExtends, _⟩, extendsLists⟩ :=
    loadModels_extends loaded member children
  obtain ⟨listed, filled, list, fill, listExtends⟩ :=
    extendsLists (some "-created_at") order admitted
  exact ⟨models, m, order, _, _, _, plain, populated, listed, filled, loaded, member, children,
    read, joins, lists, one, more, readExtends, admitted, list, fill, listExtends⟩

end TenantSql
