import TenantSql.Proofs.Query.Covers
import TenantSql.Proofs.Query.Deletion
import TenantSql.Proofs.Query.Tenancy

/-!
# Models of no organization

The statements of a global model are not about organizations, with two
exceptions: a deletion that asks for a permission asks for it within an
organization, and a field may be stored in a column of that name.
-/

namespace TenantSql

open Sql

namespace Model

variable {models : List Model} {m : Model}

/-! ## Bindings -/

section Bindings

variable {name : String}

theorem params_subquery {c : Child} {fetch : FetchType} {organization : Option String}
    {parent : Operand String} {q : Subquery String}
    (found : c.subquery? fetch organization parent = some q) :
    q.params = parent.params ++ organization.toList := by
  have tests (tableAlias : String) :
      (c.comparisons tableAlias organization parent).flatMap Comparison.params =
        parent.params ++ organization.toList := by
    cases organization <;> simp [Child.comparisons, Comparison.params, Operand.params]
  cases fetch with
  | none => cases found
  | id =>
      cases found
      exact tests "ct"
  | data =>
      cases found
      cases given : c.through <;>
        simp [Subquery.params, Child.dataSubquery, given, tests, Comparison.params, Operand.params]

theorem params_referenceTests (r : Reference) (tenantScoped : Bool) :
    (r.comparisons tenantScoped : List (Comparison String)).flatMap Comparison.params = [] := by
  unfold Reference.comparisons
  split <;> rfl

theorem params_columnItems (fields : List Field) :
    (columnItems fields).flatMap SelectItem.params = [] := by
  rw [columnItems, List.flatMap_map, List.flatMap_eq_nil_iff]
  exact fun _ _ => rfl

theorem organizationTest_global (isGlobal : m.isGlobal) (owner : Option String) :
    m.organizationTest owner = [] :=
  if_pos isGlobal

theorem mem_params_childItem (isGlobal : m.isGlobal) {c : Child} {fetch : FetchType}
    {parent : Operand String} {label : String} {item : SelectItem String}
    (found : (c.subquery? fetch m.nestedOrganization parent).map (.nested · label) = some item)
    (used : name ∈ item.params) : name ∈ parent.params := by
  obtain ⟨q, made, rfl⟩ := Option.map_eq_some_iff.mp found
  have params : name ∈ q.params := used
  simpa [params_subquery made, nestedOrganization, isGlobal] using params

theorem mem_params_selectOne (isGlobal : m.isGlobal) {populated : Bool}
    (used : name ∈ (m.selectOneStatement populated).params) :
    name ∈ m.idBindings ∨ name = Binding.id := by
  have ids := params_idTests m (some mainAlias)
  simp only [Condition.params_fragment] at ids
  simp only [Select.params, selectOneStatement, List.flatMap_append, params_columnItems,
    organizationTest_global isGlobal, ids, List.flatMap_nil, Option.toList_none, List.nil_append,
    List.append_nil, List.mem_append] at used
  rcases used with (nested | joined) | id
  · cases populated with
    | false => cases nested
    | true =>
        simp only [if_true, List.flatMap_append, List.mem_append, List.mem_flatMap] at nested
        rcases nested with ⟨item, child, among⟩ | ⟨item, reference, among⟩
        · obtain ⟨c, _, made⟩ := List.mem_filterMap.mp child
          exact .inr (List.mem_singleton.mp (mem_params_childItem isGlobal made among))
        · obtain ⟨r, _, rfl⟩ := List.mem_map.mp reference
          cases among
  · cases populated with
    | false => cases joined
    | true =>
        simp only [if_true, List.flatMap_map, Reference.leftJoin, params_referenceTests] at joined
        simp at joined
  · exact .inl id

theorem mem_params_list (isGlobal : m.isGlobal) {populated : Bool} {order : Option OrderBy}
    (used : name ∈ (m.listStatement populated order).params) :
    name = Binding.limit ∨ name = Binding.offset := by
  simp only [Select.params, listStatement, List.flatMap_append, params_columnItems,
    organizationTest_global isGlobal, List.flatMap_nil, List.nil_append, List.append_nil,
    List.mem_append] at used
  rcases used with nested | page
  · cases populated with
    | false => cases nested
    | true =>
        simp only [if_true, List.flatMap_append, List.mem_append, List.mem_flatMap] at nested
        rcases nested with ⟨item, child, among⟩ | ⟨item, reference, among⟩
        · obtain ⟨c, _, made⟩ := List.mem_filterMap.mp child
          cases mem_params_childItem isGlobal made among
        · obtain ⟨r, _, rfl⟩ := List.mem_map.mp reference
          have tests := params_referenceTests r (!m.isGlobal)
          have none : name ∈ ([] : List String) := tests ▸ among
          cases none
  · cases unpaged : m.unpaged with
    | true => simp [unpaged] at page
    | false => simpa [unpaged] using page

theorem organization_not_mem_update (isGlobal : m.isGlobal) (parent : Option Parent) :
    Binding.organization ∉ Fragment.params (m.updateStatement parent).fragment := by
  have names := organization_not_mem_names fun f held =>
    (name_ne_of_mem_writableFields (m := m) (f := f) (.inl held)).2
  rw [updateStatement_eq, Statement.params_update, params_assignments, List.flatMap_append,
    List.flatMap_append, params_idTests, organizationTest_global isGlobal]
  have ofParent : Binding.organization ∉ (parent.toList.map fun p =>
      Condition.holds (.equals (bare p.column) (.param Binding.parentId))).flatMap
        fun c => Fragment.params c.fragment := by
    cases parent with
    | none => exact List.not_mem_nil
    | some p =>
        have apart : Binding.organization ≠ Binding.parentId := by decide
        simpa [params_equals] using apart
  simp only [List.flatMap_nil, List.append_nil, List.mem_append, names, ofParent,
    m.organization_not_mem_idBindings, or_self, not_false_eq_true]

theorem organization_not_mem_insertion (isGlobal : m.isGlobal) {fields : List Field}
    (own : ∀ f ∈ fields, f.name ≠ "organization_id") (conflict : Option (Conflict String)) :
    Binding.organization ∉ (m.insertion fields conflict).values := by
  have names := organization_not_mem_names own
  have none : m.organizationBinding = [] := if_pos isGlobal
  simp only [insertion, none, List.append_nil, List.mem_append, names,
    m.organization_not_mem_idBindings, or_self, not_false_eq_true]

theorem organization_not_mem_upsertResolution (isGlobal : m.isGlobal) (p : Parent)
    (target : List String) :
    Binding.organization ∉ Fragment.params (Conflict.fragment ⟨target, m.upsertResolution p⟩) := by
  have apart : Binding.organization ≠ Binding.parentId := by decide
  have proposed : ((m.upsertFields p).map (fun f => (⟨f.column, .proposed⟩ : Assignment String)) ++
      [touch]).flatMap Assignment.params = [] := by
    rw [List.flatMap_append, List.flatMap_map]
    exact List.append_eq_nil_iff.mpr ⟨List.flatMap_eq_nil_iff.mpr fun _ _ => rfl, rfl⟩
  rw [Conflict.params_fragment, upsertResolution]
  cases (m.upsertFields p).isEmpty with
  | true => exact List.not_mem_nil
  | false =>
      simp only [Bool.false_eq_true, if_false, proposed, organizationTest_global isGlobal,
        List.nil_append, List.flatMap_singleton, params_equals, List.mem_singleton]
      exact apart

theorem organization_not_mem_upsert (isGlobal : m.isGlobal) (p : Parent) :
    Binding.organization ∉ Fragment.params (m.upsertPlan p).statement.fragment := by
  have own : ∀ f ∈ m.upsertDataFields p, f.name ≠ "organization_id" := fun f held =>
    (name_ne_of_mem_upsertFields (List.mem_filter.mp held).1).2
  have written : Fragment.params (m.upsertPlan p).statement.fragment =
      (m.insertion (m.upsertDataFields p) _).values ++
        Fragment.params (Conflict.fragment ⟨_, m.upsertResolution p⟩) :=
    Insert.params_fragment _
  rw [written, List.mem_append]
  exact not_or.mpr ⟨organization_not_mem_insertion isGlobal own _,
    organization_not_mem_upsertResolution isGlobal p _⟩

theorem organization_not_mem_insert (isGlobal : m.isGlobal) :
    Binding.organization ∉ Fragment.params m.insertPlan.statement.fragment := by
  have own : ∀ f ∈ m.ownerWritableFields, f.name ≠ "organization_id" := fun f held =>
    (name_ne_of_mem_writableFields (.inr held)).2
  have written : Fragment.params m.insertPlan.statement.fragment =
      (m.insertion m.ownerWritableFields none).values ++ [] := Insert.params_fragment _
  rw [written, List.append_nil]
  exact organization_not_mem_insertion isGlobal own none

theorem organization_not_mem_reserved_selectOne (isGlobal : m.isGlobal) (populated : Bool) :
    Binding.organization ∉ (m.selectOnePlan populated).reserved := by
  have bare : m.organizationBinding = [] := if_pos isGlobal
  have apart : Binding.organization ≠ Binding.id := by decide
  rw [selectOnePlan, bare, List.append_nil, List.mem_append]
  refine not_or.mpr ⟨m.organization_not_mem_idBindings, ?_⟩
  cases populated with
  | false => exact List.not_mem_nil
  | true => exact fun listed => apart (List.mem_singleton.mp listed)

theorem organization_not_mem_selectOne (isGlobal : m.isGlobal) (populated : Bool) :
    Binding.organization ∉ Fragment.params (m.selectOnePlan populated).statement.fragment := by
  intro used
  rw [selectOnePlan, Statement.fragment, Select.params_fragment] at used
  rcases mem_params_selectOne isGlobal used with key | id
  · exact m.organization_not_mem_idBindings key
  · exact absurd id (by decide)

theorem organization_not_mem_list (isGlobal : m.isGlobal) (populated : Bool)
    (order : Option OrderBy) :
    Binding.organization ∉ Fragment.params (m.listPlan populated order).statement.fragment := by
  intro used
  rw [listPlan, Statement.fragment, Select.params_fragment] at used
  rcases mem_params_list isGlobal used with limit | offset
  · exact absurd limit (by decide)
  · exact absurd offset (by decide)

/-- Of the statements of a global model, only a deletion that asks for a permission binds an
organization. -/
theorem HasPlan.organization_mem_bindings_iff (isGlobal : m.isGlobal) {p : Plan}
    (plan : m.HasPlan p) (other : p.name ≠ "lookup_object_permissions") :
    Binding.organization ∈ p.query.bindings ↔ p.name = "delete" ∧ m.checksPermission := by
  have bare : m.organizationBinding = [] := if_pos isGlobal
  have unbound {q : Plan} (name : q.name ≠ "delete") (unreserved : Binding.organization ∉ q.reserved)
      (absent : Binding.organization ∉ Fragment.params q.statement.fragment) :
      Binding.organization ∈ q.query.bindings ↔ q.name = "delete" ∧ m.checksPermission := by
    rw [Plan.mem_bindings]
    simp only [unreserved, absent, name, or_self, false_and]
  have unboundDeletions := m.not_mem_bindings_deleteChildren m.organization_not_mem_idBindings
    (bare ▸ List.not_mem_nil) (by decide) (by decide)
  have forParent {q : Plan} {stem parent : String}
      (member : stem ∈ OperationKind.deleteChildren.stems) (named : q.name = stem ++ parent)
      (absent : Binding.organization ∉ q.query.bindings) :
      Binding.organization ∈ q.query.bindings ↔ q.name = "delete" ∧ m.checksPermission :=
    iff_of_false absent fun both =>
      OperationKind.stem_append_ne .delete rfl member parent (named ▸ both.1)
  cases plan with
  | insert =>
      exact unbound (by simp [insertPlan]) List.not_mem_nil (organization_not_mem_insert isGlobal)
  | update =>
      exact unbound (by simp [updatePlan]) m.organization_not_mem_idBindings
        (organization_not_mem_update isGlobal none)
  | @updateWithParent parent plain listed =>
      have among : "update_one_with_parent_of_" ∈ OperationKind.updateOneWithParent.stems :=
        List.mem_cons_self
      exact unbound (OperationKind.stem_append_ne .delete rfl among parent.snakeName)
        m.organization_not_mem_idBindings (organization_not_mem_update isGlobal (some parent))
  | @selectOne populated children =>
      exact unbound (by cases populated <;> simp [selectOnePlan])
        (organization_not_mem_reserved_selectOne isGlobal populated)
        (organization_not_mem_selectOne isGlobal populated)
  | delete =>
      rw [Plan.mem_bindings, params_deletePlan, bare, List.append_nil, List.mem_append]
      cases checks : m.checksPermission <;>
        simp [deletePlan, m.organization_not_mem_idBindings]
  | @deleteAllChildren parent listed =>
      exact forParent List.mem_cons_self rfl (unboundDeletions parent).1
  | @deleteRemovedChildren parent listed =>
      exact forParent (List.mem_cons_of_mem _ List.mem_cons_self) rfl (unboundDeletions parent).2.1
  | @deleteWithParent parent listed =>
      exact forParent (List.mem_cons_of_mem _ (List.mem_cons_of_mem _ List.mem_cons_self)) rfl
        (unboundDeletions parent).2.2
  | @list populated request order children admitted =>
      exact unbound (by cases populated <;> simp [listPlan])
        (by rw [listPlan, bare]; exact List.not_mem_nil)
        (organization_not_mem_list isGlobal populated order)
  | @upsert parent listed =>
      have among : "upsert_single_child_of_" ∈ OperationKind.upsert.stems := List.mem_cons_self
      exact unbound (OperationKind.stem_append_ne .delete rfl among parent.snakeName)
        List.not_mem_nil (organization_not_mem_upsert isGlobal parent)
  | lookup => exact absurd rfl other

end Bindings

/-! ## Columns -/

/-- As names are read, the columns of the table include the given one: a model of the list has the
table and a field in this column. It is the model itself, or a model of another table whose name is
read alike. -/
def Stores (models : List Model) (m : Model) (column : String) : Prop :=
  ∃ other ∈ models, (other = m ∨ other.tableName ≠ m.tableName) ∧
    other.tableName.read = m.tableName.read ∧
    ∃ f ∈ other.fields, readName f.column = readName column

instance (models : List Model) (m : Model) (column : String) :
    Decidable (m.Stores models column) :=
  inferInstanceAs (Decidable (∃ other ∈ models, _ ∧ _ ∧ ∃ f ∈ other.fields, _))

def HoldsPermissions (m : Model) : Prop :=
  m.tableName.read = (⟨m.authSchema, "permissions"⟩ : TableName).read

theorem stores_of_hasColumn {settings : Settings} (passes : Audit.Passes models settings)
    (member : m ∈ models) {table : TableName} {column name : String}
    (held : HasColumn models table column) (same : table.read = m.tableName.read)
    (read : readName column = readName name) : m.Stores models name := by
  obtain ⟨other, listed, rfl, f, among, rfl⟩ := held
  refine ⟨other, listed, ?_, same, f, among, read⟩
  by_cases own : other.tableName = m.tableName
  · exact .inl (passes.eq_of_tableName listed member own)
  · exact .inr own

theorem stores_of_returnsInFull (loaded : m.Loaded models) (member : m ∈ models) {fields : List Field}
    {conflict : Option (Conflict String)}
    (returns : (Statement.insert (m.insertion fields conflict)).ReturnsInFull m.tableName
      "organization_id") : m.Stores models "organization_id" := by
  obtain ⟨_, full, listed, read⟩ := returns
  obtain ⟨f, held, rfl⟩ := List.mem_map.mp listed
  have own := (List.mem_filter.mp held).1
  have word : readName "organization_id" ∈ [readName f.column, "none", "false"] :=
    loaded.namesColumn f own _ _ (by decide) read
  refine ⟨m, member, .inl rfl, rfl, f, own, ?_⟩
  rcases List.mem_cons.mp word with same | other
  · exact same.symm
  · exact absurd other (by decide)

/-- A statement of a global model names the organization's column only if a field is stored there or
if a deletion asks for a permission to delete permissions. -/
theorem HasPlan.stores_of_names (all : ∀ m ∈ models, m.Loaded models) {settings : Settings}
    (passes : Audit.Passes models settings) (member : m ∈ models) (isGlobal : m.isGlobal) {p : Plan}
    (plan : m.HasPlan p) (other : p.name ≠ "lookup_object_permissions")
    (names : p.statement.Names m.tableName "organization_id") :
    m.Stores models "organization_id" ∨
      p.name = "delete" ∧ m.checksPermission ∧ m.HoldsPermissions := by
  rcases names with ⟨u, used, names⟩ | returns
  · rcases plan.covers all member other u used with covered | ⟨name, checks, of⟩
    · cases covered with
      | field of held =>
          exact .inl (stores_of_hasColumn passes member held (names.read_eq of) names.column)
      | id column =>
          have read := names.column
          rw [column] at read
          exact absurd read (by decide)
      | organization tenant =>
          rw [isGlobal] at tenant
          cases tenant
    · exact .inr ⟨name, checks, (names.read_eq of).symm⟩
  · cases plan with
    | insert => exact .inl (stores_of_returnsInFull (all m member) member returns)
    | upsert => exact .inl (stores_of_returnsInFull (all m member) member returns)
    | update | updateWithParent | selectOne | delete | deleteAllChildren | deleteRemovedChildren
    | deleteWithParent | list | lookup => cases returns

end Model

/-- Whatever definition is loaded and passes the audit, the queries of a global model bind no
organization, but for a deletion that asks for a permission; and they name the organization's column
of the model's table only if a field is stored there, but for such a deletion of permissions. The
lookup of permissions is left aside. -/
theorem loadModels_global {raw : Entries} {settings audited : Settings} {source : Option String}
    {models : List Model} (loaded : loadModels raw settings source = .ok models)
    (passes : Audit.Passes models audited) {m : Model} (member : m ∈ models)
    (isGlobal : m.isGlobal) {q : Query} (query : m.HasQuery q)
    (other : q.name ≠ "lookup_object_permissions") :
    ("organization_id" ∈ q.bindings ↔ q.name = "delete" ∧ m.checksPermission) ∧
      (∃ s, m.Generates q s) ∧
      ∀ s, m.Generates q s → q.Writes s ∧
        (s.Names m.tableName "organization_id" →
          m.Stores models "organization_id" ∨
            q.name = "delete" ∧ m.checksPermission ∧ m.HoldsPermissions) := by
  have all : ∀ m ∈ models, m.Loaded models := fun _ listed => loadModels_loaded loaded listed
  obtain ⟨p, plan, rfl⟩ := Model.hasQuery_iff.mp query
  refine ⟨plan.organization_mem_bindings_iff isGlobal other, ⟨_, p, plan, rfl, rfl⟩, ?_⟩
  rintro _ ⟨again, planned, same, rfl⟩
  have name : p.query.name = again.name := congrArg Query.name same
  rw [name] at other ⊢
  exact ⟨same ▸ again.writes_query,
    planned.stores_of_names all passes member isGlobal other⟩

def countries (fields : List Value) : Entries := .ofFields [("models", .list [
  .ofFields [("name", .text "Country"), ("global", .bool true),
    ("auth_check_in_query", .bool true), ("fields", .list fields)]])]

theorem countries_stayGlobal : ∃ models m q, loadModels (countries [.text "title"]) .default none =
      .ok models ∧
    Audit.Passes models .default ∧ m ∈ models ∧ m.isGlobal ∧ m.HasQuery q ∧ q.name = "select_one" ∧
    "organization_id" ∉ q.bindings ∧
    ∀ s, m.Generates q s → ¬ s.Names m.tableName "organization_id" := by
  obtain ⟨models, m, loaded, member, checked⟩ := exists_loaded (countries [.text "title"])
    (fun m models => !(Audit.findings models .default).hasErrors && m.isGlobal &&
      !decide (m.Stores models "organization_id")) (by decide +kernel)
  simp only [Bool.and_eq_true, Bool.not_eq_true', decide_eq_false_iff_not] at checked
  obtain ⟨⟨passes, isGlobal⟩, nowhere⟩ := checked
  have plan : m.HasPlan (m.selectOnePlan false) := .selectOne nofun
  have query : m.HasQuery (m.selectOnePlan false).query := Model.hasQuery_iff.mpr ⟨_, plan, rfl⟩
  have name : (m.selectOnePlan false).query.name = "select_one" := rfl
  have lookup : (m.selectOnePlan false).query.name ≠ "lookup_object_permissions" :=
    name ▸ by decide
  have delete : (m.selectOnePlan false).query.name ≠ "delete" := name ▸ by decide
  obtain ⟨bound, _, written⟩ := loadModels_global loaded passes member isGlobal query lookup
  refine ⟨models, m, _, loaded, passes, member, isGlobal, query, rfl, fun among => ?_,
    fun s generated names => ?_⟩
  · exact delete (bound.mp among).1
  · rcases (written s generated).2 names with stored | ⟨deletes, _⟩
    · exact nowhere stored
    · exact delete deletes

/-- The deletion of a country binds an organization, and if a field of countries is stored in a column
of that name, reads name it. -/
theorem countries_mentionOrganization : ∃ models m q r s,
    loadModels (countries [.ofFields [("name", .text "owner"), ("column", .text "organization_id")]])
      .default none = .ok models ∧
    Audit.Passes models .default ∧ m ∈ models ∧ m.isGlobal ∧
    m.HasQuery q ∧ q.name = "delete" ∧ "organization_id" ∈ q.bindings ∧
    m.HasQuery r ∧ r.name = "select_one" ∧ r.Writes s ∧
      s.Names m.tableName "organization_id" := by
  obtain ⟨models, m, loaded, member, checked⟩ := exists_loaded
    (countries [.ofFields [("name", .text "owner"), ("column", .text "organization_id")]])
    (fun m models => !(Audit.findings models .default).hasErrors && m.isGlobal &&
      m.deletePlan.query.bindings.contains "organization_id" &&
      m.readableFields.any fun f => f.column == "organization_id") (by decide +kernel)
  simp only [Bool.and_eq_true, Bool.not_eq_true', List.contains_iff_mem, List.any_eq_true,
    beq_iff_eq] at checked
  obtain ⟨⟨⟨passes, isGlobal⟩, bound⟩, f, held, column⟩ := checked
  have read : m.HasPlan (m.selectOnePlan false) := .selectOne nofun
  exact ⟨models, m, _, _, _, loaded, passes, member, isGlobal,
    Model.hasQuery_iff.mpr ⟨_, .delete, rfl⟩, rfl, bound, Model.hasQuery_iff.mpr ⟨_, read, rfl⟩, rfl,
    (m.selectOnePlan false).writes_query,
    .inl ⟨_, List.mem_append_left _ (m.mem_outputs_selectOne held),
      Model.names_main.mpr ⟨congrArg readName column, rfl⟩⟩⟩

end TenantSql
