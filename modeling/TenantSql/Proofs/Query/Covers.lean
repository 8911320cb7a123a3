import TenantSql.Proofs.Query.Outputs
import TenantSql.Proofs.Query.Values

/-!
# What the columns in statements are

Every column in a statement is that of a field in the table of its model, or the
`id` of a row. Statements of models that belong to organizations name the
organization besides, and the test of a permission has columns of the permission
table.
-/

namespace TenantSql

open Sql

namespace Model

variable {models : List Model} {m : Model}

/-! ## Columns by what they are -/

/-- What a column in a statement of the model is, if it is not in the test of a permission. -/
inductive Covers (models : List Model) (m : Model) (u : Use) : Prop
  | field {table : TableName} (of : u.Of table) (held : HasColumn models table u.column.name)
  | id (column : u.column.name = "id")
  | organization (tenant : m.isGlobal = false) (column : u.column.name = "organization_id")

theorem MayReturn.covers {u : Use} (returned : m.MayReturn models u) : m.Covers models u := by
  cases returned with
  | field listed held of column =>
      exact .field of (column ▸ hasColumn_own listed (List.mem_filter.mp held).1)
  | id _ _ column => exact .id column

def Stands (m : Model) (scopes : List Scope) (owner : Option String) : Prop :=
  ∀ name, Use.Of ⟨scopes, ⟨owner, name⟩⟩ m.tableName

section Tests

variable {scopes : List Scope} {owner : Option String} {u : Use}

theorem covers_own (member : m ∈ models) (stands : m.Stands scopes owner) {column : String}
    (held : ∃ f ∈ m.fields, f.column = column) : m.Covers models ⟨scopes, ⟨owner, column⟩⟩ := by
  obtain ⟨f, own, rfl⟩ := held
  exact .field (stands _) (hasColumn_own member own)

theorem covers_idColumn (loaded : m.Loaded models) (member : m ∈ models)
    (stands : m.Stands scopes owner) {column : String} (key : column ∈ m.idColumns.map (·.1)) :
    m.Covers models ⟨scopes, ⟨owner, column⟩⟩ := by
  cases joined : m.join with
  | none =>
      rw [idColumns, joined, List.map_singleton, List.mem_singleton] at key
      exact .id key
  | some join =>
      have among : column ∈ m.joinIdNames := by
        simpa [idColumns, joinIdNames, Join.idNames, joined] using key
      obtain ⟨f, held, _, same⟩ := (lawful_of_rules loaded.rules).joinIds column among
      exact covers_own member stands ⟨f, held, same⟩

theorem covers_idTests (loaded : m.Loaded models) (member : m ∈ models)
    (stands : m.Stands scopes owner)
    (used : u ∈ (m.idTests owner).flatMap (Condition.uses scopes)) : m.Covers models u := by
  obtain ⟨condition, tested, among⟩ := List.mem_flatMap.mp used
  simp only [idTests, idComparisons, List.map_map, List.mem_map, Function.comp_apply] at tested
  obtain ⟨column, listed, rfl⟩ := tested
  rw [List.mem_singleton.mp among]
  exact covers_idColumn loaded member stands (List.mem_map_of_mem listed)

theorem covers_organizationTest
    (used : u ∈ (m.organizationTest owner).flatMap (Condition.uses scopes)) :
    m.Covers models u := by
  cases tenant : m.isGlobal with
  | true => simp [organizationTest, tenant] at used
  | false =>
      simp only [organizationTest, tenant, Bool.false_eq_true, if_false, List.flatMap_singleton]
        at used
      rw [List.mem_singleton.mp used]
      exact .organization tenant rfl

theorem covers_parentColumn (loaded : m.Loaded models) (member : m ∈ models)
    (stands : m.Stands scopes owner) {p : Parent} (parent : p ∈ m.parents) :
    m.Covers models ⟨scopes, ⟨owner, p.column⟩⟩ :=
  covers_own member stands (loaded.parents p parent).2

end Tests

/-! ## Statements that write -/

theorem stands_bare : m.Stands [m.tableName.scope] none :=
  fun _ => Use.of_bare (List.mem_singleton_self (m.table, m.tableName))

section Writes

variable {scope : Scope} {u : Use}

theorem covers_touch (loaded : m.Loaded models) (member : m ∈ models)
    (stands : m.Stands [scope] none) (used : u ∈ (touch : Assignment String).uses scope) :
    m.Covers models u := by
  obtain ⟨keys, rest, listed, _, all⟩ := loaded.standard
  obtain ⟨f, held, _, column⟩ := all "updated_at" (by simp [standardColumns])
  rw [List.mem_singleton.mp used]
  exact covers_own member stands ⟨f, listed ▸ List.mem_append_right keys held, column⟩

theorem covers_assignment (member : m ∈ models) (stands : m.Stands [scope] none) {f : Field}
    (held : f ∈ m.fields) {value : Assigned String}
    (proposed : value = .proposed → m.Stands [scope] (some "EXCLUDED"))
    (used : u ∈ Assignment.uses scope ⟨f.column, value⟩) : m.Covers models u := by
  rcases List.mem_cons.mp used with rfl | other
  · exact covers_own member stands ⟨f, held, rfl⟩
  · cases value with
    | param | now => cases other
    | proposed =>
        rw [List.mem_singleton.mp other]
        exact covers_own member (proposed rfl) ⟨f, held, rfl⟩

theorem covers_update (loaded : m.Loaded models) (member : m ∈ models) {parent : Option Parent}
    (known : ∀ p ∈ parent, p ∈ m.parents) (used : u ∈ (m.updateStatement parent).uses) :
    m.Covers models u := by
  rw [updateStatement_eq] at used
  simp only [Statement.uses, List.flatMap_append, List.mem_append] at used
  rcases used with (field | touched) | ((id | ofParent) | organization)
  · obtain ⟨assignment, listed, among⟩ := List.mem_flatMap.mp field
    obtain ⟨f, held, rfl⟩ := List.mem_map.mp listed
    refine covers_assignment member stands_bare (List.mem_filter.mp held).1 ?_ among
    exact nofun
  · rw [List.flatMap_singleton] at touched
    exact covers_touch loaded member stands_bare touched
  · exact covers_idTests loaded member stands_bare id
  · obtain ⟨condition, tested, among⟩ := List.mem_flatMap.mp ofParent
    obtain ⟨p, given, rfl⟩ := List.mem_map.mp tested
    rw [List.mem_singleton.mp among]
    exact covers_parentColumn loaded member stands_bare (known p (Option.mem_toList.mp given))
  · exact covers_organizationTest organization

theorem covers_ofParentTests (loaded : m.Loaded models) (member : m ∈ models) {p : Parent}
    (parent : p ∈ m.parents)
    (used : u ∈ (m.ofParentTests p).flatMap (Condition.uses [m.tableName.scope])) :
    m.Covers models u := by
  rw [ofParentTests, List.flatMap_append, List.mem_append] at used
  rcases used with organization | ofParent
  · exact covers_organizationTest organization
  · rw [List.flatMap_singleton] at ofParent
    rw [List.mem_singleton.mp ofParent]
    exact covers_parentColumn loaded member stands_bare parent

theorem covers_otherIdColumn (loaded : m.Loaded models) (member : m ∈ models) (column : String) :
    m.Covers models (Use.bare m.tableName.scope (m.otherIdColumn column)) := by
  refine covers_idColumn loaded member stands_bare ?_
  unfold Model.otherIdColumn
  split
  · rename_i join joined
    split <;> simp [idColumns, joined]
  · rename_i joined
    simp [idColumns, joined]

theorem covers_columns (loaded : m.Loaded models) (member : m ∈ models)
    (stands : m.Stands [scope] none) {fields : List Field} (own : ∀ f ∈ fields, f ∈ m.fields)
    {column : String}
    (listed : column ∈ m.idColumns.map (·.1) ++ m.organizationColumn ++ fields.map Field.column) :
    m.Covers models (Use.bare scope column) := by
  simp only [List.mem_append] at listed
  rcases listed with (key | organization) | field
  · exact covers_idColumn loaded member stands key
  · cases tenant : m.isGlobal with
    | true => simp [organizationColumn, tenant] at organization
    | false =>
        simp only [organizationColumn, tenant, Bool.false_eq_true, if_false] at organization
        exact .organization tenant (List.mem_singleton.mp organization)
  · obtain ⟨f, held, rfl⟩ := List.mem_map.mp field
    exact covers_own member stands ⟨f, own f held, rfl⟩

theorem stands_insertion {s : Insert String} (into : s.table = m.tableName) {owner : Option String}
    (own : ∀ name ∈ owner, name = m.table ∨ name = "EXCLUDED") : m.Stands [s.scope] owner := by
  intro name
  have first : (s.table.table, s.table) ∈ s.scope := List.mem_cons_self
  have second : ("EXCLUDED", s.table) ∈ s.scope := List.mem_cons_of_mem _ List.mem_cons_self
  cases owner with
  | none => exact into ▸ Use.of_bare first
  | some stated =>
      rcases own stated rfl with rfl | rfl
      · have same : s.table.table = m.table := congrArg TableName.table into
        rw [same] at first
        exact into ▸ Use.of_qualified first
      · exact into ▸ Use.of_qualified second

theorem stands_inserted {s : Insert String} (into : s.table = m.tableName) :
    m.Stands [s.scope] none :=
  stands_insertion into nofun

theorem covers_upsertResolution (loaded : m.Loaded models) (member : m ∈ models) {p : Parent}
    (parent : p ∈ m.parents) {s : Insert String} (into : s.table = m.tableName)
    (used : u ∈ (m.upsertResolution p).uses s.scope) : m.Covers models u := by
  unfold upsertResolution at used
  split at used
  · cases used
  · have bare : m.Stands [s.scope] none := stands_insertion into nofun
    have proposed : m.Stands [s.scope] (some "EXCLUDED") :=
      stands_insertion into fun _ same => .inr (Option.some.inj same).symm
    have qualified : m.Stands [s.scope] (some m.table) :=
      stands_insertion into fun _ same => .inl (Option.some.inj same).symm
    simp only [Resolution.uses, List.flatMap_append, List.mem_append, List.flatMap_singleton] at used
    rcases used with (field | touched) | (organization | ofParent)
    · obtain ⟨assignment, listed, among⟩ := List.mem_flatMap.mp field
      obtain ⟨f, held, rfl⟩ := List.mem_map.mp listed
      exact covers_assignment member bare (List.mem_filter.mp held).1 (fun _ => proposed) among
    · exact covers_touch loaded member bare touched
    · exact covers_organizationTest organization
    · rw [List.mem_singleton.mp ofParent]
      exact covers_parentColumn loaded member qualified parent

theorem covers_insertion (loaded : m.Loaded models) (member : m ∈ models) {fields : List Field}
    (own : ∀ f ∈ fields, f ∈ m.fields)
    (used : u ∈ (m.insertion fields none).uses) : m.Covers models u := by
  simp only [Insert.uses, insertion, Option.toList_none, List.flatMap_nil, List.append_nil] at used
  obtain ⟨column, listed, rfl⟩ := List.mem_map.mp used
  exact covers_columns loaded member (stands_inserted rfl) own listed

theorem covers_upsert (loaded : m.Loaded models) (member : m ∈ models) {p : Parent}
    (parent : p ∈ m.parents) (used : u ∈ (m.upsertPlan p).statement.uses) :
    m.Covers models u := by
  rcases List.mem_append.mp used with inserted | resolved
  · obtain ⟨column, listed, rfl⟩ := List.mem_map.mp inserted
    refine covers_columns loaded member (stands_inserted rfl) (fun f held => ?_) listed
    exact (List.mem_filter.mp (List.mem_filter.mp held).1).1
  · obtain ⟨conflict, given, among⟩ := List.mem_flatMap.mp resolved
    rw [← Option.some.inj (Option.mem_toList.mp given)] at among
    rcases List.mem_append.mp among with target | resolution
    · obtain ⟨column, listed, rfl⟩ := List.mem_map.mp target
      simp only at listed
      split at listed
      · rw [List.mem_singleton.mp listed]
        exact covers_parentColumn loaded member (stands_inserted rfl) parent
      · exact covers_idColumn loaded member (stands_inserted rfl) listed
    · exact covers_upsertResolution loaded member parent rfl resolution

end Writes

/-! ## Statements that read -/

section Reads

variable {u : Use}

theorem stands_main (references : List Reference) :
    m.Stands [m.mainScope references] (some mainAlias) :=
  fun _ => Use.of_qualified (main_mem_mainScope m references)

theorem stands_outer (references : List Reference) {scope : Scope}
    (other : ∀ entry ∈ scope, entry.1 ≠ mainAlias) :
    m.Stands [scope, m.mainScope references] (some mainAlias) :=
  fun name => Use.of_outer other (stands_main references name)

theorem covers_subquery (all : ∀ m ∈ models, m.Loaded models) {c : Child} {target : Model}
    (leads : c.Leads models target) {fetch : FetchType} {parent : Operand String}
    {q : Subquery String} {outer : List Scope}
    (found : c.subquery? fetch m.nestedOrganization parent = some q)
    (parentCovered : ∀ u ∈ parent.uses (q.scope :: outer), m.Covers models u)
    (used : u ∈ q.tests outer) : m.Covers models u := by
  obtain ⟨table, conditions, _, _⟩ := subquery_shape found
  have first {name : String} : Use.Of ⟨q.scope :: outer, ⟨some q.tableAlias, name⟩⟩ c.idTable :=
    table ▸ Use.of_first
  rcases List.mem_append.mp used with paired | tested
  · obtain ⟨join, given, among⟩ := List.mem_flatMap.mp paired
    cases fetch with
    | none => cases found
    | id =>
        cases found
        cases given
    | data =>
        cases found
        obtain ⟨through, stated, rfl⟩ := Option.map_eq_some_iff.mp (Option.mem_toList.mp given)
        have owner : (c.dataSubquery m.nestedOrganization parent).tableAlias = "tt" := by
          simp [Child.dataSubquery, stated]
        rw [owner] at first
        have held := hasColumn_idColumn all leads fun direct => by
          rw [direct] at stated
          cases stated
        rw [Child.idColumn, stated] at held
        rcases List.mem_cons.mp among with rfl | other
        · exact .field first held
        · rw [List.mem_singleton.mp other]
          exact .id rfl
  · rw [conditions] at tested
    obtain ⟨comparison, listed, among⟩ := List.mem_flatMap.mp tested
    rcases List.mem_cons.mp listed with rfl | organization
    · rcases List.mem_cons.mp among with rfl | other
      · exact .field first (hasColumn_parentColumn all leads)
      · exact parentCovered u other
    · cases tenant : m.isGlobal with
      | true => simp [nestedOrganization, tenant] at organization
      | false =>
          simp only [nestedOrganization, tenant, Bool.false_eq_true, if_false,
            List.mem_singleton] at organization
          rw [organization] at among
          rw [List.mem_singleton.mp among]
          exact .organization tenant rfl

theorem covers_referenceTests (member : m ∈ models) {r : Reference} {target : Model}
    (leads : r.Leads models m target) {scopes : List Scope}
    (stands : m.Stands scopes (some mainAlias))
    (used : u ∈ (r.comparisons !m.isGlobal : List (Comparison String)).flatMap
      (Comparison.uses scopes)) : m.Covers models u := by
  obtain ⟨comparison, listed, among⟩ := List.mem_flatMap.mp used
  rcases List.mem_cons.mp listed with rfl | organization
  · rcases List.mem_cons.mp among with rfl | other
    · exact .id rfl
    · rw [List.mem_singleton.mp other]
      exact covers_own member stands leads.column
  · split at organization
    · rename_i both
      simp only [Bool.and_eq_true, Bool.not_eq_true'] at both
      have tenant := both.1
      rw [List.mem_singleton.mp organization] at among
      simp only [Comparison.uses, Operand.uses, List.mem_cons, List.not_mem_nil, or_false] at among
      rcases among with rfl | rfl
      · exact .organization tenant rfl
      · exact .organization tenant rfl
    · cases organization

theorem covers_childItem (all : ∀ m ∈ models, m.Loaded models) (member : m ∈ models) {c : Child}
    (child : c ∈ m.children) {fetch : FetchType} {parent : Operand String} {label : String}
    {item : SelectItem String} {outer : List Scope}
    (found : (c.subquery? fetch m.nestedOrganization parent).map (.nested · label) = some item)
    (byId : ∀ scopes, ∀ u ∈ parent.uses scopes, u.column.name = "id")
    (used : u ∈ item.tests outer) : m.Covers models u := by
  obtain ⟨q, made, rfl⟩ := Option.map_eq_some_iff.mp found
  obtain ⟨target, leads⟩ := (all m member).children c child
  exact covers_subquery all leads made (fun u listed => .id (byId _ u listed)) used

theorem tests_columnItems (fields : List Field) (scopes : List Scope) :
    (columnItems fields).flatMap (SelectItem.tests scopes) = [] := by
  rw [columnItems, List.flatMap_map, List.flatMap_eq_nil_iff]
  exact fun _ _ => rfl

theorem covers_selectOneTests (all : ∀ m ∈ models, m.Loaded models) (member : m ∈ models)
    (populated : Bool) (used : u ∈ (m.selectOneStatement populated).tests) :
    m.Covers models u := by
  have loaded := all m member
  rw [Select.tests, scope_selectOne] at used
  simp only [selectOneStatement, List.flatMap_append, tests_columnItems, List.nil_append,
    Option.toList_none, List.map_nil, List.append_nil, List.mem_append] at used
  rcases used with (nested | joined) | (id | organization)
  · cases populated with
    | false => cases nested
    | true =>
        simp only [if_true, List.flatMap_append, List.mem_append, List.mem_flatMap] at nested
        rcases nested with ⟨item, child, among⟩ | ⟨item, reference, among⟩
        · obtain ⟨c, listed, made⟩ := List.mem_filterMap.mp child
          exact covers_childItem all member listed made (fun _ _ none => absurd none List.not_mem_nil)
            among
        · obtain ⟨r, _, rfl⟩ := List.mem_map.mp reference
          rw [List.mem_singleton.mp among]
          exact .id rfl
  · cases populated with
    | false => cases joined
    | true =>
        simp only [if_true, List.mem_flatMap] at joined
        obtain ⟨join, reference, comparison, listed, among⟩ := joined
        obtain ⟨r, held, rfl⟩ := List.mem_map.mp reference
        obtain ⟨target, leads⟩ := loaded.references r (List.mem_filter.mp held).1
        exact covers_referenceTests member leads (stands_main _)
          (List.mem_flatMap.mpr ⟨comparison, listed, among⟩)
  · exact covers_idTests loaded member (stands_main _) id
  · exact covers_organizationTest organization

theorem covers_listTests (all : ∀ m ∈ models, m.Loaded models) (member : m ∈ models)
    (populated : Bool) {request : Option String} {order : Option OrderBy}
    (admitted : m.listOrder request = .ok order)
    (used : u ∈ (m.listStatement populated order).tests) : m.Covers models u := by
  rw [Select.tests, scope_list] at used
  simp only [listStatement, List.flatMap_append, tests_columnItems, List.nil_append,
    List.flatMap_nil, List.append_nil, List.mem_append] at used
  rcases used with (nested | organization) | ordered
  · cases populated with
    | false => cases nested
    | true =>
        simp only [if_true, List.flatMap_append, List.mem_append, List.mem_flatMap] at nested
        rcases nested with ⟨item, child, among⟩ | ⟨item, reference, among⟩
        · obtain ⟨c, listed, made⟩ := List.mem_filterMap.mp child
          refine covers_childItem all member listed made (fun _ u one => ?_) among
          rw [List.mem_singleton.mp one]
        · obtain ⟨r, held, rfl⟩ := List.mem_map.mp reference
          obtain ⟨target, leads⟩ := (all m member).references r (List.mem_filter.mp held).1
          refine covers_referenceTests member leads (stands_outer [] fun entry placed => ?_) among
          rw [List.mem_singleton.mp placed]
          exact r.tableAlias_ne_mainAlias
  · exact covers_organizationTest organization
  · obtain ⟨term, given, rfl⟩ := List.mem_map.mp ordered
    obtain ⟨o, stated, rfl⟩ := Option.map_eq_some_iff.mp (Option.mem_toList.mp given)
    rw [stated] at admitted
    obtain ⟨f, held, column⟩ := mem_fields_of_listOrder admitted
    exact covers_own member (stands_main []) ⟨f, held, column⟩

end Reads

theorem of_permissionCheck {scopes : List Scope} {permissions : List String} {u : Use}
    (used : u ∈ (m.permissionCheck permissions).uses scopes) :
    u.Of ⟨m.authSchema, "permissions"⟩ := by
  have placed : ("permissions", (⟨m.authSchema, "permissions"⟩ : TableName)) ∈
      TableName.scope ⟨m.authSchema, "permissions"⟩ := List.mem_cons_self
  obtain ⟨comparison, listed, among⟩ := List.mem_flatMap.mp used
  simp only [Permission.ofActors, List.cons_append, List.nil_append, List.mem_cons,
    List.not_mem_nil, or_false] at listed
  rcases listed with rfl | rfl | rfl <;> rw [List.mem_singleton.mp among] <;>
    exact Use.of_bare placed

/-- What the columns in the statements of a model are, but for the lookup of a permission: columns
of fields, ids and organizations, and what the deletion of a row asks the permission table. -/
theorem HasPlan.covers (all : ∀ m ∈ models, m.Loaded models) (member : m ∈ models) {p : Plan}
    (plan : m.HasPlan p) (other : p.name ≠ "lookup_object_permissions") :
    ∀ u ∈ p.statement.uses, m.Covers models u ∨
      p.name = "delete" ∧ m.checksPermission ∧ u.Of ⟨m.authSchema, "permissions"⟩ := by
  intro u used
  have loaded := all m member
  cases plan with
  | insert =>
      exact .inl (covers_insertion loaded member (fun f held => (List.mem_filter.mp held).1) used)
  | update =>
      have updated : u ∈ (m.updateStatement none).uses := used
      exact .inl (covers_update loaded member (fun _ same => by cases same) updated)
  | updateWithParent plain parent =>
      exact .inl (covers_update loaded member (fun _ same => Option.some.inj same ▸ parent) used)
  | @selectOne populated children =>
      rcases List.mem_append.mp used with output | tested
      · exact .inl (mayReturn_of_selectOne all member populated output).covers
      · exact .inl (covers_selectOneTests all member populated tested)
  | delete =>
      simp only [deletePlan, Statement.uses, List.flatMap_append, List.mem_append] at used
      rcases used with (id | organization) | permission
      · exact .inl (covers_idTests loaded member stands_bare id)
      · exact .inl (covers_organizationTest organization)
      · cases checks : m.checksPermission with
        | false => simp [checks] at permission
        | true =>
            simp only [checks, if_true, List.flatMap_singleton] at permission
            exact .inr ⟨rfl, rfl, of_permissionCheck permission⟩
  | deleteAllChildren parent => exact .inl (covers_ofParentTests loaded member parent used)
  | @deleteRemovedChildren q parent =>
      obtain ⟨condition, tested, among⟩ := List.mem_flatMap.mp used
      rcases List.mem_append.mp tested with ofParent | removed
      · exact .inl (covers_ofParentTests loaded member parent
          (List.mem_flatMap.mpr ⟨condition, ofParent, among⟩))
      · rw [List.mem_singleton.mp removed] at among
        rw [List.mem_singleton.mp among]
        exact .inl (covers_otherIdColumn loaded member q.column)
  | deleteWithParent parent =>
      obtain ⟨condition, tested, among⟩ := List.mem_flatMap.mp used
      rcases List.mem_append.mp tested with ofParent | id
      · exact .inl (covers_ofParentTests loaded member parent
          (List.mem_flatMap.mpr ⟨condition, ofParent, among⟩))
      · exact .inl (covers_idTests loaded member stands_bare
          (List.mem_flatMap.mpr ⟨condition, id, among⟩))
  | @list populated request order children admitted =>
      rcases List.mem_append.mp used with output | tested
      · exact .inl (mayReturn_of_list all member populated ⟨request, order, admitted⟩ output).covers
      · exact .inl (covers_listTests all member populated admitted tested)
  | upsert parent => exact .inl (covers_upsert loaded member parent used)
  | lookup => exact absurd rfl other

end Model

end TenantSql
