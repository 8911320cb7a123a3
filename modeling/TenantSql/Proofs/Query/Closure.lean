import TenantSql.Proofs.Audit.Passed
import TenantSql.Proofs.Query.Columns
import TenantSql.Proofs.Query.Placeholder

/-!
# Column closure

Reads name columns of several tables, some of them fixed: `id` and the
organization. Where a relation leads to a table without such a column, or the
full name of a field is not that of a column, a statement names a column that
does not exist. These are the only cases.
-/

namespace TenantSql

open Sql

namespace Model

variable {models : List Model} {m : Model}

/-! ## Statements that read -/

def mainScope (m : Model) (references : List Reference) : Scope :=
  (mainAlias, m.tableName) :: references.map fun r => (r.tableAlias, r.tableName)

theorem scope_selectOne (m : Model) (populated : Bool) :
    (m.selectOneStatement populated).scope =
      m.mainScope (if populated then m.referencesOnGet else []) := by
  cases populated <;> simp [Select.scope, selectOneStatement, mainScope, Reference.leftJoin,
    Reference.tableName]

end Model

theorem Reference.tableAlias_ne_mainAlias (r : Reference) : r.tableAlias ≠ mainAlias := by
  intro same
  have letters := congrArg String.toList same
  simp [tableAlias, mainAlias] at letters

namespace Model

variable {models : List Model} {m : Model}

theorem known_main {has : TableName → String → Prop} {references : List Reference} {name : String} :
    Column.Known has [m.mainScope references] ⟨some mainAlias, name⟩ ↔ has m.tableName name := by
  refine (Column.known_qualified ⟨_, List.mem_cons_self, rfl⟩).trans
    ⟨fun known => known _ List.mem_cons_self rfl, fun held entry member same => ?_⟩
  rcases List.mem_cons.mp member with rfl | joined
  · exact held
  · obtain ⟨r, _, rfl⟩ := List.mem_map.mp joined
    exact absurd same r.tableAlias_ne_mainAlias

theorem reaches_main (references : List Reference) :
    m.Reaches models [m.mainScope references] (some mainAlias) :=
  fun _ => known_main

theorem reaches_outer (references : List Reference) {scope : Scope}
    (other : ∀ entry ∈ scope, entry.1 ≠ mainAlias) :
    m.Reaches models [scope, m.mainScope references] (some mainAlias) :=
  fun name => (Column.known_outer other).trans (reaches_main references name)

theorem exists_subquery {c : Child} {fetch : FetchType} (fetched : fetch ≠ .none)
    (organization : Option String) (parent : Operand String) :
    ∃ q, c.subquery? fetch organization parent = some q := by
  cases fetch with
  | none => exact absurd rfl fetched
  | id => exact ⟨_, rfl⟩
  | data => exact ⟨_, rfl⟩

theorem subquery_shape {c : Child} {fetch : FetchType} {organization : Option String}
    {parent : Operand String} {q : Subquery String}
    (found : c.subquery? fetch organization parent = some q) :
    q.table = c.idTable ∧ q.conditions = c.comparisons q.tableAlias organization parent ∧
      q.tableAlias ≠ mainAlias ∧
      ∀ join ∈ q.join, join.tableAlias ≠ q.tableAlias ∧ join.tableAlias ≠ mainAlias := by
  cases fetch with
  | none => cases found
  | id =>
      cases found
      exact ⟨rfl, rfl, by simp [Child.idSubquery, mainAlias], fun _ same => by cases same⟩
  | data =>
      cases found
      cases given : c.through with
      | none => simp [Child.dataSubquery, given, mainAlias]
      | some through => simp [Child.dataSubquery, given, mainAlias]

theorem scope_ne_mainAlias {c : Child} {fetch : FetchType} {organization : Option String}
    {parent : Operand String} {q : Subquery String}
    (found : c.subquery? fetch organization parent = some q) :
    ∀ entry ∈ q.scope, entry.1 ≠ mainAlias := by
  obtain ⟨_, _, first, apart⟩ := subquery_shape found
  intro entry listed
  rcases List.mem_cons.mp listed with rfl | second
  · exact first
  · obtain ⟨join, given, rfl⟩ := List.mem_map.mp second
    exact (apart join (Option.mem_toList.mp given)).2

section Children

variable {c : Child} {target : Model} {fetch : FetchType}

theorem idTable_direct (given : c.through = none) : c.idTable = c.tableName := by
  rw [Child.idTable, given]
  rfl

theorem idTable_through {through : Through} (given : c.through = some through) :
    c.idTable = through.tableName := by
  rw [Child.idTable, given]
  rfl

theorem hasColumn_parentColumn (all : ∀ m ∈ models, m.Loaded models)
    (leads : c.Leads models target) : HasColumn models c.idTable c.parentColumn := by
  cases given : c.through with
  | none =>
      rw [idTable_direct given, leads.table]
      exact (all target leads.listed).hasParentColumn leads.listed (leads.direct given)
  | some through =>
      obtain ⟨join, listed, joins⟩ := leads.indirect through given
      rw [idTable_through given, joins.table]
      exact (all join listed).hasParentColumn listed joins.ownerColumn

theorem hasColumn_idColumn (all : ∀ m ∈ models, m.Loaded models)
    (leads : c.Leads models target)
    (direct : c.through = none → HasColumn models c.tableName "id") :
    HasColumn models c.idTable c.idColumn := by
  cases given : c.through with
  | none =>
      rw [idTable_direct given, Child.idColumn, given]
      exact direct given
  | some through =>
      obtain ⟨join, listed, joins⟩ := leads.indirect through given
      obtain ⟨p, parent, _, column⟩ := joins.childColumn
      rw [idTable_through given, Child.idColumn, given, joins.table]
      exact (all join listed).hasParentColumn listed ⟨p, parent, column⟩

theorem hasColumn_organization (all : ∀ m ∈ models, m.Loaded models)
    (leads : c.Leads models target) (tenant : target.isGlobal = false)
    (joins : ∀ through ∈ c.through, HasColumn models through.tableName "organization_id") :
    HasColumn models c.idTable "organization_id" := by
  cases given : c.through with
  | none =>
      rw [idTable_direct given, leads.table]
      exact (all target leads.listed).hasOrganization leads.listed tenant
  | some through =>
      rw [idTable_through given]
      exact joins through given

theorem known_data {organization : Option String} {parent : Operand String} {outer : List Scope}
    {name : String} (held : HasColumn models c.tableName name) :
    Column.Known (HasColumn models) ((c.dataSubquery organization parent).scope :: outer)
      ⟨some "t", name⟩ := by
  cases given : c.through with
  | none =>
      have single : ∀ entry ∈ (c.dataSubquery organization parent).scope,
          entry.2 = c.tableName := by
        simp [Subquery.scope, Child.dataSubquery, given, idTable_direct given]
      refine (Column.known_single single ?_ ?_).mpr held
      · simp [Subquery.scope]
      · simp [Subquery.scope, Child.dataSubquery, given]
  | some through =>
      have second : (c.dataSubquery organization parent).join = some
          { table := c.tableName
            tableAlias := "t"
            condition := .equals ⟨some "tt", through.childColumn⟩ (.column ⟨some "t", "id"⟩) } := by
        rw [Child.dataSubquery, given]
        rfl
      exact (Subquery.known_second second (by simp [Child.dataSubquery, given])).mpr held

/-- The columns in the subquery for children are known if the relation fits. -/
theorem subquery_known (all : ∀ m ∈ models, m.Loaded models) (leads : c.Leads models target)
    (tenancy : target.isGlobal = m.isGlobal)
    (key : c.through.isSome → HasColumn models c.tableName "id")
    (fits : c.Fits models m.isGlobal fetch) {parent : Operand String} {q : Subquery String}
    {outer : List Scope} (found : c.subquery? fetch m.nestedOrganization parent = some q)
    (parentKnown : parent.Known (HasColumn models) (q.scope :: outer)) :
    q.Known (HasColumn models) outer := by
  obtain ⟨table, conditions, _, apart⟩ := subquery_shape found
  have first {name : String} (held : HasColumn models c.idTable name) :
      Column.Known (HasColumn models) (q.scope :: outer) ⟨some q.tableAlias, name⟩ :=
    (Subquery.known_first fun join given => (apart join given).1).mpr (table ▸ held)
  have tests : ∀ comparison ∈ q.conditions,
      comparison.Known (HasColumn models) (q.scope :: outer) := by
    intro comparison member
    rw [conditions] at member
    rcases List.mem_cons.mp member with rfl | organization
    · exact ⟨first (hasColumn_parentColumn all leads), parentKnown⟩
    · cases tenant : m.isGlobal with
      | true => simp [nestedOrganization, tenant] at organization
      | false =>
          simp only [nestedOrganization, tenant, Bool.false_eq_true, if_false,
            List.mem_singleton] at organization
          rw [organization]
          refine ⟨first (hasColumn_organization all leads (tenancy.trans tenant) ?_), trivial⟩
          refine fits.joins (fun same => ?_) tenant
          rw [same] at found
          cases found
  cases fetch with
  | none => cases found
  | id =>
      cases found
      exact ⟨first (hasColumn_idColumn all leads (fits.ids rfl)), (fun _ same => by cases same), tests⟩
  | data =>
      cases found
      refine ⟨fun entry member => ?_, fun join given => ?_, tests⟩
      · obtain ⟨f, held, rfl⟩ := List.mem_map.mp member
        rw [leads.fields] at held
        refine known_data ?_
        rw [leads.table]
        exact hasColumn_own leads.listed (List.mem_filter.mp held).1
      · obtain ⟨through, stated, rfl⟩ := Option.map_eq_some_iff.mp given
        have owner : (c.dataSubquery m.nestedOrganization parent).tableAlias = "tt" := by
          simp [Child.dataSubquery, show c.through = some through from stated]
        rw [owner] at first
        have column := hasColumn_idColumn all leads fun none => by
          rw [none] at stated
          cases stated
        rw [Child.idColumn, show c.through = some through from stated] at column
        exact ⟨first column, known_data (key (by rw [stated]; rfl))⟩

theorem fits_of_known {parent : Operand String} {outer : List Scope}
    (known : ∀ q, c.subquery? fetch m.nestedOrganization parent = some q →
      q.Known (HasColumn models) outer) : c.Fits models m.isGlobal fetch := by
  constructor
  case ids =>
    intro byId given
    subst byId
    have value : Column.Known (HasColumn models)
        ((c.idSubquery m.nestedOrganization parent).scope :: outer) ⟨some "ct", c.idColumn⟩ :=
      (known _ rfl).value
    have held := (Subquery.known_first (q := c.idSubquery m.nestedOrganization parent)
      fun _ same => by cases same).mp value
    rw [Child.idColumn, given] at held
    exact idTable_direct given ▸ held
  case joins =>
    intro fetched tenant through given
    obtain ⟨q, found⟩ := exists_subquery fetched m.nestedOrganization parent
    obtain ⟨table, conditions, _, apart⟩ := subquery_shape found
    have tested : .equals ⟨some q.tableAlias, "organization_id"⟩ (.param Binding.organization) ∈
        q.conditions := by
      simp [conditions, Child.comparisons, nestedOrganization, tenant]
    have held := (Subquery.known_first fun join given => (apart join given).1).mp
      ((known q found).conditions _ tested).1
    rw [table, idTable_through given] at held
    exact held

end Children

/-! ## References -/

section References

variable {r : Reference} {target : Model}

theorem hasColumn_referenceId (leads : r.Leads models m target) (plain : target.isJoin = false)
    (fits : target.Fits models) : HasColumn models r.tableName "id" := by
  rw [leads.table]
  exact fits.key plain

/-- A column of a joined row. Other references of the same name are joined under the same alias. -/
theorem known_joined {has : TableName → String → Prop} {references : List Reference}
    (among : r ∈ references) {name : String} :
    Column.Known has [m.mainScope references] ⟨some r.tableAlias, name⟩ ↔
      ∀ other ∈ references, other.name = r.name → has other.tableName name := by
  refine (Column.known_qualified ⟨_, List.mem_cons_of_mem _ (List.mem_map_of_mem among), rfl⟩).trans
    ⟨fun known other listed same => ?_, fun held entry member same => ?_⟩
  · refine known _ (List.mem_cons_of_mem _ (List.mem_map_of_mem listed)) ?_
    rw [Reference.tableAlias, Reference.tableAlias, same]
  · rcases List.mem_cons.mp member with rfl | joined
    · exact absurd same.symm r.tableAlias_ne_mainAlias
    · obtain ⟨other, listed, rfl⟩ := List.mem_map.mp joined
      exact held other listed ((String.append_right_inj _).mp same)

theorem known_nested {has : TableName → String → Prop} {outer : List Scope} {name : String} :
    Column.Known has ([(r.tableAlias, r.tableName)] :: outer) ⟨some r.tableAlias, name⟩ ↔
      has r.tableName name :=
  Column.known_single (by simp) (by simp) fun _ same => ⟨_, List.mem_cons_self, Option.some.inj same⟩

theorem referenceTests_known (member : m ∈ models) (leads : r.Leads models m target)
    {scopes : List Scope} (main : m.Reaches models scopes (some mainAlias))
    (loaded : m.Loaded models)
    (id : Column.Known (HasColumn models) scopes ⟨some r.tableAlias, "id"⟩)
    (organization : m.isGlobal = false → r.isGlobal = false →
      Column.Known (HasColumn models) scopes ⟨some r.tableAlias, "organization_id"⟩) :
    ∀ comparison ∈ (r.comparisons !m.isGlobal : List (Comparison String)),
      comparison.Known (HasColumn models) scopes := by
  intro comparison listed
  rcases List.mem_cons.mp listed with rfl | ofTenant
  · obtain ⟨f, held, column⟩ := leads.column
    exact ⟨id, (main _).mpr (column ▸ hasColumn_own member held)⟩
  · split at ofTenant
    · rename_i both
      simp only [Bool.and_eq_true, Bool.not_eq_true'] at both
      rw [List.mem_singleton.mp ofTenant]
      exact ⟨organization both.1 both.2, (main _).mpr (loaded.hasOrganization member both.1)⟩
    · cases ofTenant

end References

/-! ## Reads -/

section Reads

variable {settings : Settings}

theorem columnItems_known (member : m ∈ models) {fields : List Field}
    (own : ∀ f ∈ fields, f ∈ m.fields) (references : List Reference) :
    ∀ item ∈ columnItems fields, item.Known (HasColumn models) [m.mainScope references] := by
  intro item listed
  obtain ⟨f, held, rfl⟩ := List.mem_map.mp listed
  exact (reaches_main references _).mpr (hasColumn_own member (own f held))

theorem childItem_known (all : ∀ m ∈ models, m.Loaded models)
    (passes : Audit.Passes models settings) (fits : ∀ m ∈ models, m.Fits models)
    (member : m ∈ models) {c : Child} (child : c ∈ m.children) {fetch : FetchType}
    (relation : c.Fits models m.isGlobal fetch) {parent : Operand String} {label : String}
    {item : SelectItem String}
    (found : (c.subquery? fetch m.nestedOrganization parent).map (.nested · label) = some item)
    {references : List Reference}
    (parentKnown : ∀ scope : Scope, (∀ entry ∈ scope, entry.1 ≠ mainAlias) →
      parent.Known (HasColumn models) [scope, m.mainScope references]) :
    item.Known (HasColumn models) [m.mainScope references] := by
  obtain ⟨q, fetched, rfl⟩ := Option.map_eq_some_iff.mp found
  obtain ⟨target, leads⟩ := (all m member).children c child
  have tenancy := passes.child_tenancy member leads.listed child leads.model
  refine subquery_known all leads tenancy (fun through => ?_) relation fetched
    (parentKnown _ (scope_ne_mainAlias fetched))
  obtain ⟨through, given⟩ := Option.isSome_iff_exists.mp through
  obtain ⟨join, listed, joins⟩ := leads.indirect through given
  obtain ⟨p, parent, model, _⟩ := joins.childColumn
  rw [leads.table]
  exact (fits target leads.listed).key (passes.parent_plain listed leads.listed parent model)

theorem hasColumn_id (loaded : m.Loaded models) (fits : m.Fits models) (children : m.children ≠ []) :
    HasColumn models m.tableName "id" := by
  refine fits.key (Bool.eq_false_iff.mpr fun joins => children ?_)
  exact (lawful_of_rules loaded.rules).joinHasNoChildren joins

theorem referenceId_known (all : ∀ m ∈ models, m.Loaded models)
    (passes : Audit.Passes models settings) (fits : ∀ m ∈ models, m.Fits models)
    (member : m ∈ models) {r : Reference} (reference : r ∈ m.references) :
    HasColumn models r.tableName "id" := by
  obtain ⟨target, leads⟩ := (all m member).references r reference
  exact hasColumn_referenceId leads
    (passes.reference_plain member leads.listed reference leads.model) (fits target leads.listed)

theorem selectOne_known (all : ∀ m ∈ models, m.Loaded models)
    (passes : Audit.Passes models settings) (fits : ∀ m ∈ models, m.Fits models)
    (member : m ∈ models) {populated : Bool} (children : populated → m.children ≠ []) :
    (m.selectOneStatement populated).Known (HasColumn models) := by
  have loaded := all m member
  have own := fits m member
  have main : m.Reaches models [(m.selectOneStatement populated).scope] (some mainAlias) := by
    rw [scope_selectOne]
    exact reaches_main _
  have joined (given : populated = true) {r : Reference} (among : r ∈ m.referencesOnGet)
      {name : String} (held : ∀ other ∈ m.referencesOnGet, other.name = r.name →
        HasColumn models other.tableName name) :
      Column.Known (HasColumn models) [(m.selectOneStatement populated).scope]
        ⟨some r.tableAlias, name⟩ := by
    rw [scope_selectOne, if_pos given]
    exact (known_joined among).mpr held
  have id {r : Reference} : ∀ other ∈ m.referencesOnGet, other.name = r.name →
      HasColumn models other.tableName "id" := fun other listed _ =>
    referenceId_known all passes fits member (List.mem_filter.mp listed).1
  refine ⟨fun item listed => ?_, fun join joins => ?_, fun condition tested => ?_,
    fun _ same => by cases same⟩
  · rcases List.mem_append.mp listed with column | nested
    · rw [scope_selectOne]
      exact columnItems_known member (fun f held => (List.mem_filter.mp held).1) _ item column
    · cases populated with
      | false => cases nested
      | true =>
          rcases List.mem_append.mp nested with child | reference
          · obtain ⟨c, held, found⟩ := List.mem_filterMap.mp child
            rw [scope_selectOne]
            exact childItem_known all passes fits member held (own.children c held).1 found
              fun _ _ => trivial
          · obtain ⟨r, among, rfl⟩ := List.mem_map.mp reference
            refine ⟨joined rfl among id, fun entry member => ?_⟩
            obtain ⟨f, held, rfl⟩ := List.mem_map.mp member
            exact joined rfl among fun other listed same =>
              (own.references (children rfl) r among other listed same).fields f held
  · cases populated with
    | false => cases joins
    | true =>
        obtain ⟨r, among, rfl⟩ := List.mem_map.mp joins
        obtain ⟨target, leads⟩ := loaded.references r (List.mem_filter.mp among).1
        exact referenceTests_known member leads main loaded (joined rfl among id)
          fun tenant owned => joined rfl among fun other listed same =>
            (own.references (children rfl) r among other listed same).organization tenant owned
  · rcases List.mem_append.mp tested with identity | organization
    · exact idTests_known loaded member own main condition identity
    · exact organizationTest_known loaded member main condition organization

theorem list_known (all : ∀ m ∈ models, m.Loaded models)
    (passes : Audit.Passes models settings) (fits : ∀ m ∈ models, m.Fits models)
    (member : m ∈ models) {populated : Bool} (children : populated → m.children ≠ [])
    {request : Option String} {order : Option OrderBy} (admitted : m.listOrder request = .ok order) :
    (m.listStatement populated order).Known (HasColumn models) := by
  have loaded := all m member
  have own := fits m member
  have main : m.Reaches models [m.mainScope []] (some mainAlias) := reaches_main []
  refine ⟨fun item listed => ?_, (fun _ joins => by cases joins),
    organizationTest_known loaded member main, fun term ordered => ?_⟩
  · rcases List.mem_append.mp listed with column | nested
    · exact columnItems_known member (fun f held => (List.mem_filter.mp held).1) [] item column
    · cases populated with
      | false => cases nested
      | true =>
          rcases List.mem_append.mp nested with child | reference
          · obtain ⟨c, held, found⟩ := List.mem_filterMap.mp child
            exact childItem_known all passes fits member held (own.children c held).2 found
              fun scope other =>
                (reaches_outer [] other "id").mpr (hasColumn_id loaded own (children rfl))
          · obtain ⟨r, among, rfl⟩ := List.mem_map.mp reference
            have reference := (List.mem_filter.mp among).1
            obtain ⟨target, leads⟩ := loaded.references r reference
            have outer : m.Reaches models [[(r.tableAlias, r.tableName)], m.mainScope []]
                (some mainAlias) := by
              refine reaches_outer [] fun entry listed => ?_
              rw [List.mem_singleton.mp listed]
              exact r.tableAlias_ne_mainAlias
            refine ⟨fun entry member => ?_, (fun _ same => by cases same),
              referenceTests_known member leads outer loaded
                (known_nested.mpr (referenceId_known all passes fits member reference))
                fun tenant owned => known_nested.mpr ?_⟩
            · obtain ⟨f, held, rfl⟩ := List.mem_map.mp member
              refine known_nested.mpr ?_
              rw [leads.table]
              exact hasColumn_own leads.listed (List.mem_filter.mp (leads.fields f held)).1
            · rw [leads.table]
              exact (all target leads.listed).hasOrganization leads.listed
                (leads.isGlobal.symm.trans owned)
  · obtain ⟨o, stated, rfl⟩ := Option.map_eq_some_iff.mp ordered
    rw [stated] at admitted
    obtain ⟨f, held, column⟩ := mem_fields_of_listOrder admitted
    exact (main _).mpr (column ▸ hasColumn_own member held)

end Reads

/-! ## Closure -/

section Closure

variable {settings : Settings}

theorem HasPlan.known (all : ∀ m ∈ models, m.Loaded models)
    (passes : Audit.Passes models settings) (fits : ∀ m ∈ models, m.Fits models)
    (member : m ∈ models) {p : Plan} (plan : m.HasPlan p) :
    p.statement.Known (HasColumn models) := by
  have loaded := all m member
  have own := fits m member
  cases plan with
  | insert =>
      have inserts : (m.insertion m.ownerWritableFields none).Known (HasColumn models) :=
        insertion_known loaded member own (fun f held => (List.mem_filter.mp held).1)
          (fun _ same => by cases same) (fun _ same => by cases same)
      exact inserts
  | update =>
      have updates : (m.updateStatement none).Known (HasColumn models) :=
        update_known loaded member own fun _ same => by cases same
      exact updates
  | updateWithParent plain parent =>
      exact update_known loaded member own fun _ same => Option.some.inj same ▸ parent
  | selectOne children => exact selectOne_known all passes fits member children
  | delete => exact delete_known loaded member own
  | deleteAllChildren parent => exact ofParentTests_known loaded member parent
  | @deleteRemovedChildren q parent =>
      refine List.forall_mem_append.mpr ⟨ofParentTests_known loaded member parent, ?_⟩
      rw [List.forall_mem_singleton]
      exact (reaches_bare _).mpr (loaded.hasOtherIdColumn member own q.column)
  | deleteWithParent parent =>
      exact List.forall_mem_append.mpr ⟨ofParentTests_known loaded member parent,
        idTests_known loaded member own reaches_bare⟩
  | list children admitted => exact list_known all passes fits member children admitted
  | upsert parent => exact upsert_known loaded member own parent
  | lookup => trivial

theorem childFits_onGet (known : (m.selectOneStatement true).Known (HasColumn models)) {c : Child}
    (child : c ∈ m.children) : c.Fits models m.isGlobal c.onGet := by
  have fits : _ → c.Fits models m.isGlobal c.onGet :=
    @fits_of_known _ _ _ _ (.param Binding.id) [(m.selectOneStatement true).scope]
  refine fits fun q found => ?_
  refine known.items (.nested q c.getName) (List.mem_append_right _
    (List.mem_append_left _ (List.mem_filterMap.mpr ⟨c, child, ?_⟩)))
  rw [found]
  rfl

theorem childFits_onList {order : Option OrderBy}
    (known : (m.listStatement true order).Known (HasColumn models)) {c : Child}
    (child : c ∈ m.children) : c.Fits models m.isGlobal c.onList := by
  have fits : _ → c.Fits models m.isGlobal c.onList :=
    @fits_of_known _ _ _ _ (.column ⟨some mainAlias, "id"⟩) [(m.listStatement true order).scope]
  refine fits fun q found => ?_
  refine known.items (.nested q c.listName) (List.mem_append_right _
    (List.mem_append_left _ (List.mem_filterMap.mpr ⟨c, child, ?_⟩)))
  rw [found]
  rfl

/-- A joined reference fits if the columns are known where a read of one row fills it in. -/
theorem referenceFits_of_known (known : (m.selectOneStatement true).Known (HasColumn models))
    {r other : Reference} (among : r ∈ m.referencesOnGet) (listed : other ∈ m.referencesOnGet)
    (same : other.name = r.name) : r.Fits models m.isGlobal other.tableName := by
  have joined {name : String} (found : Column.Known (HasColumn models)
      [(m.selectOneStatement true).scope] ⟨some r.tableAlias, name⟩) :
      HasColumn models other.tableName name := by
    rw [scope_selectOne] at found
    exact (known_joined among).mp found other listed same
  constructor
  case fields =>
    intro f held
    have item : r.joinedItem ∈ (m.selectOneStatement true).items :=
      List.mem_append_right _ (List.mem_append_right _ (List.mem_map_of_mem among))
    exact joined ((known.items _ item).2 _ (List.mem_map_of_mem held))
  case organization =>
    intro tenant owned
    have join : r.leftJoin (!m.isGlobal) ∈ (m.selectOneStatement true).joins :=
      List.mem_map_of_mem among
    refine joined (known.joins _ join (.equals ⟨some r.tableAlias, "organization_id"⟩
      (.column ⟨some mainAlias, "organization_id"⟩)) ?_).1
    simp [Reference.leftJoin, Reference.comparisons, tenant, owned]

theorem hasColumn_id_of_delete (known : m.deletePlan.statement.Known (HasColumn models))
    (plain : m.isJoin = false) : HasColumn models m.tableName "id" := by
  have tested : Condition.holds (.equals (bare "id") (.param Binding.id)) ∈ m.idTests none := by
    simp [idTests, idComparisons, idColumns, join_of_plain plain, bare]
  exact (reaches_bare _).mp
    (known _ (List.mem_append_left _ (List.mem_append_left _ tested))).1

theorem fullName_of_insertion (passes : Audit.Passes models settings) (member : m ∈ models)
    {fields : List Field} (known : (m.insertion fields none).Known (HasColumn models)) {f : Field}
    (held : f ∈ m.readableFields) : ∃ g ∈ m.fields, f.fullName = g.qualified m.table := by
  obtain ⟨column, full, found⟩ := known.returning _ (List.mem_map_of_mem held)
  have qualified : m.Reaches models [(m.insertion fields none).scope] (some m.table) :=
    reaches_insertion rfl fun _ same => .inl (Option.some.inj same).symm
  obtain ⟨other, listed, table, g, among, rfl⟩ := (qualified column).mp found
  have same : other = m := passes.eq_of_tableName listed member table
  exact ⟨g, same ▸ among, full⟩

theorem fits_of_plans (passes : Audit.Passes models settings) (member : m ∈ models)
    (known : ∀ p, m.HasPlan p → p.statement.Known (HasColumn models)) : m.Fits models := by
  have get (children : m.children ≠ []) : (m.selectOneStatement true).Known (HasColumn models) :=
    known _ (.selectOne fun _ => children)
  constructor
  case key => exact hasColumn_id_of_delete (known _ .delete)
  case returning =>
    have inserts : (m.insertion m.ownerWritableFields none).Known (HasColumn models) :=
      known _ .insert
    exact fun f held => fullName_of_insertion passes member inserts held
  case children =>
    intro c child
    have children := List.ne_nil_of_mem child
    obtain ⟨order, admitted⟩ := passes.listOrder member
    exact ⟨childFits_onGet (get children) child,
      childFits_onList (known _ (.list (fun _ => children) admitted)) child⟩
  case references =>
    intro children r among other listed same
    exact referenceFits_of_known (get children) among listed same

end Closure

def Generates (m : Model) (q : Query) (s : Statement String) : Prop :=
  ∃ p, m.HasPlan p ∧ q = p.query ∧ s = p.statement

theorem HasPlan.generates {p : Plan} (plan : m.HasPlan p) : m.Generates p.query p.statement :=
  ⟨p, plan, rfl, rfl⟩

end Model

/-- Whatever definition is loaded and passes the audit, every query is written from a statement, and
all statements name columns that exist if and only if all models fit. -/
theorem loadModels_known_iff {raw : Entries} {settings audited : Settings}
    {source : Option String} {models : List Model}
    (loaded : loadModels raw settings source = .ok models)
    (passes : Audit.Passes models audited) :
    (∀ m ∈ models, ∀ q, m.HasQuery q → ∃ s, m.Generates q s ∧ q.Writes s) ∧
      ((∀ m ∈ models, ∀ q s, m.Generates q s → s.Known (HasColumn models)) ↔
        ∀ m ∈ models, m.Fits models) := by
  have all : ∀ m ∈ models, m.Loaded models := fun _ listed => loadModels_loaded loaded listed
  refine ⟨fun m _ q query => ?_, fun known m member => ?_, ?_⟩
  · obtain ⟨p, plan, rfl⟩ := Model.hasQuery_iff.mp query
    exact ⟨p.statement, ⟨p, plan, rfl, rfl⟩, p.writes_query⟩
  · exact Model.fits_of_plans passes member fun p plan =>
      known m member p.query p.statement ⟨p, plan, rfl, rfl⟩
  · rintro fits m member q s ⟨p, plan, rfl, rfl⟩
    exact plan.known all passes fits member

theorem blog_known : ∃ models m, loadModels (blog "id") .default none = .ok models ∧
    Audit.Passes models .default ∧ m ∈ models ∧ m.HasQuery (m.selectOnePlan true).query ∧
    ∀ m ∈ models, ∀ q s, m.Generates q s → s.Known (HasColumn models) := by
  have loaded := loadModels_blog .id
  have fits : ∀ m ∈ blogModels .id, m.Fits (blogModels .id) := by decide +kernel
  exact ⟨_, _, loaded, blog_passes .id, blogPost_mem .id,
    Model.hasQuery_iff.mpr ⟨_, .selectOne fun _ => blogPost_children .id, rfl⟩,
    (loadModels_known_iff loaded (blog_passes .id)).2.mpr fits⟩

def linkedBlog : Entries := .ofFields [("models", .list [
  .ofFields [("name", .text "Post"), ("has", .list [
    .ofFields [("model", .text "PostTag"), ("populate_on_get", .text "id")]])],
  .ofFields [("name", .text "Tag")],
  .ofFields [("name", .text "PostTag"), ("joins", .list [.text "Post", .text "Tag"])]])]

def postWithLinks : String :=
  "SELECT tb.id, tb.organization_id, tb.updated_at, tb.created_at, " ++
    "(SELECT COALESCE(ARRAY_AGG(ct.id), ARRAY[]::uuid[]) FROM public.post_tags ct " ++
    "WHERE ct.post_id = $1 AND ct.organization_id = $2) AS \"post_tag_ids\" " ++
    "FROM public.posts tb WHERE tb.id = $1 AND tb.organization_id = $2"

theorem linkedBlog_notKnown : ∃ models m q s, loadModels linkedBlog .default none = .ok models ∧
    Audit.Passes models .default ∧ m ∈ models ∧ m.HasQuery q ∧ m.Generates q s ∧
    q.text = postWithLinks ∧ ¬ HasColumn models ⟨"public", "post_tags"⟩ "id" ∧
    ¬ s.Known (HasColumn models) := by
  obtain ⟨models, m, loaded, member, checked⟩ := exists_loaded linkedBlog
    (fun m models => !(Audit.findings models .default).hasErrors &&
      (m.selectOnePlan true).bytes == Text.bytes postWithLinks &&
      !decide (HasColumn models ⟨"public", "post_tags"⟩ "id") &&
      m.children.any fun c => c.tableName == ⟨"public", "post_tags"⟩ && c.onGet == .id &&
        c.through.isNone) (by decide +kernel)
  simp only [Bool.and_eq_true, Bool.not_eq_true', beq_iff_eq, decide_eq_false_iff_not,
    List.any_eq_true, Option.isNone_iff_eq_none] at checked
  obtain ⟨⟨⟨passes, text⟩, missing⟩, c, child, ⟨table, byId⟩, direct⟩ := checked
  have plan : m.HasPlan (m.selectOnePlan true) := .selectOne fun _ => List.ne_nil_of_mem child
  refine ⟨models, m, _, .select (m.selectOneStatement true), loaded, passes, member,
    Model.hasQuery_iff.mpr ⟨_, plan, rfl⟩, ⟨_, plan, rfl, rfl⟩, Plan.text_eq_of_bytes text, missing,
    fun known => ?_⟩
  have selects : (m.selectOneStatement true).Known (HasColumn models) := known
  have fits := Model.childFits_onGet selects child
  exact missing (table ▸ fits.ids byId direct)

end TenantSql
