import TenantSql.Proofs.Definition.Named
import TenantSql.Proofs.Query.Plan
import TenantSql.Proofs.Sql.EachName

/-!
# Names in the statements of a model

Every statement of a model whose names are identifiers spells these and fixed
names; only an insertion also spells full names of columns, which it returns. So
a property of all identifiers and of these full names is one of all names, for
instance that none of them can be taken for a parameter or a quote.
-/

namespace TenantSql

open Sql

variable {P : String → Prop}

theorem Reference.IsNamed.tableAlias {r : Reference} (named : r.IsNamed) :
    isIdentifier r.tableAlias :=
  isIdentifier_append (by decide) named.name

theorem Sql.Column.eachName_qualified {table name : String} (owner : P table) (named : P name) :
    (⟨some table, name⟩ : Column).EachName P :=
  ⟨fun _ same => Option.some.inj same ▸ owner, named⟩

theorem isIdentifier_id : isIdentifier "id" := by decide +kernel

theorem isIdentifier_organization : isIdentifier "organization_id" := by decide +kernel

theorem unqualified : ∀ name ∈ (none : Option String), P name :=
  nofun

theorem isIdentifier_alias {tableAlias : String} (fixed : tableAlias ∈ ["tb", "ct", "t", "tt"]) :
    isIdentifier tableAlias := by
  revert tableAlias
  decide +kernel

namespace Model

variable {models : List Model} {m : Model}

namespace IsNamed

theorem idColumn (named : m.IsNamed) {column binding : String}
    (member : (column, binding) ∈ m.idColumns) : isIdentifier column := by
  cases joined : m.join with
  | none =>
      simp only [idColumns, joined, List.mem_singleton, Prod.mk.injEq] at member
      rw [member.1]
      exact isIdentifier_id
  | some join =>
      simp only [idColumns, joined, List.mem_cons, List.not_mem_nil, or_false, Prod.mk.injEq]
        at member
      have ofId (id : String) (among : id ∈ join.idNames) : isIdentifier id :=
        named.joinIds id (by simpa [joinIdNames, joined] using among)
      rcases member with ⟨rfl, _⟩ | ⟨rfl, _⟩
      · exact ofId _ (by simp [Join.idNames])
      · exact ofId _ (by simp [Join.idNames])

theorem otherIdColumn (named : m.IsNamed) (column : String) :
    isIdentifier (m.otherIdColumn column) := by
  unfold Model.otherIdColumn
  split
  · rename_i join joined
    have first : (join.ids.1, Binding.joinId0) ∈ m.idColumns := by simp [idColumns, joined]
    have second : (join.ids.2, Binding.joinId1) ∈ m.idColumns := by simp [idColumns, joined]
    split
    · exact named.idColumn second
    · exact named.idColumn first
  · exact isIdentifier_id

end IsNamed

variable (ids : ∀ s, isIdentifier s → P s)

include ids

theorem IsNamed.tableName (named : m.IsNamed) : m.tableName.EachName P :=
  ⟨ids _ named.schema, ids _ named.table⟩

theorem IsNamed.idTests (named : m.IsNamed) {tableAlias : Option String}
    (qualifier : ∀ name ∈ tableAlias, P name) :
    ∀ condition ∈ m.idTests tableAlias, condition.EachName P := by
  intro condition member
  simp only [Model.idTests, idComparisons, List.map_map, List.mem_map, Function.comp_apply] at member
  obtain ⟨⟨column, binding⟩, among, rfl⟩ := member
  exact ⟨⟨qualifier, ids _ (named.idColumn among)⟩, trivial⟩

theorem organizationTest_names {tableAlias : Option String}
    (qualifier : ∀ name ∈ tableAlias, P name) :
    ∀ condition ∈ m.organizationTest tableAlias, condition.EachName P := by
  intro condition member
  unfold Model.organizationTest at member
  split at member
  · cases member
  · rw [List.mem_singleton.mp member]
    exact ⟨⟨qualifier, ids _ isIdentifier_organization⟩, trivial⟩

theorem objectOf_names {fields : List Field} {table : String} (named : P table)
    (columns : ∀ f ∈ fields, isIdentifier f.column) :
    EachEntryName P (objectOf fields (some table)) := by
  intro entry member
  obtain ⟨f, held, rfl⟩ := List.mem_map.mp member
  exact ⟨fun _ same => Option.some.inj same ▸ named,
    ids _ (columns f held)⟩

theorem childComparisons_names {c : Child} (column : isIdentifier c.parentColumn)
    {tableAlias : String} (fixed : tableAlias ∈ ["tb", "ct", "t", "tt"])
    {organization : Option String} {parent : Operand String}
    (parentNames : parent.EachName P) :
    ∀ comparison ∈ c.comparisons tableAlias organization parent,
      comparison.EachName P := by
  intro comparison member
  have owner := ids _ (isIdentifier_alias fixed)
  rcases List.mem_cons.mp member with rfl | other
  · exact ⟨Column.eachName_qualified owner (ids _ column), parentNames⟩
  · cases organization with
    | none => cases other
    | some p =>
        rw [List.mem_singleton.mp other]
        exact ⟨Column.eachName_qualified owner (ids _ isIdentifier_organization), trivial⟩

theorem subquery_names {c : Child} (named : c.IsNamed) {fetch : FetchType}
    {organization : Option String} {parent : Operand String} (parentNames : parent.EachName P)
    {q : Subquery String} (found : c.subquery? fetch organization parent = some q) :
    q.EachName P := by
  have idTable : c.idTable.EachName P := by
    unfold Child.idTable
    split
    · rename_i through given
      exact ⟨ids _ (named.through through given).schema, ids _ (named.through through given).table⟩
    · exact ⟨ids _ named.schema, ids _ named.table⟩
  have ct : P "ct" := ids _ (isIdentifier_alias (by simp))
  have t : P "t" := ids _ (isIdentifier_alias (by simp))
  have tt : P "tt" := ids _ (isIdentifier_alias (by simp))
  have elements : ∀ element ∈ ["uuid", "jsonb"], isClosed element := by decide +kernel
  cases fetch with
  | none => cases found
  | id =>
      cases found
      refine ⟨Column.eachName_qualified ct ?_, ?_, idTable, ct, nofun,
        childComparisons_names ids named.parentColumn (by simp) parentNames⟩
      · unfold Child.idColumn
        split
        · rename_i through given
          exact ids _ (named.through through given).childColumn
        · exact ids _ isIdentifier_id
      · intro element gathered
        have same := Option.some.inj (Option.ite_none_right_eq_some.mp gathered).2
        exact elements element (by simp [← same])
  | data =>
      cases found
      refine ⟨objectOf_names ids t named.columns, ?_, idTable, ?_, ?_,
        childComparisons_names ids named.parentColumn ?_ parentNames⟩
      · intro element gathered
        have same := Option.some.inj (Option.ite_none_right_eq_some.mp gathered).2
        exact elements element (by simp [← same])
      · show P (if c.through.isSome then "tt" else "t")
        split
        · exact tt
        · exact t
      · intro join given
        obtain ⟨through, stated, rfl⟩ := Option.map_eq_some_iff.mp given
        exact ⟨⟨ids _ named.schema, ids _ named.table⟩, t,
          Column.eachName_qualified tt (ids _ (named.through through stated).childColumn),
          Column.eachName_qualified t (ids _ isIdentifier_id)⟩
      · cases c.through <;> simp

theorem childItem_names {c : Child} (named : c.IsNamed) {fetch : FetchType}
    {organization : Option String} {parent : Operand String} {item : SelectItem String}
    {label : String}
    (found : (c.subquery? fetch organization parent).map (.nested · label) = some item)
    (parentNames : parent.EachName P) :
    item.EachName P := by
  obtain ⟨query, fetched, rfl⟩ := Option.map_eq_some_iff.mp found
  exact subquery_names ids named parentNames fetched

theorem reference_names {r : Reference} (named : r.IsNamed) :
    r.tableName.EachName P ∧ P r.tableAlias ∧
      EachEntryName P r.objectEntries ∧
      ∀ tenant, ∀ comparison ∈ (r.comparisons tenant : List (Comparison String)),
        comparison.EachName P := by
  have aliasName := ids _ named.tableAlias
  have main : P mainAlias := ids _ (isIdentifier_alias (by simp [mainAlias]))
  refine ⟨⟨ids _ named.schema, ids _ named.table⟩, aliasName,
    objectOf_names ids aliasName named.columns, fun tenant comparison among => ?_⟩
  rcases List.mem_cons.mp among with rfl | other
  · exact ⟨Column.eachName_qualified aliasName (ids _ isIdentifier_id),
      Column.eachName_qualified main (ids _ named.idColumn)⟩
  · split at other
    · rw [List.mem_singleton.mp other]
      exact ⟨Column.eachName_qualified aliasName (ids _ isIdentifier_organization),
        Column.eachName_qualified main (ids _ isIdentifier_organization)⟩
    · cases other

theorem columnItems_names (named : m.IsNamed) {fields : List Field}
    (own : ∀ f ∈ fields, f ∈ m.fields) :
    ∀ item ∈ columnItems fields, item.EachName P := by
  intro item member
  obtain ⟨f, held, rfl⟩ := List.mem_map.mp member
  exact Column.eachName_qualified (ids _ (isIdentifier_alias (by simp [mainAlias])))
    (ids _ (named.columns f (own f held)))

theorem selectOne_names (named : m.IsNamed) (populated : Bool) :
    (m.selectOneStatement populated).EachName P := by
  have main : P mainAlias := ids _ (isIdentifier_alias (by simp [mainAlias]))
  have qualifier : ∀ name ∈ some mainAlias, P name :=
    fun _ same => Option.some.inj same ▸ main
  refine ⟨fun item listed => ?_, named.tableName ids, main, fun join joined => ?_,
    fun condition tested => ?_, nofun⟩
  · rcases List.mem_append.mp listed with column | nested
    · exact columnItems_names ids named (fun f held => (List.mem_filter.mp held).1) item column
    · cases populated with
      | false => cases nested
      | true =>
          rcases List.mem_append.mp nested with child | reference
          · obtain ⟨c, held, found⟩ := List.mem_filterMap.mp child
            exact childItem_names ids (named.children c held) found trivial
          · obtain ⟨r, held, rfl⟩ := List.mem_map.mp reference
            obtain ⟨_, aliasName, entries, _⟩ :=
              reference_names ids (named.references r (List.mem_filter.mp held).1)
            exact ⟨aliasName, ids _ isIdentifier_id, entries⟩
  · cases populated with
    | false => cases joined
    | true =>
        obtain ⟨r, held, rfl⟩ := List.mem_map.mp joined
        obtain ⟨table, aliasName, _, comparisons⟩ :=
          reference_names ids (named.references r (List.mem_filter.mp held).1)
        exact ⟨table, aliasName, comparisons _⟩
  · rcases List.mem_append.mp tested with id | organization
    · exact named.idTests ids qualifier condition id
    · exact organizationTest_names ids qualifier condition organization

omit ids in
theorem sortable_of_listOrder {request : Option String} {order : OrderBy}
    (admitted : m.listOrder request = .ok (some order)) :
    ∃ f ∈ m.sortableFields, ∃ descending, order = ⟨f.name, f.column, descending⟩ := by
  unfold listOrder at admitted
  split at admitted
  · cases admitted
  · obtain ⟨found, ordered, same⟩ := Result.map_eq_ok.mp admitted
    cases same
    simp only [orderOf] at ordered
    split at ordered
    · cases ordered
    · rename_i f here
      split at ordered
      · cases ordered
        exact ⟨f, List.mem_of_find?_eq_some here, _, rfl⟩
      · cases ordered

omit ids in
theorem mem_fields_of_listOrder {request : Option String} {order : OrderBy}
    (admitted : m.listOrder request = .ok (some order)) :
    ∃ f ∈ m.fields, f.column = order.column := by
  obtain ⟨f, sortable, _, rfl⟩ := sortable_of_listOrder admitted
  exact ⟨f, (List.mem_filter.mp sortable).1, rfl⟩

theorem list_names (named : m.IsNamed) (populated : Bool) {request : Option String}
    {order : Option OrderBy} (admitted : m.listOrder request = .ok order) :
    (m.listStatement populated order).EachName P := by
  have main : P mainAlias := ids _ (isIdentifier_alias (by simp [mainAlias]))
  have qualifier : ∀ name ∈ some mainAlias, P name :=
    fun _ same => Option.some.inj same ▸ main
  refine ⟨fun item listed => ?_, named.tableName ids, main, nofun,
    organizationTest_names ids qualifier, fun term ordered => ?_⟩
  · rcases List.mem_append.mp listed with column | nested
    · exact columnItems_names ids named (fun f held => (List.mem_filter.mp held).1) item column
    · cases populated with
      | false => cases nested
      | true =>
          rcases List.mem_append.mp nested with child | reference
          · obtain ⟨c, held, found⟩ := List.mem_filterMap.mp child
            exact childItem_names ids (named.children c held) found
              (Column.eachName_qualified main (ids _ isIdentifier_id))
          · obtain ⟨r, held, rfl⟩ := List.mem_map.mp reference
            obtain ⟨table, aliasName, entries, comparisons⟩ :=
              reference_names ids (named.references r (List.mem_filter.mp held).1)
            exact ⟨entries, nofun, table, aliasName, nofun, comparisons _⟩
  · obtain ⟨o, stated, rfl⟩ := Option.map_eq_some_iff.mp ordered
    rw [stated] at admitted
    obtain ⟨f, held, column⟩ := mem_fields_of_listOrder admitted
    exact Column.eachName_qualified main (ids _ (column ▸ named.columns f held))

theorem ofActors_names :
    ∀ comparison ∈ Permission.ofActors, comparison.EachName P := by
  intro comparison member
  simp only [Permission.ofActors, List.mem_cons, List.not_mem_nil, or_false] at member
  rcases member with rfl | rfl
  · exact ⟨⟨nofun, ids _ isIdentifier_organization⟩, trivial⟩
  · exact ⟨nofun, ids "actor_id" (by decide +kernel)⟩

theorem permissionCheck_names (named : m.IsNamed) (permissions : List String) :
    (m.permissionCheck permissions).EachName P := by
  refine ⟨⟨ids _ named.authSchema, ids "permissions" (by decide +kernel)⟩, fun comparison member => ?_⟩
  rcases List.mem_append.mp member with actors | permission
  · exact ofActors_names ids comparison actors
  · rw [List.mem_singleton.mp permission]
    exact ⟨nofun, ids "permission" (by decide +kernel)⟩

theorem tierLookup_names (schema : isIdentifier m.authSchema) : m.tierLookup.EachName P := by
  refine ⟨⟨ids _ schema,
    ids "object_permissions" (by decide +kernel)⟩, fun comparison member => ?_⟩
  rcases List.mem_append.mp member with actors | other
  · exact ofActors_names ids comparison actors
  · simp only [List.mem_cons, List.not_mem_nil, or_false] at other
    rcases other with rfl | rfl
    · exact ⟨⟨nofun, ids "object_id" (by decide +kernel)⟩, trivial⟩
    · exact ⟨nofun, ids "permission" (by decide +kernel)⟩

theorem touch_names : touch.EachName P :=
  ids "updated_at" (by decide +kernel)

theorem parentTest_names (named : m.IsNamed) {p : Parent} (parent : p ∈ m.parents)
    {tableAlias : Option String} (qualifier : ∀ name ∈ tableAlias, P name) :
    (Condition.holds (.equals ⟨tableAlias, p.column⟩ (.param Binding.parentId))).EachName P :=
  ⟨⟨qualifier, ids _ (named.parents p parent)⟩, trivial⟩

theorem insertion_names (named : m.IsNamed) {fields : List Field}
    (own : ∀ f ∈ fields, f ∈ m.fields) (returned : ∀ name ∈ m.returning, P name)
    {conflict : Option (Conflict String)}
    (target : ∀ c ∈ conflict, ∀ column ∈ c.target, P column)
    (resolution : ∀ c ∈ conflict, c.resolution.EachName P) :
    (m.insertion fields conflict).EachName P := by
  refine ⟨named.tableName ids, fun column member => ?_, target, resolution, returned⟩
  simp only [insertion, List.mem_append, List.mem_map] at member
  rcases member with (⟨⟨id, binding⟩, among, rfl⟩ | organization) | ⟨f, held, rfl⟩
  · exact ids _ (named.idColumn among)
  · unfold organizationColumn at organization
    split at organization
    · cases organization
    · rw [List.mem_singleton.mp organization]
      exact ids _ isIdentifier_organization
  · exact ids _ (named.columns f (own f held))

theorem update_names (named : m.IsNamed) {parent : Option Parent}
    (known : ∀ p ∈ parent, p ∈ m.parents) :
    (m.updateStatement parent).EachName P := by
  refine ⟨named.tableName ids, fun assignment member => ?_, fun condition member => ?_⟩
  · rcases List.mem_append.mp member with field | touched
    · obtain ⟨f, held, rfl⟩ := List.mem_map.mp field
      exact ids _ (named.columns f (List.mem_filter.mp held).1)
    · rw [List.mem_singleton.mp touched]
      exact touch_names ids
  · simp only [List.mem_append] at member
    rcases member with (id | ofParent) | organization
    · exact named.idTests ids unqualified condition id
    · cases parent with
      | none => cases ofParent
      | some p =>
          rw [List.mem_singleton.mp ofParent]
          exact parentTest_names ids named (known p rfl) unqualified
    · exact organizationTest_names ids unqualified condition organization

theorem ofParentTests_names (named : m.IsNamed) {p : Parent} (parent : p ∈ m.parents) :
    ∀ condition ∈ m.ofParentTests p, condition.EachName P := by
  intro condition member
  rcases List.mem_append.mp member with organization | ofParent
  · exact organizationTest_names ids unqualified condition organization
  · rw [List.mem_singleton.mp ofParent]
    exact parentTest_names ids named parent unqualified

theorem upsert_names (named : m.IsNamed) {p : Parent} (parent : p ∈ m.parents)
    (returned : ∀ name ∈ m.returning, P name) :
    (m.upsertPlan p).statement.EachName P := by
  have parentColumn := ids _ (named.parents p parent)
  refine insertion_names ids named (fun f held => ?_) returned ?_ ?_
  · exact (List.mem_filter.mp (List.mem_filter.mp held).1).1
  · intro conflict given column member
    obtain rfl := Option.mem_some_iff.mp given
    simp only at member
    split at member
    · rw [List.mem_singleton.mp member]
      exact parentColumn
    · obtain ⟨⟨id, binding⟩, among, rfl⟩ := List.mem_map.mp member
      exact ids _ (named.idColumn among)
  · intro conflict given
    obtain rfl := Option.mem_some_iff.mp given
    have qualifier : ∀ name ∈ some m.table, P name :=
      fun _ same => Option.some.inj same ▸ ids _ named.table
    simp only [upsertResolution]
    split
    · trivial
    · refine ⟨fun assignment member => ?_, fun condition member => ?_⟩
      · rcases List.mem_append.mp member with field | touched
        · obtain ⟨f, held, rfl⟩ := List.mem_map.mp field
          exact ids _ (named.columns f (List.mem_filter.mp held).1)
        · rw [List.mem_singleton.mp touched]
          exact touch_names ids
      · rcases List.mem_append.mp member with organization | ofParent
        · exact organizationTest_names ids qualifier condition organization
        · rw [List.mem_singleton.mp ofParent]
          exact parentTest_names ids named parent qualifier

/-- What all identifiers have in common, and all names that a statement returns, all of its names
have in common. -/
theorem HasPlan.eachName (named : m.IsNamed) {p : Plan} (plan : m.HasPlan p)
    (returned : ∀ name ∈ p.statement.returned, P name) : p.statement.EachName P := by
  cases plan with
  | insert =>
      exact insertion_names ids named (fun f held => (List.mem_filter.mp held).1) returned nofun
        nofun
  | update =>
      have known : ∀ p ∈ (none : Option Parent), p ∈ m.parents := nofun
      exact update_names ids named known
  | updateWithParent plain parent =>
      exact update_names ids named fun p same => Option.some.inj same ▸ parent
  | selectOne children => exact selectOne_names ids named _
  | delete =>
      refine ⟨named.tableName ids, fun condition tested => ?_⟩
      simp only [List.mem_append] at tested
      rcases tested with (id | organization) | permission
      · exact named.idTests ids unqualified condition id
      · exact organizationTest_names ids unqualified condition organization
      · split at permission
        · rw [List.mem_singleton.mp permission]
          exact permissionCheck_names ids named _
        · cases permission
  | deleteAllChildren parent => exact ⟨named.tableName ids, ofParentTests_names ids named parent⟩
  | @deleteRemovedChildren q parent =>
      refine ⟨named.tableName ids, fun condition tested => ?_⟩
      rcases List.mem_append.mp tested with ofParent | removed
      · exact ofParentTests_names ids named parent condition ofParent
      · rw [List.mem_singleton.mp removed]
        exact ⟨nofun, ids _ (named.otherIdColumn q.column)⟩
  | deleteWithParent parent =>
      refine ⟨named.tableName ids, fun condition tested => ?_⟩
      rcases List.mem_append.mp tested with ofParent | id
      · exact ofParentTests_names ids named parent condition ofParent
      · exact named.idTests ids unqualified condition id
  | list children admitted => exact list_names ids named _ admitted
  | upsert parent => exact upsert_names ids named parent returned
  | lookup plain => exact tierLookup_names ids named.authSchema

omit ids in
theorem HasPlan.returned {p : Plan} (plan : m.HasPlan p) :
    ∀ name ∈ p.statement.returned, ∃ f ∈ m.readableFields, name = f.fullName := by
  intro name member
  have full (listed : name ∈ m.returning) : ∃ f ∈ m.readableFields, name = f.fullName := by
    obtain ⟨f, held, same⟩ := List.mem_map.mp listed
    exact ⟨f, held, same.symm⟩
  cases plan with
  | insert | upsert => exact full member
  | update | updateWithParent | selectOne | delete | deleteAllChildren | deleteRemovedChildren |
    deleteWithParent | list | lookup => cases member

omit ids in
theorem HasPlan.names (all : ∀ m ∈ models, m.Loaded models) (member : m ∈ models) {p : Plan}
    (plan : m.HasPlan p) : p.statement.EachName HoldsNoParameter := by
  refine plan.eachName (fun _ => isIdentifier_holdsNoParameter) (Loaded.isNamed all member)
    fun name listed => ?_
  obtain ⟨f, held, rfl⟩ := plan.returned name listed
  exact (all m member).fullNames f (List.mem_filter.mp held).1

end Model

end TenantSql
