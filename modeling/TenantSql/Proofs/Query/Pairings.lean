import TenantSql.Proofs.Query.Closure
import TenantSql.Proofs.Sql.Uses

/-!
# Which columns are compared

Only reads with children and references compare columns with columns: the `id`
of a row with the column that refers to it, and organizations of two rows. All
other tests are of columns against parameters.
-/

namespace TenantSql

open Sql

def Reference.pairings (r : Reference) (m : Model) (scopes : List Scope) : List Pairing :=
  (r.comparisons !m.isGlobal : List (Comparison String)).flatMap (Comparison.pairings scopes)

namespace Model

variable {m : Model}

/-! ## Statements that pair no columns -/

section Unpaired

variable (owner : Option String) (scopes : List Scope) (p : Parent)

theorem pairings_append {scopes : List Scope} {tests more : List (Condition String)}
    (first : tests.flatMap (Condition.pairings scopes) = [])
    (second : more.flatMap (Condition.pairings scopes) = []) :
    (tests ++ more).flatMap (Condition.pairings scopes) = [] := by
  rw [List.flatMap_append, first, second, List.append_nil]

theorem pairings_idTests : (m.idTests owner).flatMap (Condition.pairings scopes) = [] := by
  rw [idTests, idComparisons, List.map_map, List.flatMap_map, List.flatMap_eq_nil_iff]
  exact fun _ _ => rfl

theorem pairings_organizationTest :
    (m.organizationTest owner).flatMap (Condition.pairings scopes) = [] := by
  unfold organizationTest
  split <;> rfl

theorem pairings_columnItems (fields : List Field) :
    (columnItems fields).flatMap (SelectItem.pairings scopes) = [] := by
  rw [columnItems, List.flatMap_map, List.flatMap_eq_nil_iff]
  exact fun _ _ => rfl

theorem pairings_ofParentTests :
    (m.ofParentTests p).flatMap (Condition.pairings scopes) = [] :=
  pairings_append (pairings_organizationTest _ _) rfl

theorem pairings_updateStatement (parent : Option Parent) :
    (m.updateStatement parent).pairings = [] := by
  refine pairings_append (pairings_append (pairings_idTests _ _) ?_) (pairings_organizationTest _ _)
  cases parent <;> rfl

theorem pairings_delete : m.deletePlan.statement.pairings = [] := by
  refine pairings_append (pairings_append (pairings_idTests _ _) (pairings_organizationTest _ _)) ?_
  split <;> rfl

theorem pairings_upsertResolution (scope : Scope) :
    (m.upsertResolution p).pairings scope = [] := by
  unfold upsertResolution
  split
  · rfl
  · exact pairings_append (pairings_organizationTest _ _) rfl

theorem pairings_plainSelect : (m.selectOneStatement false).pairings = [] := by
  simp only [selectOneStatement, Select.pairings, Bool.false_eq_true, if_false, List.append_nil,
    List.flatMap_append, pairings_columnItems, pairings_idTests, pairings_organizationTest,
    List.flatMap_nil]

theorem pairings_plainList (order : Option OrderBy) :
    (m.listStatement false order).pairings = [] := by
  simp only [listStatement, Select.pairings, Bool.false_eq_true, if_false, List.append_nil,
    pairings_columnItems, pairings_organizationTest, List.flatMap_nil]

end Unpaired

/-- Only reads that are populated compare columns with columns. -/
theorem HasPlan.pairings_eq {p : Plan} (plan : m.HasPlan p) :
    p.statement.pairings = [] ∨ m.children ≠ [] ∧
      (p.statement.pairings = (m.selectOneStatement true).pairings ∨
        p.statement.pairings = (m.listStatement true none).pairings) := by
  cases plan with
  | insert => exact .inl rfl
  | update => exact .inl (pairings_updateStatement none)
  | @updateWithParent q => exact .inl (pairings_updateStatement (some q))
  | @selectOne populated children =>
      cases populated with
      | false => exact .inl pairings_plainSelect
      | true => exact .inr ⟨children rfl, .inl rfl⟩
  | delete => exact .inl pairings_delete
  | deleteAllChildren => exact .inl (pairings_ofParentTests _ _)
  | deleteRemovedChildren => exact .inl (pairings_append (pairings_ofParentTests _ _) rfl)
  | deleteWithParent =>
      exact .inl (pairings_append (pairings_ofParentTests _ _) (pairings_idTests _ _))
  | @list populated request order children =>
      cases populated with
      | false => exact .inl (pairings_plainList order)
      | true => exact .inr ⟨children rfl, .inr rfl⟩
  | upsert => exact .inl ((List.append_nil _).trans (pairings_upsertResolution _ _))
  | lookup => exact .inl rfl

/-! ## Nested rows -/

/-- A subquery compares the `id` of a child with the join table's column, if it reads the child
through one, and the parent's column with what stands for the parent. -/
theorem pairings_subquery {c : Child} {fetch : FetchType} {organization : Option String}
    {parent : Operand String} {q : Subquery String} {outer : List Scope}
    (found : c.subquery? fetch organization parent = some q) :
    q.pairings outer =
      (if fetch = .data then c.through.toList.map fun through =>
        ⟨q.scope :: outer, ⟨some "tt", through.childColumn⟩, ⟨some "t", "id"⟩⟩ else []) ++
      (Comparison.equals ⟨some q.tableAlias, c.parentColumn⟩ parent).pairings
        (q.scope :: outer) := by
  have tests : q.conditions.flatMap (Comparison.pairings (q.scope :: outer)) =
      (Comparison.equals ⟨some q.tableAlias, c.parentColumn⟩ parent).pairings
        (q.scope :: outer) := by
    rw [(subquery_shape found).2.1]
    cases organization <;> simp [Child.comparisons, Comparison.pairings_param]
  rw [Subquery.pairings, tests]
  congr 1
  cases fetch with
  | none => cases found
  | id =>
      cases found
      rfl
  | data =>
      cases found
      cases given : c.through <;> simp [Child.dataSubquery, given, Comparison.pairings]

theorem pairings_reference {r : Reference} {scopes : List Scope} : r.pairings m scopes =
    ⟨scopes, ⟨some r.tableAlias, "id"⟩, ⟨some mainAlias, r.idColumn⟩⟩ ::
      if !m.isGlobal && !r.isGlobal then
        [⟨scopes, ⟨some r.tableAlias, "organization_id"⟩, ⟨some mainAlias, "organization_id"⟩⟩]
      else [] := by
  rw [Reference.pairings, Reference.comparisons, List.flatMap_cons]
  split <;> rfl

/-! ## Populated reads -/

theorem forall_childPairings {fetch : Child → FetchType} {label : Child → String}
    {parent : Operand String} {scopes : List Scope} {holds : Pairing → Prop} :
    (∀ p ∈ (m.children.filterMap fun c =>
        (c.subquery? (fetch c) m.nestedOrganization parent).map (.nested · (label c))).flatMap
          (SelectItem.pairings scopes), holds p) ↔
      ∀ c ∈ m.children, ∀ q, c.subquery? (fetch c) m.nestedOrganization parent = some q →
        ∀ p ∈ q.pairings scopes, holds p := by
  constructor
  · intro all c child q found p among
    refine all p (List.mem_flatMap.mpr ⟨.nested q (label c), ?_, among⟩)
    exact List.mem_filterMap.mpr ⟨c, child, congrArg (Option.map _) found⟩
  · intro all p among
    obtain ⟨item, listed, among⟩ := List.mem_flatMap.mp among
    obtain ⟨c, child, made⟩ := List.mem_filterMap.mp listed
    obtain ⟨q, found, rfl⟩ := Option.map_eq_some_iff.mp made
    exact all c child q found p among

theorem pairings_selectOne : (m.selectOneStatement true).pairings =
    m.childItemsOnGet.flatMap (SelectItem.pairings [m.mainScope m.referencesOnGet]) ++
      m.referencesOnGet.flatMap (·.pairings m [m.mainScope m.referencesOnGet]) := by
  have joined : (m.referencesOnGet.map (Reference.joinedItem : _ → SelectItem String)).flatMap
      (SelectItem.pairings [m.mainScope m.referencesOnGet]) = [] := by
    rw [List.flatMap_map, List.flatMap_eq_nil_iff]
    exact fun _ _ => rfl
  rw [Select.pairings, scope_selectOne]
  simp only [selectOneStatement, if_true, List.flatMap_append, pairings_columnItems, joined,
    pairings_idTests, pairings_organizationTest, List.flatMap_map, List.append_nil, List.nil_append]
  rfl

theorem pairings_list : (m.listStatement true none).pairings =
    m.childItemsOnList.flatMap (SelectItem.pairings [m.mainScope []]) ++
      m.referencesOnList.flatMap fun r =>
        r.pairings m [[(r.tableAlias, r.tableName)], m.mainScope []] := by
  have scope : (m.listStatement true none).scope = m.mainScope [] := rfl
  rw [Select.pairings, scope]
  simp only [listStatement, if_true, List.flatMap_append, pairings_columnItems,
    pairings_organizationTest, List.flatMap_map, List.flatMap_nil, List.append_nil, List.nil_append]
  rfl

end Model

end TenantSql
