import TenantSql.Proofs.Query.Closure
import TenantSql.Proofs.Query.PlanName
import TenantSql.Proofs.Query.Values

/-!
# Deletions and permissions

Of the statements of a model, only the deletion of a single row can ask for the
owner's permission, and it does if the model says so. The deletions for a parent
never ask. So a model with parents that wants the permission checked has
deletions that leave it out.
-/

namespace TenantSql

open Sql

namespace Sql

variable {π : Type}

def Condition.asksElsewhere : Condition π → Bool
  | .holds _ => false
  | .someRow _ _ => true

/-- The tests in the outermost `WHERE` of a statement that ask for a row of another table. -/
def Statement.guards (s : Statement π) : List (Condition π) :=
  s.conditions.filter Condition.asksElsewhere

theorem filter_asksElsewhere_holds (comparisons : List (Comparison π)) :
    (comparisons.map Condition.holds).filter Condition.asksElsewhere = [] :=
  List.filter_eq_nil_iff.mpr fun condition member => by
    obtain ⟨comparison, _, rfl⟩ := List.mem_map.mp member
    exact Bool.false_ne_true

end Sql

namespace Model

variable {m : Model}

/-! ## What is asked of other tables -/

theorem guards_idTests (m : Model) (tableAlias : Option String) :
    (m.idTests tableAlias).filter Condition.asksElsewhere = [] :=
  filter_asksElsewhere_holds _

theorem guards_organizationTest (m : Model) (tableAlias : Option String) :
    (m.organizationTest tableAlias).filter Condition.asksElsewhere = [] := by
  cases tenant : m.isGlobal <;> simp [organizationTest, tenant, Condition.asksElsewhere]

theorem guards_ofParentTests (m : Model) (p : Parent) :
    (m.ofParentTests p).filter Condition.asksElsewhere = [] := by
  simp [ofParentTests, guards_organizationTest, Condition.asksElsewhere]

theorem guards_update (m : Model) (parent : Option Parent) :
    (m.updateStatement parent).guards = [] := by
  cases parent <;>
    simp [updateStatement, Statement.guards, Statement.conditions, guards_idTests,
      guards_organizationTest, Condition.asksElsewhere]

theorem guards_delete (m : Model) :
    m.deletePlan.statement.guards =
      if m.checksPermission then [m.permissionCheck [m.ownerPermission]] else [] := by
  cases checks : m.checksPermission <;>
    simp [deletePlan, checks, Statement.guards, Statement.conditions, guards_idTests,
      guards_organizationTest, permissionCheck, Condition.asksElsewhere]

theorem guards_deleteRemovedChildren (m : Model) (p : Parent) :
    (m.deleteRemovedChildrenPlan p).statement.guards = [] := by
  refine (List.filter_append _ _).trans ?_
  rw [guards_ofParentTests]
  rfl

theorem guards_deleteWithParent (m : Model) (p : Parent) :
    (m.deleteWithParentPlan p).statement.guards = [] := by
  refine (List.filter_append _ _).trans ?_
  rw [guards_ofParentTests, guards_idTests]
  rfl

/-- Only the deletion of a single row asks for a permission, if the model wants it checked. -/
theorem HasPlan.guards {p : Plan} (plan : m.HasPlan p) :
    p.statement.guards =
      if p.name = "delete" ∧ m.checksPermission then [m.permissionCheck [m.ownerPermission]]
      else [] := by
  have unasked {q : Plan} (name : q.name ≠ "delete") (none : q.statement.guards = []) :
      q.statement.guards =
        if q.name = "delete" ∧ m.checksPermission then [m.permissionCheck [m.ownerPermission]]
        else [] := by
    rw [none, if_neg fun both => name both.1]
  have forParent (kind : OperationKind) (stem : String) (member : stem ∈ kind.stems) {q : Plan}
      {parent : String} (named : q.name = stem ++ parent) (none : q.statement.guards = []) :
      q.statement.guards =
        if q.name = "delete" ∧ m.checksPermission then [m.permissionCheck [m.ownerPermission]]
        else [] :=
    unasked (named ▸ OperationKind.stem_append_ne .delete rfl member parent) none
  cases plan with
  | insert => exact unasked (by simp [insertPlan]) rfl
  | update => exact unasked (by simp [updatePlan]) (guards_update m none)
  | @updateWithParent parent plain listed =>
      exact forParent .updateOneWithParent _ (List.mem_singleton_self _) rfl
        (guards_update m (some parent))
  | @selectOne populated children =>
      refine unasked (by cases populated <;> simp [selectOnePlan]) ?_
      simp [selectOnePlan, selectOneStatement, Statement.guards, Statement.conditions,
        guards_idTests, guards_organizationTest]
  | delete => simpa [deletePlan] using guards_delete m
  | @deleteAllChildren parent listed =>
      exact forParent .deleteChildren _ List.mem_cons_self rfl
        (guards_ofParentTests m parent)
  | @deleteRemovedChildren parent listed =>
      exact forParent .deleteChildren _ (List.mem_cons_of_mem _ List.mem_cons_self) rfl
        (guards_deleteRemovedChildren m parent)
  | @deleteWithParent parent listed =>
      exact forParent .deleteChildren _
        (List.mem_cons_of_mem _ (List.mem_cons_of_mem _ List.mem_cons_self)) rfl
        (guards_deleteWithParent m parent)
  | @list populated request order children admitted =>
      refine unasked (by cases populated <;> simp [listPlan]) ?_
      simp [listPlan, listStatement, Statement.guards, Statement.conditions,
        guards_organizationTest]
  | upsert listed => exact forParent .upsert _ (List.mem_singleton_self _) rfl rfl
  | lookup plain => exact unasked (by simp) (filter_asksElsewhere_holds _)

/-! ## Who is asked about -/

theorem actorIds_not_mem_idBindings (m : Model) : Binding.actorIds ∉ m.idBindings := by
  cases joined : m.join with
  | none => simp [idBindings, idColumns, joined, Binding.actorIds, Binding.id]
  | some join =>
      simp [idBindings, idColumns, joined, Binding.actorIds, Binding.joinId0, Binding.joinId1]

theorem actorIds_not_mem_organizationBinding (m : Model) :
    Binding.actorIds ∉ m.organizationBinding := by
  cases tenant : m.isGlobal <;>
    simp [organizationBinding, tenant, Binding.actorIds, Binding.organization]

theorem params_ofParentTests (m : Model) (p : Parent) :
    (m.ofParentTests p).flatMap (fun c => Fragment.params c.fragment) =
      m.organizationBinding ++ [Binding.parentId] := by
  rw [ofParentTests, List.flatMap_append, params_organizationTest, List.flatMap_singleton,
    params_equals]

theorem params_permissionCheck (m : Model) (permissions : List String) :
    Fragment.params (m.permissionCheck permissions).fragment =
      [Binding.organization, Binding.actorIds] :=
  Condition.params_fragment _

theorem params_deletePlan (m : Model) :
    Fragment.params m.deletePlan.statement.fragment =
      m.idBindings ++ m.organizationBinding ++
        if m.checksPermission then [Binding.organization, Binding.actorIds] else [] := by
  rw [deletePlan, Statement.params_delete, List.flatMap_append, List.flatMap_append,
    params_idTests, params_organizationTest]
  cases m.checksPermission <;> simp [params_permissionCheck]

theorem actorIds_mem_params_delete (m : Model) :
    Binding.actorIds ∈ Fragment.params m.deletePlan.statement.fragment ↔ m.checksPermission := by
  cases checks : m.checksPermission <;>
    simp [params_deletePlan, checks, m.actorIds_not_mem_idBindings,
      m.actorIds_not_mem_organizationBinding]

theorem not_mem_bindings_deleteChildren {name : String} (id : name ∉ m.idBindings)
    (organization : name ∉ m.organizationBinding) (parent : name ≠ Binding.parentId)
    (rows : name ≠ Binding.ids) (p : Parent) :
    name ∉ (m.deleteAllChildrenPlan p).query.bindings ∧
      name ∉ (m.deleteRemovedChildrenPlan p).query.bindings ∧
      name ∉ (m.deleteWithParentPlan p).query.bindings := by
  have ofParent : name ∉ (m.ofParentTests p).flatMap fun c => Fragment.params c.fragment := by
    rw [params_ofParentTests, List.mem_append]
    exact not_or.mpr ⟨organization, fun among => parent (List.mem_singleton.mp among)⟩
  have deletes {q : Plan} {tests : List (Condition String)} (unreserved : q.reserved = [])
      (written : q.statement = .delete m.tableName tests)
      (absent : name ∉ tests.flatMap fun c => Fragment.params c.fragment) :
      name ∉ q.query.bindings := by
    rw [Plan.mem_bindings, unreserved, written, Statement.params_delete]
    exact not_or.mpr ⟨List.not_mem_nil, absent⟩
  refine ⟨deletes rfl rfl ofParent, deletes rfl rfl ?_, deletes rfl rfl ?_⟩
  · rw [List.flatMap_append, List.mem_append]
    refine not_or.mpr ⟨ofParent, ?_⟩
    simpa [Condition.params_fragment, Condition.params, Comparison.params] using rows
  · rw [List.flatMap_append, params_idTests, List.mem_append]
    exact not_or.mpr ⟨ofParent, id⟩

/-- A deletion binds the actors if and only if it asks for a permission. -/
theorem HasPlan.actorIds_mem_bindings_iff {p : Plan} (plan : m.HasPlan p) {table : TableName}
    {conditions : List (Condition String)} (deletes : p.statement = .delete table conditions) :
    Binding.actorIds ∈ p.query.bindings ↔ p.name = "delete" ∧ m.checksPermission := by
  have unbound := m.not_mem_bindings_deleteChildren m.actorIds_not_mem_idBindings
    m.actorIds_not_mem_organizationBinding (by decide) (by decide)
  have forParent {q : Plan} {stem parent : String}
      (member : stem ∈ OperationKind.deleteChildren.stems) (named : q.name = stem ++ parent)
      (absent : Binding.actorIds ∉ q.query.bindings) :
      Binding.actorIds ∈ q.query.bindings ↔ q.name = "delete" ∧ m.checksPermission :=
    iff_of_false absent fun both =>
      OperationKind.stem_append_ne .delete rfl member parent (named ▸ both.1)
  cases plan with
  | insert | update | updateWithParent | selectOne | list | upsert | lookup => cases deletes
  | delete =>
      rw [Plan.mem_bindings, actorIds_mem_params_delete]
      simp [deletePlan]
  | @deleteAllChildren parent listed =>
      exact forParent List.mem_cons_self rfl (unbound parent).1
  | @deleteRemovedChildren parent listed =>
      exact forParent (List.mem_cons_of_mem _ List.mem_cons_self) rfl (unbound parent).2.1
  | @deleteWithParent parent listed =>
      exact forParent (List.mem_cons_of_mem _ (List.mem_cons_of_mem _ List.mem_cons_self)) rfl
        (unbound parent).2.2

/-- Every deletion of the model's rows asks whether the actors that are bound have the owner's
permission, if the model wants permissions checked; otherwise none does. -/
def ChecksDeletions (m : Model) : Prop :=
  ∀ q table conditions, m.Generates q (.delete table conditions) →
    (m.permissionCheck [m.ownerPermission] ∈ conditions ↔ m.checksPermission) ∧
      (Binding.actorIds ∈ q.bindings ↔ m.checksPermission)

theorem HasPlan.permissionCheck_mem_iff {p : Plan} (plan : m.HasPlan p) {table : TableName}
    {conditions : List (Condition String)} (deletes : p.statement = .delete table conditions) :
    m.permissionCheck [m.ownerPermission] ∈ conditions ↔ p.name = "delete" ∧ m.checksPermission := by
  have asked : m.permissionCheck [m.ownerPermission] ∈ conditions ↔
      m.permissionCheck [m.ownerPermission] ∈ p.statement.guards := by
    rw [deletes, Statement.guards, List.mem_filter]
    exact (and_iff_left rfl).symm
  rw [asked, plan.guards]
  split <;> simp_all

theorem parents_eq_nil_of_checksDeletions (checks : m.ChecksDeletions)
    (wanted : m.checksPermission) : m.parents = [] := by
  refine List.eq_nil_iff_forall_not_mem.mpr fun parent listed => ?_
  -- It would bind the actors, which only the deletion of a single row does.
  have plan : m.HasPlan (m.deleteAllChildrenPlan parent) := .deleteAllChildren listed
  have bound := (checks _ _ _ ⟨_, plan, rfl, rfl⟩).2.mpr wanted
  have named := ((plan.actorIds_mem_bindings_iff rfl).mp bound).1
  have among : "delete_all_children_of_" ∈ OperationKind.deleteChildren.stems := List.mem_cons_self
  exact OperationKind.stem_append_ne .delete rfl among parent.snakeName named

theorem HasPlan.name_of_deletes {p : Plan} (plan : m.HasPlan p) {table : TableName}
    {conditions : List (Condition String)} (deletes : p.statement = .delete table conditions)
    (alone : m.parents = []) : p.name = "delete" := by
  cases plan with
  | insert | update | updateWithParent | selectOne | list | upsert | lookup => cases deletes
  | delete => rfl
  | deleteAllChildren listed | deleteRemovedChildren listed | deleteWithParent listed =>
      rw [alone] at listed
      cases listed

end Model

/-- Of all deletions of a model's rows, exactly the one of a single row asks for the owner's
permission and binds the actors, and it does if and only if the model wants permissions checked.
So all deletions do as the model says if and only if it wants no check or has no parents. -/
theorem Model.checksDeletions_iff (m : Model) :
    (∀ q table conditions, m.Generates q (.delete table conditions) →
      m.HasQuery q ∧ q.Writes (.delete table conditions) ∧
        (Statement.delete table conditions).guards =
          (if q.name = "delete" ∧ m.checksPermission then [m.permissionCheck [m.ownerPermission]]
          else []) ∧
        (Binding.actorIds ∈ q.bindings ↔ q.name = "delete" ∧ m.checksPermission)) ∧
      (m.ChecksDeletions ↔ (m.checksPermission → m.parents = [])) := by
  refine ⟨?_, fun checks => m.parents_eq_nil_of_checksDeletions checks, fun alone => ?_⟩
  · rintro _ table conditions ⟨p, plan, rfl, written⟩
    have guards := plan.guards
    rw [← written] at guards
    exact ⟨hasQuery_iff.mpr ⟨p, plan, rfl⟩, written ▸ p.writes_query, guards,
      plan.actorIds_mem_bindings_iff written.symm⟩
  · rintro _ table conditions ⟨p, plan, rfl, written⟩
    rw [plan.permissionCheck_mem_iff written.symm, plan.actorIds_mem_bindings_iff written.symm,
      and_self]
    exact and_iff_right_of_imp fun wanted => plan.name_of_deletes written.symm (alone wanted)

def guardedPosts : Entries := .ofFields [("models", .list [
  .ofFields [("name", .text "Post"), ("auth_check_in_query", .bool true),
    ("belongs_to", .list [.text "Author"])],
  .ofFields [("name", .text "Author")]])]

/-- All posts of an author can be deleted without any permission. -/
theorem guardedPosts_unchecked : ∃ models m q, loadModels guardedPosts .default none = .ok models ∧
    Audit.Passes models .default ∧ m ∈ models ∧ m.checksPermission ∧ m.HasQuery q ∧
    q.name = "delete_all_children_of_author" ∧
    q.text = "DELETE FROM public.posts WHERE organization_id = $1 AND author_id = $2" ∧
    q.bindings = ["organization_id", "parent_id"] ∧ ¬ m.ChecksDeletions := by
  obtain ⟨models, m, loaded, member, checked⟩ := exists_loaded guardedPosts
    (fun m models => !(Audit.findings models .default).hasErrors && m.checksPermission &&
      m.parents.any fun p =>
        (m.deleteAllChildrenPlan p).query.name == "delete_all_children_of_author" &&
        (m.deleteAllChildrenPlan p).bytes == Text.bytes
          "DELETE FROM public.posts WHERE organization_id = $1 AND author_id = $2" &&
        (m.deleteAllChildrenPlan p).query.bindings == ["organization_id", "parent_id"])
    (by decide +kernel)
  simp only [Bool.and_eq_true, Bool.not_eq_true', beq_iff_eq, List.any_eq_true] at checked
  obtain ⟨⟨passes, wanted⟩, p, listed, ⟨name, text⟩, bindings⟩ := checked
  refine ⟨models, m, _, loaded, passes, member, wanted,
    Model.hasQuery_iff.mpr ⟨_, .deleteAllChildren listed, rfl⟩, name, Plan.text_eq_of_bytes text,
    bindings, fun checks => ?_⟩
  rw [Model.parents_eq_nil_of_checksDeletions checks wanted] at listed
  cases listed

end TenantSql
