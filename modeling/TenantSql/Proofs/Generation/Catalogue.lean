import TenantSql.Proofs.Generation.Run
import TenantSql.Proofs.Query.Placeholder

/-!
# What is generated

An audit without errors rules out every failure of generation. What is
generated is then the catalogue of a model, as far as it belongs to the wanted
families: the same plans in the same order, whatever is wanted and in whatever
order the tasks are completed.
-/

namespace TenantSql

open Sql

namespace Model

variable {m : Model} {order : Option OrderBy} {wanted : List OperationKind}

def catalogue (m : Model) (order : Option OrderBy) : List (OperationKind × Plan) :=
  List.flatten [
    [(.insert, m.insertPlan), (.update, m.updatePlan)],
    if m.isJoin then []
    else m.parents.map fun p => (.updateOneWithParent, m.updateWithParentPlan p),
    [(.selectOne, m.selectOnePlan false)],
    if m.children = [] then [] else [(.selectOnePopulated, m.selectOnePlan true)],
    [(.delete, m.deletePlan)],
    m.parents.flatMap fun p =>
      [(.deleteChildren, m.deleteAllChildrenPlan p), (.deleteChildren, m.deleteRemovedChildrenPlan p),
        (.deleteChildren, m.deleteWithParentPlan p)],
    [(.list, m.listPlan false order)],
    if m.children = [] then [] else [(.listPopulated, m.listPlan true order)],
    m.parents.map fun p => (.upsert, m.upsertPlan p),
    if m.isJoin then []
    else [(.lookupObjectPermissions,
      { name := "lookup_object_permissions", statement := .lookup m.tierLookup })]]

def catalogueNames (m : Model) : List (OperationKind × String) :=
  List.flatten [
    [(.insert, "insert"), (.update, "update")],
    if m.isJoin then []
    else m.parents.map fun p => (.updateOneWithParent, "update_one_with_parent_of_" ++ p.snakeName),
    [(.selectOne, "select_one")],
    if m.children = [] then [] else [(.selectOnePopulated, "select_one_populated")],
    [(.delete, "delete")],
    m.parents.flatMap fun p =>
      [(.deleteChildren, "delete_all_children_of_" ++ p.snakeName),
        (.deleteChildren, "delete_removed_children_of_" ++ p.snakeName),
        (.deleteChildren, "delete_with_parent_of_" ++ p.snakeName)],
    [(.list, "list")],
    if m.children = [] then [] else [(.listPopulated, "list_populated")],
    m.parents.map fun p => (.upsert, "upsert_single_child_of_" ++ p.snakeName),
    if m.isJoin then [] else [(.lookupObjectPermissions, "lookup_object_permissions")]]

theorem names_catalogue :
    ((m.catalogue order).map fun entry => (entry.1, entry.2.name)) = m.catalogueNames := by
  simp only [catalogue, catalogueNames, List.map_flatten, List.map_cons, List.map_nil, List.map_map,
    List.map_flatMap, apply_ite (List.map fun entry : OperationKind × Plan =>
      (entry.1, entry.2.name))]
  rfl

structure Catalogued (m : Model) (wanted : List OperationKind) (queries : List Query) : Prop where
  plans : ∃ order, m.listOrder none = .ok order ∧
    queries = ((m.catalogue order).filter fun entry => wanted.contains entry.1).map (·.2.query)
  names : queries.map Query.name =
    (m.catalogueNames.filter fun entry => wanted.contains entry.1).map (·.2)

theorem plansOf_selectOnePopulated :
    m.plansOf .selectOnePopulated = if m.children = [] then [] else [m.selectOnePlan true] := by
  have planned : m.plansOf .selectOnePopulated = (m.selectOne? true).toList := rfl
  rw [planned, selectOne?, Bool.true_and]
  cases m.children <;> rfl

theorem plansOf_list (admitted : m.listOrder none = .ok order) :
    m.plansOf .list = [m.listPlan false order] := by
  have found : m.list? false none = .ok (some (m.listPlan false order)) := by
    simp only [list?, admitted, Bool.false_and, Bool.false_eq_true, if_false]
  rw [plansOf, Model.plans, found]
  rfl

theorem plansOf_listPopulated (admitted : m.listOrder none = .ok order) :
    m.plansOf .listPopulated = if m.children = [] then [] else [m.listPlan true order] := by
  cases children : m.children with
  | nil =>
      rw [plansOf, Model.plans, list?, children]
      rfl
  | cons child rest =>
      rw [plansOf, Model.plans, list?, children, admitted]
      rfl

theorem plansOf_lookupObjectPermissions :
    m.plansOf .lookupObjectPermissions =
      if m.isJoin then []
      else [{ name := "lookup_object_permissions", statement := .lookup m.tierLookup }] := by
  cases joins : m.isJoin <;>
    simp only [plansOf, Model.plans, lookupPlan, joins, Bool.false_eq_true, if_false, if_true] <;> rfl

theorem catalogue_eq (admitted : m.listOrder none = .ok order) :
    m.catalogue order =
      OperationKind.all.flatMap fun kind => (m.plansOf kind).map (Prod.mk kind) := by
  have insert : m.plansOf .insert = [m.insertPlan] := rfl
  have update : m.plansOf .update = [m.updatePlan] := rfl
  have updates : m.plansOf .updateOneWithParent = m.updateWithParentPlans := rfl
  have select : m.plansOf .selectOne = [m.selectOnePlan false] := rfl
  have delete : m.plansOf .delete = [m.deletePlan] := rfl
  have deletes : m.plansOf .deleteChildren = m.deleteChildrenPlans := rfl
  have upserts : m.plansOf .upsert = m.upsertPlans := rfl
  simp only [OperationKind.all, List.flatMap_cons, List.flatMap_nil, insert, update, updates,
    updateWithParentPlans, select, plansOf_selectOnePopulated, delete, deletes, deleteChildrenPlans,
    plansOf_list admitted, plansOf_listPopulated admitted, upserts, upsertPlans,
    plansOf_lookupObjectPermissions, apply_ite (List.map _), List.map_cons, List.map_nil,
    List.map_map, List.map_flatMap, catalogue, List.flatten_cons, List.flatten_nil]
  rfl

theorem queriesFor_eq (admitted : m.listOrder none = .ok order) (wanted : List OperationKind) :
    m.queriesFor wanted =
      ((m.catalogue order).filter fun entry => wanted.contains entry.1).map (·.2.query) := by
  have family (kind : OperationKind) :
      (((m.plansOf kind).map (Prod.mk kind)).filter fun entry => wanted.contains entry.1).map
          (·.2.query) =
        if wanted.contains kind && !(kind == .lookupObjectPermissions && m.isJoin) then
          (m.plansOf kind).map Plan.query else [] := by
    rw [List.filter_map]
    cases listed : wanted.contains kind with
    | false => simp [Function.comp_def, -List.contains_eq_mem, listed]
    | true =>
        simp only [Function.comp_def, listed, List.filter_true, List.map_map, Bool.true_and]
        split
        · rfl
        · rename_i excluded
          -- The family that is left out for a join table has no plans there.
          simp only [Bool.not_eq_true', Bool.not_eq_false, Bool.and_eq_true, beq_iff_eq] at excluded
          rw [excluded.1, plansOf_lookupObjectPermissions, if_pos excluded.2]
          rfl
  rw [catalogue_eq admitted, List.filter_flatMap, List.map_flatMap]
  simp only [family]
  exact Generation.flatMap_filter OperationKind.all _ _

theorem catalogued_queriesFor (admitted : m.listOrder none = .ok order)
    (wanted : List OperationKind) : m.Catalogued wanted (m.queriesFor wanted) where
  plans := ⟨order, admitted, queriesFor_eq admitted wanted⟩
  names := by
    have names (entry : OperationKind × Plan) : (entry.2.query).name = entry.2.name := rfl
    rw [queriesFor_eq admitted wanted, ← names_catalogue, List.filter_map, List.map_map, List.map_map]
    rfl

end Model

/-- If the audit of some models finds no error, then the queries of all wanted families can be
generated, model by model or as tasks that are completed in any order, and are the catalogue of
every model as far as it belongs to these families. -/
theorem audit_guards_generation {models : List Model} {settings : Settings}
    (passes : Audit.Passes models settings) (wanted : List OperationKind) :
    ∃ queries : Model → List Query,
      (∀ m ∈ models, m.queries wanted = .ok (queries m) ∧ m.Catalogued wanted (queries m)) ∧
        ∀ schedule, Generation.runBy schedule models wanted =
          .ok (models.map fun m => (m.moduleName, queries m)) := by
  refine ⟨fun m => m.queriesFor wanted, fun m member => ?_, fun schedule => ?_⟩
  · obtain ⟨order, admitted⟩ := passes.listOrder member
    exact ⟨Model.queries_eq_ok passes member wanted, Model.catalogued_queriesFor admitted wanted⟩
  · exact Generation.runBy_eq_ok passes schedule wanted

theorem blog_isGenerated : ∃ models modules, loadModels (blog "id") .default none = .ok models ∧
    Audit.Passes models .default ∧
    Generation.runBy [5, 0, 3] models [.listPopulated, .update, .list] = .ok modules ∧
    modules.map (fun entry => (entry.1, entry.2.map Query.name)) =
      [("post", ["update", "list", "list_populated"]), ("tag", ["update", "list"]),
        ("post_tag", ["update", "list"])] := by
  let wanted : List OperationKind := [.listPopulated, .update, .list]
  have names : (blogModels .id).map (fun m => (m.moduleName,
      (m.catalogueNames.filter fun entry => wanted.contains entry.1).map (·.2))) =
      [("post", ["update", "list", "list_populated"]), ("tag", ["update", "list"]),
        ("post_tag", ["update", "list"])] := by
    decide +kernel
  obtain ⟨queries, generated, ran⟩ := audit_guards_generation (blog_passes .id) wanted
  refine ⟨_, _, loadModels_blog .id, blog_passes .id, ran [5, 0, 3], ?_⟩
  rw [← names, List.map_map]
  refine List.map_congr_left fun m member => ?_
  rw [Function.comp_apply, (generated m member).2.names]

end TenantSql
