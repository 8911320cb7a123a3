import TenantSql.Generation.Task
import TenantSql.Proofs.Model.Keys
import TenantSql.Proofs.Query.PlanName

/-!
# The result of a run

A run over models whose modules are distinct yields, in the order of the
models, the queries of every module. The result of a task does not depend on
whether its slot was filled early or is waited for.
-/

namespace TenantSql.Generation

open Sql

def withResults (result : Task → List Query) (tasks : List Task) (modules : ByModule) : ByModule :=
  modules.map fun entry =>
    (entry.1, entry.2 ++ (tasks.filter (·.model.moduleName == entry.1)).flatMap result)

theorem withResults_cons {result : Task → List Query} {task : Task} {tasks : List Task}
    {modules : ByModule} :
    withResults result (task :: tasks) modules =
      withResults result tasks (addTo modules task.model.moduleName (result task)) := by
  simp only [withResults, addTo, List.map_map]
  refine List.map_congr_left fun entry _ => ?_
  rw [Function.comp_apply, List.filter_cons]
  by_cases same : task.model.moduleName = entry.1
  · simp [same]
  · simp [same, Ne.symm same]

theorem collect_eq_ok {result : Task → List Query} {slots : List (Task × Option Outcome)}
    (yields : ∀ entry ∈ slots, entry.2.getD entry.1.run = .ok (result entry.1))
    (modules : ByModule) :
    collect modules slots = .ok (withResults result (slots.map (·.1)) modules) := by
  -- What earlier slots have added stands in the modules, so these vary in the induction.
  induction slots generalizing modules with
  | nil => simp [collect, withResults]
  | cons entry rest induction =>
      obtain ⟨task, slot⟩ := entry
      have here : slot.getD task.run = .ok (result task) := yields _ List.mem_cons_self
      have later := induction (fun entry member => yields entry (List.mem_cons_of_mem _ member))
        (addTo modules task.model.moduleName (result task))
      rw [collect, here, List.map_cons, withResults_cons, ← later]
      rfl

theorem flatMap_filter {α β : Type} (items : List α) (wanted : α → Bool) (f : α → List β) :
    (items.filter wanted).flatMap f = items.flatMap fun item => if wanted item then f item else [] := by
  induction items with
  | nil => rfl
  | cons first rest induction =>
      rw [List.filter_cons, List.flatMap_cons, ← induction]
      cases wanted first <;> rfl

theorem flatMap_tasks {α : Type} (models : List Model) (wanted : List OperationKind) (name : String)
    (result : Task → List α) :
    ((tasks models wanted).filter (·.model.moduleName == name)).flatMap result =
      (models.filter (·.moduleName == name)).flatMap fun m =>
        (m.applicable wanted).flatMap fun kind => result ⟨m, kind⟩ := by
  have own (other : Model) :
      (((other.applicable wanted).map (Task.mk other)).filter
        (·.model.moduleName == name)).flatMap result =
        if other.moduleName == name then
          (other.applicable wanted).flatMap fun kind => result ⟨other, kind⟩ else [] := by
    by_cases same : other.moduleName = name
    · simp [List.filter_map, Function.comp_def, same, List.flatMap_map]
    · simp [List.filter_map, Function.comp_def, same]
  rw [tasks, List.filter_flatMap, List.flatMap_assoc, flatMap_filter]
  simp only [own]

/-! ## Tasks in any order -/

structure Faithful (tasks : List Task) (slots : Slots) : Prop where
  length : slots.length = tasks.length
  getD : ∀ entry ∈ tasks.zip slots, entry.2.getD entry.1.run = entry.1.run

theorem faithful_empty (tasks : List Task) : Faithful tasks (tasks.map fun _ => none) where
  length := List.length_map _
  getD := by
    intro entry member
    rw [← List.map_prod_left_eq_zip] at member
    obtain ⟨task, _, rfl⟩ := List.mem_map.mp member
    rfl

theorem Faithful.complete {tasks : List Task} {slots : Slots} (faithful : Faithful tasks slots)
    (number : Nat) : Faithful tasks (complete tasks slots number) := by
  unfold Generation.complete
  cases found : tasks[number]? with
  | none => exact faithful
  | some task =>
      refine ⟨(List.length_set ..).trans faithful.length, fun entry member => ?_⟩
      obtain ⟨position, here⟩ := List.mem_iff_getElem?.mp member
      obtain ⟨listed, slot⟩ := List.getElem?_zip_eq_some.mp here
      by_cases same : number = position
      · subst same
        have inside : number < slots.length := by
          rw [faithful.length]
          exact (List.getElem?_eq_some_iff.mp found).1
        rw [List.getElem?_set_self inside] at slot
        rw [found] at listed
        rw [← Option.some.inj slot, ← Option.some.inj listed, Option.getD_some]
      · rw [List.getElem?_set_ne same] at slot
        exact faithful.getD entry
          (List.mem_iff_getElem?.mpr ⟨position, List.getElem?_zip_eq_some.mpr ⟨listed, slot⟩⟩)

theorem faithful_slotsAfter (tasks : List Task) (schedule : List Nat) :
    Faithful tasks (slotsAfter tasks schedule) := by
  have completed {slots : Slots} (faithful : Faithful tasks slots) :
      Faithful tasks (schedule.foldl (complete tasks) slots) := by
    induction schedule generalizing slots with
    | nil => exact faithful
    | cons number rest induction => exact induction (faithful.complete number)
  exact completed (faithful_empty tasks)

/-- In whatever order tasks are completed, a run over models that pass an audit yields the queries
of every one of them. -/
theorem runBy_eq_ok {models : List Model} {settings : Settings}
    (passes : Audit.Passes models settings) (schedule : List Nat) (wanted : List OperationKind) :
    runBy schedule models wanted = .ok (models.map fun m => (m.moduleName, m.queriesFor wanted)) := by
  let result (task : Task) : List Query := (task.model.plansOf task.kind).map Plan.query
  have faithful := faithful_slotsAfter (tasks models wanted) schedule
  have yields : ∀ entry ∈ (tasks models wanted).zip (slotsAfter (tasks models wanted) schedule),
      entry.2.getD entry.1.run = .ok (result entry.1) := by
    intro entry member
    obtain ⟨m, among, made⟩ := List.mem_flatMap.mp (List.of_mem_zip member).1
    obtain ⟨kind, applies, same⟩ := List.mem_map.mp made
    rw [faithful.getD entry member, ← same]
    exact Model.queriesOf_eq passes among applies
  have all : ((tasks models wanted).zip (slotsAfter (tasks models wanted) schedule)).map (·.1) =
      tasks models wanted := List.map_fst_zip (Nat.le_of_eq faithful.length.symm)
  have apart := passes.nodup_moduleNames
  rw [runBy, collect_eq_ok yields, all, modulesOf, Text.distinct_of_nodup apart, List.map_map,
    withResults, List.map_map]
  congr 1
  refine List.map_congr_left fun m member => ?_
  simp only [Function.comp_apply, List.nil_append]
  rw [flatMap_tasks, flatMap_filter]
  simp only [beq_iff_eq, flatMap_of_key apart member]
  rfl

end TenantSql.Generation
