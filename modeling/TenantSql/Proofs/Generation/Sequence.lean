import TenantSql.Proofs.Generation.Run

/-!
# Model after model

In whatever order tasks are completed, a run yields what comes of generating
the models one after the other, and of each model the families in their order:
the queries of every module together, or the first failure.
-/

namespace TenantSql.Generation

open Sql

variable {models : List Model} {wanted : List OperationKind} {modules : ByModule}

/-- The queries of every module, in the order in which the modules first occur: those of its models,
one model after the other. -/
def merged (models : List Model) (queries : Model → List Query) : ByModule :=
  (Text.distinct (models.map Model.moduleName)).map fun name =>
    (name, (models.filter (·.moduleName == name)).flatMap queries)

/-- The failure is that of the first family of the first model that fails. All models before have
their queries, and so have all families of this model before. -/
def IsFirstFailure (models : List Model) (wanted : List OperationKind) (e : GenerateError) : Prop :=
  ∃ before m after, models = before ++ m :: after ∧
    (∀ other ∈ before, ∃ queries, other.queries wanted = .ok queries) ∧
    ∃ earlier kind later, m.applicable wanted = earlier ++ kind :: later ∧
      (∀ other ∈ earlier, ∃ queries, m.queriesOf other = .ok queries) ∧
      m.queriesOf kind = .error e

def IsSequential (models : List Model) (wanted : List OperationKind) :
    Except GenerateError ByModule → Prop
  | .ok modules => ∃ queries : Model → List Query,
      (∀ m ∈ models, m.queries wanted = .ok (queries m)) ∧ modules = merged models queries
  | .error e => IsFirstFailure models wanted e

/-! ## Tasks that are waited for -/

def awaitAll (modules : ByModule) (tasks : List Task) : Except GenerateError ByModule :=
  collect modules (tasks.map fun task => (task, none))

theorem awaitAll_nil : awaitAll modules [] = .ok modules := rfl

theorem awaitAll_of_ok {task : Task} {rest : List Task} {queries : List Query}
    (found : task.run = .ok queries) :
    awaitAll modules (task :: rest) =
      awaitAll (addTo modules task.model.moduleName queries) rest := by
  rw [awaitAll, List.map_cons, collect, Option.getD_none, found]
  rfl

theorem awaitAll_of_error {task : Task} {rest : List Task} {e : GenerateError}
    (failed : task.run = .error e) : awaitAll modules (task :: rest) = .error e := by
  rw [awaitAll, List.map_cons, collect, Option.getD_none, failed]
  rfl

/-- The first failure is the failure of all. -/
theorem awaitAll_of_first_error {done rest : List Task} {task : Task} {e : GenerateError}
    (fine : ∀ other ∈ done, ∃ queries, other.run = .ok queries) (failed : task.run = .error e) :
    awaitAll modules (done ++ task :: rest) = .error e := by
  -- What the tasks before have added does not matter, so the modules vary in the induction.
  induction done generalizing modules with
  | nil => exact awaitAll_of_error failed
  | cons first others induction =>
      obtain ⟨queries, found⟩ := fine first List.mem_cons_self
      rw [List.cons_append, awaitAll_of_ok found]
      exact induction fun other member => fine other (List.mem_cons_of_mem first member)

/-- It does not matter which slots are filled already. -/
theorem collect_eq_awaitAll {slots : List (Task × Option Outcome)}
    (faithful : ∀ entry ∈ slots, entry.2.getD entry.1.run = entry.1.run) :
    collect modules slots = awaitAll modules (slots.map (·.1)) := by
  induction slots generalizing modules with
  | nil => rfl
  | cons entry rest induction =>
      obtain ⟨task, slot⟩ := entry
      have here : slot.getD task.run = task.run := faithful _ List.mem_cons_self
      rw [collect, here, List.map_cons, awaitAll, List.map_cons, collect, Option.getD_none]
      refine congrArg (task.run >>= ·) (funext fun queries => ?_)
      exact induction fun entry member => faithful entry (List.mem_cons_of_mem _ member)

/-- In whatever order tasks are completed, the result is that of waiting for one after the other. -/
theorem runBy_eq_awaitAll (schedule : List Nat) :
    runBy schedule models wanted = awaitAll (modulesOf models) (tasks models wanted) := by
  have faithful := faithful_slotsAfter (tasks models wanted) schedule
  rw [runBy, collect_eq_awaitAll faithful.getD, List.map_fst_zip (Nat.le_of_eq faithful.length.symm)]

/-! ## All tasks of some models -/

theorem exists_run_of_queries {m : Model} {queries : List Query}
    (found : m.queries wanted = .ok queries) {kind : OperationKind}
    (applies : kind ∈ m.applicable wanted) : ∃ part, m.queriesOf kind = .ok part := by
  obtain ⟨parts, mapped, _⟩ := Result.bind_eq_ok.mp found
  obtain ⟨part, _, here⟩ := Result.mem_of_mapM mapped applies
  exact ⟨part, here⟩

theorem exists_run_of_mem_tasks
    (found : ∀ m ∈ models, ∃ queries, m.queries wanted = .ok queries) {task : Task}
    (member : task ∈ tasks models wanted) : ∃ queries, task.run = .ok queries := by
  obtain ⟨m, listed, made⟩ := List.mem_flatMap.mp member
  obtain ⟨kind, applies, rfl⟩ := List.mem_map.mp made
  obtain ⟨queries, generated⟩ := found m listed
  exact exists_run_of_queries generated applies

def Task.queries (task : Task) : List Query :=
  task.run.toOption.getD []

theorem Task.run_eq_ok {task : Task} {queries : List Query} (found : task.run = .ok queries) :
    task.run = .ok task.queries := by
  rw [Task.queries, found]
  rfl

theorem queries_eq_flatMap {m : Model} {queries : List Query}
    (found : m.queries wanted = .ok queries) :
    queries = (m.applicable wanted).flatMap fun kind => Task.queries ⟨m, kind⟩ := by
  obtain ⟨parts, mapped, whole⟩ := Result.bind_eq_ok.mp found
  rw [Result.pure_eq_ok] at whole
  have each : List.Forall₂ (fun kind part => Task.queries ⟨m, kind⟩ = part)
      (m.applicable wanted) parts := by
    refine (Result.mapM_eq_ok.mp mapped).imp fun kind part here => ?_
    rw [Task.queries, Task.run, here]
    rfl
  have listed : (m.applicable wanted).map (fun kind => Task.queries ⟨m, kind⟩) = parts :=
    List.forall₂_eq_eq_eq ▸ List.forall₂_map_left_iff.mpr each
  rw [← whole, List.flatMap_def, listed]

theorem withResults_modulesOf {queries : Model → List Query}
    (found : ∀ m ∈ models, m.queries wanted = .ok (queries m)) :
    withResults Task.queries (tasks models wanted) (modulesOf models) = merged models queries := by
  rw [withResults, modulesOf, List.map_map, merged]
  refine List.map_congr_left fun name _ => ?_
  simp only [Function.comp_apply, List.nil_append, flatMap_tasks]
  congr 1
  refine List.flatMap_congr fun m member => ?_
  exact (queries_eq_flatMap (found m (List.mem_filter.mp member).1)).symm

theorem awaitAll_of_queries {queries : Model → List Query}
    (found : ∀ m ∈ models, m.queries wanted = .ok (queries m)) :
    awaitAll (modulesOf models) (tasks models wanted) = .ok (merged models queries) := by
  have yields : ∀ entry ∈ (tasks models wanted).map fun task => (task, (none : Option Outcome)),
      entry.2.getD entry.1.run = .ok entry.1.queries := by
    intro entry member
    obtain ⟨task, listed, rfl⟩ := List.mem_map.mp member
    obtain ⟨part, here⟩ := exists_run_of_mem_tasks (fun m among => ⟨_, found m among⟩) listed
    exact Task.run_eq_ok here
  rw [awaitAll, collect_eq_ok yields, List.map_map, ← withResults_modulesOf found]
  simp only [Function.comp_def, List.map_id']

theorem tasks_append {before after : List Model} {m : Model} {earlier later : List OperationKind}
    {kind : OperationKind} (families : m.applicable wanted = earlier ++ kind :: later) :
    tasks (before ++ m :: after) wanted =
      (tasks before wanted ++ earlier.map (Task.mk m)) ++
        ⟨m, kind⟩ :: (later.map (Task.mk m) ++ tasks after wanted) := by
  simp only [tasks, List.flatMap_append, List.flatMap_cons, families, List.map_append, List.map_cons,
    List.append_assoc, List.cons_append]

theorem awaitAll_of_first_failure {e : GenerateError} (first : IsFirstFailure models wanted e) :
    awaitAll modules (tasks models wanted) = .error e := by
  obtain ⟨before, m, after, rfl, found, earlier, kind, later, families, fine, failed⟩ := first
  rw [tasks_append families]
  refine awaitAll_of_first_error (fun task member => ?_) failed
  rcases List.mem_append.mp member with ofBefore | ofModel
  · exact exists_run_of_mem_tasks found ofBefore
  · obtain ⟨other, among, rfl⟩ := List.mem_map.mp ofModel
    exact fine other among

theorem awaitAll_isSequential (models : List Model) (wanted : List OperationKind) :
    IsSequential models wanted (awaitAll (modulesOf models) (tasks models wanted)) := by
  cases found : models.mapM (·.queries wanted) with
  | ok results =>
      let queries (m : Model) : List Query := (m.queries wanted).toOption.getD []
      have each : ∀ m ∈ models, m.queries wanted = .ok (queries m) := by
        intro m member
        obtain ⟨generated, _, here⟩ := Result.mem_of_mapM found member
        simp only [queries, here]
        rfl
      rw [awaitAll_of_queries each]
      exact ⟨queries, each, rfl⟩
  | error e =>
      obtain ⟨before, m, after, split, fine, failed⟩ := Result.first_of_mapM_error found
      have families : (m.applicable wanted).mapM m.queriesOf = .error e := by
        cases mapped : (m.applicable wanted).mapM m.queriesOf with
        | ok parts =>
            rw [Model.queries, mapped] at failed
            cases failed
        | error other =>
            rw [Model.queries, mapped] at failed
            cases failed
            rfl
      obtain ⟨earlier, kind, later, order, generated, here⟩ := Result.first_of_mapM_error families
      have first : IsFirstFailure models wanted e :=
        ⟨before, m, after, split, fine, earlier, kind, later, order, generated, here⟩
      rw [awaitAll_of_first_failure first]
      exact first

end TenantSql.Generation
