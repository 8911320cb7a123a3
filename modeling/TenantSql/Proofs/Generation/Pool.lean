import Mathlib.Logic.Relation
import Mathlib.Order.WellFounded
import TenantSql.Proofs.Generation.Sequence

/-!
# A pool of workers

Workers take tasks in order, as many at a time as there are workers, and
complete them in any order. Meanwhile the outcomes are gathered in the order of
the tasks, each as soon as it is there and all before it are gathered, up to the
first failure. However the events follow each other, the end is the same: what
comes of generating one model after the other.
-/

namespace TenantSql.Generation

open Sql
open Relation (ReflTransGen)

structure Pool where
  waiting : List Nat
  running : List Nat
  slots : Slots
  gathered : Nat
  modules : ByModule
  failure : Option GenerateError

/-- It does not matter whether a slot is filled: what it holds is what the task yields. -/
theorem Faithful.run_of_filled {tasks : List Task} {slots : Slots} (faithful : Faithful tasks slots)
    {number : Nat} {task : Task} (listed : tasks[number]? = some task) {outcome : Outcome}
    (filled : slots[number]? = some (some outcome)) : task.run = outcome := by
  have member : (task, some outcome) ∈ tasks.zip slots :=
    List.mem_iff_getElem?.mpr ⟨number, List.getElem?_zip_eq_some.mpr ⟨listed, filled⟩⟩
  exact (faithful.getD _ member).symm

theorem filled_complete {tasks : List Task} {slots : Slots} (faithful : Faithful tasks slots)
    {number other : Nat} (inside : other < tasks.length)
    (filled : other = number ∨ ∃ outcome, slots[other]? = some (some outcome)) :
    ∃ outcome, (complete tasks slots number)[other]? = some (some outcome) := by
  by_cases same : other = number
  · subst same
    have there : other < slots.length := faithful.length.symm ▸ inside
    exact ⟨tasks[other].run, by
      rw [complete, List.getElem?_eq_getElem inside]
      exact List.getElem?_set_self there⟩
  · obtain ⟨outcome, before⟩ := filled.resolve_left same
    refine ⟨outcome, ?_⟩
    unfold complete
    split
    · rw [List.getElem?_set_ne (Ne.symm same), before]
    · exact before

namespace Pool

variable {tasks : List Task} {workers : Nat} {p q : Pool}

def start (models : List Model) (tasks : List Task) : Pool where
  waiting := List.range tasks.length
  running := []
  slots := tasks.map fun _ => none
  gathered := 0
  modules := modulesOf models
  failure := none

/-- One event: a worker that is free takes the next task, a worker completes its task, or the next
outcome is gathered, which may be a failure. -/
inductive Step (tasks : List Task) (workers : Nat) : Pool → Pool → Prop where
  | take {p : Pool} {number : Nat} {rest : List Nat} (next : p.waiting = number :: rest)
      (free : p.running.length < workers) :
      Step tasks workers p { p with waiting := rest, running := number :: p.running }
  | finish {p : Pool} {number : Nat} (busy : number ∈ p.running) :
      Step tasks workers p
        { p with running := p.running.erase number, slots := complete tasks p.slots number }
  | gather {p : Pool} {task : Task} {queries : List Query} (going : p.failure = none)
      (listed : tasks[p.gathered]? = some task)
      (filled : p.slots[p.gathered]? = some (some (.ok queries))) :
      Step tasks workers p
        { p with
          gathered := p.gathered + 1
          modules := addTo p.modules task.model.moduleName queries }
  | fail {p : Pool} {task : Task} {e : GenerateError} (going : p.failure = none)
      (listed : tasks[p.gathered]? = some task)
      (filled : p.slots[p.gathered]? = some (some (.error e))) :
      Step tasks workers p { p with failure := some e }

def result? (tasks : List Task) (p : Pool) : Option (Except GenerateError ByModule) :=
  if p.waiting = [] ∧ p.running = [] then
    match p.failure with
    | some e => some (.error e)
    | none => if p.gathered = tasks.length then some (.ok p.modules) else none
  else none

/-- What every event keeps: no task is lost, and what is gathered is the beginning of the whole. -/
structure Sound (tasks : List Task) (whole : Except GenerateError ByModule) (p : Pool) : Prop where
  faithful : Faithful tasks p.slots
  placed : ∀ number < tasks.length, number ∈ p.waiting ∨ number ∈ p.running ∨
    ∃ outcome, p.slots[number]? = some (some outcome)
  inside : p.gathered ≤ tasks.length
  rest : awaitAll p.modules (tasks.drop p.gathered) = whole
  failed : ∀ e, p.failure = some e → whole = .error e

variable {whole : Except GenerateError ByModule}

theorem sound_start (models : List Model) (tasks : List Task) :
    (start models tasks).Sound tasks (awaitAll (modulesOf models) tasks) where
  faithful := faithful_empty tasks
  placed := fun _ inside => .inl (List.mem_range.mpr inside)
  inside := Nat.zero_le _
  rest := rfl
  failed := nofun

theorem Step.sound (step : Step tasks workers p q) (sound : p.Sound tasks whole) :
    q.Sound tasks whole := by
  obtain ⟨faithful, placed, inside, rest, failed⟩ := sound
  cases step with
  | @take number _ next _ =>
      refine ⟨faithful, fun other within => ?_, inside, rest, failed⟩
      rcases placed other within with waits | runs | filled
      · rw [next] at waits
        rcases List.mem_cons.mp waits with rfl | later
        · exact .inr (.inl List.mem_cons_self)
        · exact .inl later
      · exact .inr (.inl (List.mem_cons_of_mem number runs))
      · exact .inr (.inr filled)
  | @finish number _ =>
      refine ⟨faithful.complete number, fun other within => ?_, inside, rest, failed⟩
      by_cases same : other = number
      · exact .inr (.inr (filled_complete faithful within (.inl same)))
      · rcases placed other within with waits | runs | filled
        · exact .inl waits
        · exact .inr (.inl ((List.mem_erase_of_ne same).mpr runs))
        · exact .inr (.inr (filled_complete faithful within (.inr filled)))
  | @gather task queries _ listed filled =>
      obtain ⟨within, same⟩ := List.getElem?_eq_some_iff.mp listed
      have found : task.run = .ok queries := faithful.run_of_filled listed filled
      refine ⟨faithful, placed, within, ?_, failed⟩
      rw [← rest, List.drop_eq_getElem_cons within, same, awaitAll_of_ok found]
  | @fail task e _ listed filled =>
      obtain ⟨within, same⟩ := List.getElem?_eq_some_iff.mp listed
      have error : task.run = .error e := faithful.run_of_filled listed filled
      refine ⟨faithful, placed, inside, rest, fun other stated => ?_⟩
      cases stated
      rw [← rest, List.drop_eq_getElem_cons within, same, awaitAll_of_error error]

theorem sound_of_reached {models : List Model}
    (reached : ReflTransGen (Step tasks workers) (start models tasks) p) :
    p.Sound tasks (awaitAll (modulesOf models) tasks) := by
  induction reached with
  | refl => exact sound_start models tasks
  | tail _ step induction => exact step.sound induction

/-- A result is that of the whole. -/
theorem Sound.result_eq (sound : p.Sound tasks whole) {outcome : Except GenerateError ByModule}
    (found : p.result? tasks = some outcome) : outcome = whole := by
  unfold result? at found
  split at found
  · split at found
    · rename_i e failure
      cases found
      exact (sound.failed e failure).symm
    · split at found
      · rename_i all
        cases found
        rw [← sound.rest, all, List.drop_length, awaitAll_nil]
      · cases found
  · cases found

/-! ## Every run ends -/

def remaining (tasks : List Task) (p : Pool) : Nat :=
  2 * p.waiting.length + p.running.length + (tasks.length - p.gathered) +
    if p.failure.isSome then 0 else 1

theorem Step.remaining_lt (step : Step tasks workers p q) :
    q.remaining tasks < p.remaining tasks := by
  cases step with
  | take next _ =>
      simp only [remaining, next, List.length_cons]
      omega
  | finish busy =>
      have shorter := List.length_erase_of_mem busy
      have some := List.length_pos_of_mem busy
      simp only [remaining, shorter]
      omega
  | gather _ listed _ =>
      have within := (List.getElem?_eq_some_iff.mp listed).1
      simp only [remaining]
      omega
  | fail going _ _ =>
      simp [remaining, going]

theorem wellFounded_step (tasks : List Task) (workers : Nat) :
    WellFounded fun after before => Step tasks workers before after :=
  Subrelation.wf (fun step => step.remaining_lt) (measure (remaining tasks)).wf

/-- With at least one worker, a run goes on until there is a result. -/
theorem Sound.exists_step (sound : p.Sound tasks whole) (some : 0 < workers)
    (open_ : p.result? tasks = none) : ∃ q, Step tasks workers p q := by
  cases runs : p.running with
  | cons number others => exact ⟨_, .finish (runs ▸ List.mem_cons_self)⟩
  | nil =>
      cases waits : p.waiting with
      | cons number rest => exact ⟨_, .take waits (by rw [runs]; exact some)⟩
      | nil =>
          rw [result?, if_pos ⟨waits, runs⟩] at open_
          cases failure : p.failure with
          | some e => simp [failure] at open_
          | none =>
              simp only [failure, ite_eq_right_iff, reduceCtorEq, imp_false] at open_
              have within : p.gathered < tasks.length := Nat.lt_of_le_of_ne sound.inside open_
              have listed := List.getElem?_eq_getElem within
              obtain ⟨outcome, filled⟩ : ∃ outcome, p.slots[p.gathered]? = Option.some (.some outcome) := by
                simpa [waits, runs] using sound.placed p.gathered within
              cases outcome with
              | ok queries => exact ⟨_, .gather failure listed filled⟩
              | error e => exact ⟨_, .fail failure listed filled⟩

theorem Sound.exists_result (sound : p.Sound tasks whole) (some : 0 < workers) :
    ∃ last, ReflTransGen (Step tasks workers) p last ∧ last.result? tasks = .some whole := by
  induction p using (wellFounded_step tasks workers).induction with
  | _ p induction =>
      cases found : p.result? tasks with
      | some outcome => exact ⟨p, .refl, by rw [found, sound.result_eq found]⟩
      | none =>
          obtain ⟨next, step⟩ := sound.exists_step some found
          obtain ⟨last, reached, done⟩ := induction next step (step.sound sound)
          exact ⟨last, .head step reached, done⟩

end Pool

/-- Whatever models are generated, in whatever order tasks are completed and by however many
workers, the result is that of generating one model after the other: the queries of every module,
or the first failure in the order of the tasks. A pool of at least one worker always comes to this
result, and no pool comes to another. -/
theorem pool_isSequential (models : List Model) (wanted : List OperationKind) :
    ∃ result, IsSequential models wanted result ∧
      (∀ schedule, runBy schedule models wanted = result) ∧
      ∀ workers, (WellFounded fun after before => Pool.Step (tasks models wanted) workers before after) ∧
        ∀ p, ReflTransGen (Pool.Step (tasks models wanted) workers)
            (Pool.start models (tasks models wanted)) p →
          (∀ outcome, p.result? (tasks models wanted) = some outcome → outcome = result) ∧
          (0 < workers → ∃ last, ReflTransGen (Pool.Step (tasks models wanted) workers) p last ∧
            last.result? (tasks models wanted) = some result) := by
  refine ⟨awaitAll (modulesOf models) (tasks models wanted), awaitAll_isSequential models wanted,
    fun schedule => runBy_eq_awaitAll schedule, fun workers =>
      ⟨Pool.wellFounded_step (tasks models wanted) workers, fun p reached => ?_⟩⟩
  have sound := Pool.sound_of_reached reached
  exact ⟨fun outcome found => sound.result_eq found, fun some => sound.exists_result some⟩

end TenantSql.Generation
