import TenantSql.Query.Operation

/-!
# Generation tasks

Every family of statements of every model is a task of its own. Tasks do not
depend on each other, so they may be completed in any order; the results are
put together in the order of the tasks, and the first failure in that order is
the failure of the whole.
-/

namespace TenantSql.Generation

open Sql

structure Task where
  model : Model
  kind : OperationKind

abbrev Outcome := Except GenerateError (List Query)

def Task.run (t : Task) : Outcome :=
  t.model.queriesOf t.kind

def tasks (models : List Model) (wanted : List OperationKind) : List Task :=
  models.flatMap fun m => (m.applicable wanted).map fun kind => ⟨m, kind⟩

abbrev Slots := List (Option Outcome)

def complete (tasks : List Task) (slots : Slots) (number : Nat) : Slots :=
  match tasks[number]? with
  | some task => slots.set number (some task.run)
  | none => slots

def slotsAfter (tasks : List Task) (schedule : List Nat) : Slots :=
  schedule.foldl (complete tasks) (tasks.map fun _ => none)

abbrev ByModule := List (String × List Query)

def modulesOf (models : List Model) : ByModule :=
  (Text.distinct (models.map Model.moduleName)).map fun name => (name, [])

def addTo (modules : ByModule) (name : String) (queries : List Query) : ByModule :=
  modules.map fun entry => if entry.1 == name then (name, entry.2 ++ queries) else entry

def collect (modules : ByModule) : List (Task × Option Outcome) → Except GenerateError ByModule
  | [] => .ok modules
  | (task, slot) :: rest => do
      let queries ← slot.getD task.run
      collect (addTo modules task.model.moduleName queries) rest

/-- The queries of all modules when the tasks are completed in the order of a schedule. -/
def runBy (schedule : List Nat) (models : List Model) (wanted : List OperationKind) :
    Except GenerateError ByModule :=
  let all := tasks models wanted
  collect (modulesOf models) (all.zip (slotsAfter all schedule))

def run (models : List Model) (wanted : List OperationKind) : Except GenerateError ByModule :=
  runBy [] models wanted

end TenantSql.Generation
