import TenantSql.Sql.Builder

/-!
# Builder sessions

Everything that can be done with one builder and the separated lists opened on
it, as a sequence of actions. The lists are numbered from 0 in the order in
which they were opened, and may be written to in any order.
-/

namespace TenantSql.Sql

inductive ListAction where
  | push (text : String)
  | pushUnseparated (text : String)
  | pushBinding (name : String)
  | pushBindingUnseparated (name : String)
  | setOpening (text : String)
  | askEmpty
  deriving DecidableEq, Repr

inductive Action where
  | push (text : String)
  | pushBinding (name : String)
  | bind (name : String)
  | bindPlaceholder (name : String)
  | finish (name : String)
  | finishWithFields (name : String) (fields : List String)
  | openList (separator : String)
  | onList (number : Nat) (action : ListAction)
  deriving DecidableEq, Repr

inductive Answer where
  | done
  | number (n : Nat)
  | text (s : String)
  | flag (b : Bool)
  | query (q : Query)
  deriving DecidableEq, Repr

inductive ActionError where
  | build (e : BuildError)
  | noSuchList
  deriving DecidableEq, Repr

structure Session where
  builder : Builder
  lists : List Separated := []
  deriving DecidableEq, Repr

namespace Session

def start (text : String) (bindings : List String) : Session where
  builder := { draft := { text, bindings } }

def change (s : Session) (change : Draft → Draft) (answer : Draft → Answer) :
    Except ActionError Answer × Session :=
  match s.builder.update change with
  | .ok builder => (.ok (answer builder.draft), { s with builder })
  | .error e => (.error (.build e), s)

def finish (s : Session) (name : String) (fields : List String) :
    Except ActionError Answer × Session :=
  match s.builder.finish name fields with
  | .ok (query, builder) => (.ok (.query query), { s with builder })
  | .error e => (.error (.build e), s)

def setList (s : Session) (number : Nat) (list : Separated) : Session :=
  { s with lists := s.lists.set number list }

/-- The session after something is done with one of its lists. A list that was to get an item
counts as begun even if the builder takes no more text. -/
def stepList (s : Session) (number : Nat) (list : Separated) :
    ListAction → Except ActionError Answer × Session
  | .push text => (s.setList number list.begun).change (list.push text) fun _ => .done
  | .pushUnseparated text => s.change (·.push text) fun _ => .done
  | .pushBinding name => (s.setList number list.begun).change (list.pushBinding name) fun _ => .done
  | .pushBindingUnseparated name => s.change (·.pushBinding name) fun _ => .done
  | .setOpening text => (.ok .done, s.setList number { list with opening := text })
  | .askEmpty => (.ok (.flag list.isEmpty), s)

def step (s : Session) : Action → Except ActionError Answer × Session
  | .push text => s.change (·.push text) fun _ => .done
  | .pushBinding name => s.change (·.pushBinding name) fun _ => .done
  | .bind name => s.change (·.bind name) fun d => .number (d.position name)
  | .bindPlaceholder name =>
      s.change (·.bind name) fun d => .text (placeholder (d.position name))
  | .finish name => s.finish name []
  | .finishWithFields name fields => s.finish name fields
  | .openList separator =>
      match s.change id fun _ => .number s.lists.length with
      | (.ok answer, s) => (.ok answer, { s with lists := s.lists ++ [⟨separator, "", true⟩] })
      | failed => failed
  | .onList number action =>
      match s.lists[number]? with
      | some list => s.stepList number list action
      | none => (.error .noSuchList, s)

def run (s : Session) : List Action → List (Except ActionError Answer × Session)
  | [] => []
  | action :: rest =>
      let result := s.step action
      result :: run result.2 rest

end Session

end TenantSql.Sql
