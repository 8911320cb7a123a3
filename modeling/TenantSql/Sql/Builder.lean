import TenantSql.Sql.Draft

/-!
# Separated lists and builders

What queries are written with: lists with separators between their items, and
drafts that can be finished once.
-/

namespace TenantSql.Sql

/-! ## Separated lists

A separated list puts a separator between its items and an opening text before
the first one. What is added without a separator belongs to the item before it. -/

structure Separated where
  separator : String
  opening : String := ""
  isEmpty : Bool := true
  deriving DecidableEq, Repr, Inhabited

namespace Separated

def begun (list : Separated) : Separated :=
  { list with isEmpty := false }

def lead (list : Separated) : String :=
  if list.isEmpty then list.opening else list.separator

def push (list : Separated) (text : String) (d : Draft) : Draft :=
  (d.push list.lead).push text

def pushBinding (list : Separated) (name : String) (d : Draft) : Draft :=
  (d.push list.lead).pushBinding name

end Separated

/-! ## Builders

A builder is a draft that can be finished once. After that it takes nothing
more; a draft without visible text cannot be finished. -/

inductive BuildError where
  | emptyQuery (name : String)
  | consumed (name : String)
  deriving DecidableEq, Repr

def BuildError.message : BuildError → String
  | .emptyQuery name => s!"Query '{name}' was finished without any content."
  | .consumed name => s!"Query builder was already finished as '{name}' and cannot be reused."

structure Builder where
  draft : Draft
  finishedAs : Option String := none
  deriving DecidableEq, Repr, Inhabited

namespace Builder

def isOpen (b : Builder) : Bool :=
  b.finishedAs.isNone

def update (b : Builder) (change : Draft → Draft) : Except BuildError Builder :=
  match b.finishedAs with
  | none => .ok { b with draft := change b.draft }
  | some name => .error (.consumed name)

def finish (b : Builder) (name : String) (fields : List String) :
    Except BuildError (Query × Builder) :=
  match b.finishedAs with
  | some earlier => .error (.consumed earlier)
  | none =>
      if Text.isAllBlank b.draft.text then .error (.emptyQuery name)
      else .ok (b.draft.query name fields, { b with finishedAs := some name })

def describe (b : Builder) : String :=
  let state := match b.finishedAs with
    | none => "open"
    | some name => "finished as " ++ name
  s!"<QueryBuilder {state}, {b.draft.bindings.length} bindings>"

end Builder

end TenantSql.Sql
