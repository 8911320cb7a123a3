import TenantSql.Query.Population
import TenantSql.Diagnostic

/-!
# The order of lists

A list is ordered by a field that its model allows to be sorted: `title` asks
for the ascending order and `-title` for the descending one.
-/

namespace TenantSql

open Sql

inductive OrderReason where
  | invalidField
  | invalidDirection
  | other (text : String)
  deriving DecidableEq, Repr

namespace OrderReason

def text : OrderReason → String
  | .invalidField => "invalid_field"
  | .invalidDirection => "invalid_direction"
  | .other text => text

def ofText (text : String) : OrderReason :=
  if text == "invalid_field" then .invalidField
  else if text == "invalid_direction" then .invalidDirection
  else .other text

end OrderReason

structure OrderError where
  reason : OrderReason
  model : String
  field : String
  deriving DecidableEq, Repr

def OrderError.diagnostic (e : OrderError) : Diagnostic :=
  let details := [("reason", Value.text e.reason.text), ("model", .text e.model),
    ("field", .text e.field)]
  match e.reason with
  | .invalidDirection =>
      { code := .orderInvalidDirection
        message :=
          s!"Field '{e.field}' of model '{e.model}' cannot be sorted in the requested direction."
        details }
  | _ =>
      { code := .orderInvalidField
        message := s!"Model '{e.model}' cannot be sorted by '{e.field}'."
        details }

structure OrderBy where
  field : String
  column : String
  descending : Bool
  deriving DecidableEq, Repr

namespace OrderBy

def term (o : OrderBy) (tableAlias : String) : OrderTerm :=
  ⟨⟨some tableAlias, o.column⟩, o.descending⟩

end OrderBy

def splitRequest (request : String) : String × Bool :=
  match request.toList with
  | '-' :: name => (String.ofList name, true)
  | _ => (request, false)

namespace Model

def orderOf (m : Model) (request : String) : Except OrderError OrderBy :=
  let (name, descending) := splitRequest request
  match m.sortableFields.find? (·.name == name) with
  | none => .error ⟨.invalidField, m.name, name⟩
  | some f =>
      if f.sortable.allows descending then .ok ⟨f.name, f.column, descending⟩
      else .error ⟨.invalidDirection, m.name, name⟩

def listOrder (m : Model) (request : Option String) : Except OrderError (Option OrderBy) :=
  match request.or m.defaultSort with
  | none => .ok none
  | some request => some <$> m.orderOf request

end Model

end TenantSql
