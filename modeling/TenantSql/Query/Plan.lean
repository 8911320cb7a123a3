import TenantSql.Query.Order
import TenantSql.Sql.Builder
import TenantSql.Sql.Printer

/-!
# Plans

A plan is a statement with the names of its parameters, before they have
numbers: names may be bound ahead of the text, and the names of data fields are
reported apart. Building a plan writes the text and numbers the parameters.
-/

namespace TenantSql

open Sql

inductive GenerateError where
  | order (e : OrderError)
  | unsupported (operation model reason : String)
  | build (e : BuildError)
  deriving DecidableEq, Repr

def Sql.BuildError.diagnostic (e : BuildError) : Diagnostic :=
  match e with
  | .emptyQuery name => ⟨.buildEmptyQuery, e.message, [("operation_name", .text name)]⟩
  | .consumed name => ⟨.buildConsumed, e.message, [("operation_name", .text name)]⟩

def GenerateError.diagnostic : GenerateError → Diagnostic
  | .order e => e.diagnostic
  | .build e => e.diagnostic
  | .unsupported operation model reason =>
      { code := .operationUnsupported
        message := s!"Cannot generate '{operation}' for model '{model}': {reason}"
        details := [("operation", .text operation), ("model", .text model)] }

structure Plan where
  name : String
  reserved : List String := []
  statement : Statement String
  fields : List String := []
  deriving DecidableEq, Repr

namespace Plan

def draft (p : Plan) : Draft :=
  (Draft.reserve {} p.reserved).append p.statement.fragment

def build (p : Plan) : Except GenerateError Query :=
  match ({ draft := p.draft } : Builder).finish p.name p.fields with
  | .ok (query, _) => .ok query
  | .error e => .error (.build e)

end Plan

end TenantSql
