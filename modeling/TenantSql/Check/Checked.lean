import TenantSql.Text.Quoted

/-!
# Issues and checked results

What a value must satisfy to be accepted as a record, and how a violation is
reported: the way from the whole value to the part at fault, and the problem
there. Every problem has a short code and a wording.

A check yields a result or issues. Checks of separate parts run side by side,
so that the issues of all of them come together in order; a check that builds on
the result of another runs only if that one has no issue.
-/

namespace TenantSql

inductive Step where
  | field (name : String)
  | item (index : Int)
  deriving DecidableEq, Repr

inductive Breach where
  | notIdentifier (what value : String)
  | equalJoinIds (id : String)
  | duplicateNames (model kind : String) (names : List String)
  | missingJoinIds (model : String) (ids : List String)
  | renamedJoinIds (model : String) (names : List String)
  | joinWithId (model : String)
  | joinWithChildren (model : String)
  | notOneId (model : String)
  | globalWithOrganization (model : String)
  | tenantWithoutOrganization (model : String)
  | emptyFormatter
  deriving DecidableEq, Repr

def identifierPattern : String := "^[a-z_][a-z0-9_]*$"

def Breach.message : Breach → String
  | .notIdentifier what value =>
      s!"{what} '{value}' is not a valid SQL identifier (expected {identifierPattern})."
  | .equalJoinIds id => "Join model ids must be distinct, got " ++ Text.quoted id ++ " twice."
  | .duplicateNames model kind names =>
      s!"Model '{model}' has duplicate {kind} names: " ++ Text.quotedList names
  | .missingJoinIds model ids =>
      s!"Join model '{model}' is missing parent-id field(s) " ++ Text.quotedList ids ++ "."
  | .renamedJoinIds model names =>
      s!"Join model '{model}': parent-id field(s) " ++ Text.quotedList names ++
        " must use their field name as the column name."
  | .joinWithId model => s!"Join model '{model}' must not have an 'id' field."
  | .joinWithChildren model => s!"Join model '{model}' cannot declare children."
  | .notOneId model => s!"Model '{model}' must have exactly one 'id' field."
  | .globalWithOrganization model =>
      s!"Global model '{model}' must not have an 'organization_id' field."
  | .tenantWithoutOrganization model =>
      s!"Tenant-scoped model '{model}' requires an 'organization_id' field."
  | .emptyFormatter => "formatter command must not be empty; omit it instead."

inductive Problem where
  | missing
  | notText
  | undecodable
  | textTooShort
  | notBool
  | unclearBool
  | notInt
  | unclearInt
  | fractionalInt
  | infiniteInt
  | longInt
  | tooSmall (least : Nat)
  | notOneOf (choices : List String)
  | notList
  | notPair
  | noItems
  | pairTooLong (items : Nat)
  | notRecord (title : String)
  | unknownField
  | keyNotText
  | frozen
  | noSuchAttribute (name : String)
  | breach (cause : Breach)
  deriving DecidableEq, Repr

def listChoices (choices : List String) : String :=
  let shown := choices.map fun choice => "'" ++ choice ++ "'"
  match shown.reverse with
  | [] => ""
  | [only] => only
  | last :: before => ", ".intercalate before.reverse ++ " or " ++ last

namespace Problem

def code : Problem → String
  | .missing => "missing"
  | .notText => "string_type"
  | .undecodable => "string_unicode"
  | .textTooShort => "string_too_short"
  | .notBool => "bool_type"
  | .unclearBool => "bool_parsing"
  | .notInt => "int_type"
  | .unclearInt => "int_parsing"
  | .fractionalInt => "int_from_float"
  | .infiniteInt => "finite_number"
  | .longInt => "int_parsing_size"
  | .tooSmall _ => "greater_than_equal"
  | .notOneOf _ => "enum"
  | .notList => "list_type"
  | .notPair => "tuple_type"
  | .noItems => "too_short"
  | .pairTooLong _ => "too_long"
  | .notRecord _ => "model_type"
  | .unknownField => "extra_forbidden"
  | .keyNotText => "invalid_key"
  | .frozen => "frozen_instance"
  | .noSuchAttribute _ => "no_such_attribute"
  | .breach _ => "value_error"

def message : Problem → String
  | .missing => "Field required"
  | .notText => "Input should be a valid string"
  | .undecodable => "Input should be a valid string, unable to parse raw data as a unicode string"
  | .textTooShort => "String should have at least 1 character"
  | .notBool => "Input should be a valid boolean"
  | .unclearBool => "Input should be a valid boolean, unable to interpret input"
  | .notInt => "Input should be a valid integer"
  | .unclearInt => "Input should be a valid integer, unable to parse string as an integer"
  | .fractionalInt => "Input should be a valid integer, got a number with a fractional part"
  | .infiniteInt => "Input should be a finite number"
  | .longInt => "Unable to parse input string as an integer, exceeded maximum size"
  | .tooSmall least => s!"Input should be greater than or equal to {least}"
  | .notOneOf choices => "Input should be " ++ listChoices choices
  | .notList => "Input should be a valid list"
  | .notPair => "Input should be a valid tuple"
  | .noItems => "List should have at least 1 item after validation, not 0"
  | .pairTooLong items => s!"Tuple should have at most 2 items after validation, not {items}"
  | .notRecord title => s!"Input should be a valid dictionary or instance of {title}"
  | .unknownField => "Extra inputs are not permitted"
  | .keyNotText => "Keys should be strings"
  | .frozen => "Instance is frozen"
  | .noSuchAttribute name => s!"Object has no attribute '{name}'"
  | .breach cause => "Value error, " ++ cause.message

end Problem

structure Issue where
  path : List Step
  problem : Problem
  deriving DecidableEq, Repr

structure Refusal where
  title : String
  issues : List Issue
  deriving DecidableEq, Repr

def Refusal.summary (r : Refusal) : String :=
  let count := r.issues.length
  let noun := if count == 1 then "error" else "errors"
  s!"{count} validation {noun} for {r.title}"

/-! ## Checked results -/

inductive Checked (α : Type) where
  | ok (result : α)
  | refused (issues : List Issue)

namespace Checked

variable {α β : Type}

def issues : Checked α → List Issue
  | .ok _ => []
  | .refused issues => issues

def refuse (problem : Problem) : Checked α :=
  .refused [⟨[], problem⟩]

def apply : Checked (α → β) → (Unit → Checked α) → Checked β
  | .ok f, rest =>
      match rest () with
      | .ok a => .ok (f a)
      | .refused issues => .refused issues
  | .refused issues, rest => .refused (issues ++ (rest ()).issues)

instance : Applicative Checked where
  pure := .ok
  seq := apply

def andThen : Checked α → (α → Checked β) → Checked β
  | .ok a, next => next a
  | .refused issues, _ => .refused issues

def within (step : Step) : Checked α → Checked α
  | .ok a => .ok a
  | .refused issues => .refused (issues.map fun issue => { issue with path := step :: issue.path })

def all : List (Checked α) → Checked (List α)
  | [] => .ok []
  | check :: rest => List.cons <$> check <*> all rest

def ensure (holds : α → Bool) (breach : α → Breach) (check : Checked α) : Checked α :=
  check.andThen fun a => if holds a then .ok a else refuse (.breach (breach a))

def toExcept (title : String) : Checked α → Except Refusal α
  | .ok a => .ok a
  | .refused issues => .error ⟨title, issues⟩

end Checked

end TenantSql
