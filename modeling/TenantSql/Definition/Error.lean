import TenantSql.Check.Checked
import TenantSql.Diagnostic
import TenantSql.Json.Reader
import TenantSql.Value.Display

/-!
# Errors in definitions

What can be wrong with a definition. A complaint is worded for the author of
the definition and names its source; a refusal and a fault are not.
-/

namespace TenantSql

inductive Complaint where
  | fileNotFound
  | notAFile
  | invalidJson (e : Json.ReadError)
  | invalidYaml
  | topLevelNotObject (kind : String)
  | topLevelNotMapping (kind : String)
  | configNotMapping
  | settings (r : Refusal)
  | noModels
  | modelWithoutName
  | unknownKeys (model keys : String)
  | duplicateModel (model : String)
  | fieldWithoutName (model : String)
  | standardField (model field : String)
  | unknownModel (model what name : String)
  | joinsNotTwo (model : String)
  | join (model : String) (r : Refusal)
  | parentFieldDeclared (model field : String)
  | referenceNotMapping (model : String)
  | field (model field : String) (r : Refusal)
  | unknownFetch (model child : String) (shown : Option String)
  | notJoinBetween (model join child : String)
  | through (model join : String) (r : Refusal)
  | notParentOf (model child : String)
  | child (model child : String) (r : Refusal)
  | unknownReferenceFields (model reference fields target : String)
  | reference (model reference : String) (r : Refusal)
  | model (model : String) (r : Refusal)
  deriving DecidableEq, Repr

namespace Complaint

def beyondDigits : String :=
  s!"Exceeds the limit ({Number.maxDigits} digits) for integer string conversion; " ++
    "use sys.set_int_max_str_digits() to increase the limit"

def message : Complaint → String
  | .fileNotFound => "Definition file not found."
  | .notAFile => "Definition path is not a file."
  | .invalidJson e => "Invalid JSON: " ++ e.message
  | .invalidYaml => "Invalid YAML"
  | .topLevelNotObject kind => s!"Expected a JSON object at top level, got {kind}."
  | .topLevelNotMapping kind => s!"Expected a YAML mapping at top level, got {kind}."
  | .configNotMapping => "'config' must be a mapping."
  | .settings r => "Config validation failed: " ++ r.summary
  | .noModels => "Expected a non-empty 'models' list."
  | .modelWithoutName => "Every model needs a 'name'."
  | .unknownKeys owner keys => s!"Model '{owner}': unknown keys {keys}."
  | .duplicateModel owner => s!"Duplicate model name '{owner}'."
  | .fieldWithoutName owner => s!"Model '{owner}': every field needs a 'name'."
  | .standardField owner fieldName =>
      s!"Model '{owner}': '{fieldName}' is a standard field and is added automatically."
  | .unknownModel owner what name =>
      s!"Model '{owner}': {what} refers to unknown model '{name}'."
  | .joinsNotTwo owner => s!"Join model '{owner}': 'joins' must list exactly two models."
  | .join owner r => s!"Join model '{owner}': {r.summary}"
  | .parentFieldDeclared owner fieldName =>
      s!"Model '{owner}': belongs_to field '{fieldName}' is already declared."
  | .referenceNotMapping owner =>
      s!"Model '{owner}': each reference must be a mapping with a 'model'."
  | .field owner fieldName r => s!"Model '{owner}', field '{fieldName}': {r.summary}"
  | .unknownFetch owner childName shown =>
      s!"Model '{owner}', has '{childName}': " ++ match shown with
        | some shown => s!"{shown} is not a valid FetchType"
        | none => beyondDigits
  | .notJoinBetween owner joinName childName =>
      s!"Model '{owner}': '{joinName}' is not a join model between '{owner}' and '{childName}'."
  | .through owner joinName r => s!"Model '{owner}', through '{joinName}': {r.summary}"
  | .notParentOf owner childName =>
      s!"Model '{owner}' has '{childName}', but '{childName}' does not belong_to '{owner}'."
  | .child owner childName r => s!"Model '{owner}', child '{childName}': {r.summary}"
  | .unknownReferenceFields owner refName fields target =>
      s!"Model '{owner}', reference '{refName}': unknown fields {fields} on '{target}'."
  | .reference owner refName r => s!"Model '{owner}', reference '{refName}': {r.summary}"
  | .model owner r => s!"Model '{owner}': {r.summary}"

def code : Complaint → ErrorCode
  | .fileNotFound | .noModels => .configMissing
  | _ => .configInvalid

def refusal? : Complaint → Option Refusal
  | .settings r | .join _ r | .field _ _ r | .through _ _ r | .child _ _ r | .reference _ _ r
  | .model _ r => some r
  | _ => none

end Complaint

structure ConfigurationError where
  complaint : Complaint
  source : Option String
  deriving DecidableEq, Repr

def ConfigurationError.diagnostic (e : ConfigurationError) : Diagnostic :=
  .ofSource e.source e.complaint.code e.complaint.message []

inductive LoadError where
  | rejected (e : ConfigurationError)
  | refused (r : Refusal)
  | fault (f : Fault)
  deriving DecidableEq, Repr

def reject {α : Type} (source : Option String) (complaint : Complaint) : Except LoadError α :=
  .error (.rejected ⟨complaint, source⟩)

def Checked.orReject {α : Type} (check : Checked α) (title : String) (source : Option String)
    (complaint : Refusal → Complaint) : Except LoadError α :=
  match check.toExcept title with
  | .ok a => .ok a
  | .error r => reject source (complaint r)

/-- The result of a check, or a complaint that shows what was checked, if that can be shown. -/
def Checked.orShow {α : Type} (check : Checked α) (title : String) (source : Option String)
    (what : Value) (complaint : String → Refusal → Complaint) : Except LoadError α :=
  match check.toExcept title with
  | .ok a => .ok a
  | .error r => do reject source (complaint (← what.shown.mapError .fault) r)

end TenantSql
