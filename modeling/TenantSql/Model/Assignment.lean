import TenantSql.Model.Settings

/-!
# Assignments

What becomes of setting an attribute of a record that was read before. Settings
may be changed one by one and every other record is frozen. Names that begin
with an underscore are private: setting one changes no part of the record.
-/

namespace TenantSql

inductive AssignError where
  | refused (refusal : Refusal)
  | readOnly
  | wrongKind
  deriving DecidableEq, Repr

def isPrivateName (name : String) : Bool :=
  name.toList.head? == some '_'

/-- Setting a private attribute of a record leaves the record as it is, but for the few private
names that every record has already. -/
def assignPrivate {α : Type} (record : α) (name : String) : Except AssignError α :=
  if ["__class__", "__dict__"].contains name then .error .wrongKind
  else if ["__fields_set__", "__weakref__"].contains name then .error .readOnly
  else .ok record

def assignFrozen {α : Type} (title : String) (record : α) (name : String) : Except AssignError α :=
  if isPrivateName name then assignPrivate record name
  else .error (.refused ⟨title, [⟨[.field name], .frozen⟩]⟩)

namespace Settings

def computedNames : List String := ["model_extra", "model_fields_set"]

def assignNamed (settings : Settings) (name : String) (v : Value) : Except AssignError Settings :=
  if isPrivateName name then assignPrivate settings name
  else if computedNames.contains name then .error .readOnly
  else
    let changed := match Key.all.find? (·.name == name) with
      | some key => settings.assign key v
      | none => .refused [⟨[.field name], .noSuchAttribute name⟩]
    (changed.toExcept title).mapError .refused

end Settings

end TenantSql
