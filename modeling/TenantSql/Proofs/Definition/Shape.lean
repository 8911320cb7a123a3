import TenantSql.Proofs.Definition.Guarded
import TenantSql.Proofs.Definition.Passes
import TenantSql.Proofs.Value.Sequence

/-!
# Shapes of definitions

Loading tells what is wrong with a definition as long as every part has the shape that the step
which reads it provides for. A shape is no promise that a definition can be loaded: names may be
unknown, fields may be declared twice, and records may be refused.
-/

namespace TenantSql

/-! ## Shapes -/

def Value.HasParts (v : Value) (each : Value → Prop) : Prop :=
  ∃ parts, v.partsOrNone = .ok parts ∧ ∀ part ∈ parts, each part

def Sketch.Finds (sketches : List Sketch) (v : Value) (s : Sketch) : Prop :=
  sketches.find? (·.name == v.display) = some s

def Sketch.CanBeParent (parent : Sketch) (field : Value) : Prop :=
  isIdentifier parent.snakeName ∧ ∃ column, field.readIdentifier "Identifier" = .ok column

namespace Entries

def unknownKeys (entries : Entries) : List Value :=
  ((entries.map (·.1)).filter fun key => !Sketch.keys.any fun known => key == .text known).map
    .scalar

structure HasModelShape (entries : Entries) : Prop where
  name : (entries.getD "name").isShowable
  keys : entries.unknownKeys.Pairwise Value.Comparable ∧ ∀ key ∈ entries.unknownKeys, key.isShowable
  fields : ∃ parts, (entries.getD "fields").partsOrNone = .ok parts

theorem tellable_of_known {entries : Entries} (known : entries.unknownKeys = []) :
    entries.unknownKeys.Pairwise Value.Comparable ∧ ∀ key ∈ entries.unknownKeys, key.isShowable := by
  rw [known]
  exact ⟨.nil, List.forall_mem_nil _⟩

def RefersReadably (field : Entries) : Prop :=
  (field.getD "references").isTruthy →
    (∃ s, field.getD "references" = .text s) ∨ (field.getD "references").hasPart "." = .ok true

structure HasFieldShape (field : Entries) : Prop where
  name : (field.getD "name").isShowable
  column : (field.getD "sql_name").isShowable
  references : field.RefersReadably

structure HasParentShape (sketches : List Sketch) (relation : Entries) : Prop where
  model : (relation.getD "model").isShowable
  parent : ∀ parent, Sketch.Finds sketches (relation.getD "model") parent →
    parent.CanBeParent (Sketch.truthyOr relation "field" (.text (Linked.idFieldName parent)))

structure HasChildShape (relation : Entries) : Prop where
  model : (relation.getD "model").isShowable
  through : (relation.getD "through").isShowable

/-- The shape of a reference. It names its model, unless no model has the name under which nothing
is shown; and the field for the id has no name in bytes. -/
structure HasReferenceShape (sketches : List Sketch) (reference : Entries) : Prop where
  model : (reference.getD "model").isShowable
  stated : reference.has "model" ∨ ∀ s, ¬Sketch.Finds sketches .null s
  field : (reference.getD "field").isShowable
  noBytes : (reference.getD "field").isTruthy → ∀ content,
    reference.getD "field" ≠ .scalar (.bytes content)
  name : (reference.getD "name").isShowable
  wanted : (reference.getD "fields").isTruthy → ∃ names,
    (reference.getD "fields").parts = .ok names ∧ names.all Value.isKey ∧
      names.Pairwise Value.Comparable ∧ ∀ name ∈ names, name.isShowable

end Entries

def Sketch.HasJoinShape (sketches : List Sketch) (s : Sketch) : Prop :=
  ∀ first second, (s.given.getD "joins").bare = .list [first, second] →
    ∀ v ∈ [first, second], v.isShowable ∧
      ∀ parent, Finds sketches v parent → parent.CanBeParent (.text (Linked.idFieldName parent))

structure Sketch.HasShape (sketches : List Sketch) (s : Sketch) : Prop where
  schema : s.schema.isShowable
  table : s.table.isShowable
  fields : ∀ field ∈ s.fields, field.HasFieldShape
  joins : s.HasJoinShape sketches
  parents : (s.given.getD "belongs_to").HasParts fun v =>
    ∃ relation, Linked.relationEntries v = .ok relation ∧ relation.HasParentShape sketches
  children : (s.given.getD "has").HasParts fun v =>
    ∃ relation, Linked.relationEntries v = .ok relation ∧ relation.HasChildShape
  references : (s.given.getD "references").HasParts fun v =>
    ∀ reference : Entries, v.bare = .object reference → reference.HasReferenceShape sketches

/-- The shape of a definition: every model has a shape of its own, and if all of them can be
sketched, the sketches have theirs. -/
def Entries.HasShape (raw : Entries) (settings : Settings) (source : Option String) : Prop :=
  ∀ items, (raw.getD "models").bare = .list items →
    (∀ v ∈ items, ∀ entries : Entries, v.bare = .object entries →
      (entries.getD "name").isTruthy → entries.HasModelShape) ∧
    ∀ sketches, Sketch.ofValues settings source items = .ok sketches →
      ∀ s ∈ sketches, s.HasShape sketches

variable {source : Option String} {settings : Settings} {items : List Value}
  {sketches : List Sketch}

/-! ## Sketches -/

namespace Sketch

theorem find_reports {sketches : List Sketch} {owner what name : String} :
    Reports source (find sketches source owner what name) := by
  rw [find]
  split
  · exact Reports.ok _
  · exact Reports.reject _

theorem declaredField_reports {model : String} {v : Value} :
    Reports source (declaredField model source v) := by
  simp only [declaredField]
  split
  · split
    · exact Reports.reject _
    · split
      · exact Reports.reject _
      · exact Reports.ok _
  · exact Reports.reject _

theorem ofEntries_guarded {settings : Settings} {entries : Entries} :
    Guards source entries.HasModelShape (ofEntries settings source entries) := by
  constructor
  · intro s drawn
    simp only [ofEntries, Result.bind_eq_ok, Sketch.shown_eq_ok] at drawn
    obtain ⟨_, ⟨name, _⟩, unknown, ordered, drawn⟩ := drawn
    rw [orFault, Result.mapError_eq_ok] at ordered
    split at drawn
    · simp [Result.bind_eq_ok] at drawn
    · rename_i none
      simp only [Result.bind_eq_ok, orFault, Result.mapError_eq_ok] at drawn
      obtain ⟨parts, given, _⟩ := drawn
      have known : entries.unknownKeys = [] := by
        have empty : unknown = [] := by simpa using none
        have same := Value.perm_of_sorted ordered
        rw [empty] at same
        exact same.symm.eq_nil
      exact ⟨name, Entries.tellable_of_known known, parts, given⟩
  · rintro ⟨name, ⟨comparable, showable⟩, parts, given⟩
    obtain ⟨unknown, ordered⟩ := Value.exists_sorted comparable
    refine ((Guards.shown _).reports name).bind fun shown _ => ?_
    refine (Guards.orFault.reports ⟨unknown, ordered⟩).bind fun others found => ?_
    rw [orFault, Result.mapError_eq_ok] at found
    have listed : (Value.list others).isShowable := Value.areShowable_iff.mpr fun key member =>
      showable key ((Value.perm_of_sorted found).mem_iff.mp member)
    have fields : Reports source (orFault (entries.getD "fields").partsOrNone) :=
      Guards.orFault.reports ⟨parts, given⟩
    split
    · exact ((Guards.shown _).reports listed).bind fun _ _ => Reports.reject_bind _ _
    · exact fields.bind fun declared _ =>
        (Reports.mapM fun v _ => declaredField_reports).bind fun _ _ => Reports.ok _

theorem ofValues_reports (shapes : ∀ v ∈ items, ∀ entries : Entries, v.bare = .object entries →
    (entries.getD "name").isTruthy → entries.HasModelShape) :
    Reports source (ofValues settings source items) := by
  refine Reports.foldlM (fun before v member => Reports.bind ?_ fun sketch _ => ?_) []
  · rw [ofValue]
    split
    · rename_i entries given
      dsimp only
      split
      · rename_i named
        exact ofEntries_guarded.reports (shapes v member entries given named)
      · exact Reports.reject _
    · exact Reports.reject _
  · split
    · exact Reports.reject _
    · exact Reports.ok _

theorem find_eq_ok_iff {owner what : String} {v : Value} {s : Sketch} :
    find sketches source owner what v.display = .ok s ↔ Finds sketches v s := by
  rw [find, Finds]
  split
  · rename_i found
    simp [found]
  · rename_i missing
    simp [missing]

theorem mem_of_finds {v : Value} {s : Sketch} (found : Finds sketches v s) : s ∈ sketches :=
  List.mem_of_find?_eq_some found

structure AreSound (sketches : List Sketch) : Prop where
  snakeName : ∀ s ∈ sketches, s.snakeName = Text.snakeCase s.name
  fullTable : ∀ s ∈ sketches, ∃ fullTable, s.fullTable = .ok fullTable

theorem AreSound.name_ne_empty (sound : AreSound sketches) {s : Sketch} (member : s ∈ sketches)
    {field : Value} (parent : s.CanBeParent field) : s.name ≠ "" := by
  intro none
  have snake := parent.1
  rw [sound.snakeName s member, none] at snake
  revert snake
  decide

theorem standardFields_shape (isGlobal isJoin : Bool) :
    ∀ field ∈ standardFields isGlobal isJoin, field.HasFieldShape := by
  have plain {field : Entries} {name : String} (named : field.get? "name" = some (.text name))
      (column : field.get? "sql_name" = none) (references : field.get? "references" = none) :
      field.HasFieldShape := by
    constructor
    case name =>
      rw [Entries.getD_of_get? named]
      rfl
    case column =>
      rw [Entries.getD, column]
      rfl
    case references =>
      rw [Entries.RefersReadably, Entries.getD, references]
      intro truthy
      cases truthy
  intro field member
  simp only [standardFields, List.mem_append, List.mem_cons, List.not_mem_nil, or_false] at member
  rcases member with (id | organization) | rfl | rfl
  · cases isJoin with
    | true => cases id
    | false => exact List.mem_singleton.mp id ▸ plain rfl rfl rfl
  · cases isGlobal with
    | true => cases organization
    | false => exact List.mem_singleton.mp organization ▸ plain rfl rfl rfl
  · exact plain rfl rfl rfl
  · exact plain rfl rfl rfl

theorem areSound_of_drawn (drawn : ofValues settings source items = .ok sketches)
    (shown : ∀ s ∈ sketches, s.schema.isShowable ∧ s.table.isShowable) : AreSound sketches := by
  constructor
  case snakeName =>
    intro s member
    obtain ⟨v, _, made⟩ := Result.exists_of_mem_mapM (ofValues_eq_ok.mp drawn).1 member
    obtain ⟨_, _, isOf, _⟩ := ofValue_spec made
    exact isOf.snakeName
  case fullTable =>
    intro s member
    obtain ⟨schema, table⟩ := shown s member
    exact ⟨_, fullTable_eq_ok.mpr ⟨_, shown_eq_ok.mpr ⟨schema, rfl⟩, _,
      shown_eq_ok.mpr ⟨table, rfl⟩, rfl⟩⟩

end Sketch

end TenantSql
