import TenantSql.Proofs.Definition.Loaded

/-!
# Columns that hold ids

Loading adds columns to those that a definition declares: the standard ones, and
the ids of rows that a table joins, belongs to or refers to. All of them hold
ids, but for two that hold times. The type of a declared column is what the
definition states, or text.
-/

namespace TenantSql

def Model.HasColumnOf (m : Model) (type : SqlType) (column : String) : Prop :=
  ∃ f ∈ m.fields, f.column = column ∧ f.sqlType = type

instance (m : Model) (type : SqlType) (column : String) : Decidable (m.HasColumnOf type column) :=
  inferInstanceAs (Decidable (∃ f ∈ m.fields, _ ∧ _))

def Entries.Describes (raw : Entries) (model : String) (entries : Entries) : Prop :=
  ∃ items, (raw.getD "models").bare = .list items ∧ ∃ v ∈ items,
    v.bare = .object entries ∧ (entries.getD "name").display = model

/-- The definition has a key `joins` where it gives the model, if only with nothing under it. -/
def Entries.DeclaresJoins (raw : Entries) (model : String) : Prop :=
  ∃ entries : Entries, raw.Describes model entries ∧ entries.has "joins"

def Entries.DeclaresField (raw : Entries) (model name : String) : Prop :=
  ∃ entries : Entries, raw.Describes model entries ∧
    ∃ parts, (entries.getD "fields").partsOrNone = .ok parts ∧
      ∃ part ∈ parts, ∃ source field, Sketch.declaredField model source part = .ok field ∧
        (field.getD "name").readText = .ok name

structure Model.HoldsIds (m : Model) (raw : Entries) : Prop where
  parents : ∀ p ∈ m.parents, m.HasColumnOf .uuid p.column
  organization : m.isGlobal = false → m.HasColumnOf .uuid "organization_id"
  id : ¬ raw.DeclaresJoins m.name → m.HasColumnOf .uuid "id"
  added : ∀ f ∈ m.fields, ¬ raw.DeclaresField m.name f.name →
    f.sqlType = .uuid ∨ f.sqlType = .timestamp ∧ f.name ∈ ["updated_at", "created_at"]

theorem Model.HasColumnOf.unique {m : Model} (lawful : m.Lawful) {a b : SqlType} {column : String}
    (first : m.HasColumnOf a column) (second : m.HasColumnOf b column) : a = b := by
  obtain ⟨f, held, rfl, rfl⟩ := first
  obtain ⟨g, other, same, rfl⟩ := second
  rw [lawful.eq_of_column held other same.symm]

theorem Sketch.standardFields_typed {isGlobal isJoin : Bool} {entries : Entries}
    (member : entries ∈ standardFields isGlobal isJoin) :
    ∃ (name : String) (type : SqlType), Typed.Names entries (.text name) ∧
      entries.get? "sql_type" = some (.text type.name) ∧
      (type = .uuid ∨ type = .timestamp ∧ name ∈ ["updated_at", "created_at"]) := by
  have time {name : String} (named : name ∈ ["updated_at", "created_at"]) :
      ∃ (other : String) (type : SqlType), Typed.Names (timeField name) (.text other) ∧
        (timeField name).get? "sql_type" = some (.text type.name) ∧
        (type = .uuid ∨ type = .timestamp ∧ other ∈ ["updated_at", "created_at"]) :=
    ⟨name, .timestamp, by simp [Typed.Names, timeField, Entries.ofFields],
      by simp [timeField, Entries.ofFields], .inr ⟨rfl, named⟩⟩
  simp only [standardFields, List.mem_append, List.mem_cons, List.not_mem_nil, or_false] at member
  rcases member with (id | organization) | rfl | rfl
  · cases isJoin with
    | true => cases id
    | false =>
        rw [List.mem_singleton.mp id]
        exact ⟨"id", .uuid, by simp [Typed.Names, Entries.ofFields], by simp [Entries.ofFields],
          .inl rfl⟩
  · cases isGlobal with
    | true => cases organization
    | false =>
        rw [List.mem_singleton.mp organization]
        exact ⟨"organization_id", .uuid, by simp [Typed.Names, Entries.ofFields],
          by simp [Entries.ofFields], .inl rfl⟩
  · exact time List.mem_cons_self
  · exact time (List.mem_cons_of_mem _ List.mem_cons_self)

namespace Loading

variable {raw : Entries} {settings : Settings} {source : Option String} {items : List Value}
  {sketches : List Sketch} {typed : List Typed} {models : List Model} {t : Typed} {m : Model}

theorem hasStandardColumn (loading : Loading sketches typed models) (among : t ∈ typed)
    (made : t.Makes m) {entries : Entries} (standard : entries ∈ t.sketch.fields) {name : String}
    {type : SqlType} (names : Typed.Names entries (.text name))
    (stated : entries.get? "sql_type" = some (.text type.name)) : m.HasColumnOf type name := by
  obtain ⟨f, there, _, column, same⟩ := (loading.holds t among).1.types entries standard names stated
  exact ⟨f, made.fields ▸ there, column, same⟩

theorem holdsIds (loading : Loading sketches typed models)
    (listed : (raw.getD "models").bare = .list items)
    (drawn : items.mapM (Sketch.ofValue settings source) = .ok sketches) (member : m ∈ models) :
    m.HoldsIds raw := by
  obtain ⟨t, among, made, _, _⟩ := loading.made m member
  have isSketch : t.sketch ∈ sketches := loading.drawn ▸ List.mem_map_of_mem among
  obtain ⟨v, item, drawing⟩ := Result.exists_of_mem_mapM drawn isSketch
  obtain ⟨entries, bare, isOf, _, _⟩ := Sketch.ofValue_spec drawing
  obtain ⟨parts, given, declared, read, fields⟩ := isOf.fields
  have describes : raw.Describes m.name entries :=
    ⟨items, listed, v, item, bare, made.name ▸ isOf.name.symm⟩
  constructor
  case parents =>
    intro p held
    obtain ⟨_, _, _, holds⟩ := (loading.holds t among).1.parents p (made.parents ▸ held)
    obtain ⟨f, there, _, column, _, _, _, type, _⟩ := holds.field
    exact ⟨f, made.fields ▸ there, column, type⟩
  case organization =>
    intro tenant
    rw [made.isGlobal] at tenant
    have standard : Entries.ofFields [("name", .text "organization_id"),
        ("sql_type", .text SqlType.uuid.name), ("indexed", .bool true)] ∈ t.sketch.fields := by
      rw [fields]
      exact List.mem_append_left _ (by simp [Sketch.standardFields, tenant])
    exact loading.hasStandardColumn among made standard
      (by simp [Typed.Names, Entries.ofFields]) (by simp [Entries.ofFields])
  case id =>
    intro plain
    have absent : entries.has "joins" = false :=
      Bool.eq_false_iff.mpr fun joins => plain ⟨entries, describes, joins⟩
    have standard : Entries.ofFields [("name", .text "id"),
        ("sql_type", .text SqlType.uuid.name)] ∈ t.sketch.fields := by
      rw [fields, absent]
      exact List.mem_append_left _ (by simp [Sketch.standardFields])
    exact loading.hasStandardColumn among made standard
      (by simp [Typed.Names, Entries.ofFields]) (by simp [Entries.ofFields])
  case added =>
    intro f held undeclared
    rw [made.fields] at held
    rcases (loading.holds t among).1.others f held with uuid | ⟨own, sketched, named⟩
    · exact .inl uuid
    · rw [fields] at sketched
      rcases List.mem_append.mp sketched with standard | other
      · obtain ⟨name, type, names, stated, known⟩ := Sketch.standardFields_typed standard
        obtain ⟨g, there, same, _, rfl⟩ :=
          (loading.holds t among).1.types own (fields ▸ sketched) names stated
        have stands : name = f.name := by
          rw [Entries.getD_of_get? names.1] at named
          exact Checked.ok.inj named
        have whole : g = f :=
          (Model.lawful_of_rules made.rules).eq_of_name (made.fields ▸ there) (made.fields ▸ held)
            (same.trans stands)
        rw [← whole, same]
        exact known
      · obtain ⟨part, listed, drawing⟩ := Result.exists_of_mem_mapM read other
        have declares : raw.DeclaresField m.name f.name :=
          ⟨entries, describes, parts, given, part, listed, source, own, made.name ▸ drawing, named⟩
        exact absurd declares undeclared

end Loading

/-- Whatever definition is loaded, the columns of parents, of organizations and of ids that are
added hold ids, and so do all others that it does not declare, but for two that hold times. -/
theorem loadModels_holdsIds {raw : Entries} {settings : Settings} {source : Option String}
    {models : List Model} (loaded : loadModels raw settings source = .ok models) {m : Model}
    (member : m ∈ models) : m.HoldsIds raw := by
  obtain ⟨items, _, _, listed, drawn, loading⟩ := loadModels_loading loaded
  exact loading.holdsIds listed drawn member

end TenantSql
