import TenantSql.Proofs.Definition.Loaded
import TenantSql.Proofs.Query.Placeholder

/-!
# Foreign keys of relations

A relation leads to another model by a column that refers to a table. The reference is written as
the table is shown, which is with quotes if the definition gives the table, or its schema, as bytes:
then it is to something else.
-/

namespace TenantSql

def Value.isBytes : Value → Bool
  | .scalar (.bytes content) => !content.isEmpty
  | _ => false

/-- Where the definition declares the model, it gives neither its schema nor its table as bytes. -/
def Entries.GivesTableAsText (raw : Entries) (model : String) : Prop :=
  ∀ items, (raw.getD "models").bare = .list items → ∀ v ∈ items, ∀ entries : Entries,
    v.bare = .object entries → (entries.getD "name").display = model →
      (entries.getD "schema").isBytes = false ∧ (entries.getD "table").isBytes = false

/-! ## What relations say -/

/-- Exactly one field has the column, and it refers to the table of the target if and only if the
definition gives this table as a text. -/
def Model.RefersBy (m : Model) (raw : Entries) (target : Model) (column : String) : Prop :=
  ∃ f, m.fields.filter (·.column == column) = [f] ∧
    (f.references = some target.fullTable ↔ raw.GivesTableAsText target.name)

/-- Exactly one field has the name that the parent says, and exactly one the column: the same field.
Writers may set it, and it refers to the table of the parent if and only if the definition gives this
table as a text. -/
def Parent.IsKeyed (p : Parent) (raw : Entries) (m parent : Model) : Prop :=
  p.model = parent.name ∧ ∃ f, m.fields.filter (·.name == p.fieldName) = [f] ∧
    m.fields.filter (·.column == p.column) = [f] ∧ f.writable ∧
    (f.references = some parent.fullTable ↔ raw.GivesTableAsText parent.name)

structure Through.IsKeyed (through : Through) (raw : Entries) (join owner target : Model)
    (column : String) : Prop where
  model : through.model = join.name
  table : through.tableName = join.tableName
  owner : join.RefersBy raw owner column
  target : join.RefersBy raw target through.childColumn

structure Child.IsKeyed (c : Child) (raw : Entries) (models : List Model) (owner target : Model) :
    Prop where
  model : c.model = target.name
  table : c.tableName = target.tableName
  direct : c.through = none → target.RefersBy raw owner c.parentColumn
  indirect : ∀ through ∈ c.through, ∃ join ∈ models,
    through.IsKeyed raw join owner target c.parentColumn

structure Reference.IsKeyed (r : Reference) (owner target : Model) : Prop where
  model : r.model = target.name
  table : r.tableName = target.tableName
  column : ∃ f ∈ owner.fields, f.column = r.idColumn

structure Model.IsKeyed (m : Model) (raw : Entries) (models : List Model) : Prop where
  parents : ∀ p ∈ m.parents, ∃ parent ∈ models, p.IsKeyed raw m parent
  children : ∀ c ∈ m.children, ∃ target ∈ models, c.IsKeyed raw models m target
  references : ∀ r ∈ m.references, ∃ target ∈ models, r.IsKeyed m target

/-! ## Tables that are given as texts -/

theorem Sketch.truthyOr_eq_text {entries : Entries} {key instead s : String}
    (read : (truthyOr entries key (.text instead)).readText = .ok s) :
    truthyOr entries key (.text instead) = .text s ↔ (entries.getD key).isBytes = false := by
  revert read
  simp only [truthyOr]
  split
  · rename_i given
    intro read
    rcases Value.readText_eq_ok.mp read with text | ⟨content, bytes, _⟩
    · rw [text]
      exact ⟨fun _ => rfl, fun _ => rfl⟩
    · rw [bytes] at given ⊢
      have some : (Value.scalar (.bytes content)).isBytes = true := given
      rw [some]
      refine iff_of_false ?_ ?_
      · rintro ⟨⟩
      · rintro ⟨⟩
  · rename_i missing
    intro read
    refine ⟨fun _ => ?_, fun _ => congrArg Value.text (Checked.ok.inj read)⟩
    cases given : entries.getD key with
    | scalar value =>
        cases value with
        | bytes content =>
            rw [given, Bool.not_eq_true] at missing
            exact missing
        | null | bool | int | real | undefined | text | date | moment => rfl
    | list | pair | set | object | knot => rfl

theorem Typed.HasTable.fullTable_iff {t : Typed} {m : Model} (has : t.HasTable m.schema m.table) :
    t.sketch.fullTable = .ok m.fullTable ↔
      t.sketch.schema = .text m.schema ∧ t.sketch.table = .text m.table := by
  constructor
  · intro shown
    exact has.eq_text_of_fullTable shown (Model.fullTable_unquoted
      ⟨(Value.readIdentifier_eq_ok.mp has.1).2, (Value.readIdentifier_eq_ok.mp has.2).2⟩)
  · rintro ⟨schema, table⟩
    rw [Sketch.fullTable, schema, table]
    rfl

variable {raw : Entries} {settings : Settings} {source : Option String} {items : List Value}
  {sketches : List Sketch} {typed : List Typed} {models : List Model}

theorem Sketch.givesTableAsText_iff (listed : (raw.getD "models").bare = .list items)
    (drawn : items.mapM (ofValue settings source) = .ok sketches)
    (apart : (sketches.map name).Nodup) {s : Sketch} (member : s ∈ sketches) :
    raw.GivesTableAsText s.name ↔
      (s.given.getD "schema").isBytes = false ∧ (s.given.getD "table").isBytes = false := by
  constructor
  · intro texts
    obtain ⟨v, among, made⟩ := Result.exists_of_mem_mapM drawn member
    obtain ⟨entries, bare, isOf, _⟩ := ofValue_spec made
    rw [isOf.given]
    exact texts items listed v among entries bare isOf.name.symm
  · intro texts others relisted v among entries bare named
    cases listed.symm.trans relisted
    obtain ⟨other, isOther, made⟩ := Result.mem_of_mapM drawn among
    obtain ⟨own, ownBare, isOf, _⟩ := ofValue_spec made
    cases bare.symm.trans ownBare
    have same : other = s :=
      List.inj_on_of_nodup_map apart isOther member (isOf.name.trans named)
    rw [← isOf.given, same]
    exact texts

namespace Loading

variable (loading : Loading sketches typed models) (listed : (raw.getD "models").bare = .list items)
  (drawn : items.mapM (Sketch.ofValue settings source) = .ok sketches) {t : Typed} {m : Model}

include loading

theorem names_nodup : (models.map Model.name).Nodup := by
  rw [loading.named]
  exact loading.apart

theorem reference_isKeyed (made : t.Makes m) {r : Reference} {target : Typed}
    (related : target.IsReference typed t r) : ∃ other ∈ models, r.IsKeyed m other := by
  obtain ⟨other, isModel, makes⟩ := loading.covered target related.listed
  exact ⟨other, isModel, related.model.trans makes.name.symm, related.table.unique makes.table,
    made.fields ▸ related.column⟩

include listed drawn

/-- References to a model are to its table if and only if the definition gives it as a text. -/
theorem fullTable_iff (among : t ∈ typed) (made : t.Makes m) :
    t.sketch.fullTable = .ok m.fullTable ↔ raw.GivesTableAsText m.name := by
  have member : t.sketch ∈ sketches := loading.drawn ▸ List.mem_map_of_mem among
  obtain ⟨v, _, drawing⟩ := Result.exists_of_mem_mapM drawn member
  obtain ⟨entries, _, isOf, _⟩ := Sketch.ofValue_spec drawing
  have schema := (Value.readIdentifier_eq_ok.mp made.table.1).1
  have table := (Value.readIdentifier_eq_ok.mp made.table.2).1
  have named : m.name = t.sketch.name := made.name
  rw [made.table.fullTable_iff, named,
    Sketch.givesTableAsText_iff listed drawn loading.apart member, isOf.given]
  rw [isOf.schema] at schema ⊢
  rw [isOf.table] at table ⊢
  rw [Sketch.truthyOr_eq_text schema, Sketch.truthyOr_eq_text table]

theorem parent_isKeyed (among : t ∈ typed) (made : t.Makes m) {p : Parent}
    (held : p ∈ t.linked.parents) : ∃ parent ∈ models, p.IsKeyed raw m parent := by
  obtain ⟨_, s, isSketch, holds⟩ := (loading.holds t among).1.parents p held
  obtain ⟨target, isTyped, rfl⟩ := List.mem_map.mp (loading.drawn ▸ isSketch)
  obtain ⟨parent, isModel, makes⟩ := loading.covered target isTyped
  obtain ⟨f, there, name, column, _, writable, _, _, fullTable, shown, references⟩ := holds.field
  have lawful := Model.lawful_of_rules made.rules
  rw [← made.fields] at there
  refine ⟨parent, isModel, holds.model.trans makes.name.symm, f, ?_, ?_, writable, ?_⟩
  · rw [← name]
    exact filter_of_key lawful.names there
  · rw [← column]
    exact filter_of_key lawful.columns there
  · rw [references, ← loading.fullTable_iff listed drawn isTyped makes, shown]
    simp

/-- The column of a parent that was found by the name of its model. -/
theorem refersBy (among : t ∈ typed) (made : t.Makes m) {parent : Model} (isModel : parent ∈ models)
    {column : String} (belongs : t.HasParentColumn parent.name column) :
    m.RefersBy raw parent column := by
  obtain ⟨p, held, named, rfl⟩ := belongs
  obtain ⟨other, isOther, model, f, _, onlyOne, _, refers⟩ :=
    loading.parent_isKeyed listed drawn among made held
  have same : other = parent := List.inj_on_of_nodup_map loading.names_nodup isOther isModel
    (model.symm.trans named)
  exact ⟨f, onlyOne, same ▸ refers⟩

theorem child_isKeyed (isModel : m ∈ models) (made : t.Makes m) {c : Child} {child : Typed}
    (related : child.IsChild typed t c) : ∃ target ∈ models, c.IsKeyed raw models m target := by
  obtain ⟨target, isTarget, makes⟩ := loading.covered child related.listed
  refine ⟨target, isTarget, related.model.trans makes.name.symm, related.table.unique makes.table,
    fun none => ?_, fun through given => ?_⟩
  · exact loading.refersBy listed drawn related.listed makes isModel
      (made.name.symm ▸ related.direct none)
  · obtain ⟨between, among, joins⟩ := related.indirect through given
    obtain ⟨join, isJoin, joinMakes⟩ := loading.covered between among
    have ownerColumn := Typed.hasParentColumn_of_eq_some joins.ownerColumn
    have childColumn := Typed.hasParentColumn_of_eq_some joins.childColumn
    exact ⟨join, isJoin, joins.model.trans joinMakes.name.symm,
      joins.table.unique joinMakes.table,
      loading.refersBy listed drawn among joinMakes isModel (made.name.symm ▸ ownerColumn),
      loading.refersBy listed drawn among joinMakes isTarget (makes.name.symm ▸ childColumn)⟩

theorem isKeyed (member : m ∈ models) : m.IsKeyed raw models := by
  obtain ⟨t, among, made, children, references⟩ := loading.made m member
  constructor
  case parents =>
    intro p held
    exact loading.parent_isKeyed listed drawn among made (made.parents ▸ held)
  case children =>
    intro c held
    obtain ⟨child, related⟩ := children c held
    exact loading.child_isKeyed listed drawn member made related
  case references =>
    intro r held
    obtain ⟨target, related⟩ := references r held
    exact loading.reference_isKeyed made related

end Loading

/-- The models of a definition have distinct names, and all of their relations are to models of the
definition, by columns that refer to the tables of these models where the tables are given as
texts. -/
theorem loadModels_isKeyed {models : List Model}
    (loaded : loadModels raw settings source = .ok models) :
    (models.map Model.name).Nodup ∧ ∀ m ∈ models, m.IsKeyed raw models := by
  obtain ⟨items, sketches, typed, listed, drawn, loading⟩ := loadModels_loading loaded
  exact ⟨loading.names_nodup, fun m member => loading.isKeyed listed drawn member⟩

theorem blog_isKeyed : ∃ models, loadModels (blog "id") .default none = .ok models ∧
    models.map Model.name = ["Post", "Tag", "PostTag"] ∧
    ∀ m ∈ models, m.IsKeyed (blog "id") models := by
  have loaded := loadModels_blog .id
  exact ⟨_, loaded, rfl, (loadModels_isKeyed loaded).2⟩

def encodedLibrary : Entries := .ofFields [("models", .list [
  .ofFields [("name", .text "Author"), ("schema", .scalar (.bytes "public".toUTF8.toList))],
  .ofFields [("name", .text "Book"), ("belongs_to", .list [.text "Author"])]])]

theorem encodedLibrary_unkeyed : ∃ models, loadModels encodedLibrary .default none = .ok models ∧
    models.map Model.name = ["Author", "Book"] ∧
    ∃ m ∈ models, ∃ p ∈ m.parents, ∃ parent ∈ models, p.model = parent.name ∧
      ∀ f ∈ m.fields, f.references ≠ some parent.fullTable := by
  obtain ⟨models, _, loaded, _, checked⟩ := exists_loaded encodedLibrary
    (fun _ models => models.map Model.name == ["Author", "Book"] &&
      models.any fun m => m.parents.any fun p => models.any fun parent =>
        p.model == parent.name && m.fields.all (·.references != some parent.fullTable))
    (by decide +kernel)
  simp only [Bool.and_eq_true, beq_iff_eq, List.any_eq_true, List.all_eq_true, bne_iff_ne]
    at checked
  exact ⟨models, loaded, checked⟩

end TenantSql
