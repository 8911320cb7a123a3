import TenantSql.Query.Identity
import TenantSql.Proofs.Definition.Passes
import TenantSql.Proofs.Definition.Relations
import TenantSql.Proofs.Model.Rules

/-!
# Loaded models

What loading a definition makes sure of: every name that statements write is an
identifier, the standard fields are there, parents have columns, and relations
say the truth about the models that they lead to.
-/

namespace TenantSql

open Sql (HoldsNoParameter TableName)

/-! ## What is known of a loaded model -/

def Model.HasParentColumn (m : Model) (column : String) : Prop :=
  ∃ p ∈ m.parents, p.column = column

def Through.tableName (t : Through) : TableName :=
  ⟨t.schema, t.table⟩

def Child.tableName (c : Child) : TableName :=
  ⟨c.schema, c.table⟩

def Reference.tableName (r : Reference) : TableName :=
  ⟨r.schema, r.table⟩

structure Through.Leads (through : Through) (join target : Model) (column : String) : Prop where
  isJoin : join.isJoin
  model : through.model = join.name
  table : through.tableName = join.tableName
  ownerColumn : join.HasParentColumn column
  childColumn : ∃ p ∈ join.parents, p.model = target.name ∧ p.column = through.childColumn

structure Child.Leads (c : Child) (models : List Model) (target : Model) : Prop where
  listed : target ∈ models
  model : c.model = target.name
  named : c.getName ≠ "" ∧ c.listName ≠ ""
  table : c.tableName = target.tableName
  fields : c.fields = target.readableFields
  column : isIdentifier c.parentColumn
  direct : c.through = none → target.HasParentColumn c.parentColumn
  indirect : ∀ through ∈ c.through, ∃ join ∈ models, through.Leads join target c.parentColumn

structure Reference.Leads (r : Reference) (models : List Model) (owner target : Model) : Prop where
  listed : target ∈ models
  name : isIdentifier r.name
  named : r.outputName ≠ ""
  model : r.model = target.name
  table : r.tableName = target.tableName
  column : ∃ f ∈ owner.fields, f.column = r.idColumn
  fields : ∀ f ∈ r.fields, f ∈ target.readableFields
  isGlobal : r.isGlobal = target.isGlobal

namespace Model

def standardColumns (m : Model) : List String :=
  (if m.isGlobal then [] else ["organization_id"]) ++ ["updated_at", "created_at"]

structure Loaded (models : List Model) (m : Model) : Prop where
  schema : isIdentifier m.schema
  table : isIdentifier m.table
  authSchema : isIdentifier m.authSchema
  columns : ∀ f ∈ m.fields, isIdentifier f.column
  fullNames : ∀ f ∈ m.fields, HoldsNoParameter f.fullName
  namesColumn : ∀ f ∈ m.fields, f.NamesColumn
  standard : ∃ keys rest, m.fields = keys ++ rest ∧
    (∀ join ∈ m.join, keys.map Field.name = join.idNames) ∧
    ∀ name ∈ m.standardColumns, ∃ f ∈ rest, f.name = name ∧ f.column = name
  parents : ∀ p ∈ m.parents, isIdentifier p.column ∧ ∃ f ∈ m.fields, f.column = p.column
  parentFields : ∀ p ∈ m.parents, ∃ f ∈ m.fields,
    f.name = p.fieldName ∧ f.column = p.column ∧ f.unique = false ∧ f.neverRead = false
  moduleName : isIdentifier m.moduleName
  parentModels : ∀ p ∈ m.parents, ∃ parent ∈ models,
    p.model = parent.name ∧ p.snakeName = parent.moduleName
  parentTables : ∀ p ∈ m.parents, ∀ f ∈ m.fields, f.name = p.fieldName → ∀ other ∈ models,
    f.references = some other.fullTable →
      ∃ parent ∈ models, p.model = parent.name ∧ parent.fullTable = other.fullTable
  children : ∀ c ∈ m.children, ∃ target, c.Leads models target
  references : ∀ r ∈ m.references, ∃ target, r.Leads models m target
  rules : m.breach? = none

end Model

/-! ## Sketches -/

namespace Sketch

def HasStandardFields (s : Sketch) : Prop :=
  ∃ isJoin declared, s.fields = standardFields s.isGlobal isJoin ++ declared

theorem ofValue_standard {settings : Settings} {source : Option String} {v : Value} {s : Sketch}
    (drawn : ofValue settings source v = .ok s) : s.HasStandardFields := by
  obtain ⟨entries, _, isOf, _⟩ := ofValue_spec drawn
  obtain ⟨_, _, declared, _, fields⟩ := isOf.fields
  exact ⟨_, declared, fields⟩

end Sketch

/-! ## Models -/

theorem Model.fullTable_unquoted {m : Model}
    (identifiers : isIdentifier m.schema ∧ isIdentifier m.table) :
    ∀ c ∈ m.fullTable.toList, Sql.isUnquoted c := by
  intro c member
  simp only [fullTable, String.toList_append, List.mem_append] at member
  rcases member with (inSchema | point) | inTable
  · exact isIdentifier_unquoted identifiers.1 c inSchema
  · have same : c = '.' := List.mem_singleton.mp point
    rw [same]
    decide
  · exact isIdentifier_unquoted identifiers.2 c inTable

theorem Model.get?_withPermissions {entries : Entries} {key : String}
    (other : ∀ tier ∈ ["owner", "write", "read"], key ≠ tier ++ "_permission") :
    (withPermissions entries).get? key = entries.get? key := by
  have step {entries : Entries} {tier : String} (tierKnown : tier ∈ ["owner", "write", "read"]) :
      (withPermission entries tier).get? key = entries.get? key := by
    simp only [withPermission]
    split
    · rw [Entries.get?_set, if_neg (other tier tierKnown)]
    · rfl
  rw [withPermissions, List.foldl_cons, List.foldl_cons, List.foldl_cons, List.foldl_nil,
    step (by simp), step (by simp), step (by simp)]

namespace Model

structure IsMadeOf (m : Model) (entries : Entries) (parts : Parts) : Prop where
  name : entries.required "name" Value.readNonEmptyText = .ok m.name
  moduleName : entries.required "module_name" (Value.readIdentifier "Identifier") =
    .ok m.moduleName
  schema : entries.optional "schema_name" "public" (Value.readIdentifier "Identifier") =
    .ok m.schema
  table : entries.required "table" (Value.readIdentifier "Identifier") = .ok m.table
  isGlobal : entries.aliased "global" "is_global" false Value.readBool = .ok m.isGlobal
  fields : parts.fields = .ok m.fields
  join : parts.join = .ok m.join
  parents : parts.parents = .ok m.parents
  children : parts.children = .ok m.children
  references : parts.references = .ok m.references
  authSchema : entries.optional "auth_schema" "auth" (Value.readIdentifier "Identifier") =
    .ok m.authSchema

theorem ofParts_spec {entries : Entries} {parts : Parts} :
    ∀ m, ofParts entries parts = .ok m → m.IsMadeOf entries parts := by
  simp only [ofParts, Checked.forall_seq_eq_ok, Checked.forall_map_eq_ok]
  intro name readName moduleName readModule schema readSchema table readTable isGlobal readGlobal
    fields sameFields join sameJoin parents sameParents children sameChildren references
    sameReferences authSchema readAuth
  intros
  -- The names of permissions, which may have been filled in, are none of these entries.
  rw [Entries.required, get?_withPermissions (by decide)] at readName readModule readTable
  rw [Entries.optional, get?_withPermissions (by decide)] at readSchema readAuth
  rw [Entries.aliased_eq_ok, get?_withPermissions (by decide), get?_withPermissions (by decide),
    ← Entries.aliased_eq_ok] at readGlobal
  exact ⟨readName, readModule, readSchema, readTable, readGlobal, sameFields, sameJoin, sameParents,
    sameChildren, sameReferences, readAuth⟩

theorem checkRules_eq_ok {built m : Model} (ruled : checkRules built = .ok m) :
    built = m ∧ m.breach? = none := by
  unfold checkRules at ruled
  split at ruled
  · rename_i kept
    cases ruled
    exact ⟨rfl, kept⟩
  · simp at ruled

end Model

namespace Typed

structure Makes (t : Typed) (m : Model) : Prop where
  name : m.name = t.name
  moduleName : m.moduleName = t.sketch.snakeName
  validModule : isIdentifier m.moduleName
  table : t.HasTable m.schema m.table
  isGlobal : m.isGlobal = t.sketch.isGlobal
  fields : m.fields = t.fields
  join : m.join = t.linked.join
  parents : m.parents = t.linked.parents
  authSchema : isIdentifier m.authSchema
  rules : m.breach? = none

theorem toModel_spec {settings : Settings} {source : Option String} {t : Typed}
    {children : List Child} {references : List Reference} {m : Model}
    (made : t.toModel settings source children references = .ok m) :
    t.Makes m ∧ m.children = children ∧ m.references = references := by
  simp only [toModel, Checked.orReject_eq_ok, Checked.andThen_eq_ok] at made
  obtain ⟨built, read, ruled⟩ := made
  obtain ⟨rfl, rules⟩ := Model.checkRules_eq_ok ruled
  obtain ⟨readName, readModule, readSchema, readTable, readGlobal, fields, join, parents, children,
    references, readAuth⟩ := Model.ofParts_spec built read
  simp only [Entries.required_eq_ok, Entries.optional_eq_ok, Entries.aliased_eq_ok,
    Entries.ofFields, List.map_cons, List.cons_append, Entries.get?_cons_text, String.reduceEq,
    if_true, if_false, Option.some_or, Option.some.injEq, exists_eq_left', reduceCtorEq, false_and,
    or_false] at readName readModule readSchema readTable readGlobal readAuth
  obtain ⟨text, _⟩ := Value.readNonEmptyText_eq_ok.mp readName
  obtain ⟨moduleText, validModule⟩ := Value.readIdentifier_eq_ok.mp readModule
  exact ⟨⟨(Checked.ok.inj text).symm, (Checked.ok.inj moduleText).symm, validModule,
    ⟨readSchema, readTable⟩, (Checked.ok.inj readGlobal).symm, (Checked.ok.inj fields).symm,
    (Checked.ok.inj join).symm, (Checked.ok.inj parents).symm,
    (Value.readIdentifier_eq_ok.mp readAuth).2, rules⟩, (Checked.ok.inj children).symm,
    (Checked.ok.inj references).symm⟩

end Typed

/-! ## Lists of models -/

namespace Typed

theorem modelOf_spec {settings : Settings} {source : Option String} {all : List Typed}
    {t : Typed} {m : Model} (made : t.modelOf settings source all = .ok m) :
    t.Makes m ∧ (∀ c ∈ m.children, ∃ target : Typed, target.IsChild all t c) ∧
      ∀ r ∈ m.references, ∃ target : Typed, target.IsReference all t r := by
  simp only [modelOf, childrenOf, referencesOf, Result.bind_eq_ok] at made
  obtain ⟨_, ⟨_, _, childrenFound⟩, _, ⟨_, _, referencesFound⟩, made⟩ := made
  obtain ⟨makes, rfl, rfl⟩ := toModel_spec made
  refine ⟨makes, fun c member => ?_, fun r member => ?_⟩
  · obtain ⟨v, _, read⟩ := Result.exists_of_mem_mapM childrenFound member
    exact childOf_spec read
  · obtain ⟨v, _, read⟩ := Result.exists_of_mem_mapM referencesFound member
    exact referenceOf_spec read

end Typed

structure Loading (sketches : List Sketch) (typed : List Typed) (models : List Model) : Prop where
  apart : (sketches.map Sketch.name).Nodup
  drawn : typed.map Typed.sketch = sketches
  named : models.map Model.name = sketches.map Sketch.name
  holds : ∀ t ∈ typed, t.Holds sketches ∧ t.sketch.HasStandardFields
  made : ∀ m ∈ models, ∃ t ∈ typed, t.Makes m ∧
    (∀ c ∈ m.children, ∃ target : Typed, target.IsChild typed t c) ∧
    ∀ r ∈ m.references, ∃ target : Typed, target.IsReference typed t r
  covered : ∀ t ∈ typed, ∃ m ∈ models, t.Makes m

theorem loadModels_loading {raw : Entries} {settings : Settings} {source : Option String}
    {models : List Model} (loaded : loadModels raw settings source = .ok models) :
    ∃ items sketches typed, (raw.getD "models").bare = .list items ∧
      items.mapM (Sketch.ofValue settings source) = .ok sketches ∧
      Loading sketches typed models := by
  obtain ⟨items, listed⟩ : ∃ items, (raw.getD "models").bare = .list items := by
    unfold loadModels at loaded
    split at loaded
    · rename_i first rest listed
      exact ⟨first :: rest, listed⟩
    · simp at loaded
  obtain ⟨_, sketches, sketched, linked, linking, typed, typing, making⟩ :=
    (loadModels_eq_ok listed).mp loaded
  obtain ⟨drawing, apart⟩ := Sketch.ofValues_eq_ok.mp sketched
  refine ⟨items, sketches, typed, listed, drawing, apart, Typed.map_sketch linking typing, ?_, ?_,
    fun m member => ?_, fun t member => ?_⟩
  · rw [← Typed.map_name linking typing]
    exact Result.map_eq_of_mapM (fun t m made => (Typed.modelOf_spec made).1.name) making
  · intro t member
    obtain ⟨l, among, read⟩ := Result.exists_of_mem_mapM typing member
    obtain ⟨s, here, link⟩ := Result.exists_of_mem_mapM linking among
    obtain ⟨v, _, drawn⟩ := Result.exists_of_mem_mapM drawing here
    exact ⟨Typed.ofLinked_holds link read,
      Typed.ofLinked_sketch link read ▸ Sketch.ofValue_standard drawn⟩
  · obtain ⟨t, among, made⟩ := Result.exists_of_mem_mapM making member
    exact ⟨t, among, Typed.modelOf_spec made⟩
  · obtain ⟨m, among, made⟩ := Result.mem_of_mapM making member
    exact ⟨m, among, (Typed.modelOf_spec made).1⟩

namespace Typed

theorem names_standardFields {m : Model} (isJoin : Bool) {name : String}
    (standard : name ∈ m.standardColumns) :
    ∃ entries ∈ Sketch.standardFields m.isGlobal isJoin, Names entries (.text name) := by
  have organization : Names (.ofFields [("name", .text "organization_id"),
      ("sql_type", .text SqlType.uuid.name), ("indexed", .bool true)]) (.text "organization_id") := by
    simp [Names, Entries.ofFields]
  have time (name : String) : Names (Sketch.timeField name) (.text name) := by
    simp [Names, Sketch.timeField, Entries.ofFields]
  simp only [Model.standardColumns, List.mem_append, List.mem_cons, List.not_mem_nil, or_false]
    at standard
  rcases standard with tenant | rfl | rfl
  · cases isGlobal : m.isGlobal with
    | true => simp [isGlobal] at tenant
    | false =>
        simp only [isGlobal, Bool.false_eq_true, if_false, List.mem_singleton] at tenant
        subst tenant
        exact ⟨_, by simp [Sketch.standardFields], organization⟩
  · exact ⟨_, by simp [Sketch.standardFields], time "updated_at"⟩
  · exact ⟨_, by simp [Sketch.standardFields], time "created_at"⟩

/-- A table that is shown without quotes, schema and all, was given as a text, and so was the
schema. -/
theorem HasTable.eq_text_of_fullTable {t : Typed} {schema table : String}
    (has : t.HasTable schema table) {fullTable : String} (shown : t.sketch.fullTable = .ok fullTable)
    (unquoted : ∀ c ∈ fullTable.toList, Sql.isUnquoted c) :
    t.sketch.schema = .text schema ∧ t.sketch.table = .text table := by
  obtain ⟨schema, schemaShown, table, tableShown, rfl⟩ := Sketch.fullTable_eq_ok.mp shown
  obtain ⟨_, rfl⟩ := Sketch.shown_eq_ok.mp schemaShown
  obtain ⟨_, rfl⟩ := Sketch.shown_eq_ok.mp tableShown
  simp only [String.toList_append, List.mem_append] at unquoted
  exact ⟨Value.eq_text_of_unquoted (Value.readIdentifier_eq_ok.mp has.1).1
    fun c member => unquoted c (.inl (.inl member)),
    Value.eq_text_of_unquoted (Value.readIdentifier_eq_ok.mp has.2).1
    fun c member => unquoted c (.inr member)⟩

theorem HasTable.fullTable_eq {t : Typed} {m other : Model} (has : t.HasTable m.schema m.table)
    (identifiers : isIdentifier other.schema ∧ isIdentifier other.table)
    (shown : t.sketch.fullTable = .ok other.fullTable) : m.fullTable = other.fullTable := by
  obtain ⟨schema, table⟩ := has.eq_text_of_fullTable shown (Model.fullTable_unquoted identifiers)
  rw [Sketch.fullTable, schema, table] at shown
  exact Except.ok.inj shown

theorem HasTable.unique {t : Typed} {schema table otherSchema otherTable : String}
    (first : t.HasTable schema table) (second : t.HasTable otherSchema otherTable) :
    (⟨schema, table⟩ : TableName) = ⟨otherSchema, otherTable⟩ := by
  have sameSchema : Checked.ok schema = Checked.ok otherSchema := first.1.symm.trans second.1
  have sameTable : Checked.ok table = Checked.ok otherTable := first.2.symm.trans second.2
  rw [Checked.ok.inj sameSchema, Checked.ok.inj sameTable]

end Typed

namespace Loading

variable {sketches : List Sketch} {typed : List Typed} {models : List Model}

theorem child_leads (loading : Loading sketches typed models) {owner target : Typed} {c : Child}
    (related : target.IsChild typed owner c) : ∃ m, c.Leads models m := by
  obtain ⟨m, listed, makes⟩ := loading.covered target related.listed
  have snake : target.sketch.snakeName ≠ "" :=
    makes.moduleName ▸ isIdentifier_ne_empty makes.validModule
  refine ⟨m, listed, related.model.trans makes.name.symm, related.named snake,
    related.table.unique makes.table, ?_, related.column, fun none => ?_, fun through given => ?_⟩
  · rw [related.fields, Typed.readableFields, Model.readableFields, makes.fields]
  · obtain ⟨p, among, _, column⟩ := related.direct none
    exact ⟨p, makes.parents ▸ among, column⟩
  · obtain ⟨join, joinListed, joins⟩ := related.indirect through given
    obtain ⟨j, jListed, joinMakes⟩ := loading.covered join joinListed
    obtain ⟨p, among, _, column⟩ := Typed.hasParentColumn_of_eq_some joins.ownerColumn
    obtain ⟨q, qAmong, qModel, qColumn⟩ := Typed.hasParentColumn_of_eq_some joins.childColumn
    refine ⟨j, jListed, ?_, joins.model.trans joinMakes.name.symm,
      joins.table.unique joinMakes.table, ⟨p, joinMakes.parents ▸ among, column⟩,
      ⟨q, joinMakes.parents ▸ qAmong, qModel.trans makes.name.symm, qColumn⟩⟩
    rw [Model.isJoin, joinMakes.join]
    exact joins.isJoin

theorem reference_leads (loading : Loading sketches typed models) {t target : Typed} {m : Model}
    (made : t.Makes m) {r : Reference} (related : target.IsReference typed t r) :
    ∃ other, r.Leads models m other := by
  obtain ⟨other, listed, makes⟩ := loading.covered target related.listed
  refine ⟨other, listed, related.name, related.named, related.model.trans makes.name.symm,
    related.table.unique makes.table, made.fields ▸ related.column, fun f member => ?_,
    related.isGlobal.trans makes.isGlobal.symm⟩
  rw [Model.readableFields, makes.fields]
  exact related.fields f member

theorem identifiers (loading : Loading sketches typed models) {m : Model} (member : m ∈ models) :
    isIdentifier m.schema ∧ isIdentifier m.table := by
  obtain ⟨t, _, makes, _, _⟩ := loading.made m member
  exact ⟨(Value.readIdentifier_eq_ok.mp makes.table.1).2,
    (Value.readIdentifier_eq_ok.mp makes.table.2).2⟩

theorem loaded (loading : Loading sketches typed models) {m : Model} (member : m ∈ models) :
    m.Loaded models := by
  obtain ⟨t, among, makes, children, references⟩ := loading.made m member
  obtain ⟨⟨columns, fullNames, namesColumn, ⟨keys, own, added, listed, keyed, named⟩, parents, _⟩,
    isJoin, declared, fields⟩ := loading.holds t among
  constructor
  case schema => exact (loading.identifiers member).1
  case table => exact (loading.identifiers member).2
  case authSchema => exact makes.authSchema
  case columns => exact makes.fields ▸ columns
  case fullNames => exact fun f held => fullNames f (makes.fields ▸ held) makes.table.2
  case namesColumn => exact fun f held => namesColumn f (makes.fields ▸ held)
  case standard =>
    refine ⟨keys, own ++ added, ?_, makes.join ▸ keyed, fun name standard => ?_⟩
    · rw [makes.fields, listed, List.append_assoc]
    · obtain ⟨entries, present, names⟩ := Typed.names_standardFields isJoin standard
      rw [makes.isGlobal] at present
      obtain ⟨f, held, sameName, sameColumn⟩ := named entries
        (fields ▸ List.mem_append_left declared present) name names
      exact ⟨f, List.mem_append_left added held, sameName, sameColumn⟩
  case parents =>
    intro p held
    obtain ⟨valid, _, _, holds⟩ := parents p (makes.parents ▸ held)
    obtain ⟨f, there, _, column, _⟩ := holds.field
    exact ⟨valid, f, makes.fields ▸ there, column⟩
  case parentFields =>
    intro p held
    obtain ⟨_, _, _, holds⟩ := parents p (makes.parents ▸ held)
    obtain ⟨f, there, name, column, plain, _, neverRead, _⟩ := holds.field
    exact ⟨f, makes.fields ▸ there, name, column, plain, neverRead⟩
  case moduleName => exact makes.validModule
  case parentModels =>
    intro p held
    obtain ⟨_, s, drawn, holds⟩ := parents p (makes.parents ▸ held)
    obtain ⟨parent, typedParent, rfl⟩ := List.mem_map.mp (loading.drawn ▸ drawn)
    obtain ⟨made, listed, parentMakes⟩ := loading.covered parent typedParent
    exact ⟨made, listed, holds.model.trans parentMakes.name.symm,
      holds.snakeName.trans parentMakes.moduleName.symm⟩
  case parentTables =>
    intro p held f own name other isOther references
    obtain ⟨_, s, drawn, holds⟩ := parents p (makes.parents ▸ held)
    obtain ⟨parent, typedParent, rfl⟩ := List.mem_map.mp (loading.drawn ▸ drawn)
    obtain ⟨made, listed, parentMakes⟩ := loading.covered parent typedParent
    refine ⟨made, listed, holds.model.trans parentMakes.name.symm, ?_⟩
    obtain ⟨g, there, sameName, _, _, _, _, _, fullTable, table, stated⟩ := holds.field
    have same : f = g := (Model.lawful_of_rules makes.rules).eq_of_name own (makes.fields ▸ there)
      (name.trans sameName.symm)
    rw [same, stated, Option.some.injEq] at references
    exact parentMakes.table.fullTable_eq (loading.identifiers isOther) (references ▸ table)
  case children =>
    intro c held
    obtain ⟨target, related⟩ := children c held
    exact loading.child_leads related
  case references =>
    intro r held
    obtain ⟨target, related⟩ := references r held
    exact loading.reference_leads makes related
  case rules => exact makes.rules

end Loading

/-- What is known of every model that was loaded from a definition. -/
theorem loadModels_loaded {raw : Entries} {settings : Settings} {source : Option String}
    {models : List Model} (loaded : loadModels raw settings source = .ok models) {m : Model}
    (member : m ∈ models) : m.Loaded models := by
  obtain ⟨_, _, _, _, _, loading⟩ := loadModels_loading loaded
  exact loading.loaded member

/-! ## Columns that every read returns

Every model has a field for the time at which a row was created. Its entries are not the
definition's, and do not keep it from reads or lists: so no read is without columns. -/

namespace Field

theorem ofEntries_listed {entries : Entries} : ∀ f, ofEntries entries = .ok f →
    entries.get? "never_read" = none → entries.get? "omit_in_list" = none →
      f.neverRead = false ∧ f.omitInList = false := by
  have same {key : String} (other : key ≠ "sql_name") (absent : entries.get? key = none) :
      (withColumn entries).optional key false Value.readBool = .ok false := by
    rw [Entries.optional, get?_withColumn other, absent]
  simp only [ofEntries, Checked.forall_seqLeft_eq_ok, Checked.forall_seq_eq_ok,
    Checked.forall_map_eq_ok]
  intro _ _ _ _ _ _ _ _ _ _ _ _ _ _ _ _ _ _ neverRead readNeverRead omitInList readOmitInList
  intros
  rename_i readAbsent omitAbsent
  rw [same (by decide) readAbsent] at readNeverRead
  rw [same (by decide) omitAbsent] at readOmitInList
  exact ⟨(Checked.ok.inj readNeverRead).symm, (Checked.ok.inj readOmitInList).symm⟩

end Field

theorem Typed.fieldOf_listed {sketches : List Sketch} {source : Option String} {owner : String}
    {s : Sketch} {entries resolved : Entries} {f : Field}
    (step : Linked.resolveReference sketches source owner entries = .ok resolved)
    (read : fieldOf source s resolved = .ok f) (readable : entries.get? "never_read" = none)
    (listable : entries.get? "omit_in_list" = none) :
    f.neverRead = false ∧ f.omitInList = false := by
  obtain ⟨given, made, kept⟩ := fieldOf_given read
  refine Field.ofEntries_listed f made ?_ ?_
  · rw [kept _ (by decide) (by decide), Linked.resolveReference_get? step (by decide), readable]
  · rw [kept _ (by decide) (by decide), Linked.resolveReference_get? step (by decide), listable]

namespace Model

theorem readableFields_ne_nil {m : Model} (lists : m.listFields ≠ []) : m.readableFields ≠ [] := by
  obtain ⟨f, listed⟩ := List.exists_mem_of_ne_nil _ lists
  obtain ⟨held, returned⟩ := List.mem_filter.mp listed
  simp only [Bool.and_eq_true] at returned
  exact List.ne_nil_of_mem (List.mem_filter.mpr ⟨held, returned.1⟩)

end Model

/-- Whatever definition is loaded, lists of its models return columns. -/
theorem listFields_ne_nil {raw : Entries} {settings : Settings} {source : Option String}
    {models : List Model} (loaded : loadModels raw settings source = .ok models) {m : Model}
    (member : m ∈ models) : m.listFields ≠ [] := by
  obtain ⟨items, _, _, listed, _⟩ := loadModels_loading loaded
  obtain ⟨_, sketches, sketched, linked, linking, typed, typing, making⟩ :=
    (loadModels_eq_ok listed).mp loaded
  obtain ⟨t, among, made⟩ := Result.exists_of_mem_mapM making member
  obtain ⟨makes, _⟩ := Typed.modelOf_spec made
  obtain ⟨l, isLinked, read⟩ := Result.exists_of_mem_mapM typing among
  obtain ⟨s, isSketch, link⟩ := Result.exists_of_mem_mapM linking isLinked
  obtain ⟨drawing, _⟩ := Sketch.ofValues_eq_ok.mp sketched
  obtain ⟨v, _, drawn⟩ := Result.exists_of_mem_mapM drawing isSketch
  obtain ⟨isJoin, declared, fields⟩ := Sketch.ofValue_standard drawn
  obtain ⟨before, ⟨_, ⟨keys, added, _, extended, _⟩, _⟩, _, resolving⟩ := Linked.ofSketch_spec link
  have stated : Sketch.timeField "created_at" ∈ before.fields := by
    rw [extended, fields]
    simp [Sketch.standardFields]
  simp only [Typed.ofLinked, Result.bind_eq_ok, Result.pure_eq_ok] at read
  obtain ⟨records, reading, rfl⟩ := read
  obtain ⟨resolved, isResolved, step⟩ := Result.mem_of_mapM resolving stated
  obtain ⟨f, held, field⟩ := Result.mem_of_mapM reading isResolved
  obtain ⟨neverRead, omitInList⟩ := Typed.fieldOf_listed step field
    (by simp [Sketch.timeField, Entries.ofFields]) (by simp [Sketch.timeField, Entries.ofFields])
  have own : f ∈ m.fields := by
    rw [makes.fields]
    exact held
  exact List.ne_nil_of_mem (List.mem_filter.mpr ⟨own, by simp [neverRead, omitInList]⟩)

end TenantSql
