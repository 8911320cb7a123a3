import TenantSql.Proofs.Definition.Field

/-!
# Fields of links

Linking keeps the fields of a sketch and adds those of its links: the ids of a
join table's parents in front, every other one at the end. Each parent is one of
the sketches and has a field whose name and column are its own; such a field is
never unique, not even if there is at most one row per parent.
-/

namespace TenantSql

open Typed (Names)
open Sql (HoldsNoParameter)

def Parent.IsNamed (p : Parent) (name : Value) : Prop :=
  name.readText = .ok p.fieldName ∧ p.column = p.fieldName ∧ isIdentifier p.column

theorem Join.make_spec {ids : String × String} {models : Option (String × String)} {join : Join}
    (made : Join.make ids models = .ok join) : join = ⟨ids, models⟩ ∧ ids.1 ≠ ids.2 := by
  revert join
  simp only [Join.make, Checked.forall_map_eq_ok, Checked.within_eq_ok, Join.checkIds,
    Checked.ensure_eq_ok, Checked.ok.injEq, bne_iff_ne]
  rintro _ ⟨rfl, apart⟩
  exact ⟨rfl, apart⟩

theorem Sketch.find?_of_find {sketches : List Sketch} {source : Option String}
    {owner what name : String} {s : Sketch} (found : find sketches source owner what name = .ok s) :
    sketches.find? (·.name == name) = some s := by
  unfold find at found
  split at found
  · rename_i here
    cases found
    exact here
  · simp at found

theorem Sketch.find_eq_ok {sketches : List Sketch} {source : Option String}
    {owner what name : String} {s : Sketch} (found : find sketches source owner what name = .ok s) :
    s ∈ sketches :=
  List.mem_of_find?_eq_some (find?_of_find found)

theorem Sketch.fullTable_eq_ok {s : Sketch} {fullTable : String} :
    s.fullTable = .ok fullTable ↔ ∃ schema, shown s.schema = .ok schema ∧
      ∃ table, shown s.table = .ok table ∧ schema ++ "." ++ table = fullTable := by
  simp only [Sketch.fullTable, Result.bind_eq_ok, Result.pure_eq_ok]

namespace Linked

def KeyFields : Option Join → List Entries → Prop
  | none, keys => keys = []
  | some join, keys => ∃ first second, keys = [first, second] ∧
      Names first (.text join.ids.1) ∧ Names second (.text join.ids.2)

structure HoldsId (fields : List Entries) (p : Parent) (parent : Sketch) : Prop where
  model : p.model = parent.name
  snakeName : p.snakeName = parent.snakeName
  field : ∃ name fullTable, p.IsNamed name ∧ parent.fullTable = .ok fullTable ∧
    parentField name fullTable ∈ fields

def Holds (sketches : List Sketch) (fields : List Entries) (p : Parent) : Prop :=
  ∃ parent ∈ sketches, HoldsId fields p parent

def IsId (entries : Entries) : Prop :=
  entries.get? "sql_type" = some (.text SqlType.uuid.name)

theorem isId_parentField (name : Value) (fullTable : String) : IsId (parentField name fullTable) := by
  simp [IsId, parentField, Entries.ofFields]

/-- The links of a sketch as far as they are known: its own fields stand after the keys, all other
ones hold ids, and every parent has a field. -/
structure Extends (sketches : List Sketch) (l : Linked) (s : Sketch) : Prop where
  sketch : l.sketch = s
  fields : ∃ keys added, KeyFields l.join keys ∧ l.fields = keys ++ s.fields ++ added ∧
    ∀ entries ∈ keys ++ added, IsId entries
  parents : ∀ p ∈ l.parents, Holds sketches l.fields p

theorem Holds.mono {sketches : List Sketch} {fields more : List Entries} {p : Parent}
    (held : Holds sketches fields p) (kept : fields ⊆ more) : Holds sketches more p := by
  obtain ⟨parent, listed, model, snakeName, name, fullTable, named, table, field⟩ := held
  exact ⟨parent, listed, model, snakeName, name, fullTable, named, table, kept field⟩

theorem names_parentField (name : Value) (fullTable : String) :
    Names (parentField name fullTable) name := by
  simp [Names, parentField, Entries.ofFields]

theorem parentRecord_spec {parent : Sketch} {field : Value} {globallyUnique : Bool} {p : Parent}
    (read : parentRecord parent field globallyUnique = .ok p) :
    p.model = parent.name ∧ p.snakeName = parent.snakeName ∧ p.IsNamed field := by
  rw [parentRecord, Result.mapError_eq_ok, Checked.toExcept_eq_ok] at read
  revert p
  simp only [Parent.ofEntries, Checked.forall_seqLeft_eq_ok, Checked.forall_seq_eq_ok,
    Checked.forall_map_eq_ok, Entries.required_eq_ok, Entries.ofFields, List.map_cons, List.map_nil]
  intro model ⟨modelEntry, modelGiven, modelRead⟩ snake ⟨snakeEntry, snakeGiven, snakeRead⟩
    fieldName ⟨nameEntry, nameGiven, nameRead⟩ column ⟨columnEntry, columnGiven, columnRead⟩ _ _ _
  simp only [Entries.get?_cons_text, if_true, Option.some.injEq] at modelGiven
  simp only [Entries.get?_cons_text, String.reduceEq, if_false, if_true, Option.some.injEq]
    at snakeGiven nameGiven columnGiven
  subst modelGiven snakeGiven nameGiven columnGiven
  obtain ⟨text, _⟩ := Value.readNonEmptyText_eq_ok.mp modelRead
  obtain ⟨snakeText, _⟩ := Value.readIdentifier_eq_ok.mp snakeRead
  obtain ⟨columnText, valid⟩ := Value.readIdentifier_eq_ok.mp columnRead
  have same : Checked.ok column = Checked.ok fieldName := columnText.symm.trans nameRead
  exact ⟨(Checked.ok.inj text).symm, (Checked.ok.inj snakeText).symm, nameRead,
    Checked.ok.inj same, valid⟩

theorem holds_of_parentRecord {sketches : List Sketch} {parent : Sketch} (listed : parent ∈ sketches)
    {field : Value} {globallyUnique : Bool} {p : Parent}
    (read : parentRecord parent field globallyUnique = .ok p) {fullTable : String}
    (table : parent.fullTable = .ok fullTable) {fields : List Entries}
    (there : parentField field fullTable ∈ fields) : Holds sketches fields p := by
  obtain ⟨model, snake, named⟩ := parentRecord_spec read
  exact ⟨parent, listed, model, snake, field, fullTable, named, table, there⟩

/-- Fields and parents may be added, if every new parent has one of the new fields. -/
theorem Extends.add {sketches : List Sketch} {l next : Linked} {s : Sketch}
    (linked : Extends sketches l s) (sketch : next.sketch = l.sketch) (join : next.join = l.join)
    {fields : List Entries} (moreFields : next.fields = l.fields ++ fields)
    (ids : ∀ entries ∈ fields, IsId entries)
    {parents : List Parent} (moreParents : next.parents = l.parents ++ parents)
    (added : ∀ p ∈ parents, Holds sketches fields p) : Extends sketches next s := by
  obtain ⟨same, ⟨keys, others, keyed, listed, known⟩, parented⟩ := linked
  refine ⟨sketch.trans same, ⟨keys, others ++ fields, join ▸ keyed, ?_, ?_⟩, fun p member => ?_⟩
  · rw [moreFields, listed, List.append_assoc]
  · rw [← List.append_assoc]
    exact List.forall_mem_append.mpr ⟨known, ids⟩
  · rw [moreParents] at member
    rw [moreFields]
    rcases List.mem_append.mp member with earlier | new
    · exact (parented p earlier).mono (List.subset_append_left l.fields fields)
    · exact (added p new).mono (List.subset_append_right l.fields fields)

theorem linkParent_extends {sketches : List Sketch} {source : Option String} {l next : Linked}
    {s : Sketch} {v : Value} (step : linkParent sketches source l v = .ok next)
    (linked : Extends sketches l s) : Extends sketches next s := by
  simp only [linkParent, Result.bind_eq_ok] at step
  obtain ⟨relation, _, shown, _, parent, found, fullTable, table, step⟩ := step
  split at step
  · simp [Result.bind_eq_ok] at step
  · simp only [Result.bind_eq_ok, Result.pure_eq_ok] at step
    obtain ⟨record, read, rfl⟩ := step
    refine linked.add rfl rfl rfl (List.forall_mem_singleton.mpr (isId_parentField _ _)) rfl
      fun p member => ?_
    rw [List.mem_singleton.mp member]
    exact holds_of_parentRecord (Sketch.find_eq_ok found) read table (List.mem_singleton_self _)

theorem linkReference_extends {sketches : List Sketch} {source : Option String} {l next : Linked}
    {s : Sketch} {v : Value} (step : linkReference sketches source l v = .ok next)
    (linked : Extends sketches l s) : Extends sketches next s := by
  unfold linkReference at step
  split at step
  · simp only [Result.bind_eq_ok] at step
    obtain ⟨shown, _, target, _, step⟩ := step
    split at step
    · rw [Result.pure_eq_ok] at step
      exact step ▸ linked
    · simp only [Result.bind_eq_ok, Result.pure_eq_ok] at step
      obtain ⟨fullTable, _, rfl⟩ := step
      refine linked.add rfl rfl rfl (List.forall_mem_singleton.mpr ?_) (List.append_nil l.parents).symm
        fun p member => by cases member
      simp [IsId, Entries.ofFields]
  · simp at step

theorem linkJoin_extends {sketches : List Sketch} {source : Option String} {l : Linked}
    {s : Sketch} (step : linkJoin sketches source s = .ok l) : Extends sketches l s := by
  unfold linkJoin at step
  split at step
  · rw [Result.pure_eq_ok] at step
    subst step
    exact ⟨rfl, ⟨[], [], rfl, by simp, by simp⟩, fun p member => by cases member⟩
  · simp only [Result.bind_eq_ok, Result.pure_eq_ok, Checked.orReject_eq_ok] at step
    obtain ⟨first, ⟨_, _, firstFound⟩, second, ⟨_, _, secondFound⟩, firstTable, firstShown,
      firstRecord, firstRead, secondTable, secondShown, secondRecord, secondRead, join, made,
      rfl⟩ := step
    have ids : join.ids = _ := congrArg Join.ids (Join.make_spec made).1
    refine ⟨rfl, ⟨[_, _], [], ⟨_, _, rfl, ?_, ?_⟩, (List.append_nil _).symm, ?_⟩,
      fun p member => ?_⟩
    · rw [ids]
      exact names_parentField _ _
    · rw [ids]
      exact names_parentField _ _
    · rw [List.append_nil, List.forall_mem_cons, List.forall_mem_singleton]
      exact ⟨isId_parentField _ _, isId_parentField _ _⟩
    · rcases List.mem_cons.mp member with rfl | other
      · exact holds_of_parentRecord (Sketch.find_eq_ok firstFound) firstRead firstShown
          List.mem_cons_self
      · rw [List.mem_singleton.mp other]
        exact holds_of_parentRecord (Sketch.find_eq_ok secondFound) secondRead secondShown
          (List.mem_cons_of_mem _ List.mem_cons_self)
  · simp at step

theorem resolveReference_get? {sketches : List Sketch} {source : Option String} {owner : String}
    {field resolved : Entries} (step : resolveReference sketches source owner field = .ok resolved)
    {key : String} (other : key ≠ "references") : resolved.get? key = field.get? key := by
  simp only [resolveReference] at step
  split at step
  · rw [Result.pure_eq_ok] at step
    rw [step]
  · rw [Result.bind_eq_ok] at step
    obtain ⟨dotted, _, step⟩ := step
    split at step
    · rw [Result.pure_eq_ok] at step
      rw [step]
    · split at step
      · simp only [Result.bind_eq_ok, Result.pure_eq_ok] at step
        obtain ⟨_, _, _, _, _, _, rfl⟩ := step
        rw [Entries.get?_set, if_neg other]
      · simp at step

theorem hasPiece_of_mem {c : Char} {cs : List Char} (member : c ∈ cs) :
    Text.hasPiece [c] cs = true := by
  induction cs with
  | nil => cases member
  | cons first rest induction =>
      rw [Text.hasPiece]
      rcases List.mem_cons.mp member with rfl | later
      · simp
      · rw [induction later, Bool.or_true]

/-- A table after the name of its schema is no name of a model, and is left as it is. -/
theorem resolveReference_fullTable {sketches : List Sketch} {source : Option String}
    {owner schema table : String} {field resolved : Entries}
    (given : field.get? "references" = some (.text (schema ++ "." ++ table)))
    (step : resolveReference sketches source owner field = .ok resolved) : resolved = field := by
  have reference : field.getD "references" = .text (schema ++ "." ++ table) :=
    Entries.getD_of_get? given
  have dotted : Text.hasPiece ".".toList (schema ++ "." ++ table).toList = true := by
    have point : ".".toList = ['.'] := rfl
    rw [point]
    exact hasPiece_of_mem (by simp)
  have part : Sketch.orFault ((Value.text (schema ++ "." ++ table)).hasPart ".") = .ok true := by
    rw [Value.hasPart, dotted]
    rfl
  rw [resolveReference, reference] at step
  split at step
  · exact (Result.pure_eq_ok.mp step).symm
  · rw [part] at step
    exact (Result.pure_eq_ok.mp step).symm

/-- All links of a sketch, and then the references of all fields resolved. -/
theorem ofSketch_spec {sketches : List Sketch} {source : Option String} {s : Sketch} {l : Linked}
    (loaded : ofSketch sketches source s = .ok l) :
    ∃ before : Linked, Extends sketches before s ∧ l = { before with fields := l.fields } ∧
      before.fields.mapM (resolveReference sketches source s.name) = .ok l.fields := by
  simp only [ofSketch, Result.bind_eq_ok, Result.pure_eq_ok] at loaded
  obtain ⟨joined, start, parents, _, withParents, linkedParents, references, _, before,
    linkedReferences, fields, resolved, rfl⟩ := loaded
  refine ⟨before, ?_, rfl, resolved⟩
  have parented : Extends sketches withParents s :=
    Result.foldlM_invariant (fun _ _ _ _ step => linkParent_extends step) linkedParents
      (linkJoin_extends start)
  exact Result.foldlM_invariant (fun _ _ _ _ step => linkReference_extends step) linkedReferences
    parented

theorem ofSketch_sketch {sketches : List Sketch} {source : Option String} {s : Sketch} {l : Linked}
    (loaded : ofSketch sketches source s = .ok l) : l.sketch = s := by
  obtain ⟨before, linked, kept, _⟩ := ofSketch_spec loaded
  rw [kept]
  exact linked.sketch

end Linked

namespace Typed

theorem ofLinked_linked {source : Option String} {l : Linked} {t : Typed}
    (read : ofLinked source l = .ok t) : t.linked = l := by
  simp only [ofLinked, Result.bind_eq_ok, Result.pure_eq_ok] at read
  obtain ⟨fields, _, rfl⟩ := read
  rfl

theorem ofLinked_sketch {sketches : List Sketch} {source : Option String} {s : Sketch} {l : Linked}
    (loaded : Linked.ofSketch sketches source s = .ok l) {t : Typed}
    (read : ofLinked source l = .ok t) : t.sketch = s := by
  rw [sketch, ofLinked_linked read, Linked.ofSketch_sketch loaded]

structure HoldsId (t : Typed) (p : Parent) (parent : Sketch) : Prop where
  model : p.model = parent.name
  snakeName : p.snakeName = parent.snakeName
  field : ∃ f ∈ t.fields, f.name = p.fieldName ∧ f.column = p.column ∧ f.unique = false ∧
    f.writable = true ∧ f.neverRead = false ∧ f.sqlType = .uuid ∧
    ∃ fullTable, parent.fullTable = .ok fullTable ∧ f.references = some fullTable

/-- How the fields of a table and its links become records: the fields of the sketch are among
them, after the keys of a join table, and so are the fields of all parents. All but the fields of the
sketch hold ids. -/
structure Holds (sketches : List Sketch) (t : Typed) : Prop where
  columns : ∀ f ∈ t.fields, isIdentifier f.column
  fullNames : ∀ f ∈ t.fields, ∀ {what table : String},
    t.sketch.table.readIdentifier what = .ok table → HoldsNoParameter f.fullName
  namesColumn : ∀ f ∈ t.fields, f.NamesColumn
  own : ∃ keys own added, t.fields = keys ++ own ++ added ∧
    (∀ join ∈ t.linked.join, keys.map Field.name = join.idNames) ∧
    ∀ entries ∈ t.sketch.fields, ∀ name, Names entries (.text name) →
      ∃ f ∈ own, f.name = name ∧ f.column = name
  parents : ∀ p ∈ t.linked.parents, isIdentifier p.column ∧ ∃ parent ∈ sketches, t.HoldsId p parent
  types : ∀ entries ∈ t.sketch.fields, ∀ {name : String} {type : SqlType},
    Names entries (.text name) → entries.get? "sql_type" = some (.text type.name) →
      ∃ f ∈ t.fields, f.name = name ∧ f.column = name ∧ f.sqlType = type
  others : ∀ f ∈ t.fields, f.sqlType = .uuid ∨
    ∃ entries ∈ t.sketch.fields, (entries.getD "name").readText = .ok f.name

/-! ## Fields whose references are resolved -/

def resolvedFieldOf (sketches : List Sketch) (source : Option String) (s : Sketch)
    (entries : Entries) : Except LoadError Field :=
  Linked.resolveReference sketches source s.name entries >>= fieldOf source s

section

variable {sketches : List Sketch} {source : Option String} {s : Sketch} {entries : Entries}
  {f : Field}

theorem resolvedFieldOf_names (made : resolvedFieldOf sketches source s entries = .ok f)
    {name : Value} (names : Names entries name) :
    name.readText = .ok f.name ∧ f.column = f.name := by
  obtain ⟨resolved, step, read⟩ := Result.bind_eq_ok.mp made
  refine fieldOf_of_names read ⟨?_, ?_⟩
  · rw [Linked.resolveReference_get? step (by decide), names.1]
  · rw [Linked.resolveReference_get? step (by decide), names.2]

theorem resolvedFieldOf_type (made : resolvedFieldOf sketches source s entries = .ok f)
    {type : SqlType} (stated : entries.get? "sql_type" = some (.text type.name)) :
    f.sqlType = type := by
  obtain ⟨resolved, step, read⟩ := Result.bind_eq_ok.mp made
  refine fieldOf_type read ?_
  rw [Linked.resolveReference_get? step (by decide), stated]

theorem resolvedFieldOf_text (made : resolvedFieldOf sketches source s entries = .ok f) :
    (entries.getD "name").readText = .ok f.name := by
  obtain ⟨_, step, read⟩ := Result.bind_eq_ok.mp made
  obtain ⟨text, _⟩ := Value.readNonEmptyText_eq_ok.mp (fieldOf_spec read).1
  rwa [Entries.getD, Linked.resolveReference_get? step (by decide)] at text

theorem resolvedFieldOf_parentField {parent : Sketch} {name : Value} {fullTable : String}
    (table : parent.fullTable = .ok fullTable)
    (made : resolvedFieldOf sketches source s (Linked.parentField name fullTable) = .ok f) :
    f.unique = false ∧ f.writable = true ∧ f.neverRead = false ∧ f.sqlType = .uuid ∧
      f.references = some fullTable := by
  have type := resolvedFieldOf_type made (Linked.isId_parentField name fullTable)
  obtain ⟨resolved, step, read⟩ := Result.bind_eq_ok.mp made
  have kept : resolved = Linked.parentField name fullTable := by
    obtain ⟨schema, _, rest, _, rfl⟩ := Sketch.fullTable_eq_ok.mp table
    have refers : (Linked.parentField name (schema ++ "." ++ rest)).get? "references" =
        some (.text (schema ++ "." ++ rest)) := by
      simp [Linked.parentField, Entries.ofFields]
    exact Linked.resolveReference_fullTable refers step
  rw [kept] at read
  obtain ⟨unique, writable, neverRead, references⟩ := fieldOf_parts read
  exact ⟨(Checked.ok.inj unique).symm, (Checked.ok.inj writable).symm,
    (Checked.ok.inj neverRead).symm, type, (Checked.ok.inj references).symm⟩

variable {fields : List Field} {listed : List Entries}

theorem names_of_keyFields {join : Join} (keyed : Linked.KeyFields (some join) listed)
    (made : listed.mapM (resolvedFieldOf sketches source s) = .ok fields) :
    fields.map Field.name = join.idNames := by
  obtain ⟨first, second, rfl, firstNames, secondNames⟩ := keyed
  obtain ⟨firstField, rest, firstMade, others, rfl⟩ := Result.mapM_cons.mp made
  obtain ⟨secondField, none, secondMade, nothing, rfl⟩ := Result.mapM_cons.mp others
  rw [List.mapM_nil, Result.pure_eq_ok] at nothing
  subst nothing
  have firstName : join.ids.1 = firstField.name :=
    Checked.ok.inj (resolvedFieldOf_names firstMade firstNames).1
  have secondName : join.ids.2 = secondField.name :=
    Checked.ok.inj (resolvedFieldOf_names secondMade secondNames).1
  simp [Join.idNames, firstName, secondName]

theorem exists_of_names (made : listed.mapM (resolvedFieldOf sketches source s) = .ok fields)
    (member : entries ∈ listed) {name : String} (names : Names entries (.text name)) :
    ∃ f ∈ fields, resolvedFieldOf sketches source s entries = .ok f ∧ f.name = name ∧
      f.column = name := by
  obtain ⟨f, among, read⟩ := Result.mem_of_mapM made member
  obtain ⟨text, column⟩ := resolvedFieldOf_names read names
  have same : name = f.name := Checked.ok.inj text
  exact ⟨f, among, read, same.symm, column.trans same.symm⟩

theorem HoldsId.of_linked {t : Typed}
    (made : listed.mapM (resolvedFieldOf sketches source s) = .ok t.fields) {p : Parent}
    {parent : Sketch} (holds : Linked.HoldsId listed p parent) :
    isIdentifier p.column ∧ t.HoldsId p parent := by
  obtain ⟨model, snakeName, name, fullTable, ⟨text, column, valid⟩, table, among⟩ := holds
  obtain ⟨f, there, read⟩ := Result.mem_of_mapM made among
  obtain ⟨own, ownColumn⟩ := resolvedFieldOf_names read (Linked.names_parentField name fullTable)
  have same : p.fieldName = f.name := Checked.ok.inj (text.symm.trans own)
  obtain ⟨unique, writable, neverRead, type, refers⟩ := resolvedFieldOf_parentField table read
  exact ⟨valid, model, snakeName, f, there, same.symm, by rw [ownColumn, column, same], unique,
    writable, neverRead, type, fullTable, table, refers⟩

end

theorem ofLinked_holds {sketches : List Sketch} {source : Option String} {s : Sketch} {l : Linked}
    (loaded : Linked.ofSketch sketches source s = .ok l) {t : Typed}
    (read : ofLinked source l = .ok t) : Holds sketches t := by
  obtain ⟨before, ⟨_, ⟨keys, added, keyed, listed, ids⟩, parents⟩, kept, resolved⟩ :=
    Linked.ofSketch_spec loaded
  obtain rfl := Linked.ofSketch_sketch loaded
  simp only [ofLinked, Result.bind_eq_ok, Result.pure_eq_ok] at read
  obtain ⟨fields, read, rfl⟩ := read
  have whole : before.fields.mapM (resolvedFieldOf sketches source l.sketch) = .ok fields :=
    Result.mapM_mapM resolved read
  constructor
  · intro f member
    obtain ⟨entries, _, made⟩ := Result.exists_of_mem_mapM read member
    exact (Value.readIdentifier_eq_ok.mp (fieldOf_spec made).2.1).2
  · intro f member what table readTable
    obtain ⟨entries, _, made⟩ := Result.exists_of_mem_mapM read member
    exact fieldOf_fullName made readTable
  · intro f member
    obtain ⟨entries, _, made⟩ := Result.exists_of_mem_mapM read member
    exact fieldOf_namesColumn made
  · rw [listed] at whole
    obtain ⟨front, back, frontMade, backMade, rfl⟩ := Result.mapM_append.mp whole
    obtain ⟨first, middle, firstMade, middleMade, rfl⟩ := Result.mapM_append.mp frontMade
    refine ⟨first, middle, back, rfl, fun join joined => ?_, fun entries member name names => ?_⟩
    · have stated : before.join = some join := by
        have joined : l.join = some join := joined
        rwa [kept] at joined
      exact names_of_keyFields (stated ▸ keyed) firstMade
    · obtain ⟨f, among, _, name, column⟩ := exists_of_names middleMade member names
      exact ⟨f, among, name, column⟩
  · intro p member
    have linked : p ∈ before.parents := by
      have linked : p ∈ l.parents := member
      rwa [kept] at linked
    obtain ⟨parent, isSketch, holds⟩ := parents p linked
    obtain ⟨valid, holdsId⟩ := @HoldsId.of_linked _ _ _ _ ⟨l, fields⟩ whole _ _ holds
    exact ⟨valid, parent, isSketch, holdsId⟩
  · intro entries member name type names stated
    have among : entries ∈ before.fields := by
      rw [listed]
      exact List.mem_append_left _ (List.mem_append_right _ member)
    obtain ⟨f, there, made, named, column⟩ := exists_of_names whole among names
    exact ⟨f, there, named, column, resolvedFieldOf_type made stated⟩
  · intro f member
    obtain ⟨entries, among, made⟩ := Result.exists_of_mem_mapM whole member
    rw [listed, List.mem_append, List.mem_append] at among
    rcases among with (key | sketched) | new
    · exact .inl (resolvedFieldOf_type made (ids entries (List.mem_append_left added key)))
    · exact .inr ⟨entries, sketched, resolvedFieldOf_text made⟩
    · exact .inl (resolvedFieldOf_type made (ids entries (List.mem_append_right keys new)))

end Typed

end TenantSql
