import TenantSql.Proofs.Definition.Shape

/-!
# What is told about links

Sketches of the right shape are linked, or it is told why not. Sketches that were linked have fields
whose names can be shown, and each reference has a target and a field for its id.
-/

namespace TenantSql

variable {source : Option String} {sketches : List Sketch}

namespace Linked

theorem parentRecord_needs {parent : Sketch} {field : Value} {globallyUnique : Bool} {p : Parent}
    (read : parentRecord parent field globallyUnique = .ok p) : parent.CanBeParent field := by
  rw [parentRecord, Result.mapError_eq_ok, Checked.toExcept_eq_ok] at read
  revert p
  simp only [Parent.ofEntries, Checked.forall_seqLeft_eq_ok, Checked.forall_seq_eq_ok,
    Checked.forall_map_eq_ok, Entries.required_eq_ok, Entries.ofFields, List.map_cons,
    List.map_nil, Entries.get?_cons_text, String.reduceEq, if_true, if_false,
    Option.some.injEq, exists_eq_left']
  intro _ _ snakeName readSnake _ _ column readColumn _ _ _
  obtain ⟨text, valid⟩ := Value.readIdentifier_eq_ok.mp readSnake
  rw [Sketch.CanBeParent, Checked.ok.inj text]
  exact ⟨valid, column, readColumn⟩

theorem exists_parentRecord (sound : Sketch.AreSound sketches) {parent : Sketch}
    (listed : parent ∈ sketches) {field : Value} (possible : parent.CanBeParent field)
    (globallyUnique : Bool) : ∃ p, parentRecord parent field globallyUnique = .ok p := by
  have named := sound.name_ne_empty listed possible
  obtain ⟨snake, column, read⟩ := possible
  have model : (Value.text parent.name).readNonEmptyText = .ok parent.name :=
    Value.readNonEmptyText_eq_ok.mpr ⟨rfl, named⟩
  have readSnake : (Value.text parent.snakeName).readIdentifier "Identifier" =
      .ok parent.snakeName := Value.readIdentifier_eq_ok.mpr ⟨rfl, snake⟩
  have text := (Value.readIdentifier_eq_ok.mp read).1
  refine ⟨⟨parent.name, parent.snakeName, column, column, globallyUnique⟩, ?_⟩
  rw [parentRecord, Result.mapError_eq_ok, Checked.toExcept_eq_ok]
  simp only [Parent.ofEntries, Entries.ofFields, List.map_cons, List.map_nil, Entries.required,
    Entries.optional, Entries.get?_cons_text, String.reduceEq, if_true, if_false, model, readSnake,
    text, read, Value.readBool, Checked.within]
  rfl

theorem parentRecord_reports (sound : Sketch.AreSound sketches) {v : Value} {parent : Sketch}
    (found : Sketch.Finds sketches v parent) {field : Value}
    (possible : parent.CanBeParent field) (globallyUnique : Bool) :
    Reports source (parentRecord parent field globallyUnique) := by
  obtain ⟨p, read⟩ := exists_parentRecord sound (Sketch.mem_of_finds found) possible globallyUnique
  rw [read]
  exact Reports.ok p

theorem fullTable_reports (sound : Sketch.AreSound sketches) {v : Value} {s : Sketch}
    (found : Sketch.Finds sketches v s) : Reports source s.fullTable := by
  obtain ⟨fullTable, shown⟩ := sound.fullTable s (Sketch.mem_of_finds found)
  rw [shown]
  exact Reports.ok fullTable

theorem named_reports {v : Value} (showable : v.isShowable) {owner what : String} :
    Reports source (do Sketch.find sketches source owner what (← Sketch.shown v)) :=
  ((Guards.shown v).reports showable).bind fun _ _ => Sketch.find_reports

theorem named_eq_ok {v : Value} {owner what : String} {s : Sketch} :
    (do Sketch.find sketches source owner what (← Sketch.shown v)) = .ok s ↔
      v.isShowable ∧ Sketch.Finds sketches v s := by
  simp only [Result.bind_eq_ok, Sketch.shown_eq_ok]
  constructor
  · rintro ⟨_, ⟨showable, rfl⟩, found⟩
    exact ⟨showable, Sketch.find_eq_ok_iff.mp found⟩
  · rintro ⟨showable, found⟩
    exact ⟨v.display, ⟨showable, rfl⟩, Sketch.find_eq_ok_iff.mpr found⟩

theorem linkJoin_guarded (sound : Sketch.AreSound sketches) {s : Sketch} :
    Guards source (s.HasJoinShape sketches) (linkJoin sketches source s) := by
  unfold linkJoin Sketch.HasJoinShape
  split
  · rename_i none
    refine (Guards.of_reports (Reports.ok _)).congr (iff_of_true trivial fun first second given => ?_)
    rw [none] at given
    cases given
  · rename_i first second given
    have only (condition : Value → Prop) : (∀ a b, (s.given.getD "joins").bare = .list [a, b] →
        ∀ v ∈ [a, b], condition v) ↔ condition first ∧ condition second := by
      rw [given]
      simp
    rw [only]
    constructor
    · intro l linked
      simp only [Result.bind_eq_ok, Result.pure_eq_ok, Sketch.shown_eq_ok] at linked
      obtain ⟨firstParent, ⟨_, ⟨firstShown, rfl⟩, firstFound⟩, secondParent,
        ⟨_, ⟨secondShown, rfl⟩, secondFound⟩, _, _, _, firstRead, _, _, _, secondRead, _⟩ := linked
      rw [Sketch.find_eq_ok_iff] at firstFound secondFound
      constructor
      · refine ⟨firstShown, fun parent found => ?_⟩
        cases firstFound.symm.trans found
        exact parentRecord_needs firstRead
      · refine ⟨secondShown, fun parent found => ?_⟩
        cases secondFound.symm.trans found
        exact parentRecord_needs secondRead
    · rintro ⟨⟨firstShown, firstPossible⟩, secondShown, secondPossible⟩
      refine (named_reports firstShown).bind fun firstParent first => ?_
      refine (named_reports secondShown).bind fun secondParent second => ?_
      have firstFound := (named_eq_ok.mp first).2
      have secondFound := (named_eq_ok.mp second).2
      refine (fullTable_reports sound firstFound).bind fun _ _ => ?_
      refine (parentRecord_reports sound firstFound (firstPossible _ firstFound) false).bind
        fun _ _ => ?_
      refine (fullTable_reports sound secondFound).bind fun _ _ => ?_
      refine (parentRecord_reports sound secondFound (secondPossible _ secondFound) false).bind
        fun _ _ => ?_
      exact (Reports.orReject _ _ _).bind fun _ _ => Reports.ok _
  · rename_i notTwo
    exact (Guards.of_reports (Reports.reject _)).congr
      (iff_of_true trivial fun first second given => absurd given (notTwo first second))

theorem linkParent_guarded (sound : Sketch.AreSound sketches) {l : Linked} {v : Value} :
    Guards source (∃ relation, relationEntries v = .ok relation ∧ relation.HasParentShape sketches)
      (linkParent sketches source l v) := by
  constructor
  · intro next linked
    simp only [linkParent, Result.bind_eq_ok, Sketch.shown_eq_ok] at linked
    obtain ⟨relation, given, _, ⟨showable, rfl⟩, parent, found, _, _, linked⟩ := linked
    refine ⟨relation, given, showable, fun other same => ?_⟩
    cases (Sketch.find_eq_ok_iff.mp found).symm.trans same
    split at linked
    · simp [Result.bind_eq_ok] at linked
    · simp only [Result.bind_eq_ok] at linked
      obtain ⟨record, read, _⟩ := linked
      exact parentRecord_needs read
  · rintro ⟨relation, given, showable, possible⟩
    rw [linkParent, given]
    refine ((Guards.shown _).reports showable).bind fun name shown => ?_
    refine Sketch.find_reports.bind fun parent found => ?_
    obtain ⟨_, rfl⟩ := Sketch.shown_eq_ok.mp shown
    rw [Sketch.find_eq_ok_iff] at found
    have parentPossible := possible parent found
    obtain ⟨column, read⟩ := parentPossible.2
    refine (fullTable_reports sound found).bind fun _ _ => ?_
    simp only
    split
    · refine ((Guards.shown _).reports ?_).bind fun _ _ => Reports.reject_bind _ _
      exact Value.isShowable_of_readText (Value.readIdentifier_eq_ok.mp read).1
    · exact (parentRecord_reports sound found parentPossible _).bind fun _ _ => Reports.ok _

theorem linkReference_guarded (sound : Sketch.AreSound sketches) {l : Linked} {v : Value} :
    Guards source (∀ reference : Entries, v.bare = .object reference →
      (reference.getD "model").isShowable) (linkReference sketches source l v) := by
  unfold linkReference
  split
  · rename_i entries given
    have only : (∀ reference : Entries, v.bare = .object reference →
        (reference.getD "model").isShowable) ↔ (Entries.getD entries "model").isShowable := by
      simp [given]
    rw [only]
    constructor
    · intro next linked
      simp only [Result.bind_eq_ok, Sketch.shown_eq_ok] at linked
      obtain ⟨_, ⟨showable, _⟩, _⟩ := linked
      exact showable
    · intro showable
      refine ((Guards.shown _).reports showable).bind fun name shown => ?_
      refine Sketch.find_reports.bind fun target found => ?_
      obtain ⟨_, rfl⟩ := Sketch.shown_eq_ok.mp shown
      rw [Sketch.find_eq_ok_iff] at found
      dsimp only
      split
      · exact Reports.ok _
      · exact (fullTable_reports sound found).bind fun _ _ => Reports.ok _
  · rename_i other
    exact (Guards.of_reports (Reports.reject _)).congr
      (iff_of_true trivial fun reference given => absurd given (other reference))

theorem resolveReference_needs {owner : String} {field resolved : Entries}
    (step : resolveReference sketches source owner field = .ok resolved) :
    field.RefersReadably := by
  intro truthy
  simp only [resolveReference, truthy] at step
  rw [if_neg (by simp), Result.bind_eq_ok] at step
  obtain ⟨dotted, found, step⟩ := step
  rw [Sketch.orFault, Result.mapError_eq_ok] at found
  split at step
  · rename_i yes
    exact .inr (yes ▸ found)
  · split at step
    · exact .inl ⟨_, by assumption⟩
    · simp at step

theorem resolveReference_reports (sound : Sketch.AreSound sketches) {owner : String}
    {field : Entries} (shape : field.HasFieldShape) :
    Reports source (resolveReference sketches source owner field) := by
  simp only [resolveReference]
  split
  · exact Reports.ok _
  · rename_i truthy
    simp only [Bool.not_eq_true', Bool.not_eq_false] at truthy
    rcases shape.references truthy with ⟨s, text⟩ | dotted
    · rw [text]
      refine (Guards.orFault.reports ⟨_, rfl⟩).bind fun dotted _ => ?_
      split
      · exact Reports.ok _
      · refine ((Guards.shown _).reports shape.name).bind fun _ _ => ?_
        refine Sketch.find_reports.bind fun target found => ?_
        have named : (Value.text s).display = s := rfl
        rw [← named, Sketch.find_eq_ok_iff] at found
        exact (fullTable_reports sound found).bind fun _ _ => Reports.ok _
    · rw [dotted]
      exact Reports.ok _

/-! ## Fields of links -/

theorem parentField_shape {name : Value} (showable : name.isShowable) (fullTable : String) :
    (parentField name fullTable).HasFieldShape := by
  constructor
  case name => simpa [parentField, Entries.ofFields, Entries.getD] using showable
  case column => rfl
  case references => exact fun _ => .inl ⟨fullTable, rfl⟩

def HasFieldShapes (l : Linked) : Prop :=
  ∀ field ∈ l.fields, field.HasFieldShape

theorem linkJoin_shapes {s : Sketch} {l : Linked} (linked : linkJoin sketches source s = .ok l)
    (shapes : ∀ field ∈ s.fields, field.HasFieldShape) : l.HasFieldShapes := by
  unfold linkJoin at linked
  split at linked
  · rw [Result.pure_eq_ok] at linked
    exact linked ▸ shapes
  · simp only [Result.bind_eq_ok, Result.pure_eq_ok] at linked
    obtain ⟨_, _, _, _, _, _, _, _, _, _, _, _, _, _, rfl⟩ := linked
    exact List.forall_mem_cons.mpr ⟨parentField_shape rfl _,
      List.forall_mem_cons.mpr ⟨parentField_shape rfl _, shapes⟩⟩
  · simp at linked

theorem linkParent_shapes {l next : Linked} {v : Value}
    (linked : linkParent sketches source l v = .ok next) (shapes : l.HasFieldShapes) :
    next.HasFieldShapes := by
  simp only [linkParent, Result.bind_eq_ok] at linked
  obtain ⟨_, _, _, _, _, _, fullTable, _, linked⟩ := linked
  split at linked
  · simp [Result.bind_eq_ok] at linked
  · simp only [Result.bind_eq_ok, Result.pure_eq_ok] at linked
    obtain ⟨record, read, rfl⟩ := linked
    obtain ⟨_, _, text, _⟩ := parentRecord_spec read
    exact List.forall_mem_append.mpr ⟨shapes, List.forall_mem_singleton.mpr
      (parentField_shape (Value.isShowable_of_readText text) fullTable)⟩

def referenceField (name : Value) (fullTable : String) : Entries :=
  .ofFields [("name", name), ("sql_type", .text SqlType.uuid.name), ("nullable", .bool true),
    ("writable", .bool true), ("references", .text fullTable)]

theorem referenceField_shape {name : Value} (showable : name.isShowable) (fullTable : String) :
    (referenceField name fullTable).HasFieldShape := by
  constructor
  case name => simpa [referenceField, Entries.ofFields, Entries.getD] using showable
  case column => rfl
  case references => exact fun _ => .inl ⟨fullTable, rfl⟩

def HasFieldNamed (fields : List Entries) (name : Value) : Prop :=
  ∃ field ∈ fields, field.getD "name" = name ∨ (field.getD "name").same name

/-- The target of a reference is found, and there is a field for the id of its row, old or new. -/
theorem linkReference_spec {l next : Linked} {v : Value}
    (linked : linkReference sketches source l v = .ok next) :
    ∃ reference : Entries, v.bare = .object reference ∧ ∃ target,
      Sketch.Finds sketches (reference.getD "model") target ∧
      let name := Sketch.truthyOr reference "field" (.text (idFieldName target))
      HasFieldNamed next.fields name ∧ (next = l ∨ ∃ fullTable,
        next = { l with fields := l.fields ++ [referenceField name fullTable] }) := by
  unfold linkReference at linked
  split at linked
  · rename_i entries given
    simp only [Result.bind_eq_ok, Sketch.shown_eq_ok] at linked
    obtain ⟨_, ⟨_, rfl⟩, target, found, linked⟩ := linked
    rw [Sketch.find_eq_ok_iff] at found
    refine ⟨entries, given, target, found, ?_⟩
    split at linked
    · rename_i declared
      rw [Result.pure_eq_ok] at linked
      subst linked
      obtain ⟨field, member, same⟩ := List.any_eq_true.mp declared
      exact ⟨⟨field, member, .inr same⟩, .inl rfl⟩
    · simp only [Result.bind_eq_ok, Result.pure_eq_ok] at linked
      obtain ⟨fullTable, _, rfl⟩ := linked
      refine ⟨⟨referenceField _ fullTable, List.mem_append_right _ (List.mem_singleton_self _),
        .inl ?_⟩, .inr ⟨fullTable, rfl⟩⟩
      simp [referenceField, Entries.ofFields, Entries.getD]
  · simp at linked

theorem linkReference_shapes {l next : Linked} {v : Value}
    (linked : linkReference sketches source l v = .ok next)
    (shape : ∀ reference : Entries, v.bare = .object reference →
      reference.HasReferenceShape sketches)
    (shapes : l.HasFieldShapes) : next.HasFieldShapes := by
  obtain ⟨reference, given, target, _, _, rfl | ⟨fullTable, rfl⟩⟩ := linkReference_spec linked
  · exact shapes
  · refine List.forall_mem_append.mpr ⟨shapes, List.forall_mem_singleton.mpr
      (referenceField_shape ?_ fullTable)⟩
    rw [Sketch.truthyOr]
    split
    · exact (shape reference given).field
    · rfl

theorem links_shapes {s : Sketch} {parents references : List Value}
    {joined withParents last : Linked} (own : ∀ field ∈ s.fields, field.HasFieldShape)
    (shapes : ∀ v ∈ references, ∀ reference : Entries, v.bare = .object reference →
      reference.HasReferenceShape sketches)
    (joins : linkJoin sketches source s = .ok joined)
    (linkedParents : parents.foldlM (linkParent sketches source) joined = .ok withParents)
    (linkedReferences : references.foldlM (linkReference sketches source) withParents = .ok last) :
    last.HasFieldShapes := by
  refine Result.foldlM_invariant (fun _ v _ member step => linkReference_shapes step
    (shapes v member)) linkedReferences ?_
  exact Result.foldlM_invariant (fun _ _ _ _ step => linkParent_shapes step) linkedParents
    (linkJoin_shapes joins own)

theorem HasFieldNamed.mono {fields more : List Entries} {name : Value}
    (there : HasFieldNamed fields name) (kept : fields ⊆ more) : HasFieldNamed more name := by
  obtain ⟨field, member, same⟩ := there
  exact ⟨field, kept member, same⟩

def HoldsTarget (sketches : List Sketch) (v : Value) (l : Linked) : Prop :=
  ∃ reference : Entries, v.bare = .object reference ∧ ∃ target,
    Sketch.Finds sketches (reference.getD "model") target ∧
    HasFieldNamed l.fields (Sketch.truthyOr reference "field" (.text (idFieldName target)))

theorem linkReferences_hold {references : List Value} {l last : Linked}
    (linked : references.foldlM (linkReference sketches source) l = .ok last) :
    ∀ v ∈ references, HoldsTarget sketches v last := by
  refine Result.foldlM_each (fun state v next step => ?_) (fun state v next other step held => ?_)
    linked
  · obtain ⟨reference, given, target, found, there, _⟩ := linkReference_spec step
    exact ⟨reference, given, target, found, there⟩
  · obtain ⟨reference, given, target, found, there⟩ := held
    refine ⟨reference, given, target, found, there.mono ?_⟩
    obtain ⟨_, _, _, _, _, rfl | ⟨_, rfl⟩⟩ := linkReference_spec step
    · exact List.Subset.refl _
    · exact List.subset_append_left _ _

theorem ofSketch_eq_ok {s : Sketch} {l : Linked} : ofSketch sketches source s = .ok l ↔
    ∃ joined, linkJoin sketches source s = .ok joined ∧
      ∃ parents, (s.given.getD "belongs_to").partsOrNone = .ok parents ∧
        ∃ withParents, parents.foldlM (linkParent sketches source) joined = .ok withParents ∧
          ∃ references, (s.given.getD "references").partsOrNone = .ok references ∧
            ∃ before, references.foldlM (linkReference sketches source) withParents = .ok before ∧
              ∃ fields, before.fields.mapM (resolveReference sketches source s.name) = .ok fields ∧
                { before with fields } = l := by
  simp only [ofSketch, Result.bind_eq_ok, Result.pure_eq_ok, Sketch.orFault,
    Result.mapError_eq_ok]

theorem ofSketch_reports (sound : Sketch.AreSound sketches) {s : Sketch}
    (shape : s.HasShape sketches) : Reports source (ofSketch sketches source s) := by
  obtain ⟨parents, parentsGiven, parentShapes⟩ := shape.parents
  obtain ⟨references, referencesGiven, referenceShapes⟩ := shape.references
  rw [ofSketch, parentsGiven, referencesGiven]
  refine ((linkJoin_guarded sound).reports shape.joins).bind fun joined joins => ?_
  refine Reports.ok_bind parents ?_
  refine ((Guards.foldlM (fun l v _ => linkParent_guarded sound) joined).reports parentShapes).bind
    fun withParents linkedParents => ?_
  refine Reports.ok_bind references ?_
  refine ((Guards.foldlM (fun l v _ => linkReference_guarded sound) withParents).reports
    fun v member reference given => (referenceShapes v member reference given).model).bind
    fun before linkedReferences => ?_
  have shapes := links_shapes shape.fields referenceShapes joins linkedParents linkedReferences
  exact (Reports.mapM fun field member => resolveReference_reports sound (shapes field member)).bind
    fun _ _ => Reports.ok _

theorem resolveReference_getD {owner : String} {field resolved : Entries}
    (step : resolveReference sketches source owner field = .ok resolved) {key : String}
    (other : key ≠ "references") : resolved.getD key = field.getD key := by
  rw [Entries.getD, Entries.getD, resolveReference_get? step other]

theorem ofSketch_resolves {s : Sketch} {l : Linked} (linked : ofSketch sketches source s = .ok l)
    {field : Entries} (member : field ∈ s.fields) :
    ∃ after ∈ l.fields, resolveReference sketches source s.name field = .ok after := by
  obtain ⟨before, ⟨_, ⟨keys, added, _, listed, _⟩, _⟩, _, resolved⟩ := ofSketch_spec linked
  refine Result.mem_of_mapM resolved ?_
  rw [listed]
  exact List.mem_append_left added (List.mem_append_right keys member)

theorem ofSketch_needs (sound : Sketch.AreSound sketches) {s : Sketch} {l : Linked}
    (linked : ofSketch sketches source s = .ok l) :
    s.HasJoinShape sketches ∧
      ((s.given.getD "belongs_to").HasParts fun v => ∃ relation,
        relationEntries v = .ok relation ∧ relation.HasParentShape sketches) ∧
      ∀ field ∈ s.fields, field.RefersReadably := by
  obtain ⟨joined, joins, parents, given, withParents, linkedParents, _⟩ := ofSketch_eq_ok.mp linked
  refine ⟨(linkJoin_guarded sound).needed joined joins, ⟨parents, given, ?_⟩,
    fun field member => ?_⟩
  · exact (Guards.foldlM (fun l v _ => linkParent_guarded sound) joined).needed withParents
      linkedParents
  · obtain ⟨_, _, step⟩ := ofSketch_resolves linked member
    exact resolveReference_needs step

/-- Linking keeps what the own fields of a sketch say, but for what they refer to. -/
theorem ofSketch_keeps {s : Sketch} {l : Linked} (linked : ofSketch sketches source s = .ok l)
    {field : Entries} (member : field ∈ s.fields) :
    ∃ after ∈ l.fields, ∀ key ≠ "references", after.getD key = field.getD key := by
  obtain ⟨after, there, step⟩ := ofSketch_resolves linked member
  exact ⟨after, there, fun key other => resolveReference_getD step other⟩

theorem ofSketch_targets {s : Sketch} {l : Linked} (linked : ofSketch sketches source s = .ok l) :
    (s.given.getD "references").HasParts fun v => HoldsTarget sketches v l := by
  obtain ⟨_, _, _, _, _, _, references, given, before, linkedReferences, fields, resolved, rfl⟩ :=
    ofSketch_eq_ok.mp linked
  refine ⟨references, given, fun v member => ?_⟩
  obtain ⟨reference, bare, target, found, field, there, same⟩ :=
    linkReferences_hold linkedReferences v member
  obtain ⟨after, among, step⟩ := Result.mem_of_mapM resolved there
  refine ⟨reference, bare, target, found, after, among, ?_⟩
  rw [resolveReference_getD step (by decide)]
  exact same

theorem ofSketch_shapes {s : Sketch} (shape : s.HasShape sketches) {l : Linked}
    (linked : ofSketch sketches source s = .ok l) : ∀ field ∈ l.fields,
      (field.getD "name").isShowable ∧ (field.getD "sql_name").isShowable := by
  obtain ⟨joined, joins, parents, _, withParents, linkedParents, references, given, before,
    linkedReferences, fields, resolved, rfl⟩ := ofSketch_eq_ok.mp linked
  obtain ⟨_, sameGiven, referenceShapes⟩ := shape.references
  cases given.symm.trans sameGiven
  have shapes := links_shapes shape.fields referenceShapes joins linkedParents linkedReferences
  intro field member
  obtain ⟨original, there, step⟩ := Result.exists_of_mem_mapM resolved member
  rw [resolveReference_getD step (by decide), resolveReference_getD step (by decide)]
  exact ⟨(shapes original there).name, (shapes original there).column⟩

end Linked

end TenantSql
