import TenantSql.Proofs.Definition.LinkReports

/-!
# What is told about relations

The fields of linked sketches become records, and so do their relations, or it is told why not.
-/

namespace TenantSql

variable {source : Option String} {sketches : List Sketch}

namespace Typed

variable {all : List Typed}

theorem fieldOf_needs {s : Sketch} {entries : Entries} {f : Field}
    (read : fieldOf source s entries = .ok f) : s.table.isShowable ∧
      (entries.getD "name").isShowable ∧ (entries.getD "sql_name").isShowable := by
  have named := (fieldOf_spec read).1
  simp only [fieldOf, Result.bind_eq_ok, Sketch.shown_eq_ok] at read
  obtain ⟨_, ⟨table, _⟩, _, ⟨column, _⟩, _⟩ := read
  refine ⟨table, Value.isShowable_of_readText (Value.readNonEmptyText_eq_ok.mp named).1, ?_⟩
  split at column
  · exact column
  · rename_i absent
    have missing : entries.get? "sql_name" = none := by simpa [Entries.has] using absent
    rw [Entries.getD, missing]
    rfl

theorem fieldOf_reports {s : Sketch} {entries : Entries} (table : s.table.isShowable)
    (name : (entries.getD "name").isShowable) (column : (entries.getD "sql_name").isShowable) :
    Reports source (fieldOf source s entries) := by
  rw [fieldOf]
  refine ((Guards.shown _).reports table).bind fun _ _ => ?_
  refine ((Guards.shown _).reports ?_).bind fun _ _ => ?_
  · split
    · exact column
    · rw [Entries.getD_set, if_pos rfl]
      exact name
  · exact Reports.orShow name _ _ _

theorem ofLinked_reports {s : Sketch} (shape : s.HasShape sketches) {l : Linked}
    (linked : Linked.ofSketch sketches source s = .ok l) : Reports source (ofLinked source l) := by
  have same := Linked.ofSketch_sketch linked
  refine (Reports.mapM fun field member => ?_).bind fun _ _ => Reports.ok _
  obtain ⟨name, column⟩ := Linked.ofSketch_shapes shape linked field member
  exact fieldOf_reports (same ▸ shape.table) name column

theorem find_reports {owner what name : String} : Reports source (find all source owner what name) := by
  rw [find]
  split
  · exact Reports.ok _
  · exact Reports.reject _

theorem fetchOf_reports {owner child key : String} {relation : Entries} :
    Reports source (fetchOf source owner child relation key) := by
  simp only [fetchOf]
  split
  · exact Reports.ok _
  · split
    · exact Reports.ok _
    · exact Reports.reject _

theorem pathOf_reports {owner child : Typed} {relation : Entries}
    (through : (relation.getD "through").isShowable) :
    Reports source (pathOf all source owner child relation) := by
  simp only [pathOf]
  split
  · refine ((Guards.shown _).reports through).bind fun _ _ => find_reports.bind fun join _ => ?_
    split
    · exact (Reports.orReject _ _ _).bind fun _ _ => Reports.ok _
    · exact Reports.reject _
  · split
    · exact Reports.ok _
    · exact Reports.reject _

theorem childOf_guarded {owner : Typed} {v : Value} :
    Guards source (∃ relation, Linked.relationEntries v = .ok relation ∧ relation.HasChildShape)
      (childOf all source owner v) := by
  constructor
  · intro c read
    simp only [childOf, Result.bind_eq_ok, Sketch.shown_eq_ok] at read
    obtain ⟨relation, given, _, ⟨model, _⟩, child, _, _, _, _, _, path, found, _⟩ := read
    refine ⟨relation, given, model, ?_⟩
    cases truthy : (relation.getD "through").isTruthy with
    | false => exact Value.isShowable_of_falsy truthy
    | true =>
        simp only [pathOf, truthy, if_true, Result.bind_eq_ok, Sketch.shown_eq_ok] at found
        obtain ⟨_, ⟨showable, _⟩, _⟩ := found
        exact showable
  · rintro ⟨relation, given, model, through⟩
    rw [childOf, given]
    refine ((Guards.shown _).reports model).bind fun _ _ => find_reports.bind fun child _ => ?_
    refine fetchOf_reports.bind fun _ _ => fetchOf_reports.bind fun _ _ => ?_
    exact (pathOf_reports through).bind fun _ _ => Reports.orReject _ _ _

theorem texts_of_known {names : List Value} {fields : List Field} (keys : names.all Value.isKey)
    (known : ((Value.distinct names).filter fun name =>
      !fields.any fun f => name.same (.text f.name)) = []) :
    ∀ name ∈ names, ∃ s, name = .text s := by
  have kept : ∀ name ∈ Value.distinct names, ∃ s, name = .text s := by
    intro name member
    have listed := List.filter_eq_nil_iff.mp known name member
    simp only [Bool.not_eq_true', Bool.not_eq_false, List.any_eq_true] at listed
    obtain ⟨f, _, same⟩ := listed
    have key := List.all_eq_true.mp keys name ((Value.distinct_sublist names).subset member)
    exact ⟨f.name, Value.eq_text_of_key_same key same⟩
  intro name member
  rcases Value.mem_or_same_of_distinct member with here | ⟨other, here, same⟩
  · exact kept name here
  · obtain ⟨s, rfl⟩ := kept other here
    exact ⟨s, Value.eq_text_of_same same⟩

theorem comparable_of_texts {names : List Value} (texts : ∀ name ∈ names, ∃ s, name = .text s) :
    names.Pairwise Value.Comparable := by
  refine List.pairwise_of_forall_mem_list fun a first b second => ?_
  obtain ⟨s, rfl⟩ := texts a first
  obtain ⟨t, rfl⟩ := texts b second
  exact Value.comparable_texts s t

theorem wantedFields_needs {owner : String} {reference wanted : Value} {target : Typed}
    {fields : List Field} (found : wantedFields source owner reference target wanted = .ok fields)
    (truthy : wanted.isTruthy) : ∃ names, wanted.parts = .ok names ∧ names.all Value.isKey ∧
      names.Pairwise Value.Comparable ∧ ∀ name ∈ names, name.isShowable := by
  simp only [wantedFields, truthy] at found
  rw [if_neg (by simp), Result.bind_eq_ok] at found
  obtain ⟨names, parts, found⟩ := found
  rw [Sketch.orFault, Result.mapError_eq_ok] at parts
  split at found
  · simp [Result.bind_eq_ok] at found
  · rename_i keys
    rw [Result.bind_eq_ok] at found
    obtain ⟨unknown, ordered, found⟩ := found
    rw [Sketch.orFault, Result.mapError_eq_ok] at ordered
    split at found
    · simp [Result.bind_eq_ok] at found
    · rename_i none
      simp only [Bool.not_eq_true', Bool.not_eq_false] at keys
      have empty : unknown = [] := by simpa using none
      have known := (empty ▸ Value.perm_of_sorted ordered).symm.eq_nil
      have texts := texts_of_known keys known
      refine ⟨names, parts, keys, comparable_of_texts texts, fun name member => ?_⟩
      obtain ⟨s, rfl⟩ := texts name member
      rfl

theorem wantedFields_reports {owner : String} {reference wanted : Value} {target : Typed}
    (showable : reference.isShowable) (shape : wanted.isTruthy → ∃ names,
      wanted.parts = .ok names ∧ names.all Value.isKey ∧ names.Pairwise Value.Comparable ∧
        ∀ name ∈ names, name.isShowable) :
    Reports source (wantedFields source owner reference target wanted) := by
  simp only [wantedFields]
  split
  · exact Reports.ok _
  · rename_i truthy
    simp only [Bool.not_eq_true', Bool.not_eq_false] at truthy
    obtain ⟨names, parts, keys, comparable, shown⟩ := shape truthy
    rw [parts]
    refine Reports.ok_bind names ?_
    rw [if_neg (by simp [keys])]
    have among := (List.filter_sublist (p := fun name => !target.readableFields.any fun f =>
      name.same (.text f.name))).trans (Value.distinct_sublist names)
    refine (Guards.orFault.reports (Value.exists_sorted (comparable.sublist among))).bind
      fun unknown ordered => ?_
    rw [Sketch.orFault, Result.mapError_eq_ok] at ordered
    have same := Value.perm_of_sorted ordered
    split
    · refine ((Guards.shown _).reports showable).bind fun _ _ => ?_
      refine ((Guards.shown _).reports ?_).bind fun _ _ => Reports.reject_bind _ _
      exact Value.areShowable_iff.mpr fun name member =>
        shown name (among.subset (same.mem_iff.mp member))
    · rename_i none
      have empty : unknown = [] := by simpa using none
      have texts := texts_of_known keys (empty ▸ same).symm.eq_nil
      exact Reports.filterM fun f _ =>
        Guards.orFault.reports (Value.exists_hasPart f.name parts truthy texts)

theorem asEntries_of_bare {v : Value} {entries : Entries} (bare : v.bare = .object entries) :
    v.asEntries = .ok entries := by
  cases v with
  | object =>
      cases bare
      rfl
  | knot mark collection =>
      have given : collection = .object entries := bare
      rw [given]
      rfl
  | scalar | list | pair | set => cases bare

theorem ofParts_name {entries : Entries} {fields : Checked (List Field)} {r : Reference} {v : Value}
    (given : entries.get? "name" = some v) (read : Reference.ofParts entries fields = .ok r) :
    v.isShowable := by
  revert r
  simp only [Reference.ofParts, Checked.forall_seq_eq_ok, Checked.forall_map_eq_ok,
    Entries.required_eq_ok, given, Option.some.injEq, exists_eq_left']
  intro name readName
  intros
  exact Value.isShowable_of_readText (Value.readIdentifier_eq_ok.mp readName).1

theorem isShowable_of_truthyOr {entries : Entries} {key : String} {instead : Value}
    (showable : (Sketch.truthyOr entries key instead).isShowable) :
    (entries.getD key).isShowable := by
  cases truthy : (entries.getD key).isTruthy with
  | false => exact Value.isShowable_of_falsy truthy
  | true => simpa [Sketch.truthyOr, truthy] using showable

theorem referenceOf_needs {owner : Typed} {v : Value} {reference : Entries}
    (bare : v.bare = .object reference) {r : Reference}
    (read : referenceOf all source owner v = .ok r) : reference.HasReferenceShape sketches := by
  simp only [referenceOf, asEntries_of_bare bare] at read
  rw [Result.bind_eq_ok] at read
  obtain ⟨entries, same, read⟩ := read
  rw [Sketch.orFault, Result.mapError_eq_ok] at same
  cases same
  split at read
  · rename_i stated given
    rw [Result.bind_eq_ok] at read
    obtain ⟨_, model, read⟩ := read
    split at read
    · rw [Result.bind_eq_ok] at read
      obtain ⟨target, same, read⟩ := read
      rw [Result.pure_eq_ok] at same
      subst same
      split at read
      · rename_i field held
        simp only [Result.bind_eq_ok, Result.pure_eq_ok, exists_eq_left',
          Checked.orShow_eq_ok] at read
        obtain ⟨fields, wanted, read⟩ := read
        have same := List.find?_some held
        constructor
        case model =>
          rw [Entries.getD_of_get? given]
          exact (Sketch.shown_eq_ok.mp model).1
        case stated => exact .inl (Option.isSome_iff_exists.mpr ⟨stated, given⟩)
        case field => exact isShowable_of_truthyOr (Value.isShowable_of_same_text same)
        case noBytes =>
          intro truthy content bytes
          rw [Sketch.truthyOr, if_pos truthy, bytes] at same
          cases same
        case name => exact isShowable_of_truthyOr (ofParts_name rfl read)
        case wanted => exact wantedFields_needs wanted
      · simp [Result.bind_eq_ok] at read
    · simp [Result.bind_eq_ok] at read
  · simp [Result.bind_eq_ok] at read

theorem referenceOf_reports {owner target : Typed} {v : Value} {reference : Entries}
    (bare : v.bare = .object reference) (shape : reference.HasReferenceShape sketches)
    (stated : reference.has "model")
    (listed : all.find? (·.name == (reference.getD "model").display) = some target)
    {f : Field} (held : f ∈ owner.fields)
    (named : (Sketch.truthyOr reference "field"
      (.text (Linked.idFieldName target.sketch))).same (.text f.name)) :
    Reports source (referenceOf all source owner v) := by
  obtain ⟨model, given⟩ := Option.isSome_iff_exists.mp stated
  have same := Entries.getD_of_get? given
  rw [same] at listed
  have shown : Sketch.shown model = .ok model.display :=
    Sketch.shown_eq_ok.mpr ⟨same ▸ shape.model, rfl⟩
  obtain ⟨field, found⟩ : ∃ field, (owner.fields.find? fun f => (Sketch.truthyOr reference "field"
      (.text (Linked.idFieldName target.sketch))).same (.text f.name)) = some field :=
    Option.isSome_iff_exists.mp (List.find?_isSome.mpr ⟨f, held, named⟩)
  rw [referenceOf, asEntries_of_bare bare]
  refine Reports.ok_bind reference ?_
  simp only [given, shown]
  refine Reports.ok_bind model.display ?_
  simp only [listed]
  refine Reports.ok_bind target ?_
  simp only [found]
  refine Reports.ok_bind field ?_
  have name (instead : String) :
      (Sketch.truthyOr reference "name" (.text instead)).isShowable := by
    rw [Sketch.truthyOr]
    split
    · exact shape.name
    · rfl
  exact (wantedFields_reports (name _) shape.wanted).bind fun _ _ => Reports.orShow (name _) _ _ _

theorem childrenOf_guarded {t : Typed} : Guards source
    ((t.sketch.given.getD "has").HasParts fun v =>
      ∃ relation, Linked.relationEntries v = .ok relation ∧ relation.HasChildShape)
    (t.childrenOf all source) := by
  refine (Guards.orFault.bind fun parts _ => Guards.mapM fun v _ => childOf_guarded).congr ?_
  constructor
  · rintro ⟨⟨parts, given⟩, each⟩
    exact ⟨parts, given, each parts (Result.mapError_eq_ok.mpr given)⟩
  · rintro ⟨parts, given, each⟩
    refine ⟨⟨parts, given⟩, fun others found => ?_⟩
    cases given.symm.trans (Result.mapError_eq_ok.mp found)
    exact each

theorem exists_field {l : Linked} {t : Typed} (typed : ofLinked source l = .ok t) {name : Value}
    (named : Linked.HasFieldNamed l.fields name)
    (noBytes : ∀ content, name ≠ .scalar (.bytes content)) :
    ∃ f ∈ t.fields, name.same (.text f.name) := by
  obtain ⟨entries, member, same⟩ := named
  simp only [ofLinked, Result.bind_eq_ok, Result.pure_eq_ok] at typed
  obtain ⟨fields, read, rfl⟩ := typed
  obtain ⟨f, listed, made⟩ := Result.mem_of_mapM read member
  have text := (Value.readNonEmptyText_eq_ok.mp (fieldOf_spec made).1).1
  have equal : name = .text f.name := by
    rcases same with given | given
    · rcases Value.readText_eq_ok.mp text with here | ⟨content, here, _⟩
      · exact given ▸ here
      · exact absurd (given ▸ here) (noBytes content)
    · exact Value.eq_text_of_readText text given noBytes
  refine ⟨f, listed, ?_⟩
  rw [equal]
  simp [Value.same, Scalar.same_text]

theorem referencesOf_reports {s : Sketch} {l : Linked} {t : Typed} (apart : (all.map name).Nodup)
    (drawn : all.map sketch = sketches) (shape : s.HasShape sketches)
    (linked : Linked.ofSketch sketches source s = .ok l) (typed : ofLinked source l = .ok t) :
    Reports source (t.referencesOf all source) := by
  have same : t.sketch = s := ofLinked_sketch linked typed
  obtain ⟨parts, given, shapes⟩ := shape.references
  obtain ⟨_, sameGiven, targets⟩ := Linked.ofSketch_targets linked
  cases given.symm.trans sameGiven
  rw [referencesOf, same, given]
  refine Reports.ok_bind parts ?_
  refine Reports.mapM fun v member => ?_
  obtain ⟨reference, bare, target, found, named⟩ := targets v member
  have shaped := shapes v member reference bare
  -- A model is named: if nothing is shown for it, no model is found under that name.
  have stated : reference.has "model" := by
    rcases shaped.stated with here | nothing
    · exact here
    · cases model : reference.get? "model" with
      | some =>
          rw [Entries.has, model]
          rfl
      | none =>
          rw [Entries.getD, model] at found
          exact absurd found (nothing target)
  obtain ⟨other, listed, rfl⟩ : ∃ other ∈ all, other.sketch = target :=
    List.mem_map.mp (drawn ▸ Sketch.mem_of_finds found)
  have otherName : other.sketch.name = (reference.getD "model").display := by
    simpa using List.find?_some found
  obtain ⟨f, held, same⟩ := exists_field typed named (by
    rw [Sketch.truthyOr]
    split
    · rename_i truthy
      exact shaped.noBytes truthy
    · rintro content ⟨⟩)
  refine referenceOf_reports bare shaped stated ?_ held same
  rw [← otherName]
  exact find?_of_key apart listed

end Typed

end TenantSql
