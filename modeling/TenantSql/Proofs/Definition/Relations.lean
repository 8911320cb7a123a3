import TenantSql.Proofs.Definition.Link

/-!
# Relations of a definition

What a relation that was loaded says about the model it leads to. Columns that
hold ids are the columns of parents or fields; the fields that a read fills in
are readable ones of the other model.
-/

namespace TenantSql

/-! ## Output names -/

theorem Text.plural_ne_empty {name : String} (letters : name ≠ "") : plural name ≠ "" := by
  have irregular : ∀ entry ∈ irregularPlurals, entry.2.toList ≠ [] := by decide
  have capitals {cs : List Char} (some : cs ≠ []) : capitalized cs ≠ [] := by
    cases cs with
    | nil => exact absurd rfl some
    | cons c rest => exact List.cons_ne_nil _ _
  have longer {front back : String} (some : back ≠ "") : front ++ back ≠ "" := fun none =>
    some (String.append_eq_empty_iff.mp none).2
  have chars : name.toList.isEmpty = false :=
    List.isEmpty_eq_false_iff.mpr fun none => letters (String.toList_eq_nil_iff.mp none)
  simp only [plural, chars, Bool.false_eq_true, if_false]
  split
  · rename_i noun found
    obtain ⟨front, back, listed, _⟩ := List.lookup_eq_some_iff.mp found
    have some : noun.toList ≠ [] :=
      irregular (_, noun) (listed ▸ List.mem_append_right front List.mem_cons_self)
    intro none
    have absent := congrArg String.toList none
    rw [String.toList_ofList] at absent
    have word := (List.append_eq_nil_iff.mp absent).2
    split at word
    · exact capitals some word
    · exact some word
  · split
    · exact letters
    · split
      · exact longer (by decide)
      · split <;> exact longer (by decide)

theorem Value.ne_empty_of_isTruthy {v : Value} {s : String} (read : v.readText = .ok s)
    (truthy : v.isTruthy) : s ≠ "" := by
  rintro rfl
  rcases readText_eq_ok.mp read with rfl | ⟨content, rfl, decoded⟩
  · cases truthy
  · cases bytes_of_decoded decoded
    cases truthy

theorem Sketch.ne_empty_of_truthyOr {entries : Entries} {key : String} {instead : Value}
    {s : String} (read : (truthyOr entries key instead).readText = .ok s)
    (letters : ∀ t, instead.readText = .ok t → t ≠ "") : s ≠ "" := by
  simp only [truthyOr] at read
  split at read
  · exact Value.ne_empty_of_isTruthy read (by assumption)
  · exact letters s read

namespace Typed

theorem outputName_ne_empty {child : Typed} (named : child.sketch.snakeName ≠ "")
    (fetch : FetchType) (many : Bool) : child.outputName fetch many ≠ "" := by
  have suffixed (suffix : String) : child.sketch.snakeName ++ suffix ≠ "" := fun none =>
    named (String.append_eq_empty_iff.mp none).1
  unfold outputName
  split <;> dsimp only <;> split
  · exact suffixed _
  · exact suffixed _
  · exact Text.plural_ne_empty named
  · exact named

variable {all : List Typed} {source : Option String} {owner : Typed}

def HasParentColumn (t : Typed) (parent column : String) : Prop :=
  ∃ p ∈ t.linked.parents, p.model = parent ∧ p.column = column

def HasTable (t : Typed) (schema table : String) : Prop :=
  t.sketch.schema.readIdentifier "Identifier" = .ok schema ∧
    t.sketch.table.readIdentifier "Identifier" = .ok table

theorem hasParentColumn_of_eq_some {child parent : Typed} {column : String}
    (found : child.parentColumn? parent = some column) :
    child.HasParentColumn parent.name column := by
  obtain ⟨p, first, rfl⟩ := Option.map_eq_some_iff.mp found
  exact ⟨p, List.mem_of_find?_eq_some first, by simpa using List.find?_some first, rfl⟩

theorem find_eq_ok {what name : String} {t : Typed}
    (found : find all source owner.name what name = .ok t) : t ∈ all ∧ t.name = name := by
  unfold find at found
  split at found
  · rename_i here
    cases found
    exact ⟨List.mem_of_find?_eq_some here, by simpa using List.find?_some here⟩
  · simp at found

structure Joins (join : Typed) (through : Through) (owner child : Typed) (column : String) :
    Prop where
  isJoin : join.linked.join.isSome
  model : through.model = join.name
  table : join.HasTable through.schema through.table
  ownerColumn : join.parentColumn? owner = some column
  childColumn : join.parentColumn? child = some through.childColumn

theorem readThrough_spec {join : Typed} {column : String} {through : Through}
    (read : Through.ofEntries (.ofFields
      [("model", .text join.name), ("schema_name", join.sketch.schema),
        ("table", join.sketch.table), ("to_id_field", .text column)]) = .ok through) :
    through.model = join.name ∧ join.HasTable through.schema through.table ∧
      through.childColumn = column := by
  revert through
  simp only [Through.ofEntries, Checked.forall_seqLeft_eq_ok, Checked.forall_seq_eq_ok,
    Checked.forall_map_eq_ok, Entries.required_eq_ok, Entries.ofFields, List.map_cons, List.map_nil,
    Entries.get?_cons_text, String.reduceEq, if_true, if_false, Option.some.injEq,
    exists_eq_left']
  intro model readModel schema readSchema table readTable childColumn readColumn _
  obtain ⟨text, _⟩ := Value.readIdentifier_eq_ok.mp readColumn
  exact ⟨(Checked.ok.inj readModel).symm, ⟨readSchema, readTable⟩, (Checked.ok.inj text).symm⟩

theorem pathOf_spec {child : Typed} {relation : Entries} {column : String}
    {through : Option Through} (found : pathOf all source owner child relation = .ok (column, through)) :
    (through = none → child.HasParentColumn owner.name column) ∧
      ∀ record ∈ through, ∃ join ∈ all, join.Joins record owner child column := by
  simp only [pathOf] at found
  split at found
  · rw [Result.bind_eq_ok] at found
    obtain ⟨shown, _, found⟩ := found
    rw [Result.bind_eq_ok] at found
    obtain ⟨join, here, found⟩ := found
    split at found
    · rename_i ids fromColumn toColumn joined ownerColumn childColumn
      simp only [Result.bind_eq_ok, Checked.orReject_eq_ok, Result.pure_eq_ok] at found
      obtain ⟨record, read, made⟩ := found
      cases made
      refine ⟨fun absent => (by cases absent), fun other same => ?_⟩
      cases same
      obtain ⟨model, table, column⟩ := readThrough_spec read
      exact ⟨join, (find_eq_ok here).1, by simp [joined], model, table, ownerColumn,
        column ▸ childColumn⟩
    · simp at found
  · split at found
    · rename_i found?
      cases found
      exact ⟨fun _ => hasParentColumn_of_eq_some found?, fun _ absent => (by cases absent)⟩
    · simp at found

structure IsChild (target : Typed) (all : List Typed) (owner : Typed) (c : Child) : Prop where
  listed : target ∈ all
  model : c.model = target.name
  named : target.sketch.snakeName ≠ "" → c.getName ≠ "" ∧ c.listName ≠ ""
  table : target.HasTable c.schema c.table
  fields : c.fields = target.readableFields
  column : isIdentifier c.parentColumn
  direct : c.through = none → target.HasParentColumn owner.name c.parentColumn
  indirect : ∀ through ∈ c.through,
    ∃ join ∈ all, join.Joins through owner target c.parentColumn

theorem childOf_spec {v : Value} {c : Child} (read : childOf all source owner v = .ok c) :
    ∃ target : Typed, target.IsChild all owner c := by
  simp only [childOf, Result.bind_eq_ok, Checked.orReject_eq_ok, Prod.exists] at read
  obtain ⟨relation, _, shown, _, target, found, onGet, _, onList, _, column, through, path, read⟩ :=
    read
  obtain ⟨direct, indirect⟩ := pathOf_spec path
  refine ⟨target, ?_⟩
  revert c
  simp only [Child.ofParts, Checked.forall_seq_eq_ok, Checked.forall_map_eq_ok,
    Entries.required_eq_ok, Entries.ofFields, List.map_cons, List.map_nil,
    Entries.get?_cons_text, String.reduceEq, if_true, if_false, Option.some.injEq,
    exists_eq_left', Checked.ok.injEq]
  intro model readModel schema readSchema table readTable parentColumn readColumn many _ _ _ _ _
    getName readGet listName readList
  intros
  subst_vars
  obtain ⟨text, valid⟩ := Value.readIdentifier_eq_ok.mp readColumn
  have same : column = parentColumn := Checked.ok.inj text
  subst same
  have letters (named : target.sketch.snakeName ≠ "") (fetch : FetchType) (many : Bool) (s : String)
      (read : (Value.text (target.outputName fetch many)).readText = .ok s) : s ≠ "" :=
    Checked.ok.inj read ▸ outputName_ne_empty named fetch many
  exact ⟨(find_eq_ok found).1, (Checked.ok.inj readModel).symm,
    fun named => ⟨Sketch.ne_empty_of_truthyOr readGet (letters named _ _),
      Sketch.ne_empty_of_truthyOr readList (letters named _ _)⟩,
    ⟨readSchema, readTable⟩, rfl, valid, direct, indirect⟩

theorem mem_of_mem_wantedFields {name wanted : Value} {target : Typed} {fields : List Field}
    (found : wantedFields source owner.name name target wanted = .ok fields) {f : Field}
    (member : f ∈ fields) : f ∈ target.readableFields := by
  simp only [wantedFields] at found
  split at found
  · rw [Result.pure_eq_ok] at found
    exact found ▸ member
  · rw [Result.bind_eq_ok] at found
    obtain ⟨names, _, found⟩ := found
    split at found
    · simp [Result.bind_eq_ok] at found
    · rw [Result.bind_eq_ok] at found
      obtain ⟨unknown, _, found⟩ := found
      split at found
      · simp [Result.bind_eq_ok] at found
      · exact Result.mem_of_mem_filterM found member

structure IsReference (target : Typed) (all : List Typed) (owner : Typed) (r : Reference) :
    Prop where
  listed : target ∈ all
  name : isIdentifier r.name
  named : r.outputName ≠ ""
  model : r.model = target.name
  table : target.HasTable r.schema r.table
  column : ∃ f ∈ owner.fields, f.column = r.idColumn
  fields : ∀ f ∈ r.fields, f ∈ target.readableFields
  isGlobal : r.isGlobal = target.sketch.isGlobal

theorem referenceOf_spec {v : Value} {r : Reference} (read : referenceOf all source owner v = .ok r) :
    ∃ target : Typed, target.IsReference all owner r := by
  simp only [referenceOf, Result.bind_eq_ok] at read
  obtain ⟨entries, _, read⟩ := read
  split at read
  · rw [Result.bind_eq_ok] at read
    obtain ⟨model, _, read⟩ := read
    split at read
    · rename_i target found
      rw [Result.bind_eq_ok] at read
      obtain ⟨same, here, read⟩ := read
      rw [Result.pure_eq_ok] at here
      subst here
      split at read
      · rename_i field held
        simp only [Result.bind_eq_ok, Result.pure_eq_ok, exists_eq_left',
          Checked.orShow_eq_ok] at read
        obtain ⟨fields, wanted, read⟩ := read
        refine ⟨target, ?_⟩
        revert r
        simp only [Reference.ofParts, Checked.forall_seq_eq_ok, Checked.forall_map_eq_ok,
          Entries.required_eq_ok, Entries.optional_eq_ok, Entries.ofFields, List.map_cons,
          List.map_nil, Entries.get?_cons_text, String.reduceEq, if_true, if_false,
          Option.some.injEq, exists_eq_left', Checked.ok.injEq, reduceCtorEq, false_and, or_false]
        intro name readName outputName readOutput model readModel schema readSchema table readTable
          column readColumn _ same onGet _ onList _ isGlobal readGlobal
        subst same
        obtain ⟨text, _⟩ := Value.readIdentifier_eq_ok.mp readColumn
        obtain ⟨nameText, valid⟩ := Value.readIdentifier_eq_ok.mp readName
        refine ⟨List.mem_of_find?_eq_some found, valid,
          Sketch.ne_empty_of_truthyOr readOutput fun t read => ?_,
          (Checked.ok.inj readModel).symm, ⟨readSchema, readTable⟩,
          ⟨field, List.mem_of_find?_eq_some held, Checked.ok.inj text⟩,
          fun f member => mem_of_mem_wantedFields wanted member, (Checked.ok.inj readGlobal).symm⟩
        rw [← Checked.ok.inj (nameText.symm.trans read)]
        exact isIdentifier_ne_empty valid
      · simp [Result.bind_eq_ok] at read
    · simp [Result.bind_eq_ok] at read
  · simp [Result.bind_eq_ok] at read

end Typed

end TenantSql
