import TenantSql.Definition.Relations
import TenantSql.Proofs.Model.Identifier

/-!
# Fields of a definition

How a field that was loaded follows from its entries: its name, its column,
which is named like it or by an entry of its own, and its full name.
-/

namespace TenantSql

open Sql

theorem Value.isTruthy_of_readNonEmptyText {v : Value} {s : String}
    (read : v.readNonEmptyText = .ok s) : v.isTruthy := by
  obtain ⟨text, some⟩ := readNonEmptyText_eq_ok.mp read
  rcases readText_eq_ok.mp text with rfl | ⟨content, rfl, decoded⟩
  · simpa [isTruthy, Scalar.isTruthy] using some
  · cases content with
    | nil =>
        have empty : s.toList.flatMap String.utf8EncodeChar = [] := (bytes_of_decoded decoded).symm
        cases spelled : s.toList with
        | nil => exact absurd (String.toList_eq_nil_iff.mp spelled) some
        | cons c rest =>
            rw [spelled, List.flatMap_cons, List.append_eq_nil_iff] at empty
            exact absurd empty.1 String.utf8EncodeChar_ne_nil
    | cons => rfl

namespace Entries

theorem get?_of_isTruthy {entries : Entries} {key : String} (truthy : (entries.getD key).isTruthy) :
    entries.get? key = some (entries.getD key) := by
  rw [getD] at truthy ⊢
  cases found : entries.get? key with
  | none =>
      rw [found] at truthy
      cases truthy
  | some v => rfl

end Entries

namespace Field

/-- Read as that of a column of some table, the full name is that of the field's column; it may
also end in a word that stands for "no". -/
def NamesColumn (f : Field) : Prop :=
  ∀ owner word, isIdentifierWord word.toList → readName f.fullName = owner ++ "." ++ word →
    word ∈ [readName f.column, "none", "false"]

theorem namesColumn_of_shows {f : Field} {table shown : String}
    (full : f.fullName = table ++ "." ++ shown) (shows : ShowsColumn shown f.column) :
    f.NamesColumn := by
  intro owner word isWord read
  have absent : '.' ∉ word.toList := by
    intro member
    exact absurd (isIdentifierWord_chars isWord '.' member) (by decide)
  have last : afterLastDot (readName shown).toList = word.toList := by
    have spelled := congrArg (fun s : String => afterLastDot s.toList) read
    have dot : (readName ".").toList = ['.'] := by decide
    simpa [full, readName_append, dot, afterLastDot_append, afterLastDot_eq_self absent] using
      spelled
  rw [ShowsColumn, last] at shows
  have among := shows isWord
  simp only [List.mem_cons, List.not_mem_nil, or_false, String.toList_inj] at among ⊢
  exact among

def columnEntry (entries : Entries) : Value :=
  if (entries.getD "sql_name").isTruthy then entries.getD "sql_name" else entries.getD "name"

theorem get?_withColumn {entries : Entries} {key : String} (other : key ≠ "sql_name") :
    (withColumn entries).get? key = entries.get? key := by
  rw [withColumn]
  split
  · rw [Entries.get?_set, if_neg other]
  · rfl

theorem ofEntries_spec {entries : Entries} : ∀ f, ofEntries entries = .ok f →
    (entries.getD "name").readNonEmptyText = .ok f.name ∧
      (columnEntry entries).readIdentifier "Column name" = .ok f.column ∧
      entries.optional "sql_full_name" "" Value.readText = .ok f.fullName := by
  simp only [ofEntries, Checked.forall_seqLeft_eq_ok, Checked.forall_seq_eq_ok,
    Checked.forall_map_eq_ok, Entries.required_eq_ok, Entries.optional_eq_ok]
  intro name ⟨given, found, readName⟩ column readColumn full readFull
  intros
  rw [get?_withColumn (by decide)] at found
  have named : entries.getD "name" = given := Entries.getD_of_get? found
  have truthy : (entries.getD "name").isTruthy :=
    named ▸ Value.isTruthy_of_readNonEmptyText readName
  have stated : (withColumn entries).get? "sql_name" = some (columnEntry entries) := by
    rw [withColumn, columnEntry, truthy, Bool.and_true]
    cases own : (entries.getD "sql_name").isTruthy with
    | true => exact Entries.get?_of_isTruthy own
    | false => simp [Entries.get?_set]
  refine ⟨named ▸ readName, ?_, ?_⟩
  · rcases readColumn with ⟨v, here, read⟩ | ⟨absent, _⟩
    · rw [stated] at here
      exact Option.some.inj here ▸ read
    · rw [stated] at absent
      cases absent
  · rw [get?_withColumn (by decide)] at readFull
    exact readFull

theorem ofEntries_parts {entries : Entries} : ∀ f, ofEntries entries = .ok f →
    entries.optional "unique" false Value.readBool = .ok f.unique ∧
      entries.optional "writable" false Value.readBool = .ok f.writable ∧
      entries.optional "never_read" false Value.readBool = .ok f.neverRead ∧
      entries.optional "references" none (Value.readOptional Value.readText) = .ok f.references := by
  have same {α : Type} {key : String} {default : α} {read : Value → Checked α}
      (other : key ≠ "sql_name") :
      (withColumn entries).optional key default read = entries.optional key default read := by
    rw [Entries.optional, Entries.optional, get?_withColumn other]
  simp only [ofEntries, Checked.forall_seqLeft_eq_ok, Checked.forall_seq_eq_ok,
    Checked.forall_map_eq_ok]
  intro _ _ _ _ _ _ _ _ _ _ unique readUnique _ _ _ _ writable readWritable neverRead readNeverRead
    _ _ _ _ _ _ references readReferences _
  rw [same (by decide)] at readUnique readWritable readNeverRead readReferences
  exact ⟨readUnique, readWritable, readNeverRead, readReferences⟩

theorem ofEntries_type {entries : Entries} : ∀ f, ofEntries entries = .ok f → ∀ {type : SqlType},
    entries.get? "sql_type" = some (.text type.name) → f.statedType = some type := by
  simp only [ofEntries, Checked.forall_seqLeft_eq_ok, Checked.forall_seq_eq_ok,
    Checked.forall_map_eq_ok]
  intro _ _ _ _ _ _ found readType
  intros
  rename_i type stated
  rw [Entries.optional, get?_withColumn (by decide), stated, Checked.within_eq_ok] at readType
  have listed : SqlType.all.find? (fun choice => choice.name == type.name) = some type := by
    cases type <;> rfl
  have chosen : Value.readChoice SqlType.all SqlType.name (.text type.name) = .ok type := by
    simp only [Value.readChoice, Value.readText, listed]
  rw [chosen] at readType
  exact (Checked.ok.inj readType).symm

end Field

theorem Sketch.shown_eq_ok {v : Value} {s : String} :
    Sketch.shown v = .ok s ↔ v.isShowable ∧ v.display = s := by
  rw [shown, orFault, Result.mapError_eq_ok, Value.shown]
  split <;> simp_all

namespace Typed

/-- The name, the column and the full name of a field, by its entries. -/
theorem fieldOf_spec {source : Option String} {s : Sketch} {entries : Entries} {f : Field}
    (read : fieldOf source s entries = .ok f) :
    (entries.getD "name").readNonEmptyText = .ok f.name ∧
      (Field.columnEntry entries).readIdentifier "Column name" = .ok f.column ∧
      f.fullName = s.table.display ++ "." ++
        ((entries.get? "sql_name").getD (entries.getD "name")).display := by
  simp only [fieldOf, Result.bind_eq_ok, Checked.orShow_eq_ok, Sketch.shown_eq_ok] at read
  obtain ⟨table, ⟨_, rfl⟩, column, ⟨_, rfl⟩, read⟩ := read
  generalize spelled : (if entries.has "sql_name" then entries
    else entries.set "sql_name" (entries.getD "name")) = named at read
  have kept : named.getD "name" = entries.getD "name" := by
    rw [← spelled]
    split
    · rfl
    · rw [Entries.getD_set, if_neg (by decide)]
  have column : named.getD "sql_name" = (entries.get? "sql_name").getD (entries.getD "name") := by
    rw [← spelled, Entries.has]
    cases own : entries.get? "sql_name" with
    | none => simp [Entries.getD_set]
    | some v => simp [Entries.getD, own]
  have same : Field.columnEntry named = Field.columnEntry entries := by
    rw [Field.columnEntry, Field.columnEntry, kept, column]
    cases own : entries.get? "sql_name" with
    | none =>
        have missing : entries.getD "sql_name" = .null := by
          rw [Entries.getD, own]
          rfl
        simp [missing, Value.isTruthy, Scalar.isTruthy]
    | some v => simp [Entries.getD, own]
  obtain ⟨readName, readColumn, full⟩ := Field.ofEntries_spec f read
  simp only [Field.columnEntry, Entries.getD_set] at readName readColumn
  refine ⟨kept ▸ readName, same ▸ readColumn, ?_⟩
  rw [← column]
  rw [Entries.optional, Entries.get?_set, if_pos rfl, Checked.within_eq_ok] at full
  exact (Checked.ok.inj full).symm

theorem fieldOf_given {source : Option String} {s : Sketch} {entries : Entries} {f : Field}
    (read : fieldOf source s entries = .ok f) :
    ∃ given, Field.ofEntries given = .ok f ∧
      ∀ key, key ≠ "sql_name" → key ≠ "sql_full_name" → given.get? key = entries.get? key := by
  simp only [fieldOf, Result.bind_eq_ok, Checked.orShow_eq_ok] at read
  obtain ⟨table, _, column, _, read⟩ := read
  refine ⟨_, read, fun key other full => ?_⟩
  rw [Entries.get?_set, if_neg full]
  split
  · rfl
  · rw [Entries.get?_set, if_neg other]

theorem fieldOf_parts {source : Option String} {s : Sketch} {entries : Entries} {f : Field}
    (read : fieldOf source s entries = .ok f) :
    entries.optional "unique" false Value.readBool = .ok f.unique ∧
      entries.optional "writable" false Value.readBool = .ok f.writable ∧
      entries.optional "never_read" false Value.readBool = .ok f.neverRead ∧
      entries.optional "references" none (Value.readOptional Value.readText) = .ok f.references := by
  obtain ⟨given, read, kept⟩ := fieldOf_given read
  have parts := Field.ofEntries_parts f read
  simpa (disch := decide) only [Entries.optional, kept] using parts

theorem fieldOf_type {source : Option String} {s : Sketch} {entries : Entries} {f : Field}
    (read : fieldOf source s entries = .ok f) {type : SqlType}
    (stated : entries.get? "sql_type" = some (.text type.name)) : f.sqlType = type := by
  obtain ⟨given, read, kept⟩ := fieldOf_given read
  have same : given.get? "sql_type" = some (.text type.name) := by
    rw [kept _ (by decide) (by decide), stated]
  rw [Field.sqlType, Field.ofEntries_type f read same]
  rfl

theorem fieldOf_shown {source : Option String} {s : Sketch} {entries : Entries} {f : Field}
    (read : fieldOf source s entries = .ok f) :
    ∃ v : Value, f.fullName = s.table.display ++ "." ++ v.display ∧
      (v.readIdentifier "Column name" = .ok f.column ∨ v.isTruthy = false) := by
  obtain ⟨_, column, full⟩ := fieldOf_spec read
  refine ⟨_, full, ?_⟩
  rw [Field.columnEntry, Entries.getD] at column
  cases own : entries.get? "sql_name" with
  | none =>
      rw [own] at column
      exact .inl column
  | some v =>
      rw [own, Option.getD_some] at column
      cases truthy : v.isTruthy with
      | true =>
          rw [truthy] at column
          exact .inl column
      | false => exact .inr truthy

theorem fieldOf_fullName {source : Option String} {s : Sketch} {entries : Entries} {f : Field}
    (read : fieldOf source s entries = .ok f) {what table : String}
    (named : s.table.readIdentifier what = .ok table) : HoldsNoParameter f.fullName := by
  obtain ⟨v, full, column | none⟩ := fieldOf_shown read
  · exact full ▸ (Value.display_of_readIdentifier named).dotted
      (Value.display_of_readIdentifier column)
  · exact full ▸ (Value.display_of_readIdentifier named).dotted (Value.display_of_falsy none)

/-- The full name of a field, if it can be read as that of a column, is that of its own column,
unless it ends in a word that stands for "no". -/
theorem fieldOf_namesColumn {source : Option String} {s : Sketch} {entries : Entries} {f : Field}
    (read : fieldOf source s entries = .ok f) : f.NamesColumn := by
  obtain ⟨v, full, given⟩ := fieldOf_shown read
  have shows : ShowsColumn v.display f.column :=
    given.elim Value.showsColumn_of_readIdentifier (Value.showsColumn_of_falsy · f.column)
  exact Field.namesColumn_of_shows full shows

def Names (entries : Entries) (name : Value) : Prop :=
  entries.get? "name" = some name ∧ entries.get? "sql_name" = none

theorem fieldOf_of_names {source : Option String} {s : Sketch} {entries : Entries} {f : Field}
    (read : fieldOf source s entries = .ok f) {name : Value} (names : Names entries name) :
    name.readText = .ok f.name ∧ f.column = f.name := by
  obtain ⟨given, column, _⟩ := fieldOf_spec read
  rw [Field.columnEntry, Entries.getD, Entries.getD, names.1, names.2] at column
  rw [Entries.getD_of_get? names.1] at given
  have text := (Value.readNonEmptyText_eq_ok.mp given).1
  have again := (Value.readIdentifier_eq_ok.mp column).1
  refine ⟨text, ?_⟩
  have same : Checked.ok f.column = Checked.ok f.name := again.symm.trans text
  exact Checked.ok.inj same

end Typed

end TenantSql
