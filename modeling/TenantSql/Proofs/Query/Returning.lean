import TenantSql.Proofs.Definition.Accepted
import TenantSql.Proofs.Definition.ForeignKeys
import TenantSql.Proofs.Query.Closure

/-!
# Columns that an insertion returns

An insertion returns the full names of the fields that may be read. A full name that comes with a
field is taken as it is, whatever it names; one that is filled in is that of the field's column, if
the table and the column are given as texts.
-/

namespace TenantSql

open Sql

namespace GivenField

def statedName : GivenField → Value
  | .value v => v.entries.getD "sql_full_name"
  | .record f => .text f.fullName

def columnEntry : GivenField → Value
  | .value v => Field.columnEntry v.entries
  | .record f => .text f.column

end GivenField

/-- The field comes with the full name of its column in the table of the model. Or it comes without
a full name, in a list, and neither the table nor the column is given as bytes. -/
def Model.Qualifies (m : Model) (entries : Entries) (given : GivenFields) (item : GivenField)
    (f : Field) : Prop :=
  if item.statedName.isTruthy then item.statedName.readText = .ok (f.qualified m.table)
  else given.isList ∧ (entries.getD "table").isBytes = false ∧ item.columnEntry.isBytes = false

/-! ## Full names -/

namespace Value

theorem eq_text_iff {v : Value} {s : String} (read : v.readText = .ok s) (some : s ≠ "") :
    v = .text s ↔ v.isBytes = false := by
  rcases readText_eq_ok.mp read with rfl | ⟨content, rfl, decoded⟩
  · exact iff_of_true rfl rfl
  · have truthy := isTruthy_of_readNonEmptyText (readNonEmptyText_eq_ok.mpr ⟨read, some⟩)
    have bytes : (Value.scalar (.bytes content)).isBytes = true := truthy
    simp [bytes]

theorem display_ne_empty {what : String} {v : Value} {s : String}
    (read : v.readIdentifier what = .ok s) : v.display ≠ "" := by
  obtain ⟨text, valid⟩ := readIdentifier_eq_ok.mp read
  intro none
  have same : v = .text s := eq_text_of_unquoted text (by simp [none])
  rw [same] at none
  exact isIdentifier_ne_empty valid none

/-- A table and a column that are shown with a dot between them are shown as they are read if and
only if none of them is given as bytes. -/
theorem display_dotted_iff {what : String} {table column : Value} {t c : String}
    (readTable : table.readIdentifier what = .ok t) (readColumn : column.readText = .ok c)
    (valid : column = .text c ∨ isIdentifier c) :
    table.display ++ "." ++ column.display = t ++ "." ++ c ↔
      table.isBytes = false ∧ column.isBytes = false := by
  obtain ⟨tableText, tableValid⟩ := readIdentifier_eq_ok.mp readTable
  constructor
  · intro same
    have columnGiven : column = .text c := valid.elim id fun named => by
      refine eq_text_of_unquoted readColumn fun letter member => ?_
      have among : letter ∈ (t ++ "." ++ c).toList := by
        rw [← same]
        simp [member]
      simp only [String.toList_append, List.mem_append] at among
      rcases among with (inTable | dot) | inColumn
      · exact isIdentifier_unquoted tableValid letter inTable
      · rw [List.mem_singleton.mp dot]
        decide
      · exact isIdentifier_unquoted named letter inColumn
    have shown : table.display = t := by
      rw [columnGiven] at same
      have letters := congrArg String.toList same
      simp only [String.toList_append] at letters
      exact String.toList_inj.mp (List.append_cancel_right (List.append_cancel_right letters))
    have tableGiven : table = .text t :=
      eq_text_of_unquoted tableText (shown ▸ isIdentifier_unquoted tableValid)
    rw [tableGiven, columnGiven]
    exact ⟨rfl, rfl⟩
  · rintro ⟨tablePlain, columnPlain⟩
    have tableGiven := (eq_text_iff tableText (isIdentifier_ne_empty tableValid)).mpr tablePlain
    have columnGiven : column = .text c := valid.elim id fun named =>
      (eq_text_iff readColumn (isIdentifier_ne_empty named)).mpr columnPlain
    rw [tableGiven, columnGiven]
    rfl

end Value

namespace Model

variable {table : Value} {item : GivenField} {f : Field}

theorem columnEntry_withFullName (table : Value) (entries : Entries) :
    Field.columnEntry (withFullName table entries) = Field.columnEntry entries := by
  rw [withFullName]
  split
  · rfl
  · simp [Field.columnEntry, Entries.getD_set]

theorem fullName_of_entries {entries : Entries}
    (read : Field.ofEntries (withFullName table entries) = .ok f) :
    if (entries.getD "sql_full_name").isTruthy then
      (entries.getD "sql_full_name").readText = .ok f.fullName
    else f.fullName =
      if table.isTruthy then table.display ++ "." ++ (Field.columnEntry entries).display else "" := by
  obtain ⟨_, _, full⟩ := Field.ofEntries_spec f read
  rw [withFullName] at full
  cases stated : (entries.getD "sql_full_name").isTruthy with
  | true =>
      rw [stated, Bool.true_or, if_pos rfl] at full
      rw [Entries.optional, Entries.get?_of_isTruthy stated, Checked.within_eq_ok] at full
      exact full
  | false =>
      rw [stated, Bool.false_or] at full
      cases given : table.isTruthy with
      | true =>
          simp only [given, Bool.not_true, Bool.false_eq_true, if_false] at full
          rw [Entries.optional, Entries.get?_set, if_pos rfl, Checked.within_eq_ok] at full
          exact (Checked.ok.inj full).symm
      | false =>
          rw [given, Bool.not_false, if_pos rfl] at full
          rcases Entries.optional_eq_ok.mp full with ⟨none, there, text⟩ | ⟨_, absent⟩
          · rw [Entries.getD_of_get? there] at stated
            by_contra some
            rw [Value.isTruthy_of_readNonEmptyText
              (Value.readNonEmptyText_eq_ok.mpr ⟨text, some⟩)] at stated
            cases stated
          · exact absent.symm

theorem fullName_of_record {g : Field} (shown : table.isTruthy → table.display ≠ "")
    (read : readField table (.record g) = .ok f) : f.column = g.column ∧
      f.fullName = if g.fullName.isEmpty then
        if table.isTruthy then table.display ++ "." ++ g.column else ""
      else g.fullName := by
  have same := Checked.ok.inj read
  constructor
  · rw [← same, Field.withFullName]
    split
    · split <;> rfl
    · rfl
  · rw [← same, Field.withFullName]
    cases empty : g.fullName.isEmpty with
    | false => rw [Bool.false_and, if_neg Bool.false_ne_true, ite_self, if_neg Bool.false_ne_true]
    | true =>
        have none : g.fullName = "" := String.isEmpty_iff.mp empty
        cases given : table.isTruthy with
        | true => simp [shown given, Field.qualified]
        | false => simpa using none

theorem fullName_of_readField (read : readField table item = .ok f)
    (shown : table.isTruthy → table.display ≠ "") :
    item.columnEntry.readText = .ok f.column ∧
      (item.columnEntry = .text f.column ∨ isIdentifier f.column) ∧
      if item.statedName.isTruthy then item.statedName.readText = .ok f.fullName
      else f.fullName =
        if table.isTruthy then table.display ++ "." ++ item.columnEntry.display else "" := by
  cases item with
  | value v =>
      have passed : Field.ofEntries (withFullName table v.entries) = .ok f :=
        Value.read_entries read
      have column := (Field.ofEntries_spec f passed).2.1
      rw [columnEntry_withFullName] at column
      obtain ⟨column, valid⟩ := Value.readIdentifier_eq_ok.mp column
      exact ⟨column, .inr valid, fullName_of_entries passed⟩
  | record g =>
      obtain ⟨column, full⟩ := fullName_of_record shown read
      refine ⟨congrArg Checked.ok column.symm, .inl (congrArg Value.text column.symm), ?_⟩
      rw [GivenField.statedName, GivenField.columnEntry, full]
      cases empty : g.fullName.isEmpty with
      | true =>
          have falsy : (Value.text g.fullName).isTruthy = false := by
            simpa [Value.isTruthy, Scalar.isTruthy] using empty
          rw [falsy, if_neg Bool.false_ne_true, if_pos rfl]
          rfl
      | false =>
          have truthy : (Value.text g.fullName).isTruthy := by
            simpa [Value.isTruthy, Scalar.isTruthy] using empty
          rw [if_pos truthy, if_neg Bool.false_ne_true]
          rfl

variable {m : Model} {entries : Entries} {given : GivenFields}

theorem AcceptedWith.fullName_iff (accepted : m.AcceptedWith entries given) :
    List.Forall₂
      (fun item f => f.fullName = f.qualified m.table ↔ m.Qualifies entries given item f)
      given.items m.fields := by
  obtain ⟨_, readTable, listed⟩ := accepted.spec
  have some : (entries.getD "table").isTruthy :=
    Value.isTruthy_of_readNonEmptyText (Value.readNonEmptyText_eq_ok.mpr
      ⟨(Value.readIdentifier_eq_ok.mp readTable).1,
        isIdentifier_ne_empty (Value.readIdentifier_eq_ok.mp readTable).2⟩)
  have shown : (if given.isList then entries.getD "table" else .null).isTruthy →
      (if given.isList then entries.getD "table" else .null).display ≠ "" := by
    split
    · exact fun _ => Value.display_ne_empty readTable
    · exact nofun
  refine (readFields_eq_ok.mp listed).imp fun item f read => ?_
  obtain ⟨readColumn, valid, full⟩ := fullName_of_readField read shown
  rw [Qualifies]
  split at full
  · rename_i stated
    rw [if_pos stated, full]
    exact ⟨congrArg Checked.ok, Checked.ok.inj⟩
  · rename_i missing
    rw [if_neg missing, full]
    cases inList : given.isList with
    | true =>
        rw [if_pos rfl, if_pos some, Field.qualified,
          Value.display_dotted_iff readTable readColumn valid]
        exact (and_iff_right rfl).symm
    | false =>
        refine iff_of_false (fun same => ?_) nofun
        have letters := congrArg String.toList same
        simp [Field.qualified, Value.isTruthy, Scalar.isTruthy] at letters

theorem returning_of_generates {q : Query} {s : Insert String}
    (generates : m.Generates q (.insert s)) : s.returning = m.readableFields.map Field.fullName := by
  obtain ⟨p, plan, _, same⟩ := generates
  cases plan with
  | insert | upsert =>
      cases same
      rfl
  | update | updateWithParent | selectOne | delete | deleteAllChildren | deleteRemovedChildren |
    deleteWithParent | list | lookup => cases same

/-- An insertion returns the columns of the fields that may be read if and only if every one of these
was given what names its column. -/
theorem AcceptedWith.returning_iff (accepted : m.AcceptedWith entries given) :
    m.readableFields.map Field.fullName = m.readableFields.map (·.qualified m.table) ↔
      List.Forall₂ (fun item f => f.neverRead = false → m.Qualifies entries given item f)
        given.items m.fields := by
  have pairwise {items : List GivenField} {fields : List Field}
      (each : List.Forall₂
        (fun item f => f.fullName = f.qualified m.table ↔ m.Qualifies entries given item f)
        items fields) :
      (∀ f ∈ fields, f.neverRead = false → f.fullName = f.qualified m.table) ↔
        List.Forall₂ (fun item f => f.neverRead = false → m.Qualifies entries given item f)
          items fields := by
    induction each with
    | nil => simp
    | cons first _ induction =>
        rw [List.forall_mem_cons, List.forall₂_cons, induction, imp_congr_right fun _ => first]
  rw [← pairwise accepted.fullName_iff, List.map_inj_left, readableFields]
  simp only [List.mem_filter, Bool.not_eq_true', and_imp]

end Model

/-- Whatever entries and fields a model is accepted with, by itself or with a definition, a field has
the full name of its column in the model's table if and only if what was given says so, and the
insertions return nothing but such names if and only if all fields that may be read have them. -/
theorem Model.returns_qualified_iff (m : Model) :
    (∀ v, Model.read v = .ok m → ∃ collection given,
      v.entries.get? "fields" = some collection ∧ GivenFields.ofValue? collection = some given ∧
        m.AcceptedWith v.entries given) ∧
    (∀ given v, readGiven given v = .ok m → m.AcceptedWith v.entries given) ∧
    (∀ raw settings source models, loadModels raw settings source = .ok models → m ∈ models →
      ∃ entries, m.AcceptedWith entries ⟨m.fields.map .record, true⟩) ∧
    ∀ entries given, m.AcceptedWith entries given →
      List.Forall₂
        (fun item f => f.fullName = f.qualified m.table ↔ m.Qualifies entries given item f)
        given.items m.fields ∧
      ∀ q s, m.Generates q (.insert s) → m.HasQuery q ∧ q.Writes (.insert s) ∧
        (s.returning = m.readableFields.map (·.qualified m.table) ↔
          List.Forall₂ (fun item f => f.neverRead = false → m.Qualifies entries given item f)
            given.items m.fields) := by
  refine ⟨fun v => acceptedWith_of_read, fun given v => acceptedWith_of_readGiven,
    fun raw settings source models loaded => acceptedWith_of_loaded loaded,
    fun entries given accepted => ⟨accepted.fullName_iff, fun q s generates => ?_⟩⟩
  rw [returning_of_generates generates]
  obtain ⟨p, plan, rfl, written⟩ := generates
  exact ⟨hasQuery_iff.mpr ⟨p, plan, rfl⟩, written ▸ p.writes_query, accepted.returning_iff⟩

/-! ## Posts -/

def Checked.yields {α : Type} (result : Checked α) (check : α → Bool) : Bool :=
  match result with
  | .ok a => check a
  | .refused _ => false

theorem Checked.exists_of_yields {α : Type} {result : Checked α} {check : α → Bool}
    (yields : result.yields check) : ∃ a, result = .ok a ∧ check a := by
  cases result with
  | ok a => exact ⟨a, rfl, yields⟩
  | refused issues => cases yields

def postEntries : List (String × Value) :=
  [("name", .text "Post"), ("module_name", .text "post"), ("table", .text "posts")]

def postKeys : List Value :=
  [.ofFields [("name", .text "id"), ("sql_type", .text "uuid")],
    .ofFields [("name", .text "organization_id"), ("sql_type", .text "uuid")]]

def titleRecord : Field :=
  { (default : Field) with name := "title", column := "title" }

def titledFields : GivenFields :=
  ⟨postKeys.map .value ++ [.record titleRecord], true⟩

theorem titledFields_returned : ∃ m q s,
    Model.readGiven titledFields (.ofFields postEntries) = .ok m ∧ m.Generates q (.insert s) ∧
    m.readableFields.map (·.qualified m.table) =
      ["posts.id", "posts.organization_id", "posts.title"] ∧
    s.returning = m.readableFields.map (·.qualified m.table) := by
  obtain ⟨m, read, checked⟩ := Checked.exists_of_yields
    (show (Model.readGiven titledFields (.ofFields postEntries)).yields fun m =>
      m.fields.length == 3 &&
      m.readableFields.map (·.qualified m.table) ==
        ["posts.id", "posts.organization_id", "posts.title"] by decide +kernel)
  simp only [Bool.and_eq_true, beq_iff_eq] at checked
  obtain ⟨three, shown⟩ := checked
  have plain (item : GivenField) (f : Field) (unnamed : item.statedName.isTruthy = false)
      (text : item.columnEntry.isBytes = false) :
      m.Qualifies (Value.ofFields postEntries).entries titledFields item f := by
    rw [Model.Qualifies, unnamed]
    exact ⟨rfl, by decide, text⟩
  have accepted := (Model.returns_qualified_iff m).2.1 _ _ read
  have generates : m.Generates m.insertPlan.query (.insert (m.insertion m.ownerWritableFields none)) :=
    ⟨_, .insert, rfl, rfl⟩
  refine ⟨m, _, _, read, generates, shown, ?_⟩
  refine (((Model.returns_qualified_iff m).2.2.2 _ _ accepted).2 _ _ generates).2.2.mpr ?_
  obtain ⟨first, second, third, fields⟩ := List.length_eq_three.mp three
  rw [fields]
  exact .cons (fun _ => plain _ _ (by decide) (by decide))
    (.cons (fun _ => plain _ _ (by decide) (by decide))
      (.cons (fun _ => plain _ _ (by decide) (by decide)) .nil))

def misnamedPosts : Value :=
  .ofFields (postEntries ++ [("fields", .list (postKeys ++ [
    .ofFields [("name", .text "title"), ("sql_full_name", .text "users.secret")]]))])

theorem misnamedPosts_returned : ∃ m q s, Model.read misnamedPosts = .ok m ∧ m.HasQuery q ∧
    m.Generates q (.insert s) ∧
    q.text = "INSERT INTO public.posts (id, organization_id) VALUES ($1, $2) " ++
      "RETURNING posts.id, posts.organization_id, users.secret" ∧
    "users.secret" ∈ s.returning ∧
    ∀ f ∈ m.readableFields, f.qualified m.table ≠ "users.secret" := by
  obtain ⟨m, read, checked⟩ := Checked.exists_of_yields
    (show (Model.read misnamedPosts).yields fun m =>
      m.insertPlan.bytes == Text.bytes
        ("INSERT INTO public.posts (id, organization_id) VALUES ($1, $2) " ++
          "RETURNING posts.id, posts.organization_id, users.secret") &&
      m.returning.contains "users.secret" &&
      m.readableFields.all (·.qualified m.table != "users.secret") by decide +kernel)
  simp only [Bool.and_eq_true, beq_iff_eq, List.contains_iff_mem, List.all_eq_true, bne_iff_ne]
    at checked
  obtain ⟨⟨text, returned⟩, others⟩ := checked
  exact ⟨m, _, m.insertion m.ownerWritableFields none, read,
    Model.hasQuery_iff.mpr ⟨_, .insert, rfl⟩, ⟨_, .insert, rfl, rfl⟩, Plan.text_eq_of_bytes text,
    returned, others⟩

end TenantSql
