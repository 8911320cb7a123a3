import TenantSql.Sql.Printer

/-!
# The text of statements

How insertions, changes and reads are spelled once their parameters are written:
lists of names and placeholders, assignments, what is done about a row in the
way, and what stands before and behind the main table of a query for rows.
-/

namespace TenantSql.Sql

open Fragment

variable {π : Type} {writeParam : π → String}

namespace Fragment

theorem write_append (front back : Fragment π) :
    write writeParam (front ++ back) = write writeParam front ++ write writeParam back := by
  simp [write]

@[simp] theorem write_words (s : String) : write writeParam (words s) = s := by
  simp [write, words, Piece.write]

theorem write_separated (separator : String) (items : List (Fragment π)) :
    write writeParam (separated separator items) =
      separator.intercalate (items.map (write writeParam)) := by
  induction items with
  | nil => simp [separated, write]
  | cons first others induction =>
      cases others with
      | nil => simp [separated]
      | cons second others =>
          have parted : separated separator (first :: second :: others) =
              first ++ (words separator ++ separated separator (second :: others)) := rfl
          rw [parted, write_append, write_append, write_words, induction, List.map_cons,
            List.map_cons, List.map_cons, String.intercalate_cons_cons, String.append_assoc]

theorem write_commas {α : Type} (items : List α) (fragment : α → Fragment π) :
    write writeParam (commas (items.map fragment)) =
      ", ".intercalate (items.map fun item => write writeParam (fragment item)) := by
  rw [commas, write_separated, List.map_map]
  rfl

theorem write_concat (items : List (Fragment π)) :
    write writeParam (concat items) = String.join (items.map (write writeParam)) := by
  induction items with
  | nil => rfl
  | cons first rest induction =>
      rw [concat] at induction ⊢
      rw [List.flatten_cons, write_append, induction, List.map_cons, String.join_cons]

end Fragment

theorem TableName.write_fragment (t : TableName) :
    write writeParam t.fragment = t.schema ++ "." ++ t.table := by
  simp [write, fragment, Piece.write, String.append_assoc]

theorem write_nameList (names : List String) :
    write writeParam (nameList names) = ", ".intercalate names := by
  have written (name : String) : write writeParam [.name name] = name := by
    simp [write, Piece.write]
  simp only [nameList, write_commas, written, List.map_id']

theorem write_params (values : List π) :
    write writeParam (commas (values.map fun p => [.param p])) =
      ", ".intercalate (values.map writeParam) := by
  have written (p : π) : write writeParam [.param p] = writeParam p := by
    simp [write, Piece.write]
  simp only [write_commas, written]

theorem Column.write_fragment (c : Column) :
    write writeParam (c.fragment : Fragment π) =
      match c.table with
      | none => c.name
      | some table => table ++ "." ++ c.name := by
  cases table : c.table <;> simp [fragment, table, write, Piece.write, String.append_assoc]

theorem Assignment.write_fragment (a : Assignment π) :
    write writeParam a.fragment = a.column ++ " = " ++
      match a.value with
      | .param p => writeParam p
      | .proposed => "EXCLUDED." ++ a.column
      | .now => "NOW()" := by
  cases value : a.value <;>
    simp [fragment, value, write, Piece.write, String.append_assoc]

theorem write_assignmentList (assignments : List (Assignment π)) :
    write writeParam (assignmentList assignments) =
      ", ".intercalate (assignments.map fun a => write writeParam a.fragment) :=
  write_commas assignments Assignment.fragment

theorem write_equals (c : Column) (p : π) :
    write writeParam (Condition.holds (.equals c (.param p))).fragment =
      write writeParam (c.fragment : Fragment π) ++ " = " ++ writeParam p := by
  have value : write writeParam [.param p] = writeParam p := by simp [write, Piece.write]
  simp only [Condition.fragment, Comparison.fragment, Operand.fragment, write_append, write_words,
    value]

theorem write_whereClause {conditions : List (Condition π)} (some : conditions ≠ []) :
    write writeParam (whereClause conditions) =
      " WHERE " ++ " AND ".intercalate (conditions.map fun c => write writeParam c.fragment) := by
  cases conditions with
  | nil => exact absurd rfl some
  | cons first rest =>
      rw [whereClause, write_append, write_words, conjunction, write_separated, List.map_map]
      · rfl
      · exact nofun

theorem Conflict.write_fragment (c : Conflict π) :
    write writeParam c.fragment =
      " ON CONFLICT (" ++ ", ".intercalate c.target ++
        match c.resolution with
        | .keep => ") DO NOTHING"
        | .change assignments conditions =>
            ") DO UPDATE SET " ++
              ", ".intercalate (assignments.map fun a => write writeParam a.fragment) ++
              write writeParam (whereClause conditions) := by
  simp only [fragment, write_append, write_words, write_nameList]
  cases c.resolution with
  | keep => rw [write_words]
  | change assignments conditions =>
      simp only [write_append, write_words, write_assignmentList]

theorem Insert.write_fragment (s : Insert π) :
    write writeParam s.fragment =
      "INSERT INTO " ++ (s.table.schema ++ "." ++ s.table.table) ++ " (" ++
        ", ".intercalate s.columns ++ ") VALUES (" ++ ", ".intercalate (s.values.map writeParam) ++
        ")" ++ (s.conflict.map fun conflict => write writeParam conflict.fragment).getD "" ++
        " RETURNING " ++ ", ".intercalate s.returning := by
  simp only [fragment, write_append, write_words, TableName.write_fragment, write_nameList,
    write_params]
  cases s.conflict <;> rfl

theorem Statement.write_update (table : TableName) (assignments : List (Assignment π))
    {conditions : List (Condition π)} (some : conditions ≠ []) :
    write writeParam (Statement.update table assignments conditions).fragment =
      "UPDATE " ++ (table.schema ++ "." ++ table.table) ++ " SET " ++
        ", ".intercalate (assignments.map fun a => write writeParam a.fragment) ++ " WHERE " ++
        " AND ".intercalate (conditions.map fun c => write writeParam c.fragment) := by
  simp only [fragment, write_append, write_words, TableName.write_fragment, write_assignmentList,
    write_whereClause some, String.append_assoc]

/-! ## Reads -/

theorem intercalate_cons (separator first : String) (rest : List String) :
    separator.intercalate (first :: rest) = first ++ String.join (rest.map (separator ++ ·)) := by
  induction rest generalizing first with
  | nil => simp
  | cons second rest induction =>
      rw [String.intercalate_cons_cons, induction, List.map_cons, String.join_cons]
      simp only [String.append_assoc]

theorem intercalate_append (separator : String) {front : List String} (some : front ≠ [])
    (back : List String) :
    separator.intercalate (front ++ back) =
      separator.intercalate front ++ String.join (back.map (separator ++ ·)) := by
  obtain ⟨first, rest, rfl⟩ := List.exists_cons_of_ne_nil some
  rw [List.cons_append, intercalate_cons, intercalate_cons, List.map_append, String.join_append,
    String.append_assoc]

namespace Select

def rest (s : Select π) : Fragment π :=
  whereClause s.conditions ++
    (match s.order with
      | none => []
      | some order => words " ORDER BY " ++ order.fragment) ++
    (match s.page with
      | none => []
      | some (limit, offset) => [.fixed " LIMIT ", .param limit, .fixed " OFFSET ", .param offset])

def extend (s : Select π) (items : List (SelectItem π)) (joins : List (LeftJoin π)) : Select π :=
  { s with items := s.items ++ items, joins := s.joins ++ joins }

theorem source_eq (s : Select π) :
    s.source = words " FROM " ++ s.table.withAlias s.tableAlias ++
      concat (s.joins.map LeftJoin.fragment) ++ s.rest := by
  rw [source, rest]
  cases s.order <;> cases s.page <;> simp only [List.append_assoc]

theorem write_fragment (s : Select π) :
    write writeParam s.fragment =
      "SELECT " ++ ", ".intercalate (s.items.map fun item => write writeParam item.fragment) ++
        (" FROM " ++ (s.table.schema ++ "." ++ s.table.table) ++ " " ++ s.tableAlias) ++
        String.join (s.joins.map fun join => write writeParam join.fragment) ++
        write writeParam s.rest := by
  have aliased : write writeParam [.fixed " ", .name s.tableAlias] = " " ++ s.tableAlias := by
    simp [write, Piece.write]
  simp only [fragment, source_eq, TableName.withAlias, write_append, write_words, write_commas,
    write_concat, TableName.write_fragment, aliased, List.map_map, Function.comp_def,
    String.append_assoc]

end Select

end TenantSql.Sql
