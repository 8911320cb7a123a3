import TenantSql.Sql.Printer
import TenantSql.Proofs.Sql.Legible

/-!
# The names in a statement

A property of every bare name in a statement: of the schemas, tables, aliases
and columns that it spells without quotes. If all of them have the property,
the text of the statement is legible with names of that property.
-/

namespace TenantSql.Sql

variable {π : Type} {P : String → Prop}

/-! ## Properties of names -/

def TableName.EachName (P : String → Prop) (t : TableName) : Prop :=
  P t.schema ∧ P t.table

def Column.EachName (P : String → Prop) (c : Column) : Prop :=
  (∀ qualifier ∈ c.table, P qualifier) ∧ P c.name

def Operand.EachName (P : String → Prop) : Operand π → Prop
  | .column c => c.EachName P
  | .param _ => True

def Comparison.EachName (P : String → Prop) : Comparison π → Prop
  | .equals column value => column.EachName P ∧ value.EachName P
  | .inArray column _ | .notInArray column _ | .oneOf column _ => column.EachName P

def Condition.EachName (P : String → Prop) : Condition π → Prop
  | .holds comparison => comparison.EachName P
  | .someRow table comparisons =>
      table.EachName P ∧ ∀ comparison ∈ comparisons, comparison.EachName P

def EachEntryName (P : String → Prop) (entries : List (String × Column)) : Prop :=
  ∀ entry ∈ entries, entry.2.EachName P

def RowValue.EachName (P : String → Prop) : RowValue → Prop
  | .column c => c.EachName P
  | .object entries => EachEntryName P entries

structure InnerJoin.EachName (P : String → Prop) (join : InnerJoin π) : Prop where
  table : join.table.EachName P
  tableAlias : P join.tableAlias
  condition : join.condition.EachName P

structure Subquery.EachName (P : String → Prop) (q : Subquery π) : Prop where
  value : q.value.EachName P
  element : ∀ element ∈ q.gathered, isClosed element
  table : q.table.EachName P
  tableAlias : P q.tableAlias
  join : ∀ join ∈ q.join, join.EachName P
  conditions : ∀ comparison ∈ q.conditions, comparison.EachName P

def SelectItem.EachName (P : String → Prop) : SelectItem π → Prop
  | .column c => c.EachName P
  | .nested query _ => query.EachName P
  | .joined tableAlias entries _ => P tableAlias ∧ P "id" ∧ EachEntryName P entries

structure LeftJoin.EachName (P : String → Prop) (join : LeftJoin π) : Prop where
  table : join.table.EachName P
  tableAlias : P join.tableAlias
  conditions : ∀ comparison ∈ join.conditions, comparison.EachName P

structure Select.EachName (P : String → Prop) (s : Select π) : Prop where
  items : ∀ item ∈ s.items, item.EachName P
  table : s.table.EachName P
  tableAlias : P s.tableAlias
  joins : ∀ join ∈ s.joins, join.EachName P
  conditions : ∀ condition ∈ s.conditions, condition.EachName P
  order : ∀ order ∈ s.order, order.column.EachName P

def Assignment.EachName (P : String → Prop) (a : Assignment π) : Prop :=
  P a.column

def Resolution.EachName (P : String → Prop) : Resolution π → Prop
  | .keep => True
  | .change assignments conditions =>
      (∀ assignment ∈ assignments, assignment.EachName P) ∧
        ∀ condition ∈ conditions, condition.EachName P

structure Insert.EachName (P : String → Prop) (s : Insert π) : Prop where
  table : s.table.EachName P
  columns : ∀ column ∈ s.columns, P column
  target : ∀ conflict ∈ s.conflict, ∀ column ∈ conflict.target, P column
  resolution : ∀ conflict ∈ s.conflict, conflict.resolution.EachName P
  returning : ∀ column ∈ s.returning, P column

def Statement.returned : Statement π → List String
  | .insert s => s.returning
  | .update .. | .delete .. | .select _ | .lookup _ => []

structure TierLookup.EachName (P : String → Prop) (s : TierLookup π) : Prop where
  table : s.table.EachName P
  conditions : ∀ comparison ∈ s.conditions, comparison.EachName P

def Statement.EachName (P : String → Prop) : Statement π → Prop
  | .insert s => s.EachName P
  | .update table assignments conditions =>
      table.EachName P ∧ (∀ assignment ∈ assignments, assignment.EachName P) ∧
        ∀ condition ∈ conditions, condition.EachName P
  | .delete table conditions =>
      table.EachName P ∧ ∀ condition ∈ conditions, condition.EachName P
  | .select s => s.EachName P
  | .lookup s => s.EachName P

/-! ## Legible text -/

open Fragment (Legible)

theorem TableName.fragment_legible {t : TableName} (names : t.EachName P) :
    Legible P true (t.fragment : Fragment π) :=
  .name names.1 (.dotted (by decide) (by decide) names.2 trivial)

theorem TableName.withAlias_legible {t : TableName} (names : t.EachName P) {tableAlias : String}
    (aliasName : P tableAlias) : Legible P true (t.withAlias tableAlias : Fragment π) :=
  (fragment_legible names).follow (.enclosed (by decide) (.name aliasName trivial))

theorem Column.fragment_legible {c : Column} (names : c.EachName P) :
    Legible P true (c.fragment : Fragment π) := by
  obtain ⟨table, name⟩ := c
  cases table with
  | none => exact .name names.2 trivial
  | some table =>
      exact .name (names.1 table rfl) (.dotted (by decide) (by decide) names.2 trivial)

theorem Operand.fragment_legible {operand : Operand π} (names : operand.EachName P) :
    Legible P true operand.fragment := by
  cases operand with
  | column c => exact Column.fragment_legible names
  | param p => exact .param trivial

theorem constants_legible (values : List String) :
    Legible P true (constants values : Fragment π) := by
  refine .commas fun _ mapped => ?_
  obtain ⟨value, _, rfl⟩ := List.mem_map.mp mapped
  exact .literal trivial

theorem Comparison.fragment_legible {comparison : Comparison π} (names : comparison.EachName P) :
    Legible P true comparison.fragment := by
  cases comparison with
  | equals column value =>
      rw [fragment, Fragment.words, List.append_assoc]
      exact (Column.fragment_legible names.1).follow
        (.enclosed (by decide) (Operand.fragment_legible names.2))
  | inArray column array | notInArray column array =>
      exact (Column.fragment_legible names).follow
        (.enclosed (by decide) (.param (.enclosed (by decide) trivial)))
  | oneOf column values =>
      rw [fragment, Fragment.words, Fragment.words, List.append_assoc, List.append_assoc]
      exact (Column.fragment_legible names).follow
        (.enclosed (by decide) ((constants_legible values).follow (.enclosed (by decide) trivial)))

theorem conjunction_legible {α : Type} {items : List α} {fragment : α → Fragment π}
    (each : ∀ item ∈ items, Legible P true (fragment item)) :
    Legible P true (conjunction (items.map fragment)) := by
  refine .separated (by decide) fun _ mapped => ?_
  obtain ⟨item, member, rfl⟩ := List.mem_map.mp mapped
  exact each item member

theorem Condition.fragment_legible {condition : Condition π} (names : condition.EachName P) :
    Legible P true condition.fragment := by
  cases condition with
  | holds comparison => exact Comparison.fragment_legible names
  | someRow table comparisons =>
      have tests : Legible P true (conjunction (comparisons.map Comparison.fragment)) :=
        conjunction_legible fun comparison member =>
          Comparison.fragment_legible (names.2 comparison member)
      simp only [fragment, Fragment.words, List.append_assoc, List.cons_append, List.nil_append]
      exact .leading (by decide) ((TableName.fragment_legible names.1).follow
        (.enclosed (by decide) (tests.follow (.enclosed (by decide) trivial))))

theorem whereClause_legible {conditions : List (Condition π)}
    (names : ∀ condition ∈ conditions, condition.EachName P) :
    Legible P false (whereClause conditions) := by
  have tests : Legible P true (conjunction (conditions.map Condition.fragment)) :=
    conjunction_legible fun condition member => Condition.fragment_legible (names condition member)
  cases conditions with
  | nil => trivial
  | cons condition rest => exact .enclosed (by decide) tests

theorem objectFragment_legible {entries : List (String × Column)}
    (names : EachEntryName P entries) :
    Legible P true (objectFragment entries : Fragment π) := by
  have contents : Legible P true (objectEntries entries : Fragment π) := by
    refine .commas fun _ mapped => ?_
    obtain ⟨entry, member, rfl⟩ := List.mem_map.mp mapped
    exact .literal (.enclosed (by decide) (Column.fragment_legible (names entry member)))
  rw [objectFragment, Fragment.words, Fragment.words, List.append_assoc]
  exact .leading (by decide) (contents.follow (.enclosed (by decide) trivial))

theorem RowValue.fragment_legible {value : RowValue} (names : value.EachName P) :
    Legible P true (value.fragment : Fragment π) := by
  cases value with
  | column c => exact Column.fragment_legible names
  | object entries => exact objectFragment_legible names

theorem Subquery.fragment_legible {q : Subquery π} (names : q.EachName P) :
    Legible P false q.fragment := by
  obtain ⟨value, gathered, table, tableAlias, join, conditions, firstOnly⟩ := q
  have tests : Legible P true (conjunction (conditions.map Comparison.fragment)) :=
    conjunction_legible fun comparison member =>
      Comparison.fragment_legible (names.conditions comparison member)
  have ending : Legible P false (if firstOnly then Fragment.words " LIMIT 1)" else .words ")" :
      Fragment π) := by
    cases firstOnly <;> exact .enclosed (by decide) trivial
  have selected := RowValue.fragment_legible (π := π) names.value
  have from_ := TableName.withAlias_legible (π := π) names.table names.tableAlias
  simp only [fragment, Fragment.words, List.append_assoc, List.cons_append, List.nil_append]
    at ending ⊢
  refine .enclosed (by decide) (.follow ?_ (.enclosed (by decide) (from_.follow (.follow ?_
    (.enclosed (by decide) (tests.follow ending))))))
  · cases gathered with
    | none => exact selected
    | some element =>
        exact .leading (by decide) (selected.follow (.enclosed (by decide)
          (.inner (names.element element rfl) (.enclosed (by decide) trivial))))
  · cases join with
    | none => trivial
    | some join =>
        have joined := names.join join rfl
        exact .enclosed (by decide) ((TableName.withAlias_legible joined.table joined.tableAlias).follow
          (.enclosed (by decide) (Comparison.fragment_legible joined.condition)))

theorem SelectItem.fragment_legible {item : SelectItem π} (names : item.EachName P) :
    Legible P true item.fragment := by
  cases item with
  | column c => exact Column.fragment_legible names
  | nested query label =>
      exact (Subquery.fragment_legible names).weaken.follow
        (.enclosed (by decide) (.label trivial))
  | joined tableAlias entries label =>
      have key : Legible P true (Column.fragment ⟨some tableAlias, "id"⟩ : Fragment π) :=
        Column.fragment_legible ⟨fun _ same => by cases same; exact names.1, names.2.1⟩
      have object := objectFragment_legible (π := π) names.2.2
      simp only [fragment, Fragment.words, List.append_assoc, List.cons_append, List.nil_append]
      exact .leading (by decide) (key.follow (.enclosed (by decide) (object.follow
        (.enclosed (by decide) (.label trivial)))))

theorem LeftJoin.fragment_legible {join : LeftJoin π} (names : join.EachName P) :
    Legible P false join.fragment := by
  have tests : Legible P true (conjunction (join.conditions.map Comparison.fragment)) :=
    conjunction_legible fun comparison member =>
      Comparison.fragment_legible (names.conditions comparison member)
  simp only [fragment, Fragment.words, List.append_assoc, List.cons_append, List.nil_append]
  exact .enclosed (by decide) ((TableName.withAlias_legible names.table names.tableAlias).follow
    (.enclosed (by decide) tests))

theorem OrderTerm.fragment_legible {order : OrderTerm} (names : order.column.EachName P) :
    Legible P true (order.fragment : Fragment π) := by
  refine (Column.fragment_legible names).follow ?_
  cases order.descending <;> exact .trailing (by decide) trivial

theorem Select.fragment_legible {s : Select π} (names : s.EachName P) :
    Legible P true s.fragment := by
  have items : Legible P true (.commas (s.items.map SelectItem.fragment)) := by
    refine .commas fun _ mapped => ?_
    obtain ⟨item, member, rfl⟩ := List.mem_map.mp mapped
    exact SelectItem.fragment_legible (names.items item member)
  have joins : Legible P false (.concat (s.joins.map LeftJoin.fragment)) := by
    refine .concat fun _ mapped => ?_
    obtain ⟨join, member, rfl⟩ := List.mem_map.mp mapped
    exact LeftJoin.fragment_legible (names.joins join member)
  simp only [fragment, source, Fragment.words, List.append_assoc, List.cons_append,
    List.nil_append]
  refine .leading (by decide) (items.follow (.enclosed (by decide)
    ((TableName.withAlias_legible names.table names.tableAlias).follow (joins.follow
      ((whereClause_legible names.conditions).follow (.follow ?_ ?_))))))
  · cases ordered : s.order with
    | none => trivial
    | some order =>
        exact .enclosed (by decide) (OrderTerm.fragment_legible (names.order order ordered))
  · cases s.page with
    | none => trivial
    | some page =>
        exact .enclosed (by decide) (.param (.enclosed (by decide) (.param trivial)))

theorem assignmentList_legible {assignments : List (Assignment π)}
    (names : ∀ assignment ∈ assignments, assignment.EachName P) :
    Legible P true (assignmentList assignments) := by
  refine .commas fun _ mapped => ?_
  obtain ⟨⟨column, value⟩, member, rfl⟩ := List.mem_map.mp mapped
  have named := names _ member
  refine .name named (.enclosed (by decide) ?_)
  cases value with
  | param p => exact .param trivial
  | proposed => exact .dotted (by decide) (by decide) named trivial
  | now => exact .leading (by decide) trivial

theorem nameList_legible {names : List String} (each : ∀ name ∈ names, P name) :
    Legible P true (nameList names : Fragment π) := by
  refine .commas fun _ mapped => ?_
  obtain ⟨name, member, rfl⟩ := List.mem_map.mp mapped
  exact .name (each name member) trivial

theorem Conflict.fragment_legible {c : Conflict π} (target : ∀ column ∈ c.target, P column)
    (resolution : c.resolution.EachName P) : Legible P false c.fragment := by
  obtain ⟨columns, resolved⟩ := c
  simp only [fragment, Fragment.words, List.cons_append, List.nil_append]
  refine .enclosed (by decide) ((nameList_legible target).follow ?_)
  cases resolved with
  | keep => exact .trailing (by decide) trivial
  | change assignments conditions =>
      exact .enclosed (by decide) ((assignmentList_legible resolution.1).follow
        (whereClause_legible resolution.2))

theorem Insert.fragment_legible {s : Insert π} (names : s.EachName P) :
    Legible P true s.fragment := by
  have values : Legible P true (.commas (s.values.map fun p => [Piece.param p])) := by
    refine .commas fun _ mapped => ?_
    obtain ⟨p, _, rfl⟩ := List.mem_map.mp mapped
    exact .param trivial
  simp only [fragment, Fragment.words, List.append_assoc, List.cons_append, List.nil_append]
  refine .leading (by decide) ((TableName.fragment_legible names.table).follow
    (.enclosed (by decide) ((nameList_legible names.columns).follow (.enclosed (by decide)
      (values.follow (.enclosed (by decide) (.weaken (.follow ?_
        (.enclosed (by decide) (nameList_legible names.returning))))))))))
  cases stated : s.conflict with
  | none => trivial
  | some conflict =>
      exact Conflict.fragment_legible (names.target conflict stated)
        (names.resolution conflict stated)

theorem TierLookup.fragment_legible {s : TierLookup π} (names : s.EachName P) :
    Legible P true s.fragment := by
  have tiers : Legible P false (.concat (s.tiers.map tierBranch) : Fragment π) := by
    refine .concat fun _ mapped => ?_
    obtain ⟨⟨test, tier⟩, _, rfl⟩ := List.mem_map.mp mapped
    have tested : Legible P true (test.fragment : Fragment π) := by
      cases test with
      | oneOf permissions =>
          exact .leading (by decide) ((constants_legible permissions).follow
            (.enclosed (by decide) trivial))
      | exactly permission => exact .leading (by decide) (.literal trivial)
    exact .enclosed (by decide) (tested.follow (.enclosed (by decide) (.literal trivial)))
  have tests : Legible P true (conjunction (s.conditions.map Comparison.fragment)) :=
    conjunction_legible fun comparison member =>
      Comparison.fragment_legible (names.conditions comparison member)
  simp only [fragment, Fragment.words, List.append_assoc, List.cons_append, List.nil_append]
  exact .inner (by decide) (tiers.follow (.enclosed (by decide)
    ((TableName.fragment_legible names.table).follow (.enclosed (by decide) tests))))

/-- The text of a statement is legible with names of any property that all of its names have. -/
theorem Statement.fragment_legible {s : Statement π} (names : s.EachName P) :
    Legible P true s.fragment := by
  cases s with
  | insert s => exact Insert.fragment_legible names
  | update table assignments conditions =>
      simp only [fragment, Fragment.words, List.append_assoc, List.cons_append, List.nil_append]
      exact .leading (by decide) ((TableName.fragment_legible names.1).follow
        (.enclosed (by decide) ((assignmentList_legible names.2.1).follow
          (whereClause_legible names.2.2))))
  | delete table conditions =>
      simp only [fragment, Fragment.words, List.cons_append, List.nil_append]
      exact .leading (by decide) ((TableName.fragment_legible names.1).follow
        (whereClause_legible names.2))
  | select s => exact Select.fragment_legible names
  | lookup s => exact TierLookup.fragment_legible names

end TenantSql.Sql
