import TenantSql.Sql.Statement

/-!
# Columns in scope

A statement names columns of the tables that it reads or writes: bare ones of
its own table, and others after the name or alias of a table in the same query
or in one around it. The columns are known if the tables have them. What a
permission table has is not asked.
-/

namespace TenantSql.Sql

variable {π : Type}

/-! ## Names of tables -/

abbrev Scope := List (String × TableName)

/-- What a name stands for has a property: all tables of this name in the innermost query that has
one. -/
def StandsFor (name : String) (holds : TableName → Prop) : List Scope → Prop
  | [] => False
  | scope :: outer =>
      if ∃ entry ∈ scope, entry.1 = name then ∀ entry ∈ scope, entry.1 = name → holds entry.2
      else StandsFor name holds outer

def TableName.scope (t : TableName) : Scope :=
  [(t.table, t)]

def Subquery.scope (q : Subquery π) : Scope :=
  (q.tableAlias, q.table) :: q.join.toList.map fun join => (join.tableAlias, join.table)

def Select.scope (s : Select π) : Scope :=
  (s.tableAlias, s.table) :: s.joins.map fun join => (join.tableAlias, join.table)

/-- The names of the table that a row is inserted into; the row itself stands for it as well. -/
def Insert.scope (s : Insert π) : Scope :=
  [(s.table.table, s.table), ("EXCLUDED", s.table)]

theorem standsFor_cons {name : String} {holds : TableName → Prop} {scope : Scope}
    {outer : List Scope} (among : ∃ entry ∈ scope, entry.1 = name) :
    StandsFor name holds (scope :: outer) ↔ ∀ entry ∈ scope, entry.1 = name → holds entry.2 := by
  rw [StandsFor, if_pos among]

theorem standsFor_outer {name : String} {holds : TableName → Prop} {scope : Scope}
    {outer : List Scope} (other : ∀ entry ∈ scope, entry.1 ≠ name) :
    StandsFor name holds (scope :: outer) ↔ StandsFor name holds outer := by
  rw [StandsFor, if_neg fun ⟨entry, member, same⟩ => other entry member same]

/-! ## Known columns -/

/-- The column is one of the tables that its qualifier stands for; a bare one is a column of the
tables of its own query. -/
def Column.Known (has : TableName → String → Prop) (scopes : List Scope) (c : Column) : Prop :=
  match c.table with
  | some name => StandsFor name (has · c.name) scopes
  | none => ∀ scope ∈ scopes.head?, ∀ entry ∈ scope, has entry.2 c.name

theorem Column.known_single {has : TableName → String → Prop} {scope : Scope} {outer : List Scope}
    {table : TableName} {owner : Option String} {name : String}
    (single : ∀ entry ∈ scope, entry.2 = table) (some : scope ≠ [])
    (named : ∀ name ∈ owner, ∃ entry ∈ scope, entry.1 = name) :
    Column.Known has (scope :: outer) ⟨owner, name⟩ ↔ has table name := by
  cases owner with
  | none =>
      obtain ⟨entry, member⟩ := List.exists_mem_of_ne_nil scope some
      refine ⟨fun known => single entry member ▸ known scope rfl entry member,
        fun held scope same entry member => ?_⟩
      cases same
      exact single entry member ▸ held
  | some owner =>
      obtain ⟨entry, member, same⟩ := named owner rfl
      refine (standsFor_cons (named owner rfl)).trans
        ⟨fun known => single entry member ▸ known entry member same,
          fun held entry member _ => ?_⟩
      exact single entry member ▸ held

theorem Column.known_qualified {has : TableName → String → Prop} {scope : Scope}
    {outer : List Scope} {owner name : String} (among : ∃ entry ∈ scope, entry.1 = owner) :
    Column.Known has (scope :: outer) ⟨some owner, name⟩ ↔
      ∀ entry ∈ scope, entry.1 = owner → has entry.2 name :=
  standsFor_cons among

theorem Column.known_outer {has : TableName → String → Prop} {scope : Scope} {outer : List Scope}
    {owner name : String} (other : ∀ entry ∈ scope, entry.1 ≠ owner) :
    Column.Known has (scope :: outer) ⟨some owner, name⟩ ↔
      Column.Known has outer ⟨some owner, name⟩ :=
  standsFor_outer other

theorem Subquery.known_first {has : TableName → String → Prop} {q : Subquery π}
    {outer : List Scope} {name : String} (apart : ∀ join ∈ q.join, join.tableAlias ≠ q.tableAlias) :
    Column.Known has (q.scope :: outer) ⟨some q.tableAlias, name⟩ ↔ has q.table name := by
  refine (Column.known_qualified ⟨_, List.mem_cons_self, rfl⟩).trans
    ⟨fun known => known _ List.mem_cons_self rfl, fun held entry member same => ?_⟩
  rcases List.mem_cons.mp member with rfl | second
  · exact held
  · obtain ⟨join, given, rfl⟩ := List.mem_map.mp second
    exact absurd same (apart join (Option.mem_toList.mp given))

theorem Subquery.known_second {has : TableName → String → Prop} {q : Subquery π}
    {outer : List Scope} {name : String} {join : InnerJoin π} (given : q.join = some join)
    (apart : join.tableAlias ≠ q.tableAlias) :
    Column.Known has (q.scope :: outer) ⟨some join.tableAlias, name⟩ ↔ has join.table name := by
  have scope : q.scope = [(q.tableAlias, q.table), (join.tableAlias, join.table)] := by
    rw [Subquery.scope, given]
    rfl
  rw [scope, Column.known_qualified ⟨_, List.mem_cons_of_mem _ List.mem_cons_self, rfl⟩]
  simp [apart.symm]

def Operand.Known (has : TableName → String → Prop) (scopes : List Scope) : Operand π → Prop
  | .column c => c.Known has scopes
  | .param _ => True

def Comparison.Known (has : TableName → String → Prop) (scopes : List Scope) :
    Comparison π → Prop
  | .equals column value => column.Known has scopes ∧ value.Known has scopes
  | .inArray column _ | .notInArray column _ | .oneOf column _ => column.Known has scopes

def Condition.Known (has : TableName → String → Prop) (scopes : List Scope) : Condition π → Prop
  | .holds comparison => comparison.Known has scopes
  | .someRow .. => True

def RowValue.Known (has : TableName → String → Prop) (scopes : List Scope) : RowValue → Prop
  | .column c => c.Known has scopes
  | .object entries => ∀ entry ∈ entries, entry.2.Known has scopes

structure Subquery.Known (has : TableName → String → Prop) (outer : List Scope) (q : Subquery π) :
    Prop where
  value : q.value.Known has (q.scope :: outer)
  join : ∀ join ∈ q.join, join.condition.Known has (q.scope :: outer)
  conditions : ∀ comparison ∈ q.conditions, comparison.Known has (q.scope :: outer)

def SelectItem.Known (has : TableName → String → Prop) (scopes : List Scope) :
    SelectItem π → Prop
  | .column c => c.Known has scopes
  | .nested query _ => query.Known has scopes
  | .joined tableAlias entries _ =>
      Column.Known has scopes ⟨some tableAlias, "id"⟩ ∧
        ∀ entry ∈ entries, entry.2.Known has scopes

structure Select.Known (has : TableName → String → Prop) (s : Select π) : Prop where
  items : ∀ item ∈ s.items, item.Known has [s.scope]
  joins : ∀ join ∈ s.joins, ∀ comparison ∈ join.conditions, comparison.Known has [s.scope]
  conditions : ∀ condition ∈ s.conditions, condition.Known has [s.scope]
  order : ∀ order ∈ s.order, order.column.Known has [s.scope]

def Assignment.Known (has : TableName → String → Prop) (scopes : List Scope) (a : Assignment π) :
    Prop :=
  Column.Known has scopes ⟨none, a.column⟩ ∧
    match a.value with
    | .proposed => Column.Known has scopes ⟨some "EXCLUDED", a.column⟩
    | .param _ | .now => True

def Resolution.Known (has : TableName → String → Prop) (scopes : List Scope) :
    Resolution π → Prop
  | .keep => True
  | .change assignments conditions =>
      (∀ assignment ∈ assignments, assignment.Known has scopes) ∧
        ∀ condition ∈ conditions, condition.Known has scopes

structure Insert.Known (has : TableName → String → Prop) (s : Insert π) : Prop where
  columns : ∀ column ∈ s.columns, Column.Known has [s.scope] ⟨none, column⟩
  target : ∀ conflict ∈ s.conflict, ∀ column ∈ conflict.target,
    Column.Known has [s.scope] ⟨none, column⟩
  resolution : ∀ conflict ∈ s.conflict, conflict.resolution.Known has [s.scope]
  returning : ∀ full ∈ s.returning, ∃ column, full = s.table.table ++ "." ++ column ∧
    Column.Known has [s.scope] ⟨some s.table.table, column⟩

def Statement.Known (has : TableName → String → Prop) : Statement π → Prop
  | .insert s => s.Known has
  | .update table assignments conditions =>
      (∀ assignment ∈ assignments, assignment.Known has [table.scope]) ∧
        ∀ condition ∈ conditions, condition.Known has [table.scope]
  | .delete table conditions => ∀ condition ∈ conditions, condition.Known has [table.scope]
  | .select s => s.Known has
  | .lookup _ => True

end TenantSql.Sql
