import TenantSql.Proofs.Model.Identifier
import TenantSql.Proofs.Sql.Scope

/-!
# The columns that a statement uses

Every place where a statement has a column, together with the tables that the
column may belong to there. Some of these columns are returned, at the top or
inside nested rows; the others are written, tested or sorted by. Some tests set
one column against another.
-/

namespace TenantSql.Sql

variable {π : Type}

structure Use where
  scopes : List Scope
  column : Column
  deriving DecidableEq, Repr

/-! ## The parts of a statement -/

def Use.bare (scope : Scope) (name : String) : Use :=
  ⟨[scope], { name }⟩

def Operand.uses (scopes : List Scope) : Operand π → List Use
  | .column c => [⟨scopes, c⟩]
  | .param _ => []

def Comparison.uses (scopes : List Scope) : Comparison π → List Use
  | .equals column value => ⟨scopes, column⟩ :: value.uses scopes
  | .inArray column _ | .notInArray column _ | .oneOf column _ => [⟨scopes, column⟩]

def Condition.uses (scopes : List Scope) : Condition π → List Use
  | .holds comparison => comparison.uses scopes
  | .someRow table comparisons =>
      comparisons.flatMap fun comparison => comparison.uses (table.scope :: scopes)

def RowValue.outputs (scopes : List Scope) : RowValue → List Use
  | .column c => [⟨scopes, c⟩]
  | .object entries => entries.map fun entry => ⟨scopes, entry.2⟩

def Subquery.tests (outer : List Scope) (q : Subquery π) : List Use :=
  q.join.toList.flatMap (fun join => join.condition.uses (q.scope :: outer)) ++
    q.conditions.flatMap (Comparison.uses (q.scope :: outer))

def SelectItem.outputs (scopes : List Scope) : SelectItem π → List Use
  | .column c => [⟨scopes, c⟩]
  | .nested query _ => query.value.outputs (query.scope :: scopes)
  | .joined _ entries _ => (RowValue.object entries).outputs scopes

def SelectItem.tests (scopes : List Scope) : SelectItem π → List Use
  | .column _ => []
  | .nested query _ => query.tests scopes
  | .joined tableAlias _ _ => [⟨scopes, ⟨some tableAlias, "id"⟩⟩]

def Select.outputs (s : Select π) : List Use :=
  s.items.flatMap (SelectItem.outputs [s.scope])

def Select.tests (s : Select π) : List Use :=
  s.items.flatMap (SelectItem.tests [s.scope]) ++
    s.joins.flatMap (fun join => join.conditions.flatMap (Comparison.uses [s.scope])) ++
    s.conditions.flatMap (Condition.uses [s.scope]) ++
    s.order.toList.map fun order => ⟨[s.scope], order.column⟩

def Assignment.uses (scope : Scope) (a : Assignment π) : List Use :=
  Use.bare scope a.column ::
    match a.value with
    | .proposed => [⟨[scope], ⟨some "EXCLUDED", a.column⟩⟩]
    | .param _ | .now => []

def Resolution.uses (scope : Scope) : Resolution π → List Use
  | .keep => []
  | .change assignments conditions =>
      assignments.flatMap (Assignment.uses scope) ++ conditions.flatMap (Condition.uses [scope])

def Insert.uses (s : Insert π) : List Use :=
  s.columns.map (Use.bare s.scope) ++
    s.conflict.toList.flatMap fun conflict =>
      conflict.target.map (Use.bare s.scope) ++ conflict.resolution.uses s.scope

def TierLookup.uses (s : TierLookup π) : List Use :=
  s.tiers.map (fun _ => Use.bare s.table.scope "permission") ++
    s.conditions.flatMap (Comparison.uses [s.table.scope])

def Statement.outputs : Statement π → List Use
  | .select s => s.outputs
  | .insert _ | .update .. | .delete .. | .lookup _ => []

def Statement.uses : Statement π → List Use
  | .insert s => s.uses
  | .update table assignments conditions =>
      assignments.flatMap (Assignment.uses table.scope) ++
        conditions.flatMap (Condition.uses [table.scope])
  | .delete table conditions => conditions.flatMap (Condition.uses [table.scope])
  | .select s => s.outputs ++ s.tests
  | .lookup s => s.uses

/-! ## The table of a column -/

/-- The table is among those that the column may belong to: whatever is known of the column holds
in this table. -/
def Use.Of (u : Use) (table : TableName) : Prop :=
  ∀ has : TableName → String → Prop, u.column.Known has u.scopes → has table u.column.name

namespace Use

variable {scope : Scope} {outer : List Scope} {name : String} {entry : String × TableName}

theorem of_bare (member : entry ∈ scope) : Of ⟨scope :: outer, ⟨none, name⟩⟩ entry.2 :=
  fun _ known => known scope rfl entry member

theorem of_qualified (member : entry ∈ scope) : Of ⟨scope :: outer, ⟨some entry.1, name⟩⟩ entry.2 :=
  fun _ known => (Column.known_qualified ⟨entry, member, rfl⟩).mp known entry member rfl

/-- A name that no table of the query has is looked for in the queries around it. -/
theorem of_outer {owner : String} {table : TableName} (other : ∀ entry ∈ scope, entry.1 ≠ owner)
    (of : Of ⟨outer, ⟨some owner, name⟩⟩ table) :
    Of ⟨scope :: outer, ⟨some owner, name⟩⟩ table :=
  fun has known => of has ((Column.known_outer other).mp known)

theorem of_first {q : Subquery π} : Of ⟨q.scope :: outer, ⟨some q.tableAlias, name⟩⟩ q.table := by
  have among : (q.tableAlias, q.table) ∈ q.scope := List.mem_cons_self
  exact of_qualified among

end Use

/-! ## Names as they are read -/

def TableName.read (t : TableName) : TableName :=
  ⟨readName t.schema, readName t.table⟩

/-- The column is the one of this name in the table: every table that the column may belong to is
this one. -/
structure Use.Names (u : Use) (table : TableName) (name : String) : Prop where
  column : readName u.column.name = readName name
  table : u.column.Known (fun other _ => other.read = table.read) u.scopes

theorem Use.Names.read_eq {u : Use} {table other : TableName} {name : String}
    (names : u.Names table name) (of : u.Of other) : other.read = table.read :=
  of _ names.table

def Statement.ReturnsInFull (table : TableName) (name : String) : Statement π → Prop
  | .insert s => s.table.read = table.read ∧
      ∃ full ∈ s.returning, readName full = readName table.table ++ "." ++ readName name
  | .update .. | .delete .. | .select _ | .lookup _ => False

def Statement.Names (s : Statement π) (table : TableName) (name : String) : Prop :=
  (∃ u ∈ s.uses, u.Names table name) ∨ s.ReturnsInFull table name

def Statement.Returns (s : Statement π) (table : TableName) (name : String) : Prop :=
  (∃ u ∈ s.outputs, u.Names table name) ∨ s.ReturnsInFull table name

/-! ## Columns that are compared with columns -/

structure Pairing where
  scopes : List Scope
  left : Column
  right : Column
  deriving DecidableEq, Repr

def Comparison.pairings (scopes : List Scope) : Comparison π → List Pairing
  | .equals column (.column other) => [⟨scopes, column, other⟩]
  | .equals _ (.param _) | .inArray .. | .notInArray .. | .oneOf .. => []

def Condition.pairings (scopes : List Scope) : Condition π → List Pairing
  | .holds comparison => comparison.pairings scopes
  | .someRow table comparisons => comparisons.flatMap (Comparison.pairings (table.scope :: scopes))

def Subquery.pairings (outer : List Scope) (q : Subquery π) : List Pairing :=
  q.join.toList.flatMap (fun join => join.condition.pairings (q.scope :: outer)) ++
    q.conditions.flatMap (Comparison.pairings (q.scope :: outer))

def SelectItem.pairings (scopes : List Scope) : SelectItem π → List Pairing
  | .nested query _ => query.pairings scopes
  | .column _ | .joined .. => []

def Select.pairings (s : Select π) : List Pairing :=
  s.items.flatMap (SelectItem.pairings [s.scope]) ++
    s.joins.flatMap (fun join => join.conditions.flatMap (Comparison.pairings [s.scope])) ++
    s.conditions.flatMap (Condition.pairings [s.scope])

def Resolution.pairings (scope : Scope) : Resolution π → List Pairing
  | .keep => []
  | .change _ conditions => conditions.flatMap (Condition.pairings [scope])

def Statement.pairings : Statement π → List Pairing
  | .insert s => s.conflict.toList.flatMap fun conflict => conflict.resolution.pairings s.scope
  | .update table _ conditions | .delete table conditions =>
      conditions.flatMap (Condition.pairings [table.scope])
  | .select s => s.pairings
  | .lookup s => s.conditions.flatMap (Comparison.pairings [s.table.scope])

theorem Comparison.pairings_param (scopes : List Scope) (column : Column) (p : π) :
    (Comparison.equals column (.param p)).pairings scopes = [] := rfl

end TenantSql.Sql
