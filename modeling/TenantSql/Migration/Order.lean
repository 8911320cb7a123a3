import TenantSql.Model.Basic

/-!
# The order of migrations

A table comes after the tables that its columns refer to. Where that is not
possible, because references run in a circle, the tables concerned follow in the
order of declaration.
-/

namespace TenantSql.Migration

structure Edge where
  before : String
  after : String
  deriving DecidableEq, Repr

def referredTables (tables : List String) (m : Model) : List String :=
  Text.sorted (Text.distinct ((m.fields.filterMap Field.references).filter fun t =>
    tables.contains t && t != m.fullTable))

def edgesOf (models : List Model) : List Edge :=
  let tables := models.map Model.fullTable
  models.flatMap fun m => (referredTables tables m).map fun t => ⟨t, m.fullTable⟩

/-- The tables that wait for nothing once the first edges, those of the table just placed, are
gone and only the other ones remain. -/
def released (others : List Edge) : List Edge → List String
  | [] => []
  | edge :: rest =>
      if (rest ++ others).any (·.after == edge.after) then released others rest
      else edge.after :: released others rest

theorem length_released_le (others : List Edge) (edges : List Edge) :
    (released others edges).length ≤ edges.length := by
  induction edges with
  | nil => simp [released]
  | cons edge rest induction =>
      simp only [released]
      split <;> simp only [List.length_cons] <;> omega

def edgesFrom (edges : List Edge) (table : String) : List Edge :=
  edges.filter (·.before == table)

def otherEdges (edges : List Edge) (table : String) : List Edge :=
  edges.filter (·.before != table)

theorem length_edgesFrom_add_length_otherEdges (edges : List Edge) (table : String) :
    (edgesFrom edges table).length + (otherEdges edges table).length = edges.length := by
  unfold edgesFrom otherEdges
  induction edges with
  | nil => rfl
  | cons edge rest induction =>
      by_cases hit : edge.before = table <;> simp [hit] <;> omega

def place (queue : List String) (edges : List Edge) : List String :=
  match queue with
  | [] => []
  | table :: waiting =>
      table :: place
        (waiting ++ released (otherEdges edges table) (edgesFrom edges table))
        (otherEdges edges table)
termination_by queue.length + edges.length
decreasing_by
  have bound := length_released_le (otherEdges edges table) (edgesFrom edges table)
  have split := length_edgesFrom_add_length_otherEdges edges table
  simp only [List.length_append, List.length_cons]
  omega

def tableOrder (models : List Model) : List String :=
  let tables := Text.distinct (models.map Model.fullTable)
  let edges := edgesOf models
  let placed := place (tables.filter fun t => !edges.any (·.after == t)) edges
  placed ++ tables.filter fun t => !placed.contains t

/-- The models in the order in which their tables are created; of several models with one table
the last. -/
def order (models : List Model) : List Model :=
  (tableOrder models).filterMap fun table => models.reverse.find? (·.fullTable == table)

end TenantSql.Migration
