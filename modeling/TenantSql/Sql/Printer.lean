import TenantSql.Sql.Statement

/-!
# Printing statements

The text of a statement as a fragment, whose pieces tell names, constants,
labels and parameters apart. Names are written bare.
-/

namespace TenantSql.Sql

open Fragment (words commas concat)

variable {π : Type}

namespace TableName

def fragment (t : TableName) : Fragment π :=
  [.name t.schema, .fixed ".", .name t.table]

def withAlias (t : TableName) (tableAlias : String) : Fragment π :=
  t.fragment ++ [.fixed " ", .name tableAlias]

end TableName

def Column.fragment (c : Column) : Fragment π :=
  match c.table with
  | none => [.name c.name]
  | some table => [.name table, .fixed ".", .name c.name]

def Operand.fragment : Operand π → Fragment π
  | .column c => c.fragment
  | .param p => [.param p]

def constants (values : List String) : Fragment π :=
  commas (values.map fun value => [.literal value])

def Comparison.fragment : Comparison π → Fragment π
  | .equals column value => column.fragment ++ words " = " ++ value.fragment
  | .inArray column array => column.fragment ++ [.fixed " = ANY(", .param array, .fixed ")"]
  | .notInArray column array => column.fragment ++ [.fixed " <> ALL(", .param array, .fixed ")"]
  | .oneOf column values =>
      column.fragment ++ words " IN (" ++ constants values ++ words ")"

def conjunction (items : List (Fragment π)) : Fragment π :=
  .separated " AND " items

def Condition.fragment : Condition π → Fragment π
  | .holds comparison => comparison.fragment
  | .someRow table comparisons =>
      words "EXISTS (SELECT 1 FROM " ++ table.fragment ++ words " WHERE " ++
        conjunction (comparisons.map Comparison.fragment) ++ words ")"

def whereClause (conditions : List (Condition π)) : Fragment π :=
  match conditions with
  | [] => []
  | tests => words " WHERE " ++ conjunction (tests.map Condition.fragment)

def objectEntries (entries : List (String × Column)) : Fragment π :=
  commas (entries.map fun entry => .literal entry.1 :: .fixed ", " :: entry.2.fragment)

def objectFragment (entries : List (String × Column)) : Fragment π :=
  words "JSONB_BUILD_OBJECT(" ++ objectEntries entries ++ words ")"

def RowValue.fragment : RowValue → Fragment π
  | .column c => c.fragment
  | .object entries => objectFragment entries

def Subquery.fragment (q : Subquery π) : Fragment π :=
  let value := match q.gathered with
    | none => q.value.fragment
    | some element =>
        words "COALESCE(ARRAY_AGG(" ++ q.value.fragment ++
          [.fixed "), ARRAY[]::", .fixed element, .fixed "[])"]
  let join := match q.join with
    | none => []
    | some join =>
        words " JOIN " ++ join.table.withAlias join.tableAlias ++ words " ON " ++
          join.condition.fragment
  words "(SELECT " ++ value ++ words " FROM " ++ q.table.withAlias q.tableAlias ++ join ++
    words " WHERE " ++ conjunction (q.conditions.map Comparison.fragment) ++
    (if q.firstOnly then words " LIMIT 1)" else words ")")

def SelectItem.fragment : SelectItem π → Fragment π
  | .column c => c.fragment
  | .nested query label => query.fragment ++ [.fixed " AS ", .label label]
  | .joined tableAlias entries label =>
      words "CASE WHEN " ++ Column.fragment ⟨some tableAlias, "id"⟩ ++
        words " IS NOT NULL THEN " ++ objectFragment entries ++
        [.fixed " ELSE NULL END AS ", .label label]

def LeftJoin.fragment (join : LeftJoin π) : Fragment π :=
  words " LEFT JOIN " ++ join.table.withAlias join.tableAlias ++ words " ON " ++
    conjunction (join.conditions.map Comparison.fragment)

def OrderTerm.fragment (order : OrderTerm) : Fragment π :=
  order.column.fragment ++ .words (if order.descending then " DESC" else " ASC")

def Select.source (s : Select π) : Fragment π :=
  words " FROM " ++ s.table.withAlias s.tableAlias ++ concat (s.joins.map LeftJoin.fragment) ++
    whereClause s.conditions ++
    (match s.order with
      | none => []
      | some order => words " ORDER BY " ++ order.fragment) ++
    (match s.page with
      | none => []
      | some (limit, offset) => [.fixed " LIMIT ", .param limit, .fixed " OFFSET ", .param offset])

def Select.fragment (s : Select π) : Fragment π :=
  words "SELECT " ++ commas (s.items.map SelectItem.fragment) ++ s.source

def Assignment.fragment (a : Assignment π) : Fragment π :=
  [.name a.column, .fixed " = "] ++
    match a.value with
    | .param p => [.param p]
    | .proposed => [.fixed "EXCLUDED.", .name a.column]
    | .now => [.fixed "NOW()"]

def assignmentList (assignments : List (Assignment π)) : Fragment π :=
  commas (assignments.map Assignment.fragment)

def nameList (names : List String) : Fragment π :=
  commas (names.map fun name => [.name name])

def Conflict.fragment (c : Conflict π) : Fragment π :=
  words " ON CONFLICT (" ++ nameList c.target ++
    match c.resolution with
    | .keep => words ") DO NOTHING"
    | .change assignments conditions =>
        words ") DO UPDATE SET " ++ assignmentList assignments ++ whereClause conditions

def Insert.fragment (s : Insert π) : Fragment π :=
  words "INSERT INTO " ++ s.table.fragment ++ words " (" ++ nameList s.columns ++
    words ") VALUES (" ++ commas (s.values.map fun p => [.param p]) ++ words ")" ++
    (match s.conflict with
      | none => []
      | some conflict => conflict.fragment) ++
    words " RETURNING " ++ nameList s.returning

def PermissionTest.fragment : PermissionTest → Fragment π
  | .oneOf permissions => words "permission IN (" ++ constants permissions ++ words ")"
  | .exactly permission => [.fixed "permission = ", .literal permission]

def tierBranch (tier : PermissionTest × String) : Fragment π :=
  words " WHEN bool_or(" ++ tier.1.fragment ++ [.fixed ") THEN ", .literal tier.2]

def TierLookup.fragment (s : TierLookup π) : Fragment π :=
  words "SELECT CASE" ++ concat (s.tiers.map tierBranch) ++
    words " ELSE NULL END AS _permission FROM " ++ s.table.fragment ++ words " WHERE " ++
    conjunction (s.conditions.map Comparison.fragment)

def Statement.fragment : Statement π → Fragment π
  | .insert s => s.fragment
  | .update table assignments conditions =>
      words "UPDATE " ++ table.fragment ++ words " SET " ++ assignmentList assignments ++
        whereClause conditions
  | .delete table conditions =>
      words "DELETE FROM " ++ table.fragment ++ whereClause conditions
  | .select s => s.fragment
  | .lookup s => s.fragment

end TenantSql.Sql
