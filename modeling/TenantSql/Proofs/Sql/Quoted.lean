import TenantSql.Sql.Printer

/-!
# What a statement quotes

The constants and labels of a statement, part by part: the values that columns
are compared with, the keys of JSON objects, the tiers, and the labels of nested
rows. They are what stands in quotes in its text.
-/

namespace TenantSql.Sql

variable {π : Type}

inductive Quote where
  | constant (value : String)
  | label (name : String)
  deriving DecidableEq, Repr

def Quote.text : Quote → String
  | .constant value => value
  | .label name => name

def Piece.quote? : Piece π → Option Quote
  | .literal s => some (.constant s)
  | .label s => some (.label s)
  | .fixed _ | .name _ | .param _ => none

namespace Fragment

def quotes (fragment : Fragment π) : List Quote :=
  fragment.filterMap Piece.quote?

@[simp] theorem quotes_nil : quotes ([] : Fragment π) = [] := rfl

@[simp] theorem quotes_append (front back : Fragment π) :
    quotes (front ++ back) = quotes front ++ quotes back :=
  List.filterMap_append

@[simp] theorem quotes_words (text : String) : quotes (words text : Fragment π) = [] := rfl

@[simp] theorem quotes_fixed (text : String) (rest : Fragment π) :
    quotes (.fixed text :: rest) = quotes rest := rfl

@[simp] theorem quotes_name (text : String) (rest : Fragment π) :
    quotes (.name text :: rest) = quotes rest := rfl

@[simp] theorem quotes_param (p : π) (rest : Fragment π) :
    quotes (.param p :: rest) = quotes rest := rfl

@[simp] theorem quotes_literal (value : String) (rest : Fragment π) :
    quotes (.literal value :: rest) = .constant value :: quotes rest := rfl

@[simp] theorem quotes_label (name : String) (rest : Fragment π) :
    quotes (.label name :: rest) = .label name :: quotes rest := rfl

@[simp] theorem quotes_separated (separator : String) (items : List (Fragment π)) :
    quotes (separated separator items) = items.flatMap quotes := by
  induction items with
  | nil => rfl
  | cons first others induction =>
      cases others with
      | nil => simp [separated]
      | cons second others => simp [separated, induction]

@[simp] theorem quotes_commas (items : List (Fragment π)) :
    quotes (commas items) = items.flatMap quotes :=
  quotes_separated ", " items

@[simp] theorem quotes_concat (items : List (Fragment π)) :
    quotes (concat items) = items.flatMap quotes := by
  induction items with
  | nil => rfl
  | cons first others induction =>
      rw [concat] at induction ⊢
      rw [List.flatten_cons, quotes_append, induction, List.flatMap_cons]

end Fragment

/-! ## The parts of a statement -/

def Comparison.quotes : Comparison π → List Quote
  | .equals .. | .inArray .. | .notInArray .. => []
  | .oneOf _ values => values.map .constant

def Condition.quotes : Condition π → List Quote
  | .holds comparison => comparison.quotes
  | .someRow _ comparisons => comparisons.flatMap Comparison.quotes

def RowValue.quotes : RowValue → List Quote
  | .column _ => []
  | .object entries => entries.map fun entry => .constant entry.1

def Subquery.quotes (q : Subquery π) : List Quote :=
  q.value.quotes ++ q.join.toList.flatMap (fun join => join.condition.quotes) ++
    q.conditions.flatMap Comparison.quotes

def SelectItem.quotes : SelectItem π → List Quote
  | .column _ => []
  | .nested query label => query.quotes ++ [.label label]
  | .joined _ entries label => (RowValue.object entries).quotes ++ [.label label]

def LeftJoin.quotes (join : LeftJoin π) : List Quote :=
  join.conditions.flatMap Comparison.quotes

def Select.quotes (s : Select π) : List Quote :=
  s.items.flatMap SelectItem.quotes ++ s.joins.flatMap LeftJoin.quotes ++
    s.conditions.flatMap Condition.quotes

def Resolution.quotes : Resolution π → List Quote
  | .keep => []
  | .change _ conditions => conditions.flatMap Condition.quotes

def Insert.quotes (s : Insert π) : List Quote :=
  s.conflict.toList.flatMap fun conflict => conflict.resolution.quotes

def PermissionTest.quotes : PermissionTest → List Quote
  | .oneOf permissions => permissions.map .constant
  | .exactly permission => [.constant permission]

def TierLookup.quotes (s : TierLookup π) : List Quote :=
  s.tiers.flatMap (fun tier => tier.1.quotes ++ [.constant tier.2]) ++
    s.conditions.flatMap Comparison.quotes

def Statement.quotes : Statement π → List Quote
  | .insert s => s.quotes
  | .update _ _ conditions | .delete _ conditions => conditions.flatMap Condition.quotes
  | .select s => s.quotes
  | .lookup s => s.quotes

/-! ## Their text -/

open Fragment

@[simp] theorem TableName.quotes_fragment (t : TableName) :
    quotes (t.fragment : Fragment π) = [] := rfl

@[simp] theorem TableName.quotes_withAlias (t : TableName) (tableAlias : String) :
    quotes (t.withAlias tableAlias : Fragment π) = [] := rfl

@[simp] theorem Column.quotes_fragment (c : Column) : quotes (c.fragment : Fragment π) = [] := by
  obtain ⟨table, name⟩ := c
  cases table <;> rfl

@[simp] theorem Operand.quotes_fragment (operand : Operand π) : quotes operand.fragment = [] := by
  cases operand <;> simp [fragment]

@[simp] theorem quotes_constants (values : List String) :
    quotes (constants values : Fragment π) = values.map .constant := by
  simp [constants, List.flatMap_map, ← List.map_eq_flatMap]

@[simp] theorem Comparison.quotes_fragment (comparison : Comparison π) :
    Fragment.quotes comparison.fragment = comparison.quotes := by
  cases comparison <;> simp [fragment, quotes]

@[simp] theorem quotes_conjunction (items : List (Fragment π)) :
    quotes (conjunction items) = items.flatMap quotes :=
  quotes_separated " AND " items

@[simp] theorem Condition.quotes_fragment (condition : Condition π) :
    Fragment.quotes condition.fragment = condition.quotes := by
  cases condition <;> simp [fragment, quotes, List.flatMap_map]

@[simp] theorem quotes_whereClause (conditions : List (Condition π)) :
    quotes (whereClause conditions) = conditions.flatMap Condition.quotes := by
  cases conditions <;> simp [whereClause, List.flatMap_map]

@[simp] theorem quotes_objectFragment (entries : List (String × Column)) :
    quotes (objectFragment entries : Fragment π) = (RowValue.object entries).quotes := by
  simp [objectFragment, objectEntries, RowValue.quotes, List.flatMap_map, ← List.map_eq_flatMap]

@[simp] theorem RowValue.quotes_fragment (value : RowValue) :
    Fragment.quotes (value.fragment : Fragment π) = value.quotes := by
  cases value <;> simp [fragment, quotes]

@[simp] theorem Subquery.quotes_fragment (q : Subquery π) :
    Fragment.quotes q.fragment = q.quotes := by
  obtain ⟨value, gathered, table, tableAlias, join, conditions, firstOnly⟩ := q
  cases gathered <;> cases join <;> cases firstOnly <;>
    simp [fragment, quotes, List.flatMap_map]

@[simp] theorem SelectItem.quotes_fragment (item : SelectItem π) :
    Fragment.quotes item.fragment = item.quotes := by
  cases item <;> simp [fragment, quotes]

@[simp] theorem LeftJoin.quotes_fragment (join : LeftJoin π) :
    Fragment.quotes join.fragment = join.quotes := by
  simp [fragment, quotes, List.flatMap_map]

@[simp] theorem Select.quotes_fragment (s : Select π) : Fragment.quotes s.fragment = s.quotes := by
  obtain ⟨items, table, tableAlias, joins, conditions, order, page⟩ := s
  cases order <;> cases page <;>
    simp [fragment, source, quotes, OrderTerm.fragment, List.flatMap_map]

@[simp] theorem quotes_assignmentList (assignments : List (Assignment π)) :
    quotes (assignmentList assignments) = [] := by
  have each (a : Assignment π) : quotes a.fragment = [] := by
    obtain ⟨column, value⟩ := a
    cases value <;> rfl
  simp [assignmentList, List.flatMap_map, each]

@[simp] theorem quotes_nameList (names : List String) :
    quotes (nameList names : Fragment π) = [] := by
  simp [nameList, List.flatMap_map]

@[simp] theorem Conflict.quotes_fragment (c : Conflict π) :
    quotes c.fragment = c.resolution.quotes := by
  obtain ⟨target, resolution⟩ := c
  cases resolution <;> simp [fragment, Resolution.quotes]

@[simp] theorem Insert.quotes_fragment (s : Insert π) : Fragment.quotes s.fragment = s.quotes := by
  obtain ⟨table, columns, values, conflict, returning⟩ := s
  cases conflict <;> simp [fragment, quotes, List.flatMap_map]

@[simp] theorem TierLookup.quotes_fragment (s : TierLookup π) :
    Fragment.quotes s.fragment = s.quotes := by
  have tested (tier : PermissionTest × String) :
      Fragment.quotes (tierBranch tier : Fragment π) = tier.1.quotes ++ [.constant tier.2] := by
    obtain ⟨test, tier⟩ := tier
    cases test <;> simp [tierBranch, PermissionTest.fragment, PermissionTest.quotes]
  simp [fragment, quotes, List.flatMap_map, tested]

theorem Statement.quotes_fragment (s : Statement π) : Fragment.quotes s.fragment = s.quotes := by
  cases s <;> simp [fragment, quotes]

end TenantSql.Sql
