import TenantSql.Sql.Printer

/-!
# Parameters of statements

What is tested at the top of a statement, and what is inserted, is written in
its text: its parameters are parameters of the statement.
-/

namespace TenantSql.Sql

variable {π : Type} {p : π}

namespace Fragment

theorem mem_params_append {front back : Fragment π} :
    p ∈ params (front ++ back) ↔ p ∈ params front ∨ p ∈ params back := by
  rw [params_append, List.mem_append]

@[simp] theorem params_fixed {s : String} {rest : Fragment π} :
    params (.fixed s :: rest) = params rest := rfl

@[simp] theorem params_words {s : String} : params (words s : Fragment π) = [] := rfl

theorem params_separated {separator : String} {items : List (Fragment π)} :
    params (separated separator items) = items.flatMap params := by
  induction items with
  | nil => rfl
  | cons first others induction =>
      cases others with
      | nil => simp [separated]
      | cons second others =>
          rw [separated, params_append, params_fixed, induction, List.flatMap_cons]
          · simp
          · simp

theorem params_concat {items : List (Fragment π)} :
    params (concat items) = items.flatMap params := by
  induction items with
  | nil => rfl
  | cons first others induction =>
      rw [concat] at induction ⊢
      rw [List.flatten_cons, params_append, induction, List.flatMap_cons]

theorem mem_params_separated {separator : String} {items : List (Fragment π)} :
    p ∈ params (separated separator items) ↔ ∃ item ∈ items, p ∈ params item := by
  rw [params_separated, List.mem_flatMap]

end Fragment

open Fragment

theorem mem_params_conjunction {α : Type} {items : List α} {fragment : α → Fragment π} :
    p ∈ params (conjunction (items.map fragment)) ↔ ∃ item ∈ items, p ∈ params (fragment item) := by
  rw [conjunction, mem_params_separated]
  constructor
  · rintro ⟨_, mapped, used⟩
    obtain ⟨item, member, rfl⟩ := List.mem_map.mp mapped
    exact ⟨item, member, used⟩
  · rintro ⟨item, member, used⟩
    exact ⟨fragment item, List.mem_map_of_mem member, used⟩

theorem mem_params_whereClause {conditions : List (Condition π)} :
    p ∈ params (whereClause conditions) ↔ ∃ condition ∈ conditions, p ∈ params condition.fragment := by
  cases conditions with
  | nil => simp [whereClause, params]
  | cons first rest =>
      rw [whereClause, mem_params_append, mem_params_conjunction]
      · simp
      · simp

theorem TableName.params_fragment {t : TableName} : params (t.fragment : Fragment π) = [] := rfl

theorem params_nameList {names : List String} : params (nameList names : Fragment π) = [] := by
  rw [nameList, commas, params_separated, List.flatMap_map, List.flatMap_eq_nil_iff]
  exact fun _ _ => rfl

theorem params_conjunction {items : List (Fragment π)} :
    params (conjunction items) = items.flatMap params :=
  params_separated

theorem params_whereClause {conditions : List (Condition π)} :
    params (whereClause conditions) = conditions.flatMap fun c => params c.fragment := by
  cases conditions with
  | nil => rfl
  | cons first rest =>
      rw [whereClause, params_append, params_words, List.nil_append, params_conjunction,
        List.flatMap_map]
      exact nofun

theorem Column.params_fragment (c : Column) : params (c.fragment : Fragment π) = [] := by
  unfold Column.fragment
  split <;> rfl

theorem params_constants (values : List String) : params (constants values : Fragment π) = [] := by
  rw [constants, commas, params_separated, List.flatMap_map, List.flatMap_eq_nil_iff]
  exact fun _ _ => rfl

/-! ## Tests -/

def Operand.params : Operand π → List π
  | .column _ => []
  | .param p => [p]

def Comparison.params : Comparison π → List π
  | .equals _ value => value.params
  | .inArray _ array | .notInArray _ array => [array]
  | .oneOf .. => []

theorem Comparison.params_fragment (c : Comparison π) : Fragment.params c.fragment = c.params := by
  cases c with
  | equals column value =>
      cases value with
      | column other =>
          simp only [fragment, Operand.fragment, params_append, params_words,
            Column.params_fragment]
          rfl
      | param p =>
          simp only [fragment, Operand.fragment, params_append, params_words,
            Column.params_fragment]
          rfl
  | inArray column array | notInArray column array =>
      rw [fragment, params_append, Column.params_fragment]
      rfl
  | oneOf column values =>
      simp only [fragment, params_append, params_words, Column.params_fragment, params_constants]
      rfl

def Condition.params : Condition π → List π
  | .holds comparison => comparison.params
  | .someRow _ comparisons => comparisons.flatMap Comparison.params

theorem Condition.params_fragment (c : Condition π) : Fragment.params c.fragment = c.params := by
  cases c with
  | holds comparison => exact comparison.params_fragment
  | someRow table comparisons =>
      simp only [fragment, params, params_append, params_words, TableName.params_fragment,
        params_conjunction, List.flatMap_map, Comparison.params_fragment, List.nil_append,
        List.append_nil]

theorem params_equals (c : Column) (p : π) :
    params (Condition.holds (.equals c (.param p))).fragment = [p] :=
  Condition.params_fragment _

def Assignment.params (a : Assignment π) : List π :=
  match a.value with
  | .param p => [p]
  | .proposed | .now => []

theorem Assignment.params_fragment (a : Assignment π) : Fragment.params a.fragment = a.params := by
  cases value : a.value <;> simp [fragment, params, value, Fragment.params]

theorem params_assignmentList (assignments : List (Assignment π)) :
    params (assignmentList assignments) = assignments.flatMap Assignment.params := by
  rw [assignmentList, commas, params_separated, List.flatMap_map]
  simp only [Assignment.params_fragment]

theorem Insert.params_fragment (s : Insert π) :
    params s.fragment =
      s.values ++ (s.conflict.map fun conflict => params conflict.fragment).getD [] := by
  have values : params (commas (s.values.map fun value => [.param value])) = s.values := by
    rw [commas, params_separated, List.flatMap_map]
    exact List.flatMap_singleton' s.values
  simp only [fragment, params_append, params_words, TableName.params_fragment, params_nameList,
    values, List.nil_append, List.append_nil]
  cases s.conflict <;> rfl

theorem Conflict.params_fragment (c : Conflict π) :
    params c.fragment =
      match c.resolution with
      | .keep => []
      | .change assignments conditions =>
          assignments.flatMap Assignment.params ++ conditions.flatMap fun c => params c.fragment := by
  simp only [fragment, params_append, params_words, params_nameList, List.nil_append]
  cases c.resolution with
  | keep => rfl
  | change assignments conditions =>
      simp only [params_append, params_words, params_assignmentList, params_whereClause,
        List.nil_append]

theorem Statement.params_update (table : TableName) (assignments : List (Assignment π))
    (conditions : List (Condition π)) :
    params (Statement.update table assignments conditions).fragment =
      assignments.flatMap Assignment.params ++ conditions.flatMap fun c => params c.fragment := by
  simp only [fragment, params_append, params_words, TableName.params_fragment,
    params_assignmentList, params_whereClause, List.nil_append, List.append_nil]

theorem Statement.params_delete (table : TableName) (conditions : List (Condition π)) :
    params (Statement.delete table conditions).fragment =
      conditions.flatMap fun c => params c.fragment := by
  simp only [fragment, params_append, params_words, TableName.params_fragment,
    params_whereClause, List.nil_append]

/-! ## Reads -/

theorem RowValue.params_fragment (value : RowValue) :
    params (value.fragment : Fragment π) = [] := by
  cases value with
  | column c => exact c.params_fragment
  | object entries =>
      have keyed : params (objectEntries entries : Fragment π) = [] := by
        rw [objectEntries, commas, params_separated, List.flatMap_map, List.flatMap_eq_nil_iff]
        exact fun entry _ => entry.2.params_fragment
      simp only [fragment, objectFragment, params_append, params_words, keyed]
      rfl

theorem TableName.params_withAlias (t : TableName) (tableAlias : String) :
    params (t.withAlias tableAlias : Fragment π) = [] := rfl

def Subquery.params (q : Subquery π) : List π :=
  q.join.toList.flatMap (fun join => join.condition.params) ++ q.conditions.flatMap Comparison.params

theorem Subquery.params_fragment (q : Subquery π) : Fragment.params q.fragment = q.params := by
  obtain ⟨value, gathered, table, tableAlias, join, conditions, firstOnly⟩ := q
  have closing : Fragment.params (if firstOnly then words " LIMIT 1)" else words ")" :
      Fragment π) = [] := by
    cases firstOnly <;> rfl
  cases gathered <;> cases join <;>
    simp [fragment, params, params_append, RowValue.params_fragment, TableName.params_withAlias,
      params_conjunction, List.flatMap_map, Comparison.params_fragment, closing]

def SelectItem.params : SelectItem π → List π
  | .nested query _ => query.params
  | .column _ | .joined .. => []

theorem SelectItem.params_fragment (item : SelectItem π) :
    Fragment.params item.fragment = item.params := by
  cases item with
  | column c => exact c.params_fragment
  | nested query label =>
      rw [fragment, params_append, Subquery.params_fragment]
      exact List.append_nil _
  | joined tableAlias entries label =>
      have object : Fragment.params (objectFragment entries : Fragment π) = [] :=
        RowValue.params_fragment (.object entries)
      simp only [fragment, params_append, params_words, Column.params_fragment, object]
      rfl

def Select.params (s : Select π) : List π :=
  s.items.flatMap SelectItem.params ++
    s.joins.flatMap (fun join => join.conditions.flatMap Comparison.params) ++
    s.conditions.flatMap Condition.params ++
    s.page.toList.flatMap fun page => [page.1, page.2]

theorem LeftJoin.params_fragment (join : LeftJoin π) :
    params join.fragment = join.conditions.flatMap Comparison.params := by
  simp only [fragment, params_append, params_words, TableName.params_withAlias, params_conjunction,
    List.flatMap_map, Comparison.params_fragment, List.nil_append]

theorem OrderTerm.params_fragment (order : OrderTerm) :
    params (order.fragment : Fragment π) = [] := by
  rw [fragment, params_append, params_words, Column.params_fragment]
  rfl

theorem Select.params_fragment (s : Select π) : Fragment.params s.fragment = s.params := by
  have items : Fragment.params (commas (s.items.map SelectItem.fragment)) =
      s.items.flatMap SelectItem.params := by
    simp only [commas, params_separated, List.flatMap_map, SelectItem.params_fragment]
  have joins : Fragment.params (concat (s.joins.map LeftJoin.fragment)) =
      s.joins.flatMap fun join => join.conditions.flatMap Comparison.params := by
    simp only [params_concat, List.flatMap_map, LeftJoin.params_fragment]
  have conditions : Fragment.params (whereClause s.conditions) =
      s.conditions.flatMap Condition.params := by
    simp only [params_whereClause, Condition.params_fragment]
  cases order : s.order <;> cases page : s.page <;>
    simp [fragment, source, params, params_append, TableName.params_withAlias, items, joins,
      conditions, order, page, OrderTerm.params_fragment] <;> rfl

/-- The tests in the outermost `WHERE` of a statement, all of which must hold; an insertion has
none. -/
def Statement.conditions : Statement π → List (Condition π)
  | .insert _ => []
  | .update _ _ conditions => conditions
  | .delete _ conditions => conditions
  | .select s => s.conditions
  | .lookup s => s.conditions.map .holds

theorem Statement.mem_params_of_condition {s : Statement π} {condition : Condition π}
    (member : condition ∈ s.conditions) (used : p ∈ params condition.fragment) :
    p ∈ params s.fragment := by
  cases s with
  | insert s => cases member
  | update table assignments conditions =>
      simp only [fragment, mem_params_append, mem_params_whereClause]
      exact .inr ⟨condition, member, used⟩
  | delete table conditions =>
      simp only [fragment, mem_params_append, mem_params_whereClause]
      exact .inr ⟨condition, member, used⟩
  | select s =>
      simp only [fragment, Select.fragment, Select.source, mem_params_append, mem_params_whereClause]
      exact .inr (.inl (.inl (.inr ⟨condition, member, used⟩)))
  | lookup s =>
      obtain ⟨comparison, listed, rfl⟩ := List.mem_map.mp member
      simp only [fragment, TierLookup.fragment, mem_params_append, mem_params_conjunction]
      exact .inr ⟨comparison, listed, used⟩

theorem Insert.mem_params_of_value {s : Insert π} (member : p ∈ s.values) :
    p ∈ params s.fragment := by
  have listed : p ∈ params (.commas (s.values.map fun value => [.param value])) := by
    rw [commas, mem_params_separated]
    exact ⟨[.param p], List.mem_map_of_mem member, by simp [params]⟩
  simp only [fragment, mem_params_append]
  exact .inl (.inl (.inl (.inl (.inr listed))))

theorem TierLookup.params_fragment (s : TierLookup π) :
    Fragment.params s.fragment = s.conditions.flatMap Comparison.params := by
  have branch (tier : PermissionTest × String) :
      Fragment.params (tierBranch tier : Fragment π) = [] := by
    obtain ⟨test, name⟩ := tier
    cases test with
    | oneOf permissions =>
        simp only [tierBranch, PermissionTest.fragment, params_append, params_words,
          params_constants]
        rfl
    | exactly permission => rfl
  have branches : s.tiers.flatMap (fun tier => Fragment.params (tierBranch tier : Fragment π)) = [] :=
    List.flatMap_eq_nil_iff.mpr fun tier _ => branch tier
  simp only [fragment, params_append, params_words, params_concat, List.flatMap_map, branches,
    TableName.params_fragment, params_conjunction, Comparison.params_fragment, List.nil_append]

end TenantSql.Sql
