import Mathlib.Data.Multiset.Bind
import Mathlib.Data.Multiset.Replicate
import Mathlib.Data.Multiset.UnionInter
import TenantSql.Proofs.Sql.Row
import TenantSql.Proofs.Sql.Uses

/-!
# What reads make of rows

A table has rows in no order, each as often as it is there. Tables come into view
row by row, under their aliases: a join keeps those combinations of rows that pass
its test, an outer join keeps a row also if nothing is found for it. A subquery
is an array of what is made of its rows, or the value of one of them.
-/

namespace TenantSql.Sql

variable {ι : Type}

/-! ## Rows in view -/

abbrev Tables (ι : Type) := TableName → Multiset (Row ι)

abbrev View (ι : Type) := List (String × Row ι)

namespace View

/-- The value of a column in the nearest row of its alias; a bare one is in the nearest row. -/
def value (view : View ι) (c : Column) : Option (Datum ι) :=
  match c.table with
  | some tableAlias => (view.lookup tableAlias).bind fun row => row c.name
  | none => view.head?.bind fun entry => entry.2 c.name

variable {view : View ι} {tableAlias other name : String} {row : Row ι}

@[simp] theorem value_self :
    value ((tableAlias, row) :: view) ⟨some tableAlias, name⟩ = row name := by
  simp [value]

@[simp] theorem value_other (apart : other ≠ tableAlias) :
    value ((tableAlias, row) :: view) ⟨some other, name⟩ = value view ⟨some other, name⟩ := by
  have passed : (other == tableAlias) = false := beq_false_of_ne apart
  simp [value, List.lookup_cons, passed]

def beside (view : View ι) (tableAlias : String) (rows : Multiset (Row ι)) : Multiset (View ι) :=
  rows.map fun row => (tableAlias, row) :: view

theorem filter_beside {rows : Multiset (Row ι)} {p : View ι → Bool} :
    (view.beside tableAlias rows).filter (p ·) =
      view.beside tableAlias (rows.filter fun row => p ((tableAlias, row) :: view)) :=
  Multiset.filter_map _ _ _

theorem map_beside {α : Type} {rows : Multiset (Row ι)} {f : View ι → α} :
    (view.beside tableAlias rows).map f = rows.map fun row => f ((tableAlias, row) :: view) :=
  Multiset.map_map _ _ _

end View

def Operand.value (bound : Bound ι) (view : View ι) : Operand String → Option (Datum ι)
  | .column c => view.value c
  | .param p => bound.value p

/-! ## Values -/

inductive Made (ι : Type) where
  | null
  | datum (value : Datum ι)
  | object (entries : List (String × Option (Datum ι)))
  deriving DecidableEq, Repr

def Made.ofColumn : Option (Datum ι) → Made ι
  | none => .null
  | some value => .datum value

def RowValue.made (view : View ι) : RowValue → Made ι
  | .column c => .ofColumn (view.value c)
  | .object entries => .object (entries.map fun entry => (entry.1, view.value entry.2))

/-- What an item of a query is for one row. The items of an array have no order. -/
inductive Cell (ι : Type) where
  | one (value : Made ι)
  | array (values : Multiset (Made ι))

def arrayAgg (values : Multiset (Made ι)) : Option (Multiset (Made ι)) :=
  if values.card = 0 then none else some values

theorem arrayAgg_getD (values : Multiset (Made ι)) : (arrayAgg values).getD 0 = values := by
  rw [arrayAgg]
  split
  · rename_i none
    exact (Multiset.card_eq_zero.mp none).symm
  · rfl

/-! ## Unique columns -/

/-- No two rows have the same value in the column. Nulls are not the same. -/
def IsUnique (rows : Multiset (Row ι)) (column : String) : Prop :=
  (rows.filterMap fun row => row column).Nodup

theorem filterMap_of_same {rows : Multiset (Row ι)} {column : String} {datum : Datum ι}
    (same : ∀ row ∈ rows, row column = some datum) :
    rows.filterMap (fun row => row column) = Multiset.replicate rows.card datum := by
  induction rows using Multiset.induction with
  | empty => rfl
  | cons row rows induction =>
      have first := same row (Multiset.mem_cons_self row rows)
      rw [Multiset.filterMap_cons_some (fun row : Row ι => row column) _ _ first,
        induction fun other member => same other (Multiset.mem_cons_of_mem member),
        Multiset.card_cons, Multiset.replicate_succ]

theorem IsUnique.card_le_one {rows found : Multiset (Row ι)} {column : String}
    (unique : IsUnique rows column) (among : found ≤ rows) {datum : Datum ι}
    (same : ∀ row ∈ found, row column = some datum) : found.card ≤ 1 := by
  have apart : (found.filterMap fun row => row column).Nodup :=
    Multiset.nodup_of_le (Multiset.filterMap_le_filterMap _ among) unique
  rwa [filterMap_of_same same, ← Multiset.coe_replicate, Multiset.coe_nodup,
    List.nodup_replicate] at apart

variable [DecidableEq ι]

theorem IsUnique.eq_zero_or_singleton {rows : Multiset (Row ι)} {column : String}
    (unique : IsUnique rows column) {p : Row ι → Bool} {value : Option (Datum ι)}
    (same : ∀ row, p row → sameDatum (row column) value) :
    rows.filter (p ·) = 0 ∨ ∃ row ∈ rows, p row ∧ rows.filter (p ·) = {row} := by
  rcases Multiset.empty_or_exists_mem (rows.filter (p ·)) with none | ⟨row, found⟩
  · exact .inl none
  obtain ⟨listed, passes⟩ := Multiset.mem_filter.mp found
  refine .inr ⟨row, listed, passes, ?_⟩
  obtain ⟨datum, rfl⟩ : ∃ datum, value = some datum := by
    obtain ⟨known, equal⟩ := sameDatum_iff.mp (same row passes)
    exact Option.isSome_iff_exists.mp (equal ▸ known)
  have most : (rows.filter (p ·)).card ≤ 1 :=
    unique.card_le_one (Multiset.filter_le _ rows) fun row member =>
      sameDatum_some_iff.mp (same row (Multiset.mem_filter.mp member).2)
  have least : 0 < (rows.filter (p ·)).card := Multiset.card_pos_iff_exists_mem.mpr ⟨row, found⟩
  obtain ⟨only, single⟩ := Multiset.card_eq_one.mp (by omega : (rows.filter (p ·)).card = 1)
  rw [single] at found ⊢
  rw [Multiset.mem_singleton.mp found]

/-! ## Tests, joins and subqueries -/

def Comparison.verdict (bound : Bound ι) (view : View ι) : Comparison String → Truth
  | .equals c other => sameTruth (view.value c) (other.value bound view)
  | .inArray c p =>
      .anyOf ((bound.array p).map fun value => sameTruth (view.value c) (some value))
  | .notInArray c p =>
      .allOf ((bound.array p).map fun value => (sameTruth (view.value c) (some value)).map (!·))
  | .oneOf c constants =>
      .anyOf (constants.map fun s => sameTruth (view.value c) (some (.text s)))

theorem Comparison.verdict_single {bound : Bound ι} {row : Row ι} {tableAlias : String}
    {comparison : Comparison String}
    (own : ∀ u ∈ comparison.uses [], u.column.table = some tableAlias) :
    comparison.verdict bound [(tableAlias, row)] = comparison.truth bound row := by
  have value (c : Column) (used : ⟨[], c⟩ ∈ comparison.uses []) :
      View.value [(tableAlias, row)] c = row c.name := by
    have qualified : c.table = some tableAlias := own _ used
    simp [View.value, qualified]
  cases comparison with
  | equals c other =>
      cases other with
      | column other =>
          rw [verdict, truth, Operand.value, value c (by simp [uses]),
            value other (by simp [uses, Operand.uses])]
      | param p => rw [verdict, truth, Operand.value, value c (by simp [uses])]
  | inArray c p | notInArray c p | oneOf c constants =>
      simp only [verdict, truth, value c (by simp [uses])]

def View.passes (bound : Bound ι) (conditions : List (Comparison String)) (view : View ι) : Bool :=
  Truth.allOf (conditions.map (·.verdict bound view)) == some true

theorem View.passes_iff {bound : Bound ι} {conditions : List (Comparison String)} {view : View ι} :
    view.passes bound conditions ↔ ∀ c ∈ conditions, c.verdict bound view = some true := by
  rw [passes, beq_iff_eq, Truth.allOf_eq_true, List.forall_mem_map]

def LeftJoin.found (join : LeftJoin String) (bound : Bound ι) (tables : Tables ι) (view : View ι) :
    Multiset (View ι) :=
  (view.beside join.tableAlias (tables join.table)).filter (View.passes bound join.conditions ·)

def LeftJoin.views (join : LeftJoin String) (bound : Bound ι) (tables : Tables ι) (view : View ι) :
    Multiset (View ι) :=
  if (join.found bound tables view).card = 0 then {(join.tableAlias, fun _ => none) :: view}
  else join.found bound tables view

def joinedViews (joins : List (LeftJoin String)) (bound : Bound ι) (tables : Tables ι)
    (view : View ι) : Multiset (View ι) :=
  match joins with
  | [] => {view}
  | join :: rest => (join.views bound tables view).bind (joinedViews rest bound tables)

def Subquery.views (q : Subquery String) (bound : Bound ι) (tables : Tables ι) (outer : View ι) :
    Multiset (View ι) :=
  let first := outer.beside q.tableAlias (tables q.table)
  let joined := match q.join with
    | none => first
    | some join => first.bind fun view =>
        (view.beside join.tableAlias (tables join.table)).filter
          (View.passes bound [join.condition] ·)
  joined.filter (View.passes bound q.conditions ·)

theorem Subquery.views_single {q : Subquery String} (single : q.join = none) {bound : Bound ι}
    {tables : Tables ι} {outer : View ι} : q.views bound tables outer =
      (outer.beside q.tableAlias (tables q.table)).filter (View.passes bound q.conditions ·) := by
  rw [views, single]

/-- What a subquery may be for what is in view. If nothing is gathered, it is null or the value of a
row: of any one if it looks at the first one only, and else of the only one. There is no answer if
there are several. -/
def Subquery.Yields (q : Subquery String) (bound : Bound ι) (tables : Tables ι) (view : View ι)
    (answer : Cell ι) : Prop :=
  let made := (q.views bound tables view).map q.value.made
  match q.gathered with
  | some _ => answer = .array ((arrayAgg made).getD 0)
  | none => (made = 0 ∧ answer = .one .null) ∨
      ∃ value ∈ made, (q.firstOnly ∨ made.card = 1) ∧ answer = .one value

def SelectItem.Yields (item : SelectItem String) (bound : Bound ι) (tables : Tables ι)
    (view : View ι) (answer : Cell ι) : Prop :=
  match item with
  | .column c => answer = .one (.ofColumn (view.value c))
  | .nested query _ => query.Yields bound tables view answer
  | .joined tableAlias entries _ => answer = .one
      (if (view.value ⟨some tableAlias, "id"⟩).isSome then (RowValue.object entries).made view
        else .null)

def SelectItem.outputName {π : Type} : SelectItem π → String
  | .column c => readName c.name
  | .nested _ label | .joined _ _ label => label

/-- A subquery that gathers its values is the array of all of them. -/
theorem Subquery.yields_gathered {q : Subquery String} {bound : Bound ι} {tables : Tables ι}
    {view : View ι} {answer : Cell ι} (gathers : q.gathered.isSome) :
    q.Yields bound tables view answer ↔
      answer = .array ((q.views bound tables view).map q.value.made) := by
  obtain ⟨element, gathered⟩ := Option.isSome_iff_exists.mp gathers
  rw [Yields, gathered, arrayAgg_getD]

end TenantSql.Sql
