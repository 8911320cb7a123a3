import TenantSql.Proofs.Query.Closure
import TenantSql.Proofs.Query.Extension
import TenantSql.Proofs.Sql.Reading

/-!
# What nested rows are

A read of one row joins a referenced row, a list looks it up for every row.
Children are fetched by their ids alone or with their data, from their own table
or by way of a join table. Whatever the tables hold, if ids are unique the two
forms of a reference are the same, and so are the children of both fetches if the
join table leads to rows that are there.
-/

namespace TenantSql

open Sql

/-! ## Objects -/

def objectValue {ι : Type} (fields : List Field) (row : Row ι) : Made ι :=
  .object (fields.map fun f => (f.name, row f.column))

theorem made_objectOf {ι : Type} {fields : List Field} {tableAlias : String} {row : Row ι}
    {view : View ι} (joined : ∀ name, view.value ⟨some tableAlias, name⟩ = row name) :
    (RowValue.object (objectOf fields (some tableAlias))).made view = objectValue fields row := by
  simp [RowValue.made, objectOf, objectValue, joined, Function.comp_def]

/-! ## References -/

namespace Reference

variable {ι : Type} [DecidableEq ι] (r : Reference) (tenantScoped : Bool) (bound : Bound ι)
  (tables : Tables ι) (view : View ι)

def isTarget (row : Row ι) : Bool :=
  sameDatum (row "id") (view.value ⟨some mainAlias, r.idColumn⟩) &&
    (!(tenantScoped && !r.isGlobal) ||
      sameDatum (row "organization_id") (view.value ⟨some mainAlias, "organization_id"⟩))

def targets : Multiset (Row ι) :=
  (tables r.tableName).filter (r.isTarget tenantScoped view ·)

theorem passes_comparisons (row : Row ι) :
    View.passes bound (r.comparisons tenantScoped) ((r.tableAlias, row) :: view) =
      r.isTarget tenantScoped view row := by
  have apart : mainAlias ≠ r.tableAlias := r.tableAlias_ne_mainAlias.symm
  have same (name other : String) : (Comparison.equals ⟨some r.tableAlias, name⟩
      (.column ⟨some mainAlias, other⟩)).verdict bound ((r.tableAlias, row) :: view) = some true ↔
        sameDatum (row name) (view.value ⟨some mainAlias, other⟩) := by
    rw [Comparison.verdict, Operand.value, View.value_self, View.value_other apart]
    exact sameTruth_eq_true
  rw [Bool.eq_iff_iff, View.passes_iff, comparisons, isTarget, List.forall_mem_cons, same]
  cases (tenantScoped && !r.isGlobal) <;> simp [same]

theorem beside_targets : (view.beside r.tableAlias (tables r.tableName)).filter
    (View.passes bound (r.comparisons tenantScoped) ·) =
      view.beside r.tableAlias (r.targets tenantScoped tables view) := by
  rw [View.filter_beside, targets]
  refine congrArg _ (Multiset.filter_congr fun row _ => ?_)
  rw [passes_comparisons]

def shown (row : Row ι) : Made ι :=
  if (row "id").isSome then objectValue r.fields row else .null

/-- The row is what a join brings into view: the only one that is meant, or nulls if none is. -/
def Joins (row : Row ι) : Prop :=
  (r.targets tenantScoped tables view = 0 ∧ row = fun _ => none) ∨
    r.targets tenantScoped tables view = {row}

variable {r tenantScoped bound tables view}

theorem sameDatum_of_isTarget {row : Row ι} (target : r.isTarget tenantScoped view row) :
    sameDatum (row "id") (view.value ⟨some mainAlias, r.idColumn⟩) := by
  rw [isTarget, Bool.and_eq_true] at target
  exact target.1

theorem mem_targets {row : Row ι} : row ∈ r.targets tenantScoped tables view ↔
    row ∈ tables r.tableName ∧ r.isTarget tenantScoped view row :=
  Multiset.mem_filter

/-- If ids are unique, no more than one row is meant. -/
theorem exists_joins (tenantScoped : Bool) (unique : IsUnique (tables r.tableName) "id")
    (view : View ι) :
    ∃ row, r.Joins tenantScoped tables view row := by
  have targets := unique.eq_zero_or_singleton fun row (target : r.isTarget tenantScoped view row) =>
    sameDatum_of_isTarget target
  rcases targets with none | ⟨row, _, _, single⟩
  · exact ⟨_, .inl ⟨none, rfl⟩⟩
  · exact ⟨row, .inr single⟩

theorem target_of_single {row : Row ι} (single : r.targets tenantScoped tables view = {row}) :
    row ∈ tables r.tableName ∧ r.isTarget tenantScoped view row := by
  rw [← mem_targets, single]
  exact Multiset.mem_singleton_self row

theorem shown_of_target {row : Row ι} (target : r.isTarget tenantScoped view row) :
    r.shown row = objectValue r.fields row :=
  if_pos (sameDatum_iff.mp (sameDatum_of_isTarget target)).1

theorem Joins.views {row : Row ι} (joins : r.Joins tenantScoped tables view row) :
    (r.leftJoin tenantScoped).views bound tables view = {(r.tableAlias, row) :: view} := by
  have found : (r.leftJoin tenantScoped).found bound tables view =
      view.beside r.tableAlias (r.targets tenantScoped tables view) :=
    r.beside_targets tenantScoped bound tables view
  rw [LeftJoin.views, found]
  rcases joins with ⟨none, rfl⟩ | single
  · rw [none]
    rfl
  · rw [single]
    rfl

theorem yields_joined {row : Row ι} {seen : View ι}
    (joined : ∀ name, seen.value ⟨some r.tableAlias, name⟩ = row name) {answer : Cell ι} :
    r.joinedItem.Yields bound tables seen answer ↔ answer = .one (r.shown row) := by
  rw [joinedItem, SelectItem.Yields, joined, objectEntries, made_objectOf joined, shown]

theorem yields_nested {answer : Cell ι} :
    (r.nestedItem tenantScoped).Yields bound tables view answer ↔
      (r.targets tenantScoped tables view = 0 ∧ answer = .one .null) ∨
        ∃ row ∈ r.targets tenantScoped tables view,
          (r.targets tenantScoped tables view).card = 1 ∧
            answer = .one (objectValue r.fields row) := by
  obtain ⟨q, item, views, value, gathered, firstOnly⟩ :
      ∃ q : Subquery String, r.nestedItem tenantScoped = .nested q r.outputName ∧
        q.views bound tables view =
          view.beside r.tableAlias (r.targets tenantScoped tables view) ∧
        q.value = .object r.objectEntries ∧ q.gathered = none ∧ q.firstOnly = false :=
    ⟨_, rfl, (Subquery.views_single rfl).trans (r.beside_targets tenantScoped bound tables view),
      rfl, rfl, rfl⟩
  have made : (q.views bound tables view).map q.value.made =
      (r.targets tenantScoped tables view).map (objectValue r.fields) := by
    rw [views, value, View.map_beside]
    exact Multiset.map_congr rfl fun row _ => made_objectOf fun _ => View.value_self
  rw [item, SelectItem.Yields, Subquery.Yields, made, gathered, firstOnly]
  simp

/-- A row that is looked up is the one that a join brings into view. -/
theorem Joins.yields_nested {row : Row ι} (joins : r.Joins tenantScoped tables view row)
    {answer : Cell ι} : (r.nestedItem tenantScoped).Yields bound tables view answer ↔
      answer = .one (r.shown row) := by
  rw [Reference.yields_nested]
  rcases joins with ⟨none, rfl⟩ | single
  · rw [none]
    simp [shown]
  · rw [shown_of_target (target_of_single single).2, single]
    simp

theorem targets_of_main {seen : View ι}
    (main : ∀ name, seen.value ⟨some mainAlias, name⟩ = view.value ⟨some mainAlias, name⟩) :
    r.targets tenantScoped tables seen = r.targets tenantScoped tables view := by
  refine Multiset.filter_congr fun row _ => ?_
  rw [isTarget, isTarget, main, main]

/-- If ids are unique and references have different aliases, joining all of them keeps what is in
view exactly once, and every joined row is the same as one that is looked up. -/
theorem joined_agree {references : List Reference}
    (unique : ∀ r ∈ references, IsUnique (tables r.tableName) "id")
    (apart : (references.map tableAlias).Nodup) (view : View ι) :
    ∃ seen, joinedViews (references.map (·.leftJoin tenantScoped)) bound tables view = {seen} ∧
      (∀ tableAlias name, tableAlias ∉ references.map Reference.tableAlias →
        seen.value ⟨some tableAlias, name⟩ = view.value ⟨some tableAlias, name⟩) ∧
      ∀ r ∈ references, ∀ answer, r.joinedItem.Yields bound tables seen answer ↔
        (r.nestedItem tenantScoped).Yields bound tables view answer := by
  -- Later joins put rows in front of those in view: the main row, which every reference is looked up
  -- for, stays the same.
  induction references generalizing view with
  | nil => exact ⟨view, rfl, fun _ _ _ => rfl, nofun⟩
  | cons r rest induction =>
      rw [List.map_cons, List.nodup_cons] at apart
      obtain ⟨row, joins⟩ := exists_joins tenantScoped (unique r List.mem_cons_self) view
      obtain ⟨seen, views, kept, same⟩ := induction
        (fun other member => unique other (List.mem_cons_of_mem r member)) apart.2
        ((r.tableAlias, row) :: view)
      refine ⟨seen, ?_, fun tableAlias name outside => ?_, fun other member answer => ?_⟩
      · rw [List.map_cons, joinedViews, joins.views, Multiset.singleton_bind, views]
      · rw [List.map_cons, List.mem_cons, not_or] at outside
        rw [kept tableAlias name outside.2, View.value_other outside.1]
      · rcases List.mem_cons.mp member with rfl | later
        · rw [joins.yields_nested]
          exact yields_joined fun name => (kept _ name apart.1).trans View.value_self
        · have main (name : String) : View.value ((r.tableAlias, row) :: view)
              ⟨some mainAlias, name⟩ = view.value ⟨some mainAlias, name⟩ :=
            View.value_other r.tableAlias_ne_mainAlias.symm
          rw [same other later answer, yields_nested, yields_nested, targets_of_main main]

/-- If ids are unique, a join keeps what is in view exactly once, and the joined row is the same as
one that is looked up: the object of the row that is meant, or null if there is none. -/
theorem forms_agree (r : Reference) (tenantScoped : Bool) (bound : Bound ι) (tables : Tables ι)
    (view : View ι) (unique : IsUnique (tables r.tableName) "id") :
    ∃ seen answer, (r.leftJoin tenantScoped).views bound tables view = {seen} ∧
      (∀ tableAlias name, tableAlias ≠ r.tableAlias →
        seen.value ⟨some tableAlias, name⟩ = view.value ⟨some tableAlias, name⟩) ∧
      (∀ other, r.joinedItem.Yields bound tables seen other ↔ other = answer) ∧
      (∀ other, (r.nestedItem tenantScoped).Yields bound tables view other ↔ other = answer) ∧
      (∀ row ∈ tables r.tableName, r.isTarget tenantScoped view row →
        answer = .one (objectValue r.fields row)) ∧
      ((∀ row ∈ tables r.tableName, ¬ r.isTarget tenantScoped view row) → answer = .one .null) ∧
      (view.value ⟨some mainAlias, r.idColumn⟩ = none → answer = .one .null) ∧
      (r.joinedItem : SelectItem String).outputName =
        (r.nestedItem tenantScoped : SelectItem String).outputName := by
  obtain ⟨row, joins⟩ := exists_joins tenantScoped unique view
  have nothing (missing : ∀ row ∈ tables r.tableName, ¬ r.isTarget tenantScoped view row) :
      Cell.one (r.shown row) = .one .null := by
    rcases joins with ⟨_, rfl⟩ | single
    · rfl
    · obtain ⟨listed, target⟩ := target_of_single single
      exact absurd target (missing row listed)
  refine ⟨(r.tableAlias, row) :: view, .one (r.shown row), joins.views,
    fun _ _ other => View.value_other other, fun _ => yields_joined fun _ => View.value_self,
    fun _ => joins.yields_nested, fun other listed target => ?_, nothing, fun absent => ?_, rfl⟩
  · have member := mem_targets.mpr ⟨listed, target⟩
    rcases joins with ⟨none, _⟩ | single
    · rw [none] at member
      exact absurd member (Multiset.notMem_zero other)
    · rw [single, Multiset.mem_singleton] at member
      rw [← member, shown_of_target target]
  · refine nothing fun other _ target => ?_
    obtain ⟨known, equal⟩ := sameDatum_iff.mp (sameDatum_of_isTarget target)
    rw [equal, absent] at known
    cases known

end Reference

def authorRow (id organization : Nat) : Row Nat :=
  fun column => [("id", .id id), ("organization_id", .id organization)].lookup column

def twoAuthors : Multiset (Row Nat) :=
  {authorRow 1 7, authorRow 2 8}

def postBy (author : Nat) : View Nat :=
  [(mainAlias, fun column => [("author_id", .id author), ("organization_id", .id 7)].lookup column)]

theorem journal_forms_agree : ∃ models m r bound, loadModels journal .default none = .ok models ∧
    m ∈ models ∧ r ∈ m.references ∧ IsUnique twoAuthors "id" ∧
    (∃ seen, (r.leftJoin true).views bound (fun _ => twoAuthors) (postBy 1) = {seen} ∧
      (∀ other, r.joinedItem.Yields bound (fun _ => twoAuthors) seen other ↔
        other = .one (objectValue r.fields (authorRow 1 7))) ∧
      ∀ other, (r.nestedItem true).Yields bound (fun _ => twoAuthors) (postBy 1) other ↔
        other = .one (objectValue r.fields (authorRow 1 7))) ∧
    ∃ seen, (r.leftJoin true).views bound (fun _ => twoAuthors) (postBy 2) = {seen} ∧
      (∀ other, r.joinedItem.Yields bound (fun _ => twoAuthors) seen other ↔ other = .one .null) ∧
      ∀ other, (r.nestedItem true).Yields bound (fun _ => twoAuthors) (postBy 2) other ↔
        other = .one .null := by
  obtain ⟨models, m, loaded, member, checked⟩ := exists_loaded journal
    (fun m _ => m.references.any fun r => r.idColumn == "author_id" && !r.isGlobal)
    (by decide +kernel)
  obtain ⟨r, among, checked⟩ := List.any_eq_true.mp checked
  simp only [Bool.and_eq_true, beq_iff_eq, Bool.not_eq_true'] at checked
  obtain ⟨column, tenant⟩ := checked
  have unique : IsUnique twoAuthors "id" := by
    unfold IsUnique
    decide
  have target (id organization wanted : Nat) :
      r.isTarget true (postBy wanted) (authorRow id organization) ↔
        id = wanted ∧ organization = 7 := by
    rw [Reference.isTarget, column, tenant]
    simp [authorRow, postBy, View.value, List.lookup_cons]
  let bound : Bound Nat := ⟨fun _ => none, fun _ => []⟩
  refine ⟨models, m, r, bound, loaded, member, among, unique, ?_, ?_⟩
  · obtain ⟨seen, answer, joined, _, one, other, found, _⟩ :=
      r.forms_agree true bound (fun _ => twoAuthors) (postBy 1) unique
    have same := found (authorRow 1 7) (by simp [twoAuthors]) ((target 1 7 1).mpr ⟨rfl, rfl⟩)
    rw [same] at one other
    exact ⟨seen, joined, one, other⟩
  · obtain ⟨seen, answer, joined, _, one, other, _, missing, _⟩ :=
      r.forms_agree true bound (fun _ => twoAuthors) (postBy 2) unique
    have same := missing (by simp [twoAuthors, target, -Bool.not_eq_true])
    rw [same] at one other
    exact ⟨seen, joined, one, other⟩

/-! ## Children -/

namespace Child

variable {ι : Type} [DecidableEq ι] (c : Child) (organization : Option String)
  (parent : Operand String) (bound : Bound ι) (tables : Tables ι) (view : View ι)

def KnowsParent (parent : Operand String) : Prop :=
  ∀ column, parent = .column column → column.table = some mainAlias

theorem KnowsParent.of_param (name : String) : KnowsParent (.param name) := by
  intro column given
  cases given

def belongs (row : Row ι) : Bool :=
  sameDatum (row c.parentColumn) (parent.value bound view) &&
    organization.all fun p => sameDatum (row "organization_id") (bound.value p)

def links : Multiset (Row ι) :=
  (tables c.idTable).filter (c.belongs organization parent bound view ·)

/-- The children of the parent: its rows in their own table, or those with the ids that a join table
holds. -/
def fetched : Multiset (Row ι) :=
  match c.through with
  | none => c.links organization parent bound tables view
  | some through => (c.links organization parent bound tables view).bind fun link =>
      (tables c.tableName).filter fun child => sameDatum (link through.childColumn) (child "id")

/-- Every row of the join table holds the id of a child that is there. -/
def LeadsToRows : Prop :=
  ∀ through ∈ c.through, ∀ link ∈ tables through.tableName, ∃ child ∈ tables c.tableName,
    sameDatum (link through.childColumn) (child "id")

variable {c organization parent bound tables view}

theorem passes_comparisons (known : KnowsParent parent) {tableAlias : String} {seen : View ι}
    {row : Row ι}
    (first : ∀ name, seen.value ⟨some tableAlias, name⟩ = row name)
    (main : ∀ name, seen.value ⟨some mainAlias, name⟩ = view.value ⟨some mainAlias, name⟩) :
    seen.passes bound (c.comparisons tableAlias organization parent) =
      c.belongs organization parent bound view row := by
  have outside : parent.value bound seen = parent.value bound view := by
    cases parent with
    | param p => rfl
    | column column =>
        obtain ⟨table, name⟩ := column
        cases (known _ rfl : table = some mainAlias)
        exact main name
  have ofParent : (Comparison.equals ⟨some tableAlias, c.parentColumn⟩ parent).verdict bound seen =
      some true ↔ sameDatum (row c.parentColumn) (parent.value bound view) := by
    rw [Comparison.verdict, first, outside, sameTruth_eq_true]
  have ofOrganization (p : String) :
      (Comparison.equals ⟨some tableAlias, "organization_id"⟩ (.param p)).verdict bound seen =
        some true ↔ sameDatum (row "organization_id") (bound.value p) := by
    rw [Comparison.verdict, first, sameTruth_eq_true]
    rfl
  rw [Bool.eq_iff_iff, View.passes_iff]
  cases organization <;> simp [comparisons, belongs, ofParent, ofOrganization]

theorem beside_links (known : KnowsParent parent) {tableAlias : String}
    (apart : mainAlias ≠ tableAlias) :
    (view.beside tableAlias (tables c.idTable)).filter
        (View.passes bound (c.comparisons tableAlias organization parent) ·) =
      view.beside tableAlias (c.links organization parent bound tables view) := by
  rw [View.filter_beside, links]
  refine congrArg _ (Multiset.filter_congr fun row _ => ?_)
  rw [passes_comparisons known (fun _ => View.value_self)
    (fun _ => View.value_other apart)]

theorem views_ids (known : KnowsParent parent) :
    (c.idSubquery organization parent).views bound tables view =
      view.beside "ct" (c.links organization parent bound tables view) :=
  (Subquery.views_single rfl).trans (beside_links known (by decide))

theorem views_direct (known : KnowsParent parent) (direct : c.through = none) :
    (c.dataSubquery organization parent).views bound tables view =
      view.beside "t" (c.links organization parent bound tables view) := by
  have single : (c.dataSubquery organization parent).join = none := by simp [dataSubquery, direct]
  rw [Subquery.views_single single]
  have first : (c.dataSubquery organization parent).tableAlias = "t" := by
    simp [dataSubquery, direct]
  have tests : (c.dataSubquery organization parent).conditions =
      c.comparisons "t" organization parent := by
    simp [dataSubquery, direct]
  rw [first, tests]
  exact beside_links known (by decide)

/-- Fetched with their data by way of a join table, children are the rows with the ids that the
links hold. -/
theorem views_through (known : KnowsParent parent) {through : Through}
    (given : c.through = some through) :
    (c.dataSubquery organization parent).views bound tables view =
      (c.links organization parent bound tables view).bind fun link =>
        View.beside (("tt", link) :: view) "t" ((tables c.tableName).filter fun child =>
          sameDatum (link through.childColumn) (child "id")) := by
  have paired (link child : Row ι) : View.passes bound
      [.equals ⟨some "tt", through.childColumn⟩ (.column ⟨some "t", "id"⟩)]
      (("t", child) :: ("tt", link) :: view) =
        sameDatum (link through.childColumn) (child "id") := by
    rw [Bool.eq_iff_iff, View.passes_iff, ← sameTruth_eq_true]
    simp [Comparison.verdict, Operand.value]
  have tested (link child : Row ι) : View.passes bound (c.comparisons "tt" organization parent)
      (("t", child) :: ("tt", link) :: view) = c.belongs organization parent bound view link :=
    passes_comparisons known (fun _ => by simp) (fun _ => by
      rw [View.value_other (by decide), View.value_other (by decide)])
  have spelled : (c.dataSubquery organization parent).views bound tables view =
      ((tables c.idTable).bind fun link =>
        (View.beside (("tt", link) :: view) "t" (tables c.tableName)).filter
          (View.passes bound
            [.equals ⟨some "tt", through.childColumn⟩ (.column ⟨some "t", "id"⟩)] ·)).filter
        (View.passes bound (c.comparisons "tt" organization parent) ·) := by
    rw [Subquery.views, dataSubquery, given]
    exact congrArg _ (Multiset.bind_map _ _ _)
  -- The tests look at the link alone, so links are chosen before children are looked up.
  rw [spelled, Multiset.filter_bind, links, Multiset.bind_filter]
  refine Multiset.bind_congr fun link _ => ?_
  simp only [View.filter_beside, paired, tested]
  cases c.belongs organization parent bound view link <;> simp [View.beside]

theorem mem_fetched {row : Row ι} (member : row ∈ c.fetched organization parent bound tables view) :
    row ∈ tables c.tableName := by
  rw [fetched] at member
  split at member
  · rename_i direct
    rw [← Model.idTable_direct direct]
    exact (Multiset.mem_filter.mp member).1
  · obtain ⟨_, _, found⟩ := Multiset.mem_bind.mp member
    exact (Multiset.mem_filter.mp found).1

theorem map_id_of_link {rows : Multiset (Row ι)} (unique : IsUnique rows "id")
    {value : Option (Datum ι)} (there : ∃ child ∈ rows, sameDatum value (child "id")) :
    (rows.filter fun child => sameDatum value (child "id")).map (fun child => child "id") =
      {value} := by
  obtain ⟨child, listed, same⟩ := there
  have symmetric (row : Row ι) (found : sameDatum value (row "id")) :
      sameDatum (row "id") value := by
    obtain ⟨known, equal⟩ := sameDatum_iff.mp found
    exact sameDatum_iff.mpr ⟨equal ▸ known, equal.symm⟩
  rcases unique.eq_zero_or_singleton symmetric with none | ⟨only, _, found, single⟩
  · exact absurd same (Multiset.filter_eq_nil.mp none child listed)
  · rw [single, Multiset.map_singleton, ← (sameDatum_iff.mp found).2]

theorem map_ids (unique : IsUnique (tables c.tableName) "id") (leads : c.LeadsToRows tables) :
    (c.links organization parent bound tables view).map (fun row => row c.idColumn) =
      (c.fetched organization parent bound tables view).map fun row => row "id" := by
  cases given : c.through with
  | none => simp only [fetched, idColumn, given]
  | some through =>
      have one : ∀ link ∈ c.links organization parent bound tables view,
          ((tables c.tableName).filter fun child =>
            sameDatum (link through.childColumn) (child "id")).map (fun child => child "id") =
              {link through.childColumn} := by
        intro link among
        have listed : link ∈ tables through.tableName := by
          rw [← Model.idTable_through given]
          exact (Multiset.mem_filter.mp among).1
        exact map_id_of_link unique (leads through given link listed)
      simp only [fetched, idColumn, given]
      rw [Multiset.map_bind, Multiset.bind_congr one, Multiset.bind_singleton]

theorem map_views_data (known : KnowsParent parent) {α : Type} {f : View ι → α} {g : Row ι → α}
    (made : ∀ outer row, f (("t", row) :: outer) = g row) :
    ((c.dataSubquery organization parent).views bound tables view).map f =
      (c.fetched organization parent bound tables view).map g := by
  cases given : c.through with
  | none =>
      rw [views_direct known given, View.map_beside, fetched, given]
      exact Multiset.map_congr rfl fun row _ => made view row
  | some through =>
      rw [views_through known given, Multiset.map_bind, fetched, given, Multiset.map_bind]
      refine Multiset.bind_congr fun link _ => ?_
      rw [View.map_beside]
      exact Multiset.map_congr rfl fun row _ => made _ row

section Gathered

variable (many : c.many) (known : KnowsParent parent) {answer : Cell ι}

include many known

theorem yields_data : (c.dataSubquery organization parent).Yields bound tables view answer ↔
    answer = .array ((c.fetched organization parent bound tables view).map
      (objectValue c.fields)) := by
  have gathers : (c.dataSubquery organization parent).gathered.isSome := by
    simp [dataSubquery, many]
  rw [Subquery.yields_gathered gathers,
    map_views_data known fun _ _ => made_objectOf fun _ => View.value_self]

theorem yields_ids (unique : IsUnique (tables c.tableName) "id") (leads : c.LeadsToRows tables) :
    (c.idSubquery organization parent).Yields bound tables view answer ↔
      answer = .array ((c.fetched organization parent bound tables view).map
        fun row => .ofColumn (row "id")) := by
  have gathers : (c.idSubquery organization parent).gathered.isSome := by
    simp [idSubquery, many]
  have made : ((c.idSubquery organization parent).views bound tables view).map
      (c.idSubquery organization parent).value.made =
        ((c.links organization parent bound tables view).map fun row => row c.idColumn).map
          Made.ofColumn := by
    rw [views_ids known, View.map_beside, Multiset.map_map]
    rfl
  rw [Subquery.yields_gathered gathers, made, map_ids unique leads, Multiset.map_map]
  rfl

/-- If ids are unique and links lead to rows that are there, the ids that are fetched of a parent's
children are the ids of the rows that are fetched as data: each as often, in arrays that are empty
if there are none. -/
theorem fetches_agree (unique : IsUnique (tables c.tableName) "id")
    (leads : c.LeadsToRows tables) :
    ∃ ids data, c.subquery? .id organization parent = some ids ∧
      c.subquery? .data organization parent = some data ∧
      (∀ row ∈ c.fetched organization parent bound tables view, row ∈ tables c.tableName) ∧
      (∀ answer, data.Yields bound tables view answer ↔ answer = .array
        ((c.fetched organization parent bound tables view).map (objectValue c.fields))) ∧
      (∀ answer, ids.Yields bound tables view answer ↔ answer = .array
        ((c.fetched organization parent bound tables view).map fun row => .ofColumn (row "id"))) ∧
      (c.fetched organization parent bound tables view = 0 →
        data.Yields bound tables view (.array 0) ∧ ids.Yields bound tables view (.array 0)) := by
  refine ⟨_, _, rfl, rfl, fun row => mem_fetched, fun _ => yields_data many known,
    fun _ => yields_ids many known unique leads, fun none => ⟨?_, ?_⟩⟩
  · rw [yields_data many known, none]
    rfl
  · rw [yields_ids many known unique leads, none]
    rfl

end Gathered

end Child

def tagRow (id : Nat) : Row Nat :=
  fun column => [("id", .id id)].lookup column

def postTag (post tag organization : Nat) : Row Nat :=
  fun column => [("post_id", .id post), ("tag_id", .id tag),
    ("organization_id", .id organization)].lookup column

def tagTables : Tables Nat := fun t =>
  if t.table = "post_tags" then {postTag 1 1 7, postTag 1 2 7, postTag 2 2 7, postTag 1 3 8}
  else {tagRow 1, tagRow 2, tagRow 3}

def firstPost : Bound Nat where
  value name := [(Binding.id, .id 1), (Binding.organization, .id 7)].lookup name
  array _ := []

theorem blog_fetches_agree : ∃ models m c ids data,
    loadModels (blog "id") .default none = .ok models ∧ m ∈ models ∧ c ∈ m.children ∧
      IsUnique (tagTables c.tableName) "id" ∧ c.LeadsToRows tagTables ∧
      c.subquery? .id (some Binding.organization) (.param Binding.id) = some ids ∧
      c.subquery? .data (some Binding.organization) (.param Binding.id) = some data ∧
      ids.Yields firstPost tagTables [] (.array {.datum (.id 1), .datum (.id 2)}) ∧
      data.Yields firstPost tagTables []
        (.array {objectValue c.fields (tagRow 1), objectValue c.fields (tagRow 2)}) := by
  obtain ⟨c, child, many, table, column, through⟩ : ∃ c ∈ (blogPost .id).children,
      c.many ∧ c.table = "tags" ∧ c.parentColumn = "post_id" ∧
        c.through = some ⟨"PostTag", "public", "post_tags", "tag_id"⟩ :=
    ⟨_, .head _, rfl, rfl, rfl, rfl⟩
  have tags : tagTables c.tableName = {tagRow 1, tagRow 2, tagRow 3} := by
    simp [tagTables, Child.tableName, table]
  have unique : IsUnique (tagTables c.tableName) "id" := by
    rw [tags, IsUnique]
    decide
  have leads : c.LeadsToRows tagTables := by
    intro other given
    cases through.symm.trans given
    have each : ∀ link ∈ tagTables ⟨"public", "post_tags"⟩,
        ∃ child ∈ ({tagRow 1, tagRow 2, tagRow 3} : Multiset (Row Nat)),
          sameDatum (link "tag_id") (child "id") := by
      simp [tagTables, postTag, tagRow, List.lookup_cons]
    rw [tags]
    exact each
  have fetched : c.fetched (some Binding.organization) (.param Binding.id) firstPost tagTables [] =
      {tagRow 1, tagRow 2} := by
    rw [Child.fetched, through]
    simp only [Child.links, Child.belongs, Child.idTable, through, column, tags]
    rfl
  obtain ⟨ids, data, fetchIds, fetchData, _, whole, known, _⟩ :=
    @Child.fetches_agree Nat _ c (some Binding.organization) (.param Binding.id) firstPost
      tagTables [] many (.of_param _) unique leads
  refine ⟨_, _, c, ids, data, loadModels_blog .id, blogPost_mem .id, child, unique, leads,
    fetchIds, fetchData, (known _).mpr ?_, (whole _).mpr ?_⟩
  · rw [fetched]
    rfl
  · rw [fetched]
    rfl

end TenantSql
