import TenantSql.Proofs.Query.Closure
import TenantSql.Proofs.Query.Population
import TenantSql.Proofs.Sql.OutputName
import TenantSql.Proofs.Sql.Reading

/-!
# Names in populated reads

The tables of a query must have different names, and so must the columns that it
returns: else the database refuses the query, or one value hides another. Columns
are told apart when a model is built. Nothing compares them with the labels of
children and references, nor these with each other.

Labels are texts of any kind, so a query states them in double quotes. Double quotes
inside a label are read back as they were. Percent signs are not: they are doubled for
someone who formats the text with parameters, but the parameters of a query are numbered
and nobody formats it.
-/

namespace TenantSql

open Sql

/-- No two tables of the query have one name, and no two items are returned under one. -/
structure Sql.Select.IsUnambiguous {π : Type} (s : Select π) : Prop where
  tables : (s.scope.map fun entry => readName entry.1).Nodup
  outputs : (s.items.map SelectItem.outputName).Nodup

structure NamesApart (references columns labels : List String) : Prop where
  joined : references.Nodup
  read : columns.Nodup
  filled : labels.Nodup
  apart : ∀ label ∈ labels, label ∉ columns

instance (references columns labels : List String) :
    Decidable (NamesApart references columns labels) :=
  decidable_of_iff (references.Nodup ∧ columns.Nodup ∧ labels.Nodup ∧ ∀ label ∈ labels,
    label ∉ columns) ⟨fun ⟨a, b, c, d⟩ => ⟨a, b, c, d⟩, fun ⟨a, b, c, d⟩ => ⟨a, b, c, d⟩⟩

namespace Model

variable {m : Model}

def labelsOnGet (m : Model) : List String :=
  (m.children.filter (·.onGet != .none)).map Child.getName ++
    m.referencesOnGet.map Reference.outputName

def labelsOnList (m : Model) : List String :=
  (m.children.filter (·.onList != .none)).map Child.listName ++
    m.referencesOnList.map Reference.outputName

def columnNames (fields : List Field) : List String :=
  fields.map fun f => readName f.column

def NamesApartOnGet (m : Model) : Prop :=
  NamesApart (m.referencesOnGet.map fun r => readName r.name) (columnNames m.readableFields)
    m.labelsOnGet

def NamesApartOnList (m : Model) : Prop :=
  NamesApart [] (columnNames m.listFields) m.labelsOnList

instance (m : Model) : Decidable m.NamesApartOnGet :=
  inferInstanceAs (Decidable (NamesApart _ _ _))

instance (m : Model) : Decidable m.NamesApartOnList :=
  inferInstanceAs (Decidable (NamesApart _ _ _))

/-! ## Names of tables -/

/-- References of different names are joined under different aliases, and none is the main table. -/
theorem nodup_mainScope (references : List Reference) :
    ((m.mainScope references).map fun entry => readName entry.1).Nodup ↔
      (references.map fun r => readName r.name).Nodup := by
  have aliased : ((m.mainScope references).map fun entry => readName entry.1) =
      readName mainAlias ::
        (references.map fun r => readName r.name).map (readName "ref_" ++ ·) := by
    simp [mainScope, Reference.tableAlias, readName_append, Function.comp_def]
  have other : readName mainAlias ∉
      (references.map fun r => readName r.name).map (readName "ref_" ++ ·) := by
    intro member
    obtain ⟨name, _, same⟩ := List.mem_map.mp member
    have letters := congrArg String.toList same
    have main : (readName mainAlias).toList = ['t', 'b'] := by decide
    have front : (readName "ref_").toList = ['r', 'e', 'f', '_'] := by decide
    simp [String.toList_append, main, front] at letters
  rw [aliased, List.nodup_cons, and_iff_right other]
  exact List.nodup_map_iff fun a b same => (String.append_right_inj _).mp same

/-! ## Names of what is returned -/

theorem outputNames_columnItems (fields : List Field) :
    (columnItems fields).map SelectItem.outputName = columnNames fields := by
  rw [columnItems, List.map_map]
  rfl

theorem outputNames_children {fetch : Child → FetchType} {label : Child → String}
    {parent : Operand String} :
    (m.children.filterMap fun c => (c.subquery? (fetch c) m.nestedOrganization parent).map
      (SelectItem.nested · (label c))).map SelectItem.outputName =
        (m.children.filter (fetch · != .none)).map label := by
  induction m.children with
  | nil => rfl
  | cons c rest induction =>
      by_cases skipped : fetch c = .none
      · have absent : (c.subquery? (fetch c) m.nestedOrganization parent).map
            (SelectItem.nested · (label c)) = none := by
          rw [skipped]
          rfl
        rw [List.filterMap_cons, absent, List.filter_cons_of_neg (by simp [skipped]), induction]
      · obtain ⟨q, found⟩ := exists_subquery skipped m.nestedOrganization parent
        have item : (c.subquery? (fetch c) m.nestedOrganization parent).map
            (SelectItem.nested · (label c)) = some (.nested q (label c)) := by
          rw [found]
          rfl
        rw [List.filterMap_cons, item, List.filter_cons_of_pos (by simp [skipped]), List.map_cons,
          List.map_cons, induction]
        rfl

/-- Names of columns and labels are different if both are, and no label is a column. -/
theorem nodup_outputs {columns labels : List String} : (columns ++ labels).Nodup ↔
    columns.Nodup ∧ labels.Nodup ∧ ∀ label ∈ labels, label ∉ columns := by
  rw [List.nodup_append]
  refine and_congr_right fun _ => and_congr_right fun _ => ?_
  exact ⟨fun apart label member column => apart label column label member rfl,
    fun apart column among label member same => apart label member (same ▸ among)⟩

theorem selectOne_isUnambiguous_iff :
    (m.selectOneStatement true).IsUnambiguous ↔ m.NamesApartOnGet := by
  have labels : (m.selectOneStatement true).items.map SelectItem.outputName =
      columnNames m.readableFields ++ m.labelsOnGet := by
    rw [selectOneStatement, if_pos rfl, List.map_append, List.map_append, outputNames_columnItems,
      childItemsOnGet, outputNames_children, List.map_map]
    rfl
  have tables := nodup_mainScope (m := m) m.referencesOnGet
  constructor
  · rintro ⟨joined, outputs⟩
    rw [labels, nodup_outputs] at outputs
    rw [scope_selectOne] at joined
    exact ⟨tables.mp joined, outputs.1, outputs.2.1, outputs.2.2⟩
  · rintro ⟨references, columns, own, apart⟩
    refine ⟨?_, ?_⟩
    · rw [scope_selectOne]
      exact tables.mpr references
    · rw [labels, nodup_outputs]
      exact ⟨columns, own, apart⟩

theorem list_isUnambiguous_iff (order : Option OrderBy) :
    (m.listStatement true order).IsUnambiguous ↔ m.NamesApartOnList := by
  have labels : (m.listStatement true order).items.map SelectItem.outputName =
      columnNames m.listFields ++ m.labelsOnList := by
    rw [listStatement, if_pos rfl, List.map_append, List.map_append, outputNames_columnItems,
      childItemsOnList, outputNames_children, List.map_map]
    rfl
  constructor
  · rintro ⟨_, outputs⟩
    rw [labels, nodup_outputs] at outputs
    exact ⟨List.nodup_nil, outputs.1, outputs.2.1, outputs.2.2⟩
  · rintro ⟨_, columns, own, apart⟩
    refine ⟨List.nodup_singleton _, ?_⟩
    rw [labels, nodup_outputs]
    exact ⟨columns, own, apart⟩

/-- The populated reads of a model, and when they are unambiguous. -/
theorem populated_isUnambiguous_iff (children : m.children ≠ []) :
    (∃ q, m.queriesOf .selectOnePopulated = .ok [q] ∧
      q.Writes (.select (m.selectOneStatement true)) ∧
      ((m.selectOneStatement true).IsUnambiguous ↔ m.NamesApartOnGet)) ∧
    ∀ request order, m.listOrder request = .ok order →
      ∃ q, m.listQuery true request = .ok (some q) ∧
        q.Writes (.select (m.listStatement true order)) ∧
        ((m.listStatement true order).IsUnambiguous ↔ m.NamesApartOnList) := by
  refine ⟨⟨_, queriesOf_selectOnePopulated children, (m.selectOnePlan true).writes_query,
    selectOne_isUnambiguous_iff⟩, fun request order admitted => ?_⟩
  have planned : m.list? true request = .ok (some (m.listPlan true order)) :=
    list?_eq_some.mpr ⟨fun _ => children, order, admitted, rfl⟩
  exact ⟨_, listQuery_eq_ok.mpr ⟨_, planned, rfl⟩, (m.listPlan true order).writes_query,
    list_isUnambiguous_iff order⟩

end Model

theorem blog_isUnambiguous : ∃ models m q, loadModels (blog "data") .default none = .ok models ∧
    Audit.Passes models .default ∧ m ∈ models ∧ m.children ≠ [] ∧
    m.queriesOf .selectOnePopulated = .ok [q] ∧ q.Writes (.select (m.selectOneStatement true)) ∧
    m.labelsOnGet = ["tags"] ∧ (m.selectOneStatement true).IsUnambiguous := by
  have labels : (blogPost .data).labelsOnGet = ["tags"] := by decide +kernel
  have apart : (blogPost .data).NamesApartOnGet := by decide +kernel
  obtain ⟨⟨q, generated, writes, unambiguous⟩, _⟩ :=
    Model.populated_isUnambiguous_iff (blogPost_children .data)
  exact ⟨_, _, q, loadModels_blog .data, blog_passes .data, blogPost_mem .data,
    blogPost_children .data, generated, writes, labels, unambiguous.mpr apart⟩

def coauthoredPosts : Entries := .ofFields [("models", .list [
  .ofFields [("name", .text "Post"), ("has", .list [.text "Comment"]), ("references", .list [
    .ofFields [("model", .text "Author"), ("fields", .list [.text "id"])],
    .ofFields [("model", .text "Author"), ("field", .text "author"),
      ("fields", .list [.text "id"])]])],
  .ofFields [("name", .text "Comment"), ("belongs_to", .list [.text "Post"])],
  .ofFields [("name", .text "Author")]])]

def postWithAuthors : String :=
  "SELECT tb.id, tb.organization_id, tb.updated_at, tb.created_at, tb.author_id, tb.author, " ++
    "CASE WHEN ref_author.id IS NOT NULL THEN JSONB_BUILD_OBJECT('id', ref_author.id) " ++
    "ELSE NULL END AS \"author\", " ++
    "CASE WHEN ref_author.id IS NOT NULL THEN JSONB_BUILD_OBJECT('id', ref_author.id) " ++
    "ELSE NULL END AS \"author\" FROM public.posts tb " ++
    "LEFT JOIN public.authors ref_author ON ref_author.id = tb.author_id " ++
    "AND ref_author.organization_id = tb.organization_id " ++
    "LEFT JOIN public.authors ref_author ON ref_author.id = tb.author " ++
    "AND ref_author.organization_id = tb.organization_id " ++
    "WHERE tb.id = $1 AND tb.organization_id = $2"

/-- Two tables have the alias `ref_author`, and three items are returned as `author`. -/
theorem coauthoredPosts_ambiguous : ∃ models m q,
    loadModels coauthoredPosts .default none = .ok models ∧ Audit.Passes models .default ∧
      m ∈ models ∧ m.queriesOf .selectOnePopulated = .ok [q] ∧ q.text = postWithAuthors ∧
      q.Writes (.select (m.selectOneStatement true)) ∧
      ¬ ((m.selectOneStatement true).scope.map fun entry => readName entry.1).Nodup ∧
      ¬ ((m.selectOneStatement true).items.map SelectItem.outputName).Nodup := by
  obtain ⟨models, m, loaded, member, checked⟩ := exists_loaded coauthoredPosts
    (fun m models => !(Audit.findings models .default).hasErrors && !m.children.isEmpty &&
      (m.selectOnePlan true).bytes == Text.bytes postWithAuthors &&
      !decide ((m.selectOneStatement true).scope.map fun entry => readName entry.1).Nodup &&
      !decide ((m.selectOneStatement true).items.map SelectItem.outputName).Nodup)
    (by decide +kernel)
  simp only [Bool.and_eq_true, Bool.not_eq_true', beq_iff_eq, decide_eq_false_iff_not,
    List.isEmpty_eq_false_iff] at checked
  obtain ⟨⟨⟨⟨passes, children⟩, text⟩, tables⟩, outputs⟩ := checked
  exact ⟨models, m, _, loaded, passes, member, Model.queriesOf_selectOnePopulated children,
    Plan.text_eq_of_bytes text, (m.selectOnePlan true).writes_query, tables, outputs⟩

/-! ## Labels that are read back -/

/-- The names in double quotes under which the query returns something, as its text is read, are
these. -/
def Sql.Query.Denotes (q : Query) (names : List String) : Prop :=
  outputNames? q.text = some names

theorem Plan.denotes {p : Plan} {s : Select String} (planned : p.statement = .select s)
    (names : s.EachName Fragment.Unquoted) :
    p.query.Denotes (s.labels.map percentDoubled) := by
  have written : p.query.text = s.fragment.write p.query.parameter := by
    have writes := p.writes_query
    rw [planned] at writes
    exact writes
  rw [Query.Denotes, written]
  exact Select.outputNames?_write names fun name => p.query.bindings.idxOf name + 1

/-- The names that are read back are the intended ones if and only if there is no percent sign in
these. -/
theorem Sql.Query.Denotes.exact_iff {q : Query} {names : List String}
    (denotes : q.Denotes (names.map percentDoubled)) :
    q.Denotes names ↔ ∀ name ∈ names, '%' ∉ name.toList := by
  rw [Denotes] at denotes
  rw [Denotes, denotes, Option.some.injEq, map_percentDoubled_eq_self_iff]

namespace Model

variable {m : Model}

theorem labels_columnItems_append (fields : List Field) {items : List (SelectItem String)}
    (labelled : ∀ item ∈ items, item.label? = some item.outputName) :
    (columnItems fields ++ items).filterMap SelectItem.label? =
      items.map SelectItem.outputName := by
  have columns : (columnItems fields).filterMap SelectItem.label? = [] := by
    simp [columnItems, SelectItem.label?]
  rw [List.filterMap_append, columns, List.nil_append, List.filterMap_congr labelled,
    List.filterMap_eq_map']

theorem label?_of_populated {fetch : Child → FetchType} {label : Child → String}
    {parent : Operand String} {references : List Reference}
    {populate : Reference → SelectItem String}
    (labelled : ∀ r, (populate r).label? = some (populate r).outputName) {item : SelectItem String}
    (listed : item ∈ (m.children.filterMap fun c =>
      (c.subquery? (fetch c) m.nestedOrganization parent).map (SelectItem.nested · (label c))) ++
        references.map populate) :
    item.label? = some item.outputName := by
  rcases List.mem_append.mp listed with child | reference
  · obtain ⟨c, _, made⟩ := List.mem_filterMap.mp child
    obtain ⟨q, _, rfl⟩ := Option.map_eq_some_iff.mp made
    rfl
  · obtain ⟨r, _, rfl⟩ := List.mem_map.mp reference
    exact labelled r

theorem labels_selectOne : (m.selectOneStatement true).labels = m.labelsOnGet := by
  have labelled : ∀ item ∈ m.childItemsOnGet ++ m.referencesOnGet.map Reference.joinedItem,
      item.label? = some item.outputName :=
    fun _ => label?_of_populated fun _ => rfl
  rw [Select.labels, selectOneStatement, if_pos rfl, labels_columnItems_append _ labelled,
    List.map_append, childItemsOnGet, outputNames_children, List.map_map]
  rfl

theorem labels_list (order : Option OrderBy) :
    (m.listStatement true order).labels = m.labelsOnList := by
  have labelled : ∀ item ∈ m.childItemsOnList ++
      m.referencesOnList.map (·.nestedItem !m.isGlobal), item.label? = some item.outputName :=
    fun _ => label?_of_populated fun _ => rfl
  rw [Select.labels, listStatement, if_pos rfl, labels_columnItems_append _ labelled,
    List.map_append, childItemsOnList, outputNames_children, List.map_map]
  rfl

theorem selectOne_denotes (accepted : m.Accepted) :
    (m.selectOnePlan true).query.Denotes (m.labelsOnGet.map percentDoubled) := by
  have names := selectOne_names (fun _ => isIdentifier_unquoted) accepted.isNamed true
  rw [← labels_selectOne]
  exact Plan.denotes rfl names

theorem list_denotes (accepted : m.Accepted) {request : Option String} {order : Option OrderBy}
    (admitted : m.listOrder request = .ok order) :
    (m.listPlan true order).query.Denotes (m.labelsOnList.map percentDoubled) := by
  have names := list_names (fun _ => isIdentifier_unquoted) accepted.isNamed true admitted
  rw [← labels_list order]
  exact Plan.denotes rfl names

/-- The names that the populated reads of an accepted model state in double quotes are those that
were declared for its children and references, whatever these are, except that every percent sign
is read back twice. So a declared name is what it is read back as if and only if there is no percent
sign in it. Different names stay different in any case. -/
theorem populated_denotes_iff (accepted : m.Accepted) (children : m.children ≠ []) :
    (∃ q, m.queriesOf .selectOnePopulated = .ok [q] ∧
      q.Denotes (m.labelsOnGet.map percentDoubled) ∧
      (q.Denotes m.labelsOnGet ↔ ∀ name ∈ m.labelsOnGet, '%' ∉ name.toList)) ∧
    (∀ request order, m.listOrder request = .ok order →
      ∃ q, m.listQuery true request = .ok (some q) ∧
        (request = none → m.queriesOf .listPopulated = .ok [q]) ∧
        q.Denotes (m.labelsOnList.map percentDoubled) ∧
        (q.Denotes m.labelsOnList ↔ ∀ name ∈ m.labelsOnList, '%' ∉ name.toList)) ∧
    ∀ name other, (percentDoubled name = name ↔ '%' ∉ name.toList) ∧
      (percentDoubled name = percentDoubled other ↔ name = other) := by
  refine ⟨?_, fun request order admitted => ?_, fun name other =>
    ⟨percentDoubled_eq_self_iff, percentDoubled_inj⟩⟩
  · have denotes := selectOne_denotes accepted
    exact ⟨_, queriesOf_selectOnePopulated children, denotes, denotes.exact_iff⟩
  · have planned : m.list? true request = .ok (some (m.listPlan true order)) :=
      list?_eq_some.mpr ⟨fun _ => children, order, admitted, rfl⟩
    have denotes := list_denotes accepted admitted
    refine ⟨_, listQuery_eq_ok.mpr ⟨_, planned, rfl⟩, ?_, denotes, denotes.exact_iff⟩
    rintro rfl
    refine queriesOf_eq_ok.mpr ⟨[m.listPlan true order], ?_, rfl⟩
    rw [Model.plans, planned]
    rfl

end Model

def quotingPosts : Entries := .ofFields [("models", .list [
  .ofFields [("name", .text "Post"),
    ("has", .list [.ofFields [("model", .text "Tag"), ("populate_on_get", .text "id"),
      ("populate_on_list", .text "data"), ("get_field", .text "so-called \"tags\""),
      ("list_field", .text "tags\" AS \"x")]]),
    ("references", .list [.ofFields [("model", .text "Author"), ("full_name", .text "the \"author\""),
      ("fields", .list [.text "id"]), ("on_list", .bool true)]])],
  .ofFields [("name", .text "Tag"), ("belongs_to", .list [.text "Post"])],
  .ofFields [("name", .text "Author")]])]

theorem quotingPosts_denoted : ∃ models m q listed,
    loadModels quotingPosts .default none = .ok models ∧ m ∈ models ∧
      m.queriesOf .selectOnePopulated = .ok [q] ∧
      q.Denotes ["so-called \"tags\"", "the \"author\""] ∧
      m.queriesOf .listPopulated = .ok [listed] ∧
      listed.Denotes ["tags\" AS \"x", "the \"author\""] := by
  obtain ⟨models, m, loaded, member, checked⟩ := exists_loaded quotingPosts
    (fun m _ => !m.children.isEmpty &&
      decide (m.listOrder none = .ok (some ⟨"updated_at", "updated_at", true⟩)) &&
      m.labelsOnGet == ["so-called \"tags\"", "the \"author\""] &&
      m.labelsOnList == ["tags\" AS \"x", "the \"author\""]) (by decide +kernel)
  simp only [Bool.and_eq_true, Bool.not_eq_true', beq_iff_eq, decide_eq_true_eq,
    List.isEmpty_eq_false_iff] at checked
  obtain ⟨⟨⟨children, admitted⟩, onGet⟩, onList⟩ := checked
  obtain ⟨⟨q, generated, _, exactOnGet⟩, lists, _⟩ :=
    Model.populated_denotes_iff (.loaded loaded member) children
  obtain ⟨listed, _, family, _, exactOnList⟩ := lists none _ admitted
  rw [onGet] at exactOnGet
  rw [onList] at exactOnList
  exact ⟨models, m, q, listed, loaded, member, generated, exactOnGet.mpr (by decide), family rfl,
    exactOnList.mpr (by decide)⟩

def answeredSurveys : Entries := .ofFields [("models", .list [
  .ofFields [("name", .text "Survey"), ("has", .list [.ofFields [("model", .text "Answer"),
    ("populate_on_get", .text "id"), ("get_field", .text "answered %")]])],
  .ofFields [("name", .text "Answer"), ("belongs_to", .list [.text "Survey"])]])]

def surveyWithAnswers : String :=
  "SELECT tb.id, tb.organization_id, tb.updated_at, tb.created_at, " ++
    "(SELECT COALESCE(ARRAY_AGG(ct.id), ARRAY[]::uuid[]) FROM public.answers ct " ++
    "WHERE ct.survey_id = $1 AND ct.organization_id = $2) AS \"answered %%\" " ++
    "FROM public.surveys tb WHERE tb.id = $1 AND tb.organization_id = $2"

/-- The percent sign is read back twice. -/
theorem answeredSurveys_misnamed : ∃ models m q,
    loadModels answeredSurveys .default none = .ok models ∧ Audit.Passes models .default ∧
      m ∈ models ∧ m.labelsOnGet = ["answered %"] ∧ m.queriesOf .selectOnePopulated = .ok [q] ∧
      q.text = surveyWithAnswers ∧ q.Denotes ["answered %%"] ∧ ¬ q.Denotes m.labelsOnGet := by
  obtain ⟨models, m, loaded, member, checked⟩ := exists_loaded answeredSurveys
    (fun m models => !(Audit.findings models .default).hasErrors && !m.children.isEmpty &&
      m.labelsOnGet == ["answered %"] &&
      (m.selectOnePlan true).bytes == Text.bytes surveyWithAnswers)
    (by decide +kernel)
  simp only [Bool.and_eq_true, Bool.not_eq_true', beq_iff_eq,
    List.isEmpty_eq_false_iff] at checked
  obtain ⟨⟨⟨passes, children⟩, labels⟩, text⟩ := checked
  have denotes : (m.selectOnePlan true).query.Denotes (m.labelsOnGet.map percentDoubled) :=
    Model.selectOne_denotes (.loaded loaded member)
  have twice : m.labelsOnGet.map percentDoubled = ["answered %%"] := by
    rw [labels]
    decide +kernel
  refine ⟨models, m, _, loaded, passes, member, labels,
    Model.queriesOf_selectOnePopulated children, Plan.text_eq_of_bytes text, twice ▸ denotes,
    fun exact => ?_⟩
  have plain := denotes.exact_iff.mp exact "answered %" (labels ▸ List.mem_cons_self)
  revert plain
  decide

end TenantSql
