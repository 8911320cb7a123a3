import TenantSql.Query.Operation
import TenantSql.Proofs.Sql.Numbering
import TenantSql.Proofs.Check.Result

/-!
# Plans and their queries

Every plan can be built. Its query binds the names that the plan reserves and
those that its statement uses, each once, and has the statement's text. The
plans of a model are the ones that are listed here, and no others.
-/

namespace TenantSql

open Sql

namespace Plan

def query (p : Plan) : Query :=
  p.draft.query p.name p.fields

theorem fragment_begins (s : Statement String) :
    ∃ word rest, s.fragment = .fixed word :: rest ∧ Text.isAllBlank word = false := by
  cases s with
  | insert s =>
      simp only [Statement.fragment, Insert.fragment, Fragment.words, List.append_assoc]
      exact ⟨_, _, rfl, by decide⟩
  | update table assignments conditions =>
      simp only [Statement.fragment, Fragment.words, List.append_assoc]
      exact ⟨_, _, rfl, by decide⟩
  | delete table conditions =>
      simp only [Statement.fragment, Fragment.words, List.append_assoc]
      exact ⟨_, _, rfl, by decide⟩
  | select s =>
      simp only [Statement.fragment, Select.fragment, Fragment.words, List.append_assoc]
      exact ⟨_, _, rfl, by decide⟩
  | lookup s =>
      simp only [Statement.fragment, TierLookup.fragment, Fragment.words, List.append_assoc]
      exact ⟨_, _, rfl, by decide⟩

/-- The text of the query is that of the statement with every parameter at its position. -/
theorem writes_query (p : Plan) : p.query.Writes p.statement := by
  have written := Draft.text_append (Draft.reserve {} p.reserved) p.statement.fragment
  rw [Draft.text_reserve, String.empty_append] at written
  exact written

theorem build_eq (p : Plan) : p.build = .ok p.query := by
  have visible : Text.isAllBlank p.draft.text = false := by
    obtain ⟨word, rest, begins, visible⟩ := fragment_begins p.statement
    have written : p.draft.text = p.statement.fragment.write p.query.parameter := p.writes_query
    have parted : p.draft.text =
        word ++ String.join (rest.map (Piece.write p.query.parameter)) := by
      rw [written, begins, Fragment.write, List.map_cons, String.join_cons]
      rfl
    rw [Text.isAllBlank] at visible
    rw [parted, Text.isAllBlank, String.toList_append, List.all_append, visible, Bool.false_and]
  simp [build, Builder.finish, visible, query]

theorem nodup_bindings (p : Plan) : p.query.bindings.Nodup :=
  Draft.nodup_append (Draft.nodup_reserve List.nodup_nil p.reserved) p.statement.fragment

/-- A query binds what its plan reserves and then what its statement uses, every name once. -/
theorem bindings_query (p : Plan) :
    p.query.bindings = Text.distinct (p.reserved ++ p.statement.fragment.params) :=
  Draft.bindings_of_names p.reserved p.statement.fragment

theorem mem_bindings {p : Plan} {name : String} :
    name ∈ p.query.bindings ↔ name ∈ p.reserved ∨ name ∈ p.statement.fragment.params := by
  have bound : name ∈ p.query.bindings ↔ name ∈ p.draft.bindings := Iff.rfl
  rw [bound, draft, Draft.mem_bindings_append, Draft.mem_bindings_reserve]
  simp

theorem mem_fieldBindings {p : Plan} {name : String} :
    name ∈ p.query.fieldBindings ↔ name ∈ p.query.bindings ∧ name ∈ p.fields := by
  simp [query, Draft.query, Draft.boundAmong]

end Plan

namespace Model

/-- The plans of a model, one form after the other. A populated read needs children, and an order
must be admitted. -/
inductive HasPlan (m : Model) : Plan → Prop
  | insert : HasPlan m m.insertPlan
  | update : HasPlan m m.updatePlan
  | updateWithParent {p : Parent} (plain : m.isJoin = false) (parent : p ∈ m.parents) :
      HasPlan m (m.updateWithParentPlan p)
  | selectOne {populated : Bool} (children : populated → m.children ≠ []) :
      HasPlan m (m.selectOnePlan populated)
  | delete : HasPlan m m.deletePlan
  | deleteAllChildren {p : Parent} (parent : p ∈ m.parents) :
      HasPlan m (m.deleteAllChildrenPlan p)
  | deleteRemovedChildren {p : Parent} (parent : p ∈ m.parents) :
      HasPlan m (m.deleteRemovedChildrenPlan p)
  | deleteWithParent {p : Parent} (parent : p ∈ m.parents) :
      HasPlan m (m.deleteWithParentPlan p)
  | list {populated : Bool} {request : Option String} {order : Option OrderBy}
      (children : populated → m.children ≠ []) (admitted : m.listOrder request = .ok order) :
      HasPlan m (m.listPlan populated order)
  | upsert {p : Parent} (parent : p ∈ m.parents) : HasPlan m (m.upsertPlan p)
  | lookup (plain : m.isJoin = false) :
      HasPlan m { name := "lookup_object_permissions", statement := .lookup m.tierLookup }

theorem selectOne?_eq_some {m : Model} {populated : Bool} {p : Plan} :
    m.selectOne? populated = some p ↔
      (populated → m.children ≠ []) ∧ p = m.selectOnePlan populated := by
  cases populated <;> cases given : m.children <;> simp [selectOne?, given, eq_comm]

theorem list?_eq_some {m : Model} {populated : Bool} {request : Option String} {p : Plan} :
    m.list? populated request = .ok (some p) ↔
      (populated → m.children ≠ []) ∧
        ∃ order, m.listOrder request = .ok order ∧ p = m.listPlan populated order := by
  cases populated <;> cases given : m.children <;> cases ordered : m.listOrder request <;>
    simp [list?, given, ordered, eq_comm]

theorem hasPlan_of_mem {m : Model} {kind : OperationKind} {plans : List Plan}
    (planned : m.plans kind = .ok plans) {p : Plan} (member : p ∈ plans) : m.HasPlan p := by
  cases kind with
  | insert =>
      cases planned
      rw [List.mem_singleton.mp member]
      exact .insert
  | update =>
      cases planned
      rw [List.mem_singleton.mp member]
      exact .update
  | updateOneWithParent =>
      cases planned
      cases joined : m.isJoin with
      | true => simp [updateWithParentPlans, joined] at member
      | false =>
          simp only [updateWithParentPlans, joined, Bool.false_eq_true, if_false] at member
          obtain ⟨parent, listed, rfl⟩ := List.mem_map.mp member
          exact .updateWithParent joined listed
  | selectOne | selectOnePopulated =>
      cases planned
      obtain ⟨children, rfl⟩ := selectOne?_eq_some.mp (Option.mem_toList.mp member)
      exact .selectOne children
  | delete =>
      cases planned
      rw [List.mem_singleton.mp member]
      exact .delete
  | deleteChildren =>
      cases planned
      obtain ⟨parent, listed, among⟩ := List.mem_flatMap.mp member
      simp only [List.mem_cons, List.not_mem_nil, or_false] at among
      rcases among with rfl | rfl | rfl
      · exact .deleteAllChildren listed
      · exact .deleteRemovedChildren listed
      · exact .deleteWithParent listed
  | list | listPopulated =>
      obtain ⟨plan, found, rfl⟩ := Result.map_eq_ok.mp planned
      have same := Option.mem_toList.mp member
      rw [same] at found
      obtain ⟨children, order, admitted, rfl⟩ := list?_eq_some.mp found
      exact .list children admitted
  | upsert =>
      cases planned
      obtain ⟨parent, listed, rfl⟩ := List.mem_map.mp member
      exact .upsert listed
  | lookupObjectPermissions =>
      cases joined : m.isJoin with
      | true =>
          obtain ⟨plan, found, _⟩ := Result.map_eq_ok.mp planned
          simp [lookupPlan, joined] at found
      | false =>
          simp only [Model.plans, lookupPlan, joined, Bool.false_eq_true, if_false] at planned
          cases planned
          rw [List.mem_singleton.mp member]
          exact .lookup joined

inductive HasQuery (m : Model) (q : Query) : Prop
  | ofKind {kind : OperationKind} {queries : List Query} (generated : m.queriesOf kind = .ok queries)
      (member : q ∈ queries)
  | ofList {populated : Bool} {request : Option String}
      (generated : m.listQuery populated request = .ok (some q))

theorem mapM_build (plans : List Plan) : plans.mapM Plan.build = .ok (plans.map Plan.query) := by
  induction plans with
  | nil => rfl
  | cons p rest induction =>
      exact Result.mapM_cons.mpr ⟨p.query, rest.map Plan.query, p.build_eq, induction, rfl⟩

theorem queriesOf_eq_ok {m : Model} {kind : OperationKind} {queries : List Query} :
    m.queriesOf kind = .ok queries ↔
      ∃ plans, m.plans kind = .ok plans ∧ queries = plans.map Plan.query := by
  simp only [queriesOf, Result.bind_eq_ok, mapM_build, Except.ok.injEq]
  exact exists_congr fun plans => and_congr_right fun _ => eq_comm

theorem listQuery_eq_ok {m : Model} {populated : Bool} {request : Option String} {q : Query} :
    m.listQuery populated request = .ok (some q) ↔
      ∃ p, m.list? populated request = .ok (some p) ∧ q = p.query := by
  simp only [listQuery, Result.bind_eq_ok]
  constructor
  · rintro ⟨plan, found, built⟩
    cases plan with
    | none => cases built
    | some p =>
        rw [Option.mapM_some, p.build_eq] at built
        cases built
        exact ⟨p, found, rfl⟩
  · rintro ⟨p, found, rfl⟩
    refine ⟨some p, found, ?_⟩
    rw [Option.mapM_some, p.build_eq]
    rfl

/-- The queries of a model are its plans, built. -/
theorem hasQuery_iff {m : Model} {q : Query} : m.HasQuery q ↔ ∃ p, m.HasPlan p ∧ q = p.query := by
  constructor
  · rintro (⟨generated, member⟩ | generated)
    · obtain ⟨plans, planned, rfl⟩ := queriesOf_eq_ok.mp generated
      obtain ⟨p, listed, rfl⟩ := List.mem_map.mp member
      exact ⟨p, hasPlan_of_mem planned listed, rfl⟩
    · obtain ⟨p, found, rfl⟩ := listQuery_eq_ok.mp generated
      obtain ⟨children, order, admitted, rfl⟩ := list?_eq_some.mp found
      exact ⟨_, .list children admitted, rfl⟩
  · rintro ⟨p, plan, rfl⟩
    have ofPlans (kind : OperationKind) {plans : List Plan} (planned : m.plans kind = .ok plans)
        (listed : p ∈ plans) : m.HasQuery p.query :=
      .ofKind (queriesOf_eq_ok.mpr ⟨plans, planned, rfl⟩) (List.mem_map_of_mem listed)
    cases plan with
    | insert => exact ofPlans .insert rfl (by simp)
    | update => exact ofPlans .update rfl (by simp)
    | updateWithParent plain parent =>
        refine ofPlans .updateOneWithParent rfl ?_
        rw [updateWithParentPlans, plain]
        exact List.mem_map_of_mem parent
    | @selectOne populated children =>
        have found := selectOne?_eq_some.mpr ⟨children, rfl⟩
        cases populated with
        | false => exact ofPlans .selectOne rfl (Option.mem_toList.mpr found)
        | true => exact ofPlans .selectOnePopulated rfl (Option.mem_toList.mpr found)
    | delete => exact ofPlans .delete rfl (by simp)
    | deleteAllChildren parent =>
        exact ofPlans .deleteChildren rfl
          (List.mem_flatMap.mpr ⟨_, parent, by simp⟩)
    | deleteRemovedChildren parent =>
        exact ofPlans .deleteChildren rfl
          (List.mem_flatMap.mpr ⟨_, parent, by simp⟩)
    | deleteWithParent parent =>
        exact ofPlans .deleteChildren rfl
          (List.mem_flatMap.mpr ⟨_, parent, by simp⟩)
    | list children admitted =>
        exact .ofList (listQuery_eq_ok.mpr
          ⟨_, list?_eq_some.mpr ⟨children, _, admitted, rfl⟩, rfl⟩)
    | upsert parent => exact ofPlans .upsert rfl (List.mem_map_of_mem parent)
    | lookup plain =>
        have planned : m.plans .lookupObjectPermissions =
            .ok [{ name := "lookup_object_permissions", statement := .lookup m.tierLookup }] := by
          simp only [Model.plans, lookupPlan, plain]
          rfl
        exact ofPlans _ planned (by simp)

end Model

end TenantSql
