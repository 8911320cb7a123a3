import Mathlib.Data.List.Nodup
import TenantSql.Proofs.Audit.Passed
import TenantSql.Proofs.Definition.Loaded
import TenantSql.Proofs.Query.Plan

/-!
# Names of queries

The name of a query tells its family, and, where a family has statements for
every parent, also the parent. So the names of a model's queries are distinct
unless such a family is wanted of a model that has one parent twice.
-/

namespace TenantSql

open Sql

namespace OperationKind

def stems : OperationKind → List String
  | .updateOneWithParent => ["update_one_with_parent_of_"]
  | .deleteChildren =>
      ["delete_all_children_of_", "delete_removed_children_of_", "delete_with_parent_of_"]
  | .upsert => ["upsert_single_child_of_"]
  | _ => []

def ofQueryName (name : String) : OperationKind :=
  match all.find? fun kind => kind.stems.any fun stem => stem.toList.isPrefixOf name.toList with
  | some kind => kind
  | none => (ofName? name).getD .insert

theorem ofQueryName_stem {kind : OperationKind} {stem : String} (member : stem ∈ kind.stems)
    (parent : String) : ofQueryName (stem ++ parent) = kind := by
  cases kind with
  | updateOneWithParent | deleteChildren | upsert =>
      simp only [stems, List.mem_cons, List.not_mem_nil, or_false] at member
      rcases member with rfl | rfl | rfl <;>
        simp [ofQueryName, all, stems, List.isPrefixOf, String.toList_append]
  | insert | update | selectOne | selectOnePopulated | delete | list | listPopulated
  | lookupObjectPermissions => cases member

theorem ofQueryName_name {kind : OperationKind} (single : kind.stems = []) :
    ofQueryName kind.name = kind := by
  cases kind with
  | updateOneWithParent | deleteChildren | upsert => cases single
  | insert | update | selectOne | selectOnePopulated | delete | list | listPopulated
  | lookupObjectPermissions => decide +kernel

theorem stem_append_ne (kind : OperationKind) (single : kind.stems = []) {other : OperationKind}
    {stem : String} (member : stem ∈ other.stems) (parent : String) : stem ++ parent ≠ kind.name := by
  intro same
  have told := ofQueryName_stem member parent
  rw [same, ofQueryName_name single] at told
  rw [← told, single] at member
  cases member

/-- No name of a family begins with the beginning of another name. -/
theorem stem_inj {kind : OperationKind} {stem other parent second : String}
    (first : stem ∈ kind.stems) (member : other ∈ kind.stems)
    (same : stem ++ parent = other ++ second) : stem = other ∧ parent = second := by
  have apart : ∀ kind ∈ all, ∀ stem ∈ kind.stems, ∀ other ∈ kind.stems,
      stem.toList.isPrefixOf other.toList → stem = other := by decide +kernel
  have spelled : stem.toList ++ parent.toList = other.toList ++ second.toList := by
    simpa [String.toList_append] using congrArg String.toList same
  have one : stem = other := by
    rcases List.prefix_or_prefix_of_prefix (List.prefix_append stem.toList parent.toList)
      (spelled ▸ List.prefix_append other.toList second.toList) with shorter | longer
    · exact apart kind (mem_all kind) stem first other member (List.isPrefixOf_iff_prefix.mpr shorter)
    · exact (apart kind (mem_all kind) other member stem first
        (List.isPrefixOf_iff_prefix.mpr longer)).symm
  subst one
  exact ⟨rfl, String.toList_inj.mp (List.append_cancel_left spelled)⟩

theorem nodup_stems (kind : OperationKind) : kind.stems.Nodup := by
  cases kind <;> decide

end OperationKind

namespace Model

variable {models : List Model} {m : Model}

/-! ## The plans of a family -/

def parentsOf (m : Model) (kind : OperationKind) : List Parent :=
  if kind = .updateOneWithParent ∧ m.isJoin then [] else m.parents

def plansOf (m : Model) (kind : OperationKind) : List Plan :=
  (m.plans kind).toOption.getD []

theorem plans_eq_ok {settings : Settings} (passes : Audit.Passes models settings)
    (member : m ∈ models) {kind : OperationKind} {wanted : List OperationKind}
    (applies : kind ∈ m.applicable wanted) : m.plans kind = .ok (m.plansOf kind) := by
  obtain ⟨order, admitted⟩ := passes.listOrder member
  have listed (populated : Bool) : ∃ plan, m.list? populated none = .ok plan := by
    rw [list?, admitted]
    split
    · exact ⟨_, rfl⟩
    · exact ⟨_, rfl⟩
  have planned : ∃ plans, m.plans kind = .ok plans := by
    cases kind with
    | list =>
        obtain ⟨plan, found⟩ := listed false
        exact ⟨plan.toList, by rw [Model.plans, found]; rfl⟩
    | listPopulated =>
        obtain ⟨plan, found⟩ := listed true
        exact ⟨plan.toList, by rw [Model.plans, found]; rfl⟩
    | lookupObjectPermissions =>
        have plain : m.isJoin = false := by
          have wanted := (List.mem_filter.mp applies).2
          simp only [beq_self_eq_true, Bool.true_and, Bool.and_eq_true, Bool.not_eq_true'] at wanted
          exact wanted.2
        exact ⟨_, by rw [Model.plans, lookupPlan, plain, if_neg Bool.false_ne_true]; rfl⟩
    | insert | update | updateOneWithParent | selectOne | selectOnePopulated | delete
    | deleteChildren | upsert => exact ⟨_, rfl⟩
  obtain ⟨plans, planned⟩ := planned
  rw [plansOf, planned]
  rfl

def queriesFor (m : Model) (wanted : List OperationKind) : List Query :=
  (m.applicable wanted).flatMap fun kind => (m.plansOf kind).map Plan.query

theorem queriesOf_eq {settings : Settings} (passes : Audit.Passes models settings)
    (member : m ∈ models) {kind : OperationKind} {wanted : List OperationKind}
    (applies : kind ∈ m.applicable wanted) :
    m.queriesOf kind = .ok ((m.plansOf kind).map Plan.query) :=
  queriesOf_eq_ok.mpr ⟨_, plans_eq_ok passes member applies, rfl⟩

theorem queries_eq_ok {settings : Settings} (passes : Audit.Passes models settings)
    (member : m ∈ models) (wanted : List OperationKind) :
    m.queries wanted = .ok (m.queriesFor wanted) := by
  have families {kinds : List OperationKind} (applies : kinds ⊆ m.applicable wanted) :
      kinds.mapM m.queriesOf = .ok (kinds.map fun kind => (m.plansOf kind).map Plan.query) := by
    induction kinds with
    | nil => rfl
    | cons kind rest induction =>
        refine Result.mapM_cons.mpr ⟨_, _, queriesOf_eq passes member (applies List.mem_cons_self),
          induction fun other listed => applies (List.mem_cons_of_mem kind listed), rfl⟩
  rw [queries, families (List.Subset.refl _)]
  rfl

theorem names_plansOf {kind : OperationKind} (several : kind.stems ≠ []) :
    (m.plansOf kind).map Plan.name =
      (m.parentsOf kind).flatMap fun p => kind.stems.map (· ++ p.snakeName) := by
  cases kind with
  | updateOneWithParent =>
      have planned : m.plansOf .updateOneWithParent = m.updateWithParentPlans := rfl
      rw [planned, updateWithParentPlans, parentsOf]
      cases m.isJoin with
      | true => rfl
      | false =>
          simp only [OperationKind.stems, List.map_cons, List.map_nil, Bool.false_eq_true, and_false,
            if_false, List.map_map, ← List.map_eq_flatMap]
          rfl
  | deleteChildren =>
      have planned : m.plansOf .deleteChildren = m.deleteChildrenPlans := rfl
      rw [planned, deleteChildrenPlans, List.map_flatMap]
      rfl
  | upsert =>
      have planned : m.plansOf .upsert = m.upsertPlans := rfl
      rw [planned, upsertPlans, List.map_map]
      exact List.map_eq_flatMap
  | insert | update | selectOne | selectOnePopulated | delete | list | listPopulated
  | lookupObjectPermissions => exact absurd rfl several

theorem names_plansOf_single {kind : OperationKind} (single : kind.stems = []) :
    (m.plansOf kind).map Plan.name = [] ∨ (m.plansOf kind).map Plan.name = [kind.name] := by
  have listed (populated : Bool) :
      let found := (Option.toList <$> m.list? populated none).toOption.getD []
      found.map Plan.name = [] ∨ found.map Plan.name = [(m.listPlan populated none).name] := by
    rw [list?]
    split
    · exact .inl rfl
    · cases m.listOrder none with
      | ok order => exact .inr rfl
      | error e => exact .inl rfl
  cases kind with
  | insert | update | delete => exact .inr rfl
  | selectOne => exact .inr rfl
  | selectOnePopulated =>
      cases children : m.children.isEmpty with
      | true => exact .inl (by simp [plansOf, Model.plans, selectOne?, children, Except.toOption])
      | false =>
          have planned : m.plansOf .selectOnePopulated = [m.selectOnePlan true] := by
            simp [plansOf, Model.plans, selectOne?, children, Except.toOption]
          exact .inr (by rw [planned]; rfl)
  | list => exact listed false
  | listPopulated => exact listed true
  | lookupObjectPermissions =>
      cases joins : m.isJoin with
      | true =>
          left
          rw [plansOf, Model.plans, lookupPlan, joins]
          rfl
      | false =>
          right
          rw [plansOf, Model.plans, lookupPlan, joins]
          rfl
  | updateOneWithParent | deleteChildren | upsert => cases single

theorem ofQueryName_of_mem {kind : OperationKind} {p : Plan} (member : p ∈ m.plansOf kind) :
    OperationKind.ofQueryName p.name = kind := by
  have named : p.name ∈ (m.plansOf kind).map Plan.name := List.mem_map_of_mem member
  by_cases single : kind.stems = []
  · rcases names_plansOf_single (m := m) single with none | one
    · rw [none] at named
      cases named
    · rw [one] at named
      rw [List.mem_singleton.mp named]
      exact OperationKind.ofQueryName_name single
  · rw [names_plansOf single] at named
    obtain ⟨parent, _, among⟩ := List.mem_flatMap.mp named
    obtain ⟨stem, known, spelled⟩ := List.mem_map.mp among
    rw [← spelled]
    exact OperationKind.ofQueryName_stem known parent.snakeName

theorem nodup_names_plansOf {kind : OperationKind} :
    ((m.plansOf kind).map Plan.name).Nodup ↔
      (kind.stems ≠ [] → ((m.parentsOf kind).map Parent.snakeName).Nodup) := by
  by_cases single : kind.stems = []
  · refine iff_of_true ?_ fun several => absurd single several
    rcases names_plansOf_single (m := m) single with none | one
    · rw [none]
      exact List.nodup_nil
    · rw [one]
      exact List.nodup_singleton _
  · obtain ⟨stem, known⟩ := List.exists_mem_of_ne_nil _ single
    rw [names_plansOf single, List.nodup_flatMap]
    simp only [List.Nodup, List.pairwise_map, single, ne_eq, not_false_eq_true, true_imp_iff]
    constructor
    · intro apart
      refine apart.2.imp fun disjoint same => ?_
      refine disjoint (List.mem_map_of_mem (f := (· ++ _)) known) ?_
      exact same ▸ List.mem_map_of_mem known
    · intro apart
      refine ⟨fun p _ => ?_, apart.imp fun different name first second => ?_⟩
      · refine (kind.nodup_stems.imp_of_mem ?_)
        intro stem other first second different same
        exact different (OperationKind.stem_inj first second same).1
      · obtain ⟨stem, firstKnown, spelled⟩ := List.mem_map.mp first
        obtain ⟨other, secondKnown, same⟩ := List.mem_map.mp second
        exact different (OperationKind.stem_inj firstKnown secondKnown (spelled.trans same.symm)).2

theorem nodup_names_queriesFor {wanted : List OperationKind} :
    ((m.queriesFor wanted).map Query.name).Nodup ↔
      ∀ kind ∈ m.applicable wanted, kind.stems ≠ [] →
        ((m.parentsOf kind).map Parent.snakeName).Nodup := by
  have names : (m.queriesFor wanted).map Query.name =
      (m.applicable wanted).flatMap fun kind => (m.plansOf kind).map Plan.name := by
    rw [queriesFor, List.map_flatMap]
    refine List.flatMap_congr fun kind _ => ?_
    rw [List.map_map]
    rfl
  have kinds : (m.applicable wanted).Nodup := List.Nodup.filter _ (by decide)
  rw [names, List.nodup_flatMap]
  simp only [nodup_names_plansOf]
  refine and_iff_left (kinds.imp fun different name first second => ?_)
  obtain ⟨p, planned, rfl⟩ := List.mem_map.mp first
  obtain ⟨q, other, same⟩ := List.mem_map.mp second
  refine different ?_
  rw [← ofQueryName_of_mem planned, ← same, ofQueryName_of_mem other]

/-! ## Models with one parent twice -/

/-- If a wanted family has statements for every parent, no two parents are the same model. -/
def HasDistinctParents (m : Model) (wanted : List OperationKind) : Prop :=
  (∃ kind ∈ wanted, kind.stems ≠ [] ∧ (kind = .updateOneWithParent → m.isJoin = false)) →
    (m.parents.map Parent.model).Nodup

instance (m : Model) (wanted : List OperationKind) : Decidable (m.HasDistinctParents wanted) :=
  inferInstanceAs (Decidable ((∃ kind ∈ wanted, _) → _))

theorem Loaded.snakeName_eq_iff (loaded : m.Loaded models) {settings : Settings}
    (passes : Audit.Passes models settings) {p q : Parent} (first : p ∈ m.parents)
    (second : q ∈ m.parents) : p.snakeName = q.snakeName ↔ p.model = q.model := by
  obtain ⟨a, listed, model, snake⟩ := loaded.parentModels p first
  obtain ⟨b, other, otherModel, otherSnake⟩ := loaded.parentModels q second
  rw [model, snake, otherModel, otherSnake]
  constructor
  · intro same
    rw [List.inj_on_of_nodup_map passes.nodup_moduleNames listed other same]
  · intro same
    rw [List.inj_on_of_nodup_map passes.nodup_names listed other same]

theorem Loaded.nodup_names_iff (loaded : m.Loaded models) {settings : Settings}
    (passes : Audit.Passes models settings) {wanted : List OperationKind} :
    ((m.queriesFor wanted).map Query.name).Nodup ↔ m.HasDistinctParents wanted := by
  have parents : (m.parents.map Parent.snakeName).Nodup ↔ (m.parents.map Parent.model).Nodup := by
    simp only [List.Nodup, List.pairwise_map]
    refine List.Pairwise.iff_of_mem fun first second => ?_
    exact not_congr (loaded.snakeName_eq_iff passes first second)
  have applies {kind : OperationKind} (several : kind.stems ≠ []) :
      kind ∈ m.applicable wanted ↔ kind ∈ wanted := by
    have other : kind ≠ .lookupObjectPermissions := by
      rintro rfl
      exact several rfl
    simp [applicable, OperationKind.mem_all, other]
  rw [nodup_names_queriesFor, HasDistinctParents, ← parents]
  constructor
  · rintro apart ⟨kind, listed, several, plain⟩
    have distinct := apart kind ((applies several).mpr listed) several
    rw [parentsOf, if_neg] at distinct
    · exact distinct
    · rintro ⟨update, joins⟩
      rw [plain update] at joins
      cases joins
  · intro apart kind listed several
    rw [parentsOf]
    split
    · exact List.nodup_nil
    · rename_i other
      refine apart ⟨kind, (applies several).mp listed, several, fun update => ?_⟩
      exact Bool.eq_false_iff.mpr fun joins => other ⟨update, joins⟩

end Model

end TenantSql
