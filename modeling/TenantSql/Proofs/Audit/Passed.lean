import Mathlib.Data.List.Nodup
import TenantSql.Audit.Project
import TenantSql.Proofs.Model.Keys
import TenantSql.Proofs.Model.Rules
import TenantSql.Query.Identity

/-!
# Audits without errors

What an audit without errors says about the models: names and tables are not
shared, and relations lead to models of the right kind.
-/

namespace TenantSql

namespace Audit

def Passes (models : List Model) (settings : Settings) : Prop :=
  (findings models settings).hasErrors = false

variable {ms : List Model} {settings : Settings}

theorem Passes.noError (passes : Passes ms settings) {c : Concern} (member : c ∈ models ms) :
    c.level ≠ .error := by
  intro error
  have listed : c.finding ∈ findings ms settings :=
    List.mem_map_of_mem (List.mem_append_left _ member)
  have found := List.any_eq_false.mp passes c.finding listed
  rw [Finding.isError, Concern.finding, error] at found
  exact found rfl

theorem nodup_of_sharedCounts {texts : List String} (none : sharedCounts texts = []) :
    texts.Nodup := by
  rw [List.nodup_iff_count]
  intro s
  refine Nat.le_of_not_lt fun often => ?_
  have counted : (s, texts.count s) ∈ sharedCounts texts := by
    rw [sharedCounts, List.mem_filter, decide_eq_true_eq]
    refine ⟨List.mem_map_of_mem (Text.mem_distinct.mpr ?_), often⟩
    exact List.count_pos_iff.mp (Nat.zero_lt_of_lt often)
  rw [none] at counted
  cases counted

theorem Passes.noSharedName (passes : Passes ms settings) {c : Concern}
    (member : c ∈ sharedNames ms) : c.level ≠ .error := by
  refine passes.noError ?_
  simp only [models, modelNames, List.mem_append]
  exact .inl (.inl (.inl (.inl (.inl (.inl member)))))

theorem Passes.nodup_names (passes : Passes ms settings) : (ms.map Model.name).Nodup := by
  refine nodup_of_sharedCounts (List.eq_nil_iff_forall_not_mem.mpr fun entry member => ?_)
  refine passes.noSharedName (c := .sharedModelName entry.1 entry.2) ?_ rfl
  exact List.mem_append_left _ (List.mem_append_left _
    (List.mem_map_of_mem (f := fun entry => Concern.sharedModelName entry.1 entry.2) member))

theorem Passes.nodup_fullTables (passes : Passes ms settings) : (ms.map Model.fullTable).Nodup := by
  refine nodup_of_sharedCounts (List.eq_nil_iff_forall_not_mem.mpr fun entry member => ?_)
  refine passes.noSharedName (c := .sharedTable entry.1 entry.2) ?_ rfl
  exact List.mem_append_left _ (List.mem_append_right _
    (List.mem_map_of_mem (f := fun entry => Concern.sharedTable entry.1 entry.2) member))

theorem Passes.nodup_moduleNames (passes : Passes ms settings) :
    (ms.map Model.moduleName).Nodup := by
  refine nodup_of_sharedCounts (List.eq_nil_iff_forall_not_mem.mpr fun entry member => ?_)
  refine passes.noSharedName (c := .sharedModule entry.1 entry.2) ?_ rfl
  exact List.mem_append_right _
    (List.mem_map_of_mem (f := fun entry => Concern.sharedModule entry.1 entry.2) member)

theorem Passes.eq_of_tableName (passes : Passes ms settings) {a b : Model} (first : a ∈ ms)
    (second : b ∈ ms) (same : a.tableName = b.tableName) : a = b := by
  refine List.inj_on_of_nodup_map passes.nodup_fullTables first second ?_
  obtain ⟨schema, table⟩ := Sql.TableName.mk.inj same
  rw [Model.fullTable, Model.fullTable, schema, table]

theorem Passes.lookup_name (passes : Passes ms settings) {m : Model} (member : m ∈ ms) :
    lookup ms m.name = some m :=
  find?_reverse_of_key passes.nodup_names member

theorem Passes.noRelationError (passes : Passes ms settings) {m : Model} (member : m ∈ ms)
    {c : Concern} (concern : c ∈ relationConcerns ms m) : c.level ≠ .error := by
  refine passes.noError ?_
  simp only [models, List.mem_append]
  exact .inl (.inl (.inl (.inr (List.mem_flatMap.mpr ⟨m, member, concern⟩))))

theorem Passes.not_reserved (passes : Passes ms settings) {m : Model} (member : m ∈ ms) {f : Field}
    (held : f ∈ m.fields) (settable : f.ownerWritable) : f.name ∉ Binding.reserved := by
  intro reserved
  refine passes.noError (c := .shadowedBinding f.name m.name f.ownerWritable) ?_ ?_
  · simp only [models, List.mem_append]
    refine .inl (.inl (.inl (.inl (.inr (List.mem_flatMap.mpr ⟨m, member, ?_⟩)))))
    refine List.mem_flatMap.mpr ⟨f, held, List.mem_append_right _ ?_⟩
    have shadows : Binding.isReserved f.name := List.contains_iff_mem.mpr reserved
    rw [if_pos shadows]
    exact List.mem_singleton_self _
  · rw [settable]
    rfl

theorem Passes.parent_plain (passes : Passes ms settings) {m target : Model} (member : m ∈ ms)
    (listed : target ∈ ms) {p : Parent} (parent : p ∈ m.parents) (model : p.model = target.name) :
    target.isJoin = false := by
  refine Bool.eq_false_iff.mpr fun joins => ?_
  refine passes.noRelationError member (c := .parentIsJoin m.name target.name) ?_ rfl
  refine List.mem_append_left _ (List.mem_append_left _ (List.mem_append_left _ ?_))
  refine List.mem_flatMap.mpr ⟨p, parent, ?_⟩
  simp [parentConcerns, model, passes.lookup_name listed, joins]

theorem Passes.child_tenancy (passes : Passes ms settings) {m target : Model} (member : m ∈ ms)
    (listed : target ∈ ms) {c : Child} (child : c ∈ m.children) (model : c.model = target.name) :
    target.isGlobal = m.isGlobal := by
  refine Decidable.byContradiction fun differ => ?_
  refine passes.noRelationError member
    (c := .childTenancy m.name m.isGlobal target.name target.isGlobal) ?_ rfl
  refine List.mem_append_left _ (List.mem_append_left _ (List.mem_append_right _ ?_))
  refine List.mem_flatMap.mpr ⟨c, child, ?_⟩
  simp [childConcerns, model, passes.lookup_name listed, differ]

theorem Passes.reference_plain (passes : Passes ms settings) {m target : Model} (member : m ∈ ms)
    (listed : target ∈ ms) {r : Reference} (reference : r ∈ m.references)
    (model : r.model = target.name) : target.isJoin = false := by
  refine Bool.eq_false_iff.mpr fun joins => ?_
  refine passes.noRelationError member (c := .referenceIsJoin m.name r.model) ?_ rfl
  refine List.mem_append_left _ (List.mem_append_right _ ?_)
  refine List.mem_flatMap.mpr ⟨r, reference, ?_⟩
  simp [referenceConcerns, model, passes.lookup_name listed, joins]

theorem Passes.field_plain (passes : Passes ms settings) {m target : Model} (member : m ∈ ms)
    (listed : target ∈ ms) {f : Field} (held : f ∈ m.fields) (plain : isRelationField m f = false)
    (references : f.references = some target.fullTable) : target.isJoin = false := by
  refine Bool.eq_false_iff.mpr fun joins => ?_
  refine passes.noRelationError member
    (c := .fieldReferencesJoin f.name m.name target.fullTable) ?_ rfl
  refine List.mem_append_right _ (List.mem_flatMap.mpr ⟨f, held, ?_⟩)
  have among : isJoinTable ms target.fullTable := by
    refine List.any_eq_true.mpr ⟨target, listed, ?_⟩
    rw [joins, beq_self_eq_true]
    rfl
  simp [plainFieldConcerns, references, plain, among]

theorem Passes.index_known (passes : Passes ms settings) {m : Model} (member : m ∈ ms)
    {index : List String} (listed : index ∈ m.indexes) {column : String} (among : column ∈ index) :
    column ∈ m.fields.map Field.column := by
  refine Decidable.byContradiction fun unknown => ?_
  let missing := index.filter fun column => !(m.fields.map Field.column).contains column
  have absent : column ∈ missing := by
    refine List.mem_filter.mpr ⟨among, ?_⟩
    rw [Bool.not_eq_true', List.contains_eq_mem, decide_eq_false_iff_not]
    exact unknown
  refine passes.noError (c := .unknownIndexColumns m.name index missing) ?_ rfl
  simp only [models, List.mem_append]
  refine .inr (List.mem_flatMap.mpr ⟨m, member, List.mem_flatMap.mpr ⟨index, listed, ?_⟩⟩)
  have columns : index.isEmpty = false := List.isEmpty_eq_false_iff.mpr (List.ne_nil_of_mem among)
  have some : missing.isEmpty = false := List.isEmpty_eq_false_iff.mpr (List.ne_nil_of_mem absent)
  simp only [indexConcerns, columns, Bool.false_eq_true, if_false]
  rw [if_neg (by rw [some]; exact Bool.false_ne_true)]
  exact List.mem_singleton_self _

theorem Passes.listOrder (passes : Passes ms settings) {m : Model} (member : m ∈ ms) :
    ∃ order, m.listOrder none = .ok order := by
  cases usual : m.defaultSort with
  | none => exact ⟨none, by rw [Model.listOrder, usual]; rfl⟩
  | some request =>
      cases admitted : m.orderOf request with
      | ok order =>
          refine ⟨some order, ?_⟩
          rw [Model.listOrder, usual, Option.none_or]
          simp only [admitted]
          rfl
      | error e =>
          have concern : Concern.invalidDefaultSort m.name request e.reason ∈ models ms := by
            simp only [models, List.mem_append]
            refine .inl (.inr (List.mem_flatMap.mpr ⟨m, member, ?_⟩))
            simp [sortConcerns, usual, admitted]
          exact absurd rfl (passes.noError concern)

end Audit

end TenantSql
