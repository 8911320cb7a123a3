import Mathlib.Data.List.Perm.Basic
import Mathlib.Data.List.Nodup
import TenantSql.Migration.Order
import TenantSql.Proofs.Model.Keys
import TenantSql.Proofs.Text.Distinct

/-!
# Every table in its order

The order of migrations has every table once: a table is placed when nothing
that it waits for is left, and so it is not released again; what was not placed
follows in the end.
-/

namespace TenantSql.Migration

variable {edges others : List Edge} {queue : List String} {t : String}

theorem mem_released (member : t ∈ released others edges) :
    (∃ edge ∈ edges, edge.after = t) ∧ ∀ edge ∈ others, edge.after ≠ t := by
  induction edges with
  | nil => cases member
  | cons edge rest induction =>
      rw [released] at member
      split at member
      · obtain ⟨⟨earlier, listed, after⟩, free⟩ := induction member
        exact ⟨⟨earlier, List.mem_cons_of_mem edge listed, after⟩, free⟩
      · rename_i last
        rcases List.mem_cons.mp member with rfl | later
        · refine ⟨⟨edge, List.mem_cons_self, rfl⟩, fun other listed same => last ?_⟩
          exact List.any_eq_true.mpr ⟨other, List.mem_append_right rest listed, beq_iff_eq.mpr same⟩
        · obtain ⟨⟨earlier, listed, after⟩, free⟩ := induction later
          exact ⟨⟨earlier, List.mem_cons_of_mem edge listed, after⟩, free⟩

theorem nodup_released (others edges : List Edge) : (released others edges).Nodup := by
  induction edges with
  | nil => exact List.nodup_nil
  | cons edge rest induction =>
      rw [released]
      split
      · exact induction
      · rename_i last
        refine List.nodup_cons.mpr ⟨fun again => last ?_, induction⟩
        obtain ⟨⟨later, listed, after⟩, _⟩ := mem_released again
        exact List.any_eq_true.mpr ⟨later, List.mem_append_left others listed, beq_iff_eq.mpr after⟩

structure Ready (queue : List String) (edges : List Edge) : Prop where
  distinct : queue.Nodup
  free : ∀ edge ∈ edges, edge.after ∉ queue

/-- Once its first table is placed, a queue goes on with the tables that are released. -/
theorem Ready.next {table : String} {waiting : List String} (ready : Ready (table :: waiting) edges) :
    Ready (waiting ++ released (otherEdges edges table) (edgesFrom edges table))
      (otherEdges edges table) := by
  obtain ⟨_, distinct⟩ := List.nodup_cons.mp ready.distinct
  constructor
  case distinct =>
    refine List.nodup_append.mpr ⟨distinct, nodup_released _ _, fun s waits other among same => ?_⟩
    obtain ⟨⟨edge, listed, after⟩, _⟩ := mem_released among
    have earlier : edge.after ∈ waiting := by
      rw [after, ← same]
      exact waits
    exact ready.free edge (List.mem_filter.mp listed).1 (List.mem_cons_of_mem table earlier)
  case free =>
    intro edge listed member
    rcases List.mem_append.mp member with waits | among
    · exact ready.free edge (List.mem_filter.mp listed).1 (List.mem_cons_of_mem table waits)
    · exact (mem_released among).2 edge listed rfl

theorem mem_place (member : t ∈ place queue edges) : t ∈ queue ∨ ∃ edge ∈ edges, edge.after = t := by
  induction queue, edges using place.induct with
  | case1 edges =>
      rw [place] at member
      cases member
  | case2 edges table waiting induction =>
      rw [place] at member
      rcases List.mem_cons.mp member with rfl | later
      · exact .inl List.mem_cons_self
      · rcases induction later with next | ⟨edge, listed, after⟩
        · rcases List.mem_append.mp next with waits | among
          · exact .inl (List.mem_cons_of_mem table waits)
          · obtain ⟨⟨edge, listed, after⟩, _⟩ := mem_released among
            exact .inr ⟨edge, (List.mem_filter.mp listed).1, after⟩
        · exact .inr ⟨edge, (List.mem_filter.mp listed).1, after⟩

theorem Ready.nodup_place (ready : Ready queue edges) : (place queue edges).Nodup := by
  induction queue, edges using place.induct with
  | case1 edges =>
      rw [place]
      exact List.nodup_nil
  | case2 edges table waiting induction =>
      rw [place]
      -- To be placed again, the table would have to be released, but no edge ends at it.
      refine List.nodup_cons.mpr ⟨fun again => ?_, induction ready.next⟩
      have free {edge : Edge} (listed : edge ∈ edges) : edge.after ≠ table := fun same =>
        ready.free edge listed (same ▸ List.mem_cons_self)
      rcases mem_place again with next | ⟨edge, listed, after⟩
      · rcases List.mem_append.mp next with waits | among
        · exact (List.nodup_cons.mp ready.distinct).1 waits
        · obtain ⟨⟨edge, listed, after⟩, _⟩ := mem_released among
          exact free (List.mem_filter.mp listed).1 after
      · exact free (List.mem_filter.mp listed).1 after

theorem after_mem_of_edgesOf {models : List Model} {edge : Edge} (listed : edge ∈ edgesOf models) :
    edge.after ∈ models.map Model.fullTable := by
  obtain ⟨m, member, among⟩ := List.mem_flatMap.mp listed
  obtain ⟨t, _, rfl⟩ := List.mem_map.mp among
  exact List.mem_map_of_mem member

def firstTables (models : List Model) : List String :=
  (models.map Model.fullTable).filter fun t => !(edgesOf models).any (·.after == t)

def placedTables (models : List Model) : List String :=
  place (firstTables models) (edgesOf models)

theorem mem_firstTables {models : List Model} :
    t ∈ firstTables models ↔
      t ∈ models.map Model.fullTable ∧ ∀ edge ∈ edgesOf models, edge.after ≠ t := by
  rw [firstTables, List.mem_filter, Bool.not_eq_true', List.any_eq_false]
  simp only [beq_iff_eq]

theorem ready_firstTables {models : List Model} (apart : (models.map Model.fullTable).Nodup) :
    Ready (firstTables models) (edgesOf models) where
  distinct := apart.filter _
  free := fun edge listed member => (mem_firstTables.mp member).2 edge listed rfl

theorem placedTables_subset {models : List Model} :
    placedTables models ⊆ models.map Model.fullTable := by
  intro t member
  rcases mem_place member with queued | ⟨edge, listed, rfl⟩
  · exact (mem_firstTables.mp queued).1
  · exact after_mem_of_edgesOf listed

theorem tableOrder_eq {models : List Model} (apart : (models.map Model.fullTable).Nodup) :
    tableOrder models = placedTables models ++
      (models.map Model.fullTable).filter fun t => !(placedTables models).contains t := by
  simp only [tableOrder, Text.distinct_of_nodup apart]
  rfl

theorem tableOrder_perm {models : List Model} (apart : (models.map Model.fullTable).Nodup) :
    (tableOrder models).Perm (models.map Model.fullTable) := by
  -- Without repetition, it is enough that both lists have the same tables.
  rw [tableOrder_eq apart]
  refine (List.perm_ext_iff_of_nodup ?_ apart).mpr fun t => ?_
  · refine List.nodup_append.mpr ⟨(ready_firstTables apart).nodup_place, apart.filter _,
      fun s early other late same => ?_⟩
    have absent := (List.mem_filter.mp late).2
    rw [← same, List.contains_iff_mem.mpr early] at absent
    cases absent
  · rw [List.mem_append, List.mem_filter, Bool.not_eq_true', List.contains_eq_mem,
      decide_eq_false_iff_not]
    constructor
    · rintro (early | late)
      · exact placedTables_subset early
      · exact late.1
    · intro listed
      exact (Decidable.em (t ∈ placedTables models)).imp id fun absent => ⟨listed, absent⟩

/-- The order has every model once. -/
theorem order_perm {models : List Model} (apart : (models.map Model.fullTable).Nodup) :
    (order models).Perm models := by
  have whole : (models.map Model.fullTable).filterMap (fun table =>
      models.reverse.find? (·.fullTable == table)) = models := by
    rw [List.filterMap_map]
    refine Eq.trans (List.filterMap_congr fun m member => ?_) (List.filterMap_some (l := models))
    exact find?_reverse_of_key apart member
  rw [order]
  exact ((tableOrder_perm apart).filterMap _).trans (.of_eq whole)

end TenantSql.Migration
