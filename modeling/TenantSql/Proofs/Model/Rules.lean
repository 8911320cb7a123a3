import Mathlib.Data.List.Nodup
import TenantSql.Model.Basic
import TenantSql.Proofs.Text.Distinct

/-!
# Models that break no rule

What the rules of a single model say when none of them is broken.
-/

namespace TenantSql

namespace Text

theorem nodup_of_repeated {texts : List String} (none : (repeated texts).isEmpty) :
    texts.Nodup := by
  rw [List.isEmpty_iff] at none
  rw [List.nodup_iff_count]
  intro s
  refine Nat.le_of_not_lt fun often => ?_
  have counted : s ∈ repeated texts := by
    rw [repeated, (sorted_perm _).mem_iff, mem_distinct, List.mem_filter, decide_eq_true_eq]
    exact ⟨List.count_pos_iff.mp (Nat.zero_lt_of_lt often), often⟩
  rw [none] at counted
  cases counted

end Text

namespace Model

structure Lawful (m : Model) : Prop where
  names : (m.fields.map Field.name).Nodup
  columns : (m.fields.map Field.column).Nodup
  joinIds : ∀ id ∈ m.joinIdNames, ∃ f ∈ m.fields, f.name = id ∧ f.column = id
  joinHasNoId : m.isJoin → "id" ∉ m.fields.map Field.name
  joinHasNoChildren : m.isJoin → m.children = []
  tenancy : m.isGlobal = false ↔ "organization_id" ∈ m.fields.map Field.name
  plainHasId : m.isJoin = false → "id" ∈ m.fields.map Field.name

theorem join_of_plain {m : Model} (plain : m.isJoin = false) : m.join = none :=
  Option.isNone_iff_eq_none.mp (by simpa [isJoin] using plain)

theorem nodup_of_sharedNameBreach? {m : Model} (none : m.sharedNameBreach? = none) :
    (m.fields.map Field.name).Nodup ∧ (m.fields.map Field.column).Nodup := by
  simp only [sharedNameBreach?] at none
  split at none
  · cases none
  · rename_i names
    split at none
    · cases none
    · rename_i columns
      exact ⟨Text.nodup_of_repeated (by simpa using names),
        Text.nodup_of_repeated (by simpa using columns)⟩

theorem key_of_joinBreach? {m : Model} {join : Join} (none : m.joinBreach? join = none) :
    (∀ id ∈ join.idNames, ∃ f ∈ m.fields, f.name = id ∧ f.column = id) ∧
      "id" ∉ m.fields.map Field.name ∧ m.children = [] := by
  simp only [joinBreach?] at none
  split at none
  · cases none
  · rename_i missing
    split at none
    · cases none
    · rename_i renamed
      split at none
      · cases none
      · rename_i noId
        split at none
        · cases none
        · rename_i noChildren
          refine ⟨fun id member => ?_, by simpa using noId, by simpa using noChildren⟩
          simp only [Bool.not_eq_true, Bool.not_eq_false', List.isEmpty_iff, List.filter_eq_nil_iff]
            at missing renamed
          have named : id ∈ m.fields.map Field.name := by simpa using missing id member
          obtain ⟨f, held, rfl⟩ := List.mem_map.mp named
          have same := renamed f held
          simp [member] at same
          exact ⟨f, held, rfl, same⟩

theorem lawful_of_rules {m : Model} (rules : m.breach? = none) : m.Lawful := by
  rw [breach?, Option.or_eq_none_iff, Option.or_eq_none_iff] at rules
  obtain ⟨shared, identity, tenancy⟩ := rules
  obtain ⟨names, columns⟩ := nodup_of_sharedNameBreach? shared
  have belongs : m.isGlobal = false ↔ "organization_id" ∈ m.fields.map Field.name := by
    simp only [tenancyBreach?] at tenancy
    cases isGlobal : m.isGlobal <;> simp_all
  cases joined : m.join with
  | none =>
      have hasId : "id" ∈ m.fields.map Field.name := by
        rw [identityBreach?, joined] at identity
        refine List.count_pos_iff.mp ?_
        have once : (m.fields.map Field.name).count "id" = 1 := by simpa using identity
        omega
      refine ⟨names, columns, ?_, ?_, ?_, belongs, fun _ => hasId⟩ <;>
        simp [joinIdNames, isJoin, joined]
  | some join =>
      rw [identityBreach?, joined] at identity
      obtain ⟨ids, noId, noChildren⟩ := key_of_joinBreach? identity
      refine ⟨names, columns, ?_, fun _ => noId, fun _ => noChildren, belongs, ?_⟩
      · simpa [joinIdNames, joined] using ids
      · simp [isJoin, joined]

theorem Lawful.eq_of_column {m : Model} (lawful : m.Lawful) {f g : Field} (held : f ∈ m.fields)
    (other : g ∈ m.fields) (same : f.column = g.column) : f = g :=
  List.inj_on_of_nodup_map lawful.columns held other same

theorem Lawful.eq_of_name {m : Model} (lawful : m.Lawful) {f g : Field} (held : f ∈ m.fields)
    (other : g ∈ m.fields) (same : f.name = g.name) : f = g :=
  List.inj_on_of_nodup_map lawful.names held other same

theorem Lawful.column_of_joinId {m : Model} (lawful : m.Lawful) {f : Field} (held : f ∈ m.fields)
    (joined : f.name ∈ m.joinIdNames) : f.column = f.name := by
  obtain ⟨g, among, name, column⟩ := lawful.joinIds f.name joined
  rw [lawful.eq_of_name held among name.symm, column, name]

end Model

end TenantSql
