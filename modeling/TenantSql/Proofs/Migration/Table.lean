import Mathlib.Data.List.Nodup
import TenantSql.Migration.Script
import TenantSql.Proofs.Check.Result
import TenantSql.Proofs.Model.Rules

/-!
# Declared tables

What a migration declares of the columns of a model: which ones make up the
primary key, which are unique on their own, and which every new row must give.
-/

namespace TenantSql

namespace Migration

/-- A new row must give the column: it is never null and has no default. -/
def ColumnDefinition.IsRequired (c : ColumnDefinition) : Prop :=
  c.notNull ∧ c.default = none

instance (c : ColumnDefinition) : Decidable c.IsRequired :=
  inferInstanceAs (Decidable (_ ∧ _))

/-- The columns are, as a set, the primary key or a single unique column. -/
def TableDefinition.HasKey (t : TableDefinition) (columns : List String) : Prop :=
  (∀ c, c ∈ columns ↔ c ∈ t.primaryKey) ∨
    ∃ unique, .unique unique ∈ t.constraints ∧ ∀ c, c ∈ columns ↔ c = unique

variable {models : List Model} {m : Model}

theorem up_of_script {s : Script} (made : script models m = .ok s) :
    s.up = (tableDefinition models m).upText := by
  simp only [script, Result.bind_eq_ok, Result.pure_eq_ok] at made
  obtain ⟨text, up, rfl⟩ := made
  simp only [upText] at up
  split at up
  · cases up
  · exact (Except.ok.inj up).symm

theorem mem_primaryKey {c : String} :
    c ∈ (tableDefinition models m).primaryKey ↔
      ∃ f ∈ m.fields, f.name ∈ keyNames m ∧ f.column = c := by
  simp only [tableDefinition, isKey, List.mem_map, List.mem_filter, List.contains_iff_mem,
    and_assoc]

theorem unique_mem_constraints {c : String} :
    .unique c ∈ (tableDefinition models m).constraints ↔
      ∃ f ∈ m.fields, f.unique ∧ f.column = c := by
  simp only [tableDefinition, List.mem_flatMap]
  refine exists_congr fun f => and_congr_right fun _ => ?_
  rw [fieldConstraints, List.mem_append]
  constructor
  · rintro (unique | key)
    · split at unique
      · rename_i stated
        exact ⟨stated, (Constraint.unique.inj (List.mem_singleton.mp unique)).symm⟩
      · cases unique
    · split at key
      · cases List.mem_singleton.mp key
      · cases key
  · rintro ⟨stated, rfl⟩
    rw [if_pos stated]
    exact .inl (List.mem_singleton_self _)

theorem foreignKey_mem_constraints {c : String} {table : Sql.TableName} :
    .foreignKey c table ∈ (tableDefinition models m).constraints ↔
      ∃ f ∈ m.fields, ∃ target ∈ target? models f, f.column = c ∧ target.tableName = table := by
  simp only [tableDefinition, List.mem_flatMap]
  refine exists_congr fun f => and_congr_right fun _ => ?_
  rw [fieldConstraints, List.mem_append]
  constructor
  · rintro (unique | key)
    · split at unique
      · cases List.mem_singleton.mp unique
      · cases unique
    · split at key
      · rename_i target found
        obtain ⟨rfl, rfl⟩ := Constraint.foreignKey.inj (List.mem_singleton.mp key)
        exact ⟨target, found, rfl, rfl⟩
      · cases key
  · rintro ⟨target, found, rfl, rfl⟩
    rw [Option.mem_def.mp found]
    exact .inr (List.mem_singleton_self _)

theorem hasKey_singleton {t : TableDefinition} {column : String} :
    t.HasKey [column] ↔ (∀ c, c ∈ t.primaryKey ↔ c = column) ∨ .unique column ∈ t.constraints := by
  constructor
  · rintro (primary | ⟨unique, stated, only⟩)
    · exact .inl fun c => (primary c).symm.trans List.mem_singleton
    · have same : column = unique := (only column).mp (List.mem_singleton_self column)
      exact .inr (same ▸ stated)
  · rintro (primary | stated)
    · exact .inl fun c => List.mem_singleton.trans (primary c).symm
    · exact .inr ⟨column, stated, fun c => List.mem_singleton⟩

end Migration

namespace Model

open Migration

variable {models : List Model} {m : Model}

/-- The ids of the joined parents identify a row of a join table. -/
theorem idColumns_of_isJoin (joins : m.isJoin) : m.idColumns.map (·.1) = m.joinIdNames := by
  obtain ⟨join, joined⟩ := Option.isSome_iff_exists.mp joins
  simp [idColumns, joinIdNames, Join.idNames, joined]

theorem idColumns_of_plain (plain : m.isJoin = false) : m.idColumns.map (·.1) = ["id"] := by
  simp [idColumns, join_of_plain plain]

theorem joinIdNames_of_plain (plain : m.isJoin = false) : m.joinIdNames = [] := by
  simp [joinIdNames, join_of_plain plain]

theorem Lawful.mem_primaryKey_of_isJoin (lawful : m.Lawful) (joins : m.isJoin) {c : String} :
    c ∈ (tableDefinition models m).primaryKey ↔ c ∈ m.idColumns.map (·.1) := by
  rw [mem_primaryKey, keyNames, if_pos joins, idColumns_of_isJoin joins]
  constructor
  · rintro ⟨f, held, named, rfl⟩
    rw [lawful.column_of_joinId held named]
    exact named
  · intro joined
    obtain ⟨f, held, name, column⟩ := lawful.joinIds c joined
    exact ⟨f, held, name ▸ joined, column⟩

theorem Lawful.mem_primaryKey_of_plain (lawful : m.Lawful) (plain : m.isJoin = false) {f : Field}
    (held : f ∈ m.fields) (name : f.name = "id") {c : String} :
    c ∈ (tableDefinition models m).primaryKey ↔ c = f.column := by
  rw [mem_primaryKey, keyNames, plain, if_neg Bool.false_ne_true]
  constructor
  · rintro ⟨g, other, named, rfl⟩
    rw [lawful.eq_of_name other held ((List.mem_singleton.mp named).trans name.symm)]
  · rintro rfl
    exact ⟨f, held, List.mem_singleton.mpr name, rfl⟩

end Model

end TenantSql
