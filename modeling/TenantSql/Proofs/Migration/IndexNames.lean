import Mathlib.Data.List.Lattice
import Mathlib.Data.List.Pairwise
import TenantSql.Proofs.Migration.Scripts

/-!
# The names of indexes

An index is named after its table and its columns, with underscores between
them. So two indexes of one schema share a name if their columns are spelled
alike, or if one table's name goes on in the columns of the other table's index.
-/

namespace TenantSql

namespace Sql

theorem label_inj {s t : String} : label s = label t ↔ s = t := by
  rw [label, label, String.ofList_inj, ← String.toList_inj]
  simp [doubling_inj]

end Sql

namespace Migration

open Sql

variable {models : List Model} {m o : Model} {columns others : List String}

/-! ## Two names -/

def columnWords (columns : List String) : String :=
  "_".intercalate columns

theorem toList_indexName : (indexName m columns).toList =
    (m.table.toList ++ '_' :: (columnWords columns).toList) ++ "_idx".toList := by
  simp [indexName, columnWords, -String.toList_intercalate]

/-- The second table is named like the first with more behind it, and that is how the columns of
the first one's index begin. -/
def RunsInto (m o : Model) (columns others : List String) : Prop :=
  ∃ front, o.table = m.table ++ "_" ++ front ∧
    columnWords columns = front ++ "_" ++ columnWords others

/-- Where a text with an underscore in two places is cut, the pieces are equal or one of them holds
the other's underscore. -/
theorem append_underscore_eq_iff {a b c d : List Char} :
    a ++ '_' :: b = c ++ '_' :: d ↔
      (a = c ∧ b = d) ∨ (∃ front, c = a ++ '_' :: front ∧ b = front ++ '_' :: d) ∨
        ∃ front, a = c ++ '_' :: front ∧ d = front ++ '_' :: b := by
  constructor
  · intro same
    rcases List.append_eq_append_iff.mp same with ⟨more, longer, rest⟩ | ⟨more, longer, rest⟩
    · cases more with
      | nil => exact .inl ⟨by simpa using longer.symm, by simpa using rest⟩
      | cons first front =>
          obtain ⟨rfl, behind⟩ := List.cons.inj rest
          exact .inr (.inl ⟨front, longer, behind⟩)
    · cases more with
      | nil => exact .inl ⟨by simpa using longer, by simpa using rest.symm⟩
      | cons first front =>
          obtain ⟨rfl, behind⟩ := List.cons.inj rest
          exact .inr (.inr ⟨front, longer, behind⟩)
  · rintro (⟨rfl, rfl⟩ | ⟨front, rfl, rfl⟩ | ⟨front, rfl, rfl⟩) <;> simp

theorem runsInto_iff : RunsInto m o columns others ↔
    ∃ front, o.table.toList = m.table.toList ++ '_' :: front ∧
      (columnWords columns).toList = front ++ '_' :: (columnWords others).toList := by
  constructor
  · rintro ⟨front, table, words⟩
    exact ⟨front.toList, by simp [table], by simp [words]⟩
  · rintro ⟨front, table, words⟩
    refine ⟨String.ofList front, ?_, ?_⟩ <;> rw [← String.toList_inj] <;> simp [table, words]

/-- The names of two indexes are equal only if their tables and columns are spelled alike or one
of them runs into the other. -/
theorem indexName_eq_iff : indexName m columns = indexName o others ↔
    (m.table = o.table ∧ columnWords columns = columnWords others) ∨
      RunsInto m o columns others ∨ RunsInto o m others columns := by
  rw [← String.toList_inj, toList_indexName, toList_indexName, List.append_left_inj,
    append_underscore_eq_iff, runsInto_iff, runsInto_iff, String.toList_inj, String.toList_inj]

theorem indexName_inj : indexName m columns = indexName m others ↔
    columnWords columns = columnWords others := by
  rw [← String.toList_inj, toList_indexName, toList_indexName, List.append_left_inj,
    List.append_right_inj, List.cons_inj_right, String.toList_inj]

/-! ## The names that are written -/

/-- A name that stands bare holds no quote, so it is not the label of another one. -/
theorem ne_label_of_bare {bare : String}
    (plain : (withoutLastBreak bare.toList).all isIdentifierChar) (quoted : String) :
    bare ≠ label quoted := by
  rintro rfl
  have spelled : (label quoted).toList =
      ('"' :: doubling (fun c => c == '"' || c == '%') quoted.toList) ++ ['"'] :=
    String.toList_ofList
  have unbroken : withoutLastBreak (label quoted).toList = (label quoted).toList := by
    rw [withoutLastBreak, spelled, List.getLast?_concat]
    rfl
  rw [unbroken, spelled] at plain
  have quote := List.all_eq_true.mp plain '"' List.mem_cons_self
  revert quote
  decide

/-- Different names are written differently, in quotes or without. -/
theorem nameText_inj {s t : String} : nameText s = nameText t ↔ s = t := by
  have plain {name : String} (bare :
      ¬ (isQuotedWord name || !(withoutLastBreak name.toList).all isIdentifierChar) = true) :
      (withoutLastBreak name.toList).all isIdentifierChar := by
    rw [Bool.or_eq_true, not_or, Bool.not_eq_true', Bool.not_eq_false] at bare
    exact bare.2
  refine ⟨fun same => ?_, congrArg _⟩
  rw [nameText, nameText] at same
  split at same <;> split at same
  · exact label_inj.mp same
  · rename_i bare
    exact absurd same.symm (ne_label_of_bare (plain bare) s)
  · rename_i bare _
    exact absurd same (ne_label_of_bare (plain bare) t)
  · exact same

def writtenIndexNames (models : List Model) (schema : String) : List String :=
  ((order models).filter (·.schema == schema)).flatMap fun m =>
    (tableDefinition models m).indexes.map fun index => nameText index.name

theorem indexNames_perm :
    ((tableDefinition models m).indexes.map fun index => nameText index.name).Perm
      ((indexColumns m).map fun columns => nameText (indexName m columns)) := by
  rw [tableDefinition]
  refine ((List.mergeSort_perm _ _).map _).trans (.of_eq ?_)
  rw [List.map_map]
  rfl

/-! ## When names are distinct -/

theorem RunsInto.length_lt (runs : RunsInto m o columns others) :
    m.table.length < o.table.length := by
  obtain ⟨front, longer, _⟩ := runs
  have underscore : "_".length = 1 := rfl
  rw [longer, String.length_append, String.length_append, underscore]
  omega

/-- The index of the table with the shorter name runs into the other one if they share a name. -/
theorem runsInto_iff_eq : RunsInto m o columns others ↔
    m.table.length < o.table.length ∧ indexName m columns = indexName o others := by
  constructor
  · intro runs
    exact ⟨runs.length_lt, indexName_eq_iff.mpr (.inr (.inl runs))⟩
  · rintro ⟨shorter, same⟩
    rcases indexName_eq_iff.mp same with ⟨table, _⟩ | runs | back
    · exact absurd (congrArg String.length table) (Nat.ne_of_lt shorter)
    · exact runs
    · exact absurd shorter (Nat.not_lt_of_lt back.length_lt)

instance (m o : Model) (columns others : List String) : Decidable (RunsInto m o columns others) :=
  decidable_of_iff _ runsInto_iff_eq.symm

/-- No two indexes of one table have columns that are spelled alike, and no index of a table runs
into one of another table in its schema. -/
structure HasDistinctIndexNames (models : List Model) : Prop where
  own : ∀ m ∈ models, ((indexColumns m).map columnWords).Nodup
  across : ∀ m ∈ models, ∀ o ∈ models, m.schema = o.schema → ∀ columns ∈ indexColumns m,
    ∀ others ∈ indexColumns o, ¬ RunsInto m o columns others

instance (models : List Model) : Decidable (HasDistinctIndexNames models) :=
  decidable_of_iff (_ ∧ _) ⟨fun both => ⟨both.1, both.2⟩, fun has => ⟨has.own, has.across⟩⟩

theorem nodup_own : ((indexColumns m).map fun columns => nameText (indexName m columns)).Nodup ↔
    ((indexColumns m).map columnWords).Nodup := by
  simp only [List.Nodup, List.pairwise_map, ne_eq, nameText_inj, indexName_inj]

theorem disjoint_iff (apart : m.table ≠ o.table) :
    List.Disjoint ((indexColumns m).map fun columns => nameText (indexName m columns))
        ((indexColumns o).map fun columns => nameText (indexName o columns)) ↔
      ∀ columns ∈ indexColumns m, ∀ others ∈ indexColumns o,
        ¬ RunsInto m o columns others ∧ ¬ RunsInto o m others columns := by
  simp only [List.disjoint_iff_ne, List.forall_mem_map, ne_eq, nameText_inj, indexName_eq_iff,
    apart, false_and, false_or, not_or]

theorem nodup_flatMap_iff {α β : Type} {items : List α} {f : α → List β} (whole : items.Nodup) :
    (items.flatMap f).Nodup ↔ (∀ a ∈ items, (f a).Nodup) ∧
      ∀ a ∈ items, ∀ b ∈ items, a ≠ b → List.Disjoint (f a) (f b) := by
  have symmetric : Std.Symm (Function.onFun List.Disjoint f) := ⟨fun _ _ apart => apart.symm⟩
  rw [List.nodup_flatMap]
  refine and_congr_right fun _ => ⟨fun apart a first b second different => ?_, fun apart => ?_⟩
  · exact apart.forall first second different
  · exact whole.pairwise_of_forall_ne apart

theorem writtenIndexNames_perm (tables : (models.map Model.fullTable).Nodup) (schema : String) :
    (writtenIndexNames models schema).Perm ((models.filter (·.schema == schema)).flatMap fun m =>
      (indexColumns m).map fun columns => nameText (indexName m columns)) :=
  (((order_perm tables).filter _).flatMap_right _).trans
    (List.Perm.flatMap_left _ fun _ _ => indexNames_perm)

end Migration

open Migration

section

variable {models : List Model} {settings : Settings}

theorem Audit.Passes.table_ne (passes : Audit.Passes models settings) {m o : Model}
    (member : m ∈ models) (other : o ∈ models) (schema : m.schema = o.schema) (different : m ≠ o) :
    m.table ≠ o.table := fun table =>
  different (passes.eq_of_tableName member other (congrArg₂ Sql.TableName.mk schema table))

theorem Audit.Passes.nodup_writtenIndexNames_iff (passes : Audit.Passes models settings)
    (schema : String) : (writtenIndexNames models schema).Nodup ↔
      (∀ m ∈ models, m.schema = schema → ((indexColumns m).map columnWords).Nodup) ∧
        ∀ m ∈ models, m.schema = schema → ∀ o ∈ models, o.schema = schema → m ≠ o →
          ∀ columns ∈ indexColumns m, ∀ others ∈ indexColumns o,
            ¬ RunsInto m o columns others ∧ ¬ RunsInto o m others columns := by
  have whole : (models.filter (·.schema == schema)).Nodup := passes.nodup_fullTables.of_map.filter _
  rw [(writtenIndexNames_perm passes.nodup_fullTables schema).nodup_iff, nodup_flatMap_iff whole]
  simp only [List.mem_filter, beq_iff_eq, and_imp, nodup_own]
  refine and_congr_right fun _ => forall₂_congr fun m member => forall_congr' fun inSchema =>
    forall₂_congr fun o other => forall₂_congr fun same different => ?_
  exact disjoint_iff (passes.table_ne member other (inSchema.trans same.symm) different)

theorem Audit.Passes.hasDistinctIndexNames_iff (passes : Audit.Passes models settings) :
    (∀ schema, (writtenIndexNames models schema).Nodup) ↔ HasDistinctIndexNames models := by
  simp only [passes.nodup_writtenIndexNames_iff]
  constructor
  · intro distinct
    refine ⟨fun m member => (distinct m.schema).1 m member rfl,
      fun m member o other same columns listed others among runs => ?_⟩
    have different : m ≠ o := fun one => Nat.lt_irrefl _ (one ▸ runs.length_lt)
    exact ((distinct m.schema).2 m member rfl o other same.symm different columns listed others
      among).1 runs
  · intro distinct schema
    refine ⟨fun m member _ => distinct.own m member, ?_⟩
    intro m member first o other second _ columns listed others among
    have same := first.trans second.symm
    exact ⟨distinct.across m member o other same columns listed others among,
      distinct.across o other m member same.symm others among columns listed⟩

/-- If an audit finds no error, the names of the indexes that migrations create are distinct in
every schema if and only if no table has two indexes whose columns are spelled alike and no index
of a table runs into one of another table in the same schema. -/
theorem indexNames_nodup_iff (passes : Audit.Passes models settings) :
    ((∀ schema, (writtenIndexNames models schema).Nodup) ↔ HasDistinctIndexNames models) ∧
      ∀ made, scripts models = .ok made →
        made.map Script.up = (order models).map fun m => (tableDefinition models m).upText := by
  refine ⟨passes.hasDistinctIndexNames_iff, fun made written => ?_⟩
  rw [passes.scripts_eq] at written
  exact Result.map_eq_of_mapM (fun _ _ made => up_of_script made) written

end

theorem blog_indexNames : ∃ models, loadModels (blog "id") .default none = .ok models ∧
    Audit.Passes models .default ∧ ∀ schema, (writtenIndexNames models schema).Nodup := by
  have distinct : HasDistinctIndexNames (blogModels .id) := by decide +kernel
  exact ⟨_, loadModels_blog .id, blog_passes .id,
    (indexNames_nodup_iff (blog_passes .id)).1.mpr distinct⟩

def indexedPosts : Entries := .ofFields [("models", .list [
  .ofFields [("name", .text "Post"), ("fields", .list [
    .ofFields [("name", .text "title"), ("indexed", .bool true)]]),
    ("indexes", .list [.list [.text "title"]])]])]

/-- Both indexes of the titles have one name, in a migration that is written all the same. -/
theorem indexedPosts_shareName : ∃ models made,
    loadModels indexedPosts .default none = .ok models ∧ Audit.Passes models .default ∧
    scripts models = .ok made ∧ ¬ (writtenIndexNames models "public").Nodup := by
  obtain ⟨models, m, loaded, member, checked⟩ := exists_loaded indexedPosts
    (fun m models => !(Audit.findings models .default).hasErrors &&
      models.all (fun m => decide (Renders models m)) && m.schema == "public" &&
      !decide ((indexColumns m).map columnWords).Nodup) (by decide +kernel)
  simp only [Bool.and_eq_true, Bool.not_eq_true', beq_iff_eq, List.all_eq_true, decide_eq_true_eq,
    decide_eq_false_iff_not] at checked
  obtain ⟨⟨⟨passes, renders⟩, schema⟩, twice⟩ := checked
  obtain ⟨made, written⟩ := (Audit.Passes.exists_scripts_iff passes).mpr fun m member =>
    exists_script_iff.mpr (renders m member)
  refine ⟨models, made, loaded, passes, written, fun distinct => twice ?_⟩
  exact ((Audit.Passes.nodup_writtenIndexNames_iff passes "public").mp distinct).1 m member schema

end TenantSql
