import TenantSql.Proofs.Definition.Parents
import TenantSql.Proofs.Migration.Agreement
import TenantSql.Proofs.Query.Plan
import TenantSql.Proofs.Sql.Row

/-!
# Rows that are no longer listed

When a list takes the place of the rows of a parent, a deletion removes the rows
that it leaves out. The deletion compares one column. It is what the key of a row
has besides the parent, unless a join table has further parents or a table has no
column `id` of its own.
-/

namespace TenantSql

open Migration Sql

variable {ι : Type}

/-! ## Rows with keys -/

structure Migration.TableDefinition.Admits (t : TableDefinition) (rows : List (Row ι)) : Prop where
  notNull : ∀ row ∈ rows, ∀ c ∈ t.primaryKey, row c ≠ none
  unique : ∀ row ∈ rows, ∀ other ∈ rows, (∀ c ∈ t.primaryKey, row c = other c) → row = other

def Sql.Statement.Deletes [DecidableEq ι] (s : Statement String) (bound : Bound ι)
    (tables : TableName → List (Row ι)) (table : TableName) (row : Row ι) : Prop :=
  ∃ conditions, s = .delete table conditions ∧
    Truth.allOf (conditions.map (·.truth bound tables row)) = some true

theorem Sql.Statement.deletes_iff [DecidableEq ι] {bound : Bound ι}
    {tables : TableName → List (Row ι)} {table : TableName} {row : Row ι}
    {conditions : List (Condition String)} :
    (Statement.delete table conditions).Deletes bound tables table row ↔
      ∀ condition ∈ conditions, condition.passes bound tables row := by
  have all : Truth.allOf (conditions.map (·.truth bound tables row)) = some true ↔
      ∀ condition ∈ conditions, condition.passes bound tables row := by
    rw [Truth.allOf_eq_true, List.forall_mem_map]
    exact forall₂_congr fun _ _ => Condition.truth_eq_true
  rw [← all]
  constructor
  · rintro ⟨_, ⟨⟩, truth⟩
    exact truth
  · intro truth
    exact ⟨conditions, rfl, truth⟩

namespace Model

variable {models : List Model} {m : Model} {p : Parent}

def IsOfParent [DecidableEq ι] (m : Model) (p : Parent) (bound : Bound ι) (row : Row ι) : Prop :=
  (m.isGlobal = false →
    sameDatum (row "organization_id") (bound.value Binding.organization)) ∧
  sameDatum (row p.column) (bound.value Binding.parentId)

theorem passes_ofParentTests [DecidableEq ι] {bound : Bound ι} {tables : TableName → List (Row ι)}
    {row : Row ι} :
    (∀ condition ∈ m.ofParentTests p, condition.passes bound tables row) ↔
      m.IsOfParent p bound row := by
  rw [ofParentTests, List.forall_mem_append, List.forall_mem_singleton, IsOfParent]
  refine and_congr ?_ Iff.rfl
  cases tenant : m.isGlobal <;>
    simp [organizationTest, tenant, Condition.passes, Comparison.passes]

theorem deletes_removedChildren_iff [DecidableEq ι] {bound : Bound ι}
    {tables : TableName → List (Row ι)} {row : Row ι} :
    (m.deleteRemovedChildrenPlan p).statement.Deletes bound tables m.tableName row ↔
      m.IsOfParent p bound row ∧ ∀ value ∈ bound.array Binding.ids,
        row (m.otherIdColumn p.column) ≠ none ∧ row (m.otherIdColumn p.column) ≠ some value := by
  refine Statement.deletes_iff.trans (List.forall_mem_append.trans
    (and_congr passes_ofParentTests (List.forall_mem_singleton.trans ?_)))
  simp only [Condition.passes, Comparison.passes, bare, List.all_eq_true, Bool.and_eq_true,
    bne_iff_ne, Option.isSome_iff_ne_none]

/-! ## The rest of the key -/

/-- The deletion removes those of the parent's rows that are not listed by what their key has besides
the parent. -/
structure KeepsListed (m : Model) (models : List Model) (p : Parent) : Prop where
  apart : p.column ≠ m.otherIdColumn p.column
  covers : ∀ c ∈ (tableDefinition models m).primaryKey,
    c = p.column ∨ c = m.otherIdColumn p.column
  compared : m.otherIdColumn p.column ∈ (tableDefinition models m).primaryKey
  identifies : ∀ (ι : Type) (rows : List (Row ι)), (tableDefinition models m).Admits rows →
    ∀ row ∈ rows, ∀ other ∈ rows, row p.column = other p.column →
      row (m.otherIdColumn p.column) = other (m.otherIdColumn p.column) → row = other
  deletes : ∀ (ι : Type) [DecidableEq ι] (bound : Bound ι) (tables : TableName → List (Row ι)),
    (tableDefinition models m).Admits (tables m.tableName) → ∀ row ∈ tables m.tableName,
      ∀ c ∈ (tableDefinition models m).primaryKey, c ≠ p.column →
        ((m.deleteRemovedChildrenPlan p).statement.Deletes bound tables m.tableName row ↔
          m.IsOfParent p bound row ∧ row c ∉ (bound.array Binding.ids).map some)

theorem KeepsListed.of_rest
    (rest : ∀ c, c = m.otherIdColumn p.column ↔
      c ∈ (tableDefinition models m).primaryKey ∧ c ≠ p.column) : m.KeepsListed models p := by
  obtain ⟨compared, apart⟩ := (rest _).mp rfl
  have covers : ∀ c ∈ (tableDefinition models m).primaryKey,
      c = p.column ∨ c = m.otherIdColumn p.column := by
    intro c key
    by_cases parent : c = p.column
    · exact .inl parent
    · exact .inr ((rest c).mpr ⟨key, parent⟩)
  refine ⟨apart.symm, covers, compared, ?_, ?_⟩
  · -- Rows that agree in both columns agree in the whole key.
    intro ι rows admits row member other listed sameParent sameOther
    refine admits.unique row member other listed fun c key => ?_
    rcases covers c key with rfl | rfl
    · exact sameParent
    · exact sameOther
  · -- A column of the key is never null, so it is known whether its value is listed.
    intro ι _ bound tables admits row member c key besides
    obtain rfl := (rest c).mpr ⟨key, besides⟩
    rw [deletes_removedChildren_iff, List.mem_map]
    refine and_congr_right fun _ => ?_
    constructor
    · rintro unlisted ⟨value, listed, same⟩
      exact (unlisted value listed).2 same.symm
    · intro unlisted value listed
      exact ⟨admits.notNull row member _ key, fun same => unlisted ⟨value, listed, same.symm⟩⟩

theorem otherIdColumn_of_join {j : Join} (joined : m.join = some j) (column : String) :
    m.otherIdColumn column = if column = j.ids.1 then j.ids.2 else j.ids.1 := by
  simp only [otherIdColumn, joined, beq_iff_eq]

theorem mem_joinIdNames {j : Join} (joined : m.join = some j) {c : String} :
    c ∈ m.joinIdNames ↔ c = j.ids.1 ∨ c = j.ids.2 := by
  simp [joinIdNames, joined, Join.idNames]

/-- The key of a join table has one more column than the parent if and only if the parent's column is
one of its ids. -/
theorem Loaded.keepsListed_of_join (loaded : m.Loaded models) (orders : m.OrdersParents)
    (joins : m.isJoin) : m.KeepsListed models p ↔ p.column ∈ m.joinIdNames := by
  obtain ⟨j, joined⟩ := Option.isSome_iff_exists.mp joins
  have distinct := orders.ids_ne joined
  have key {c : String} : c ∈ (tableDefinition models m).primaryKey ↔ c = j.ids.1 ∨ c = j.ids.2 := by
    rw [loaded.lawful.mem_primaryKey_of_isJoin joins, idColumns_of_isJoin joins,
      mem_joinIdNames joined]
  rw [mem_joinIdNames joined]
  constructor
  · intro keeps
    rcases keeps.covers j.ids.2 (key.mpr (.inr rfl)) with parent | other
    · exact .inr parent.symm
    · -- The first id is compared only if the parent's column is not the first id.
      rw [otherIdColumn_of_join joined] at other
      by_contra besides
      rw [if_neg fun first => besides (.inl first)] at other
      exact distinct other.symm
  · rintro (first | second)
    · refine .of_rest fun c => ?_
      rw [key, otherIdColumn_of_join joined, if_pos first, first]
      grind
    · refine .of_rest fun c => ?_
      rw [key, otherIdColumn_of_join joined, second, if_neg distinct.symm]
      grind

theorem Loaded.keepsListed_of_plain (loaded : m.Loaded models) (orders : m.OrdersParents)
    (parent : p ∈ m.parents) (plain : m.isJoin = false) :
    m.KeepsListed models p ↔
      p.column ≠ "id" ∧ ∃ f ∈ m.fields, f.name = "id" ∧ f.column = "id" := by
  have other : m.otherIdColumn p.column = "id" := by
    rw [Model.otherIdColumn, join_of_plain plain]
  obtain ⟨f, held, name⟩ := List.mem_map.mp (loaded.lawful.plainHasId plain)
  have key {c : String} : c ∈ (tableDefinition models m).primaryKey ↔ c = f.column :=
    loaded.lawful.mem_primaryKey_of_plain plain held name
  constructor
  · intro keeps
    have besides : p.column ≠ "id" := other ▸ keeps.apart
    refine ⟨besides, f, held, name, ?_⟩
    rcases keeps.covers f.column (key.mpr rfl) with same | same
    · -- The field of the parent would be the one named `id`, and so would its column.
      obtain ⟨g, there, gName, column, _⟩ := loaded.parentFields p parent
      rw [← loaded.lawful.eq_of_column held there (same.trans column.symm), name] at gName
      exact absurd ((orders.named p parent).trans gName.symm) besides
    · exact same.trans other
  · rintro ⟨besides, g, there, gName, column⟩
    have same : f = g := loaded.lawful.eq_of_name held there (name.trans gName.symm)
    refine .of_rest fun c => ?_
    rw [other, key, same, column]
    exact ⟨fun id => ⟨id, id ▸ besides.symm⟩, And.left⟩

end Model

/-- Every parent of a loaded model has a deletion of the rows that are not listed. It keeps to the
rest of the key if and only if the parent is one of the two that a join table joins, or the table is
no join table and has a column `id` besides the parent's for its `id`. -/
theorem loadModels_keepsListed_iff {raw : Entries} {settings : Settings} {source : Option String}
    {models : List Model} (loaded : loadModels raw settings source = .ok models) {m : Model}
    (member : m ∈ models) {p : Parent} (parent : p ∈ m.parents) :
    (∃ q, m.HasQuery q ∧ q.name = "delete_removed_children_of_" ++ p.snakeName ∧
      q.Writes (m.deleteRemovedChildrenPlan p).statement) ∧
    (m.KeepsListed models p ↔
      if m.isJoin then p.column ∈ m.joinIdNames
      else p.column ≠ "id" ∧ ∃ f ∈ m.fields, f.name = "id" ∧ f.column = "id") := by
  have whole := loadModels_loaded loaded member
  have orders := loadModels_ordersParents loaded member
  refine ⟨⟨_, Model.hasQuery_iff.mpr ⟨_, .deleteRemovedChildren parent, rfl⟩, rfl,
    Plan.writes_query _⟩, ?_⟩
  cases joins : m.isJoin with
  | true =>
      rw [if_pos rfl]
      exact whole.keepsListed_of_join orders joins
  | false =>
      rw [if_neg Bool.false_ne_true]
      exact whole.keepsListed_of_plain orders parent joins

theorem blog_keepsListed : ∃ models m p q, loadModels (blog "id") .default none = .ok models ∧
    m ∈ models ∧ p ∈ m.parents ∧ m.HasQuery q ∧
    q.text = "DELETE FROM public.post_tags WHERE organization_id = $1 AND post_id = $2 AND " ++
      "tag_id <> ALL($3)" ∧ m.KeepsListed models p := by
  have loaded := loadModels_blog .id
  have member : blogPostTag ∈ blogModels .id := by simp [blogModels]
  have parent : ⟨"Post", "post", "post_id", "post_id", false⟩ ∈ blogPostTag.parents := .head _
  have among : "post_id" ∈ blogPostTag.joinIdNames := by decide +kernel
  have joins : blogPostTag.isJoin = true := rfl
  have keeps := (loadModels_keepsListed_iff loaded member parent).2
  rw [if_pos joins] at keeps
  exact ⟨_, _, _, _, loaded, member, parent,
    Model.hasQuery_iff.mpr ⟨_, .deleteRemovedChildren parent, rfl⟩,
    Plan.text_eq_of_bytes (by decide +kernel), keeps.mpr among⟩

def authoredTags : Entries := .ofFields [("models", .list [
  .ofFields [("name", .text "Post")], .ofFields [("name", .text "Tag")],
  .ofFields [("name", .text "Author")],
  .ofFields [("name", .text "PostTag"), ("joins", .list [.text "Post", .text "Tag"]),
    ("belongs_to", .list [.text "Author"])]])]

/-- Of the tags that an author gives, all of a post are kept if one is listed. -/
theorem authoredTags_notKept : ∃ models m p q,
    loadModels authoredTags .default none = .ok models ∧ Audit.Passes models .default ∧
    m ∈ models ∧ p ∈ m.parents ∧ m.HasQuery q ∧
    q.text = "DELETE FROM public.post_tags WHERE organization_id = $1 AND author_id = $2 AND " ++
      "post_id <> ALL($3)" ∧
    (tableDefinition models m).primaryKey = ["post_id", "tag_id"] ∧ ¬m.KeepsListed models p := by
  obtain ⟨models, _, loaded, _, checked⟩ := exists_loaded authoredTags
    (fun _ models => !(Audit.findings models .default).hasErrors && models.any fun m =>
      (tableDefinition models m).primaryKey == ["post_id", "tag_id"] && m.parents.any fun p =>
        p.column == "author_id" && m.otherIdColumn p.column == "post_id" &&
          (m.deleteRemovedChildrenPlan p).bytes == Text.bytes
            ("DELETE FROM public.post_tags WHERE organization_id = $1 AND author_id = $2 AND " ++
              "post_id <> ALL($3)")) (by decide +kernel)
  simp only [Bool.and_eq_true, Bool.not_eq_true', beq_iff_eq, List.any_eq_true] at checked
  obtain ⟨passes, m, member, key, p, parent, ⟨column, other⟩, text⟩ := checked
  refine ⟨models, m, p, _, loaded, passes, member, parent,
    Model.hasQuery_iff.mpr ⟨_, .deleteRemovedChildren parent, rfl⟩, Plan.text_eq_of_bytes text,
    key, fun keeps => ?_⟩
  have covered := keeps.covers "tag_id" (key ▸ List.mem_cons_of_mem _ List.mem_cons_self)
  rw [other, column] at covered
  revert covered
  decide

end TenantSql
