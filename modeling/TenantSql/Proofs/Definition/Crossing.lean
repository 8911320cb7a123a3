import TenantSql.Proofs.Definition.ForeignKeys
import TenantSql.Proofs.Definition.Parents

/-!
# Relations by join tables

A relation by a join table goes by the columns of two parents of the table, each
of them the first of its name. These are the ids of the join if the table joins
the two models of the relation. Otherwise the relation loads all the same: by a
parent that the table does not join, or by one column twice.
-/

namespace TenantSql

def Join.Between (j : Join) (model other : String) : Prop :=
  j.models = some (model, other) ∨ j.models = some (other, model)

namespace Model

def parentColumn? (m : Model) (parent : String) : Option String :=
  (m.parents.find? (·.model == parent)).map Parent.column

def BelongsBy (m : Model) (column : String) (parent : Model) : Prop :=
  ∃ p, m.parents.filter (·.column == column) = [p] ∧ p.model = parent.name

end Model

/-- The ids of the join are the two columns of the relation, one for the owner and one for the
target. -/
structure Through.Crosses (through : Through) (join owner target : Model) (column : String) :
    Prop where
  apart : column ≠ through.childColumn
  ids : ∃ j ∈ join.join, j.ids = (column, through.childColumn) ∨ j.ids = (through.childColumn, column)
  owner : join.BelongsBy column owner
  target : join.BelongsBy through.childColumn target

/-! ## Parents that are found by name -/

namespace Model.OrdersParents

variable {m join owner target : Model} {j : Join} {through : Through} {column : String}

theorem belongsBy_of_parentColumn? (orders : m.OrdersParents)
    (found : m.parentColumn? owner.name = some column) : m.BelongsBy column owner := by
  obtain ⟨p, first, rfl⟩ := Option.map_eq_some_iff.mp found
  have named : p.model = owner.name := by simpa using List.find?_some first
  exact ⟨p, filter_of_key orders.columns (List.mem_of_find?_eq_some first), named⟩

theorem parentColumn?_of_models (orders : m.OrdersParents) (joined : m.join = some j)
    {first second : String} (models : j.models = some (first, second)) :
    m.parentColumn? first = some j.ids.1 ∧ m.parentColumn? second = some j.ids.2 := by
  obtain ⟨p, q, others, parents, ids, named, apart⟩ := orders.heads j joined
  rw [models, Option.some.injEq, Prod.mk.injEq] at named
  obtain ⟨rfl, rfl⟩ := named
  -- The parents of the join stand in front, so no other parent is found before them.
  have foundFirst : m.parents.find? (·.model == p.model) = some p := by
    rw [parents]
    exact List.find?_cons_of_pos (beq_self_eq_true p.model)
  have foundSecond : m.parents.find? (·.model == q.model) = some q := by
    rw [parents, List.find?_cons_of_neg (by simpa using apart)]
    exact List.find?_cons_of_pos (beq_self_eq_true q.model)
  rw [parentColumn?, parentColumn?, foundFirst, foundSecond, ids]
  exact ⟨rfl, rfl⟩

theorem models_of_ids (orders : m.OrdersParents) (joined : m.join = some j)
    {first second : Model} {firstColumn secondColumn : String}
    (ids : j.ids = (firstColumn, secondColumn)) (firstBelongs : m.BelongsBy firstColumn first)
    (secondBelongs : m.BelongsBy secondColumn second) :
    j.models = some (first.name, second.name) := by
  obtain ⟨p, q, others, parents, parentIds, models, _⟩ := orders.heads j joined
  rw [ids, Prod.mk.injEq] at parentIds
  obtain ⟨rfl, rfl⟩ := parentIds
  have named {p : Parent} (held : p ∈ m.parents) {parent : Model}
      (belongs : m.BelongsBy p.column parent) : p.model = parent.name := by
    obtain ⟨other, alone, model⟩ := belongs
    rw [filter_of_key orders.columns held, List.singleton_inj] at alone
    exact alone ▸ model
  have isFirst : p ∈ m.parents := parents ▸ List.mem_cons_self
  have isSecond : q ∈ m.parents := parents ▸ List.mem_cons_of_mem _ List.mem_cons_self
  rw [models, named isFirst firstBelongs, named isSecond secondBelongs]

theorem crosses_iff (orders : join.OrdersParents) (joined : join.join = some j)
    (ownerColumn : join.parentColumn? owner.name = some column)
    (targetColumn : join.parentColumn? target.name = some through.childColumn) :
    through.Crosses join owner target column ↔ j.Between owner.name target.name := by
  have ownerBelongs := orders.belongsBy_of_parentColumn? ownerColumn
  have targetBelongs := orders.belongsBy_of_parentColumn? targetColumn
  have ids := orders.ids_ne joined
  constructor
  · rintro ⟨_, ⟨other, same, straight | swapped⟩, _, _⟩
    · cases joined.symm.trans same
      exact .inl (orders.models_of_ids joined straight ownerBelongs targetBelongs)
    · cases joined.symm.trans same
      exact .inr (orders.models_of_ids joined swapped targetBelongs ownerBelongs)
  · rintro (straight | swapped)
    · obtain ⟨first, second⟩ := orders.parentColumn?_of_models joined straight
      cases ownerColumn.symm.trans first
      rw [targetColumn, Option.some.injEq] at second
      exact ⟨second ▸ ids, ⟨j, joined, .inl (second ▸ rfl)⟩, ownerBelongs, targetBelongs⟩
    · obtain ⟨first, second⟩ := orders.parentColumn?_of_models joined swapped
      cases ownerColumn.symm.trans second
      rw [targetColumn, Option.some.injEq] at first
      exact ⟨first ▸ ids.symm, ⟨j, joined, .inr (first ▸ rfl)⟩, ownerBelongs, targetBelongs⟩

end Model.OrdersParents

/-! ## Loaded definitions -/

/-- The relation goes by the join table, by the first of its parents that is the owner and the first
that is the target. -/
structure Through.GoesBy (through : Through) (join owner target : Model) (column : String) : Prop where
  model : through.model = join.name
  table : through.tableName = join.tableName
  ownerColumn : join.parentColumn? owner.name = some column
  targetColumn : join.parentColumn? target.name = some through.childColumn

theorem Typed.parentColumn?_eq {t parent : Typed} {m owner : Model} (makes : t.Makes m)
    (ownerMakes : parent.Makes owner) : t.parentColumn? parent = m.parentColumn? owner.name := by
  rw [parentColumn?, Model.parentColumn?, makes.parents, ownerMakes.name]

/-- The models of a definition have distinct names. Every relation by a join table leads to one of
them by another one, and it crosses the join if and only if the table joins owner and target. -/
theorem loadModels_crosses_iff {raw : Entries} {settings : Settings} {source : Option String}
    {models : List Model} (loaded : loadModels raw settings source = .ok models) :
    (models.map Model.name).Nodup ∧ ∀ m ∈ models, ∀ c ∈ m.children, ∀ through ∈ c.through,
      ∃ join ∈ models, ∃ target ∈ models, ∃ j, join.join = some j ∧ c.model = target.name ∧
        through.GoesBy join m target c.parentColumn ∧
        (through.Crosses join m target c.parentColumn ↔ j.Between m.name target.name) := by
  obtain ⟨_, _, _, _, _, loading⟩ := loadModels_loading loaded
  refine ⟨loading.names_nodup, ?_⟩
  intro m member c held through given
  obtain ⟨t, _, makes, children, _⟩ := loading.made m member
  obtain ⟨child, related⟩ := children c held
  obtain ⟨between, among, joins⟩ := related.indirect through given
  obtain ⟨target, isTarget, targetMakes⟩ := loading.covered child related.listed
  obtain ⟨join, isJoin, joinMakes⟩ := loading.covered between among
  obtain ⟨j, joined⟩ := Option.isSome_iff_exists.mp joins.isJoin
  have stated : join.join = some j := joinMakes.join.trans joined
  have goes : through.GoesBy join m target c.parentColumn :=
    ⟨joins.model.trans joinMakes.name.symm, joins.table.unique joinMakes.table,
      (Typed.parentColumn?_eq joinMakes makes).symm.trans joins.ownerColumn,
      (Typed.parentColumn?_eq joinMakes targetMakes).symm.trans joins.childColumn⟩
  have orders := loadModels_ordersParents loaded isJoin
  exact ⟨join, isJoin, target, isTarget, j, stated, related.model.trans targetMakes.name.symm, goes,
    orders.crosses_iff stated goes.ownerColumn goes.targetColumn⟩

theorem blog_crosses : ∃ models, loadModels (blog "id") .default none = .ok models ∧
    ∃ m ∈ models, ∃ c ∈ m.children, ∃ through ∈ c.through, ∃ join ∈ models, ∃ target ∈ models,
      [m.name, join.name, target.name] = ["Post", "PostTag", "Tag"] ∧
      through.Crosses join m target c.parentColumn := by
  have loaded := loadModels_blog .id
  obtain ⟨join, isJoin, target, isTarget, j, joined, leads, goes, crosses⟩ :=
    (loadModels_crosses_iff loaded).2 (blogPost .id) (blogPost_mem .id) _ (.head _) _ rfl
  have named : join.name = "PostTag" := goes.model.symm
  have targeted : target.name = "Tag" := leads.symm
  have joins : ∀ m ∈ blogModels .id, m.name = "PostTag" →
      ∀ j ∈ m.join, j.models = some ("Post", "Tag") := by
    decide +kernel
  have between : j.Between "Post" target.name := by
    rw [targeted]
    exact .inl (joins join isJoin named j joined)
  exact ⟨_, loaded, _, blogPost_mem .id, _, .head _, _, rfl, join, isJoin, target, isTarget,
    by rw [named, targeted]; rfl, crosses.mpr between⟩

def selfTaggedBlog : Entries := .ofFields [("models", .list [
  .ofFields [("name", .text "Post"), ("has", .list [
    .ofFields [("model", .text "Post"), ("through", .text "PostTag"),
      ("populate_on_get", .text "id")]])],
  .ofFields [("name", .text "Tag")],
  .ofFields [("name", .text "PostTag"), ("joins", .list [.text "Post", .text "Tag"])]])]

theorem selfTaggedBlog_uncrossed : ∃ models,
    loadModels selfTaggedBlog .default none = .ok models ∧
    ∃ m ∈ models, ∃ c ∈ m.children, ∃ through ∈ c.through,
      c.parentColumn = "post_id" ∧ through.childColumn = "post_id" ∧
      ∀ join target, ¬through.Crosses join m target c.parentColumn := by
  obtain ⟨models, m, loaded, member, checked⟩ := exists_loaded selfTaggedBlog
    (fun m _ => m.children.any fun c => c.through.any fun through =>
      c.parentColumn == "post_id" && through.childColumn == "post_id") (by decide +kernel)
  simp only [Bool.and_eq_true, beq_iff_eq, List.any_eq_true, Option.any_eq_true] at checked
  obtain ⟨c, listed, through, given, owner, target⟩ := checked
  exact ⟨models, loaded, m, member, c, listed, through, given, owner, target,
    fun _ _ crosses => crosses.apart (owner.trans target.symm)⟩

end TenantSql
