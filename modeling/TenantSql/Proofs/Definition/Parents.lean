import TenantSql.Proofs.Definition.Loaded

/-!
# The order of parents

Every parent of a model has a column of its own. The two models that a join
table joins stand before all other parents, and their columns are its ids. So a
relation that goes by a join table, which takes the first parent of each name,
crosses the join only if the table joins just the two models that it is between.
-/

namespace TenantSql

def Join.Heads (j : Join) (parents : List Parent) : Prop :=
  ∃ first second others, parents = first :: second :: others ∧
    j.ids = (first.column, second.column) ∧ j.models = some (first.model, second.model) ∧
    first.model ≠ second.model

theorem Join.Heads.append {j : Join} {parents : List Parent} (heads : j.Heads parents)
    (more : List Parent) : j.Heads (parents ++ more) := by
  obtain ⟨first, second, others, rfl, joined⟩ := heads
  exact ⟨first, second, others ++ more, rfl, joined⟩

namespace Linked

variable {sketches : List Sketch} {source : Option String} {s : Sketch} {l next : Linked}
  {v : Value}

def nameOf (entries : Entries) : Checked String :=
  (entries.getD "name").readText

/-- The fields of the parents are among the fields of the table, in the order of the parents, which
begin with those that the table joins. The ids of a join are named after what they identify. -/
structure Ordered (l : Linked) : Prop where
  fields : (l.parents.map fun p => Checked.ok p.fieldName).Sublist (l.fields.map nameOf)
  heads : ∀ join ∈ l.join, join.Heads l.parents
  ids : ∀ join ∈ l.join, ∃ first second, join.ids = (first ++ "_id", second ++ "_id")

theorem nameOf_parentField (name : Value) (fullTable : String) :
    nameOf (parentField name fullTable) = name.readText := rfl

theorem linkJoin_ordered (step : linkJoin sketches source s = .ok l) : l.Ordered := by
  unfold linkJoin at step
  split at step
  · rw [Result.pure_eq_ok] at step
    subst step
    exact ⟨List.nil_sublist _, nofun, nofun⟩
  · simp only [Result.bind_eq_ok, Result.pure_eq_ok, Checked.orReject_eq_ok] at step
    obtain ⟨first, ⟨firstName, _, firstFound⟩, second, ⟨secondName, _, secondFound⟩, _, _,
      firstRecord, firstRead, _, _, secondRecord, secondRead, join, made, rfl⟩ := step
    obtain ⟨rfl, apart⟩ := Join.make_spec made
    obtain ⟨firstModel, _, firstText, firstColumn, _⟩ := parentRecord_spec firstRead
    obtain ⟨secondModel, _, secondText, secondColumn, _⟩ := parentRecord_spec secondRead
    have firstId : idFieldName first = firstRecord.fieldName := Checked.ok.inj firstText
    have secondId : idFieldName second = secondRecord.fieldName := Checked.ok.inj secondText
    constructor
    case fields =>
      rw [List.map_cons, List.map_cons, List.map_cons, List.map_cons, nameOf_parentField,
        nameOf_parentField, firstText, secondText]
      exact ((List.nil_sublist _).cons_cons _).cons_cons _
    case heads =>
      rintro _ ⟨⟩
      refine ⟨firstRecord, secondRecord, [], rfl, ?_, ?_, fun same => apart ?_⟩
      · rw [firstColumn, secondColumn, firstId, secondId]
      · rw [firstModel, secondModel]
      · -- Models of one name are one model, which would have one id.
        have firstFound := Sketch.find?_of_find firstFound
        have secondFound := Sketch.find?_of_find secondFound
        have named {name : String} {found : Sketch}
            (here : sketches.find? (·.name == name) = some found) : found.name = name := by
          have tested := List.find?_some here
          exact beq_iff_eq.mp tested
        have equal : firstName = secondName := by
          rw [← named firstFound, ← named secondFound, ← firstModel, ← secondModel, same]
        rw [equal, secondFound] at firstFound
        rw [Option.some.inj firstFound]
    case ids =>
      rintro _ ⟨⟩
      exact ⟨first.snakeName, second.snakeName, rfl⟩
  · simp at step

theorem linkParent_ordered (step : linkParent sketches source l v = .ok next)
    (ordered : l.Ordered) : next.Ordered := by
  simp only [linkParent, Result.bind_eq_ok] at step
  obtain ⟨relation, _, shown, _, parent, found, fullTable, table, step⟩ := step
  split at step
  · simp [Result.bind_eq_ok] at step
  · simp only [Result.bind_eq_ok, Result.pure_eq_ok] at step
    obtain ⟨record, read, rfl⟩ := step
    obtain ⟨_, _, text, _⟩ := parentRecord_spec read
    refine ⟨?_, fun join joined => (ordered.heads join joined).append _, ordered.ids⟩
    rw [List.map_append, List.map_append, List.map_singleton, List.map_singleton,
      nameOf_parentField, text]
    exact ordered.fields.append (List.Sublist.refl _)

theorem linkReference_ordered (step : linkReference sketches source l v = .ok next)
    (ordered : l.Ordered) : next.Ordered := by
  unfold linkReference at step
  split at step
  · simp only [Result.bind_eq_ok] at step
    obtain ⟨shown, _, target, _, step⟩ := step
    split at step
    · rw [Result.pure_eq_ok] at step
      exact step ▸ ordered
    · simp only [Result.bind_eq_ok, Result.pure_eq_ok] at step
      obtain ⟨fullTable, _, rfl⟩ := step
      refine ⟨?_, ordered.heads, ordered.ids⟩
      rw [List.map_append]
      exact ordered.fields.trans (List.sublist_append_left _ _)
  · simp at step

theorem ofSketch_ordered (loaded : ofSketch sketches source s = .ok l) : l.Ordered := by
  simp only [ofSketch, Result.bind_eq_ok, Result.pure_eq_ok] at loaded
  obtain ⟨joined, start, parents, _, withParents, linkedParents, references, _, before,
    linkedReferences, fields, resolved, rfl⟩ := loaded
  have parented : withParents.Ordered :=
    Result.foldlM_invariant (fun _ _ _ _ step => linkParent_ordered step) linkedParents
      (linkJoin_ordered start)
  have ordered : before.Ordered :=
    Result.foldlM_invariant (fun _ _ _ _ step => linkReference_ordered step) linkedReferences
      parented
  -- Resolving references changes nothing but the entries of this name.
  have kept : fields.map nameOf = before.fields.map nameOf :=
    Result.map_eq_of_mapM (fun entries result step => by
      rw [nameOf, nameOf, Entries.getD, Entries.getD, resolveReference_get? step (by decide)])
      resolved
  exact ⟨kept ▸ ordered.fields, ordered.heads, ordered.ids⟩

end Linked

namespace Typed

theorem fieldNames_sublist {sketches : List Sketch} {source : Option String} {s : Sketch}
    {l : Linked} (loaded : Linked.ofSketch sketches source s = .ok l) {t : Typed}
    (read : ofLinked source l = .ok t) :
    (t.linked.parents.map fun p => Checked.ok p.fieldName).Sublist
      (t.fields.map fun f => Checked.ok f.name) := by
  have ordered := Linked.ofSketch_ordered loaded
  simp only [ofLinked, Result.bind_eq_ok, Result.pure_eq_ok] at read
  obtain ⟨fields, read, rfl⟩ := read
  have kept : fields.map (fun f => Checked.ok f.name) = l.fields.map Linked.nameOf :=
    Result.map_eq_of_mapM (fun entries f made =>
      (Value.readNonEmptyText_eq_ok.mp (fieldOf_spec made).1).1.symm) read
  exact kept ▸ ordered.fields

end Typed

/-! ## Loaded models -/

structure Model.OrdersParents (m : Model) : Prop where
  named : ∀ p ∈ m.parents, p.column = p.fieldName
  columns : (m.parents.map Parent.column).Nodup
  heads : ∀ join ∈ m.join, join.Heads m.parents
  ids : ∀ join ∈ m.join, ∃ first second, join.ids = (first ++ "_id", second ++ "_id")

theorem Model.OrdersParents.ids_ne {m : Model} (orders : m.OrdersParents) {j : Join}
    (joined : m.join = some j) : j.ids.1 ≠ j.ids.2 := by
  obtain ⟨p, q, others, parents, ids, _⟩ := orders.heads j joined
  have columns := orders.columns
  rw [parents, List.map_cons, List.nodup_cons] at columns
  rw [ids]
  exact fun same => columns.1 (List.mem_cons.mpr (.inl same))

theorem loadModels_made {raw : Entries} {settings : Settings} {source : Option String}
    {models : List Model} (loaded : loadModels raw settings source = .ok models) {m : Model}
    (member : m ∈ models) : ∃ sketches, ∃ s ∈ sketches, ∃ l,
      Linked.ofSketch sketches source s = .ok l ∧
      ∃ t, Typed.ofLinked source l = .ok t ∧ t.Makes m := by
  obtain ⟨items, _, _, listed, _⟩ := loadModels_loading loaded
  obtain ⟨_, sketches, _, linked, linking, typed, typing, making⟩ :=
    (loadModels_eq_ok listed).mp loaded
  obtain ⟨t, among, made⟩ := Result.exists_of_mem_mapM making member
  obtain ⟨l, isLinked, read⟩ := Result.exists_of_mem_mapM typing among
  obtain ⟨s, drawn, link⟩ := Result.exists_of_mem_mapM linking isLinked
  exact ⟨sketches, s, drawn, l, link, t, read, (Typed.modelOf_spec made).1⟩

theorem loadModels_ordersParents {raw : Entries} {settings : Settings} {source : Option String}
    {models : List Model} (loaded : loadModels raw settings source = .ok models) {m : Model}
    (member : m ∈ models) : m.OrdersParents := by
  obtain ⟨sketches, s, _, l, link, t, read, makes⟩ := loadModels_made loaded member
  have same : t.linked = l := Typed.ofLinked_linked read
  have named : ∀ p ∈ m.parents, p.column = p.fieldName := by
    intro p held
    obtain ⟨before, linked, kept, _⟩ := Linked.ofSketch_spec link
    have there : p ∈ before.parents := by
      rw [makes.parents, same, kept] at held
      exact held
    obtain ⟨_, _, holds⟩ := linked.parents p there
    obtain ⟨_, _, isNamed, _⟩ := holds.field
    exact isNamed.2.1
  constructor
  case named => exact named
  case heads =>
    intro join joined
    rw [makes.parents, same]
    exact (Linked.ofSketch_ordered link).heads join (same ▸ makes.join ▸ joined)
  case ids =>
    intro join joined
    exact (Linked.ofSketch_ordered link).ids join (same ▸ makes.join ▸ joined)
  case columns =>
    -- The fields of the parents have distinct names, like all fields.
    have distinct : (m.fields.map fun f => Checked.ok f.name).Nodup := by
      have names := (Model.lawful_of_rules makes.rules).names.map fun _ _ => Checked.ok.inj
      rw [List.map_map] at names
      exact names
    have sublist := Typed.fieldNames_sublist link read
    rw [← makes.parents, ← makes.fields] at sublist
    rw [List.map_congr_left named]
    refine List.Nodup.of_map (Checked.ok (α := String)) ?_
    rw [List.map_map]
    exact distinct.sublist sublist

end TenantSql
