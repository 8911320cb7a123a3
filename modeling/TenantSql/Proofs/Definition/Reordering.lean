import TenantSql.Audit.Project
import TenantSql.Proofs.Model.Keys
import TenantSql.Proofs.Text.Distinct
import TenantSql.Proofs.Definition.Loaded
import TenantSql.Proofs.Query.Placeholder

/-!
# Definitions in another order

Models may be declared in any order: every declaration gives rise to the same model, wherever it
stands, and an audit finds the same.
-/

namespace TenantSql.Audit

/-! ## Audits of reordered models

Where models with distinct names stand in their list does not matter for what an audit finds, only
for the order in which it tells. -/

variable {ms others : List Model}

/-- A concern for each name that is shared, in an order that depends on the models'. -/
theorem sharedCounts_perm {texts more : List String} (same : texts.Perm more) :
    (sharedCounts texts).Perm (sharedCounts more) := by
  have counts : (fun s => (s, texts.count s)) = fun s => (s, more.count s) := by
    funext s
    rw [same.count_eq]
  rw [sharedCounts, sharedCounts, counts]
  exact ((Text.distinct_perm same).map _).filter _

theorem sharedNames_perm (same : ms.Perm others) : (sharedNames ms).Perm (sharedNames others) := by
  have shared (name : Model → String) (concern : String → Nat → Concern) :
      ((sharedCounts (ms.map name)).map fun entry => concern entry.1 entry.2).Perm
        ((sharedCounts (others.map name)).map fun entry => concern entry.1 entry.2) :=
    (sharedCounts_perm (same.map name)).map _
  exact ((shared _ _).append (shared _ _)).append (shared _ _)

theorem lookup_eq_of_perm (apart : (ms.map Model.name).Nodup) (same : ms.Perm others) :
    lookup ms = lookup others := by
  funext name
  refine find?_eq_of_perm ?_ ((ms.reverse_perm.trans same).trans others.reverse_perm.symm) name
  rw [List.map_reverse]
  exact List.nodup_reverse.mpr apart

theorem isJoinTable_eq_of_perm (same : ms.Perm others) : isJoinTable ms = isJoinTable others := by
  funext fullTable
  rw [isJoinTable, isJoinTable, Bool.eq_iff_iff, List.any_eq_true, List.any_eq_true]
  simp only [same.mem_iff]

theorem relationConcerns_eq_of_perm (apart : (ms.map Model.name).Nodup) (same : ms.Perm others) :
    relationConcerns ms = relationConcerns others := by
  have found := lookup_eq_of_perm apart same
  funext m
  have parents : parentConcerns ms m = parentConcerns others m := by
    funext p
    rw [parentConcerns, parentConcerns, found]
  have children : childConcerns ms m = childConcerns others m := by
    funext c
    have through : throughConcerns ms m c = throughConcerns others m c := by
      rw [throughConcerns, throughConcerns, found]
    rw [childConcerns, childConcerns, found, through]
  have references : referenceConcerns ms m = referenceConcerns others m := by
    funext r
    rw [referenceConcerns, referenceConcerns, found]
  have fields : plainFieldConcerns ms m = plainFieldConcerns others m := by
    funext f
    rw [plainFieldConcerns, plainFieldConcerns, isJoinTable_eq_of_perm same]
  rw [relationConcerns, relationConcerns, parents, children, references, fields]

theorem joinConcerns_eq_of_perm (apart : (ms.map Model.name).Nodup) (same : ms.Perm others) :
    joinConcerns ms = joinConcerns others := by
  have found := lookup_eq_of_perm apart same
  funext m
  have parents : joinParentConcerns ms m = joinParentConcerns others m := by
    funext name
    rw [joinParentConcerns, joinParentConcerns, found]
  rw [joinConcerns, joinConcerns, parents]

theorem models_perm (apart : (ms.map Model.name).Nodup) (same : ms.Perm others) :
    (models ms).Perm (models others) := by
  have each (concerns : Model → List Concern) :
      (ms.flatMap concerns).Perm (others.flatMap concerns) := same.flatMap_right concerns
  have names : (modelNames ms).Perm (modelNames others) :=
    (sharedNames_perm same).append (each reservedTableNames)
  have related : (relations ms).Perm (relations others) := by
    rw [relations, relations, relationConcerns_eq_of_perm apart same]
    exact each _
  have joined : (joins ms).Perm (joins others) := by
    rw [joins, joins, joinConcerns_eq_of_perm apart same]
    exact each _
  exact ((((names.append (each _)).append related).append joined).append (each _)).append (each _)

/-- The findings are the same, each as often. -/
theorem findings_perm (apart : (ms.map Model.name).Nodup) (same : ms.Perm others)
    (settings : Settings) : (findings ms settings).Perm (findings others settings) :=
  ((models_perm apart same).append (.refl _)).map Concern.finding

end TenantSql.Audit

namespace TenantSql

/-! ## Loading -/

variable {settings : Settings} {source : Option String} {raw other : Entries}
  {items others : List Value} {models : List Model}

/-- Loading makes every declaration a model, and the same one when the declarations are in another
order. -/
theorem exists_load_of_perm (listed : (raw.getD "models").bare = .list items)
    (relisted : (other.getD "models").bare = .list others) (same : items.Perm others)
    (loaded : loadModels raw settings source = .ok models) :
    (models.map Model.name).Nodup ∧ ∃ load : Value → Model, models = items.map load ∧
      loadModels other settings source = .ok (others.map load) := by
  obtain ⟨some, sketches, sketched, linked, linking, typed, typing, making⟩ :=
    (loadModels_eq_ok listed).mp loaded
  obtain ⟨drawn, distinct⟩ := Sketch.ofValues_eq_ok.mp sketched
  -- The steps of each round, as functions of what the round before made of one declaration.
  obtain ⟨draw, rfl, draws⟩ := Result.exists_map_of_mapM drawn some
  obtain ⟨link, rfl, links⟩ := Result.exists_map_of_mapM linking (by simpa using some)
  obtain ⟨read, rfl, reads⟩ := Result.exists_map_of_mapM typing (by simpa using some)
  obtain ⟨make, rfl, makes⟩ := Result.exists_map_of_mapM making (by simpa using some)
  have redrawn : (items.map draw).Perm (others.map draw) := same.map draw
  have retyped : (((items.map draw).map link).map read).Perm (((others.map draw).map link).map read) :=
    (redrawn.map link).map read
  have typedApart : ((((items.map draw).map link).map read).map Typed.name).Nodup := by
    rw [Typed.map_name linking typing]
    exact distinct
  have sameLinks := Linked.ofSketch_congr source
    (Sketch.find_congr (find?_eq_of_perm distinct redrawn))
  have sameModels := Typed.modelOf_congr settings source (find?_eq_of_perm typedApart retyped)
  refine ⟨?_, fun v => make (read (link (draw v))), ?_, ?_⟩
  · have named := Result.map_eq_of_mapM (fun t m made => (Typed.modelOf_spec made).1.name) making
    rw [named]
    exact typedApart
  · simp only [List.map_map, Function.comp_def]
  · refine (loadModels_eq_ok relisted).mpr ⟨fun none => some ?_, others.map draw, ?_,
      (others.map draw).map link, ?_, ((others.map draw).map link).map read, ?_, ?_⟩
    · exact List.Perm.eq_nil (none ▸ same)
    · refine Sketch.ofValues_eq_ok.mpr ⟨?_, (redrawn.map Sketch.name).nodup_iff.mp distinct⟩
      exact Result.mapM_eq_ok_map fun v member => draws v (same.mem_iff.mpr member)
    · rw [← sameLinks]
      exact Result.mapM_eq_ok_map fun s member => links s (redrawn.mem_iff.mpr member)
    · exact Result.mapM_eq_ok_map fun l member =>
        reads l ((redrawn.map link).mem_iff.mpr member)
    · rw [← sameModels, Result.mapM_eq_ok_map fun t member =>
        makes t (retyped.mem_iff.mpr member)]
      simp only [List.map_map, Function.comp_def]

/-- If the models of a definition are declared in another order, loading succeeds as before, every
declaration gives rise to the model that it gave rise to before, and an audit finds the same. -/
theorem loadModels_perm (settings : Settings) (source : Option String)
    (listed : (raw.getD "models").bare = .list items)
    (relisted : (other.getD "models").bare = .list others) (same : items.Perm others) :
    ((∃ models, loadModels raw settings source = .ok models) ↔
        ∃ models, loadModels other settings source = .ok models) ∧
      ∀ models, loadModels raw settings source = .ok models →
        ∃ load : Value → Model, models = items.map load ∧
          loadModels other settings source = .ok (others.map load) ∧
          (Audit.findings models settings).Perm (Audit.findings (others.map load) settings) := by
  refine ⟨⟨?_, ?_⟩, fun models loaded => ?_⟩
  · rintro ⟨models, loaded⟩
    obtain ⟨_, load, _, again⟩ := exists_load_of_perm listed relisted same loaded
    exact ⟨others.map load, again⟩
  · rintro ⟨models, loaded⟩
    obtain ⟨_, load, _, again⟩ := exists_load_of_perm relisted listed same.symm loaded
    exact ⟨items.map load, again⟩
  · obtain ⟨apart, load, rfl, again⟩ := exists_load_of_perm listed relisted same loaded
    exact ⟨load, rfl, again, Audit.findings_perm apart (same.map load) settings⟩

theorem blog_reordered : ∃ items models, ((blog "id").getD "models").bare = .list items ∧
    loadModels (blog "id") .default none = .ok models ∧
    models.map Model.name = ["Post", "Tag", "PostTag"] ∧
    loadModels (.ofFields [("models", .list items.reverse)]) .default none = .ok models.reverse ∧
    (Audit.findings models .default).Perm (Audit.findings models.reverse .default) := by
  have loaded := loadModels_blog .id
  obtain ⟨items, listed⟩ : ∃ items, ((blog "id").getD "models").bare = .list items := ⟨_, rfl⟩
  have relisted : (Entries.getD (.ofFields [("models", .list items.reverse)]) "models").bare =
      .list items.reverse := rfl
  obtain ⟨load, whole, again, found⟩ :=
    (loadModels_perm .default none listed relisted items.reverse_perm.symm).2 _ loaded
  have backward : items.reverse.map load = (blogModels .id).reverse := by
    rw [whole, List.map_reverse]
  rw [backward] at again found
  exact ⟨items, _, listed, loaded, rfl, again, found⟩

end TenantSql
