import TenantSql.Definition.Project
import TenantSql.Proofs.Definition.Link
import TenantSql.Proofs.Model.Keys

/-!
# Rounds over a definition

Loading goes over all models several times: sketches, links, fields, relations. What a round makes
of one model depends on the others only by what is found under a name, since names are distinct.
-/

namespace TenantSql

variable {settings : Settings} {source : Option String}

namespace Sketch

variable {values : List Value} {sketches : List Sketch}

structure IsOf (settings : Settings) (source : Option String) (entries : Entries) (s : Sketch) :
    Prop where
  given : s.given = entries
  name : s.name = (entries.getD "name").display
  snakeName : s.snakeName = Text.snakeCase s.name
  schema : s.schema = truthyOr entries "schema" (.text settings.defaultSchema)
  table : s.table = truthyOr entries "table" (.text (Text.plural s.snakeName))
  fields : ∃ parts, (entries.getD "fields").partsOrNone = .ok parts ∧
    ∃ declared, parts.mapM (declaredField s.name source) = .ok declared ∧
      s.fields = standardFields s.isGlobal (entries.has "joins") ++ declared

theorem ofValue_spec {v : Value} {s : Sketch} (drawn : ofValue settings source v = .ok s) :
    ∃ entries : Entries, v.bare = .object entries ∧ s.IsOf settings source entries ∧
      (entries.getD "name").isTruthy ∧ ofEntries settings source entries = .ok s := by
  unfold ofValue at drawn
  split at drawn
  · rename_i entries bare
    simp only at drawn
    split at drawn
    · rename_i named
      refine ⟨entries, bare, ?_, named, drawn⟩
      simp only [ofEntries, Result.bind_eq_ok, shown_eq_ok] at drawn
      obtain ⟨_, ⟨_, rfl⟩, _, _, drawn⟩ := drawn
      split at drawn
      · simp [Result.bind_eq_ok] at drawn
      · simp only [Result.bind_eq_ok, Result.pure_eq_ok] at drawn
        obtain ⟨parts, given, declared, found, rfl⟩ := drawn
        exact ⟨rfl, rfl, rfl, rfl, rfl, parts, Result.mapError_eq_ok.mp given, declared, found, rfl⟩
    · simp at drawn
  · simp at drawn

theorem addSketch_eq_ok {before after : List Sketch} {v : Value} :
    (do
      let sketch ← ofValue settings source v
      if before.any (·.name == sketch.name) then reject source (.duplicateModel sketch.name)
      else return before ++ [sketch]) = .ok after ↔
      ∃ sketch, ofValue settings source v = .ok sketch ∧ sketch.name ∉ before.map name ∧
        after = before ++ [sketch] := by
  rw [Result.bind_eq_ok]
  refine exists_congr fun sketch => and_congr_right fun _ => ?_
  have among : before.any (·.name == sketch.name) ↔ sketch.name ∈ before.map name := by
    rw [List.any_eq_true, List.mem_map]
    simp only [beq_iff_eq]
  by_cases known : sketch.name ∈ before.map name
  · rw [if_pos (among.mpr known)]
    simp [known]
  · rw [if_neg (known ∘ among.mp), Result.pure_eq_ok]
    simp only [known, not_false_iff, true_and]
    exact eq_comm

theorem ofValues_eq_ok : ofValues settings source values = .ok sketches ↔
    values.mapM (ofValue settings source) = .ok sketches ∧ (sketches.map name).Nodup := by
  -- The fold goes on from the sketches before, whose names are distinct.
  have folded {before : List Sketch} (apart : (before.map name).Nodup) :
      values.foldlM (fun sketches v => do
        let sketch ← ofValue settings source v
        if sketches.any (·.name == sketch.name) then reject source (.duplicateModel sketch.name)
        else return sketches ++ [sketch]) before = .ok sketches ↔
      ∃ new, values.mapM (ofValue settings source) = .ok new ∧ sketches = before ++ new ∧
        (sketches.map name).Nodup := by
    induction values generalizing before with
    | nil =>
        rw [List.foldlM_nil, List.mapM_nil, Result.pure_eq_ok]
        constructor
        · rintro rfl
          exact ⟨[], rfl, (List.append_nil before).symm, apart⟩
        · rintro ⟨new, none, rfl, _⟩
          cases none
          exact (List.append_nil before).symm
    | cons v rest induction =>
        rw [List.foldlM_cons, Result.bind_eq_ok]
        simp only [addSketch_eq_ok, Result.mapM_cons]
        constructor
        · rintro ⟨_, ⟨sketch, drawn, new, rfl⟩, others⟩
          have extended : ((before ++ [sketch]).map name).Nodup := by
            rw [List.map_append, List.map_singleton]
            exact List.Nodup.append apart (List.nodup_singleton _) (by simpa using new)
          obtain ⟨later, drawnLater, whole, distinct⟩ := (induction extended).mp others
          exact ⟨sketch :: later, ⟨sketch, later, drawn, drawnLater, rfl⟩,
            by rw [whole, List.append_assoc, List.singleton_append], distinct⟩
        · rintro ⟨_, ⟨sketch, later, drawn, drawnLater, rfl⟩, whole, distinct⟩
          rw [← List.singleton_append, ← List.append_assoc] at whole
          have extended : ((before ++ [sketch]).map name).Nodup := by
            rw [whole, List.map_append] at distinct
            exact distinct.of_append_left
          refine ⟨before ++ [sketch], ⟨sketch, drawn, fun known => ?_, rfl⟩,
            (induction extended).mpr ⟨later, drawnLater, whole, distinct⟩⟩
          rw [List.map_append, List.map_singleton] at extended
          exact List.disjoint_of_nodup_append extended known (List.mem_singleton_self _)
  have start : (([] : List Sketch).map name).Nodup := List.nodup_nil
  rw [ofValues, folded start]
  constructor
  · rintro ⟨new, drawn, same, distinct⟩
    exact ⟨same ▸ drawn, distinct⟩
  · rintro ⟨drawn, distinct⟩
    exact ⟨sketches, drawn, rfl, distinct⟩

theorem find_congr {sketches others : List Sketch}
    (same : ∀ k, sketches.find? (·.name == k) = others.find? (·.name == k)) :
    find sketches = find others := by
  funext source owner what k
  rw [find, find, same]

end Sketch

theorem Linked.ofSketch_congr (source : Option String) {sketches others : List Sketch}
    (same : Sketch.find sketches = Sketch.find others) :
    ofSketch sketches source = ofSketch others source := by
  funext s
  have join : linkJoin sketches source s = linkJoin others source s := by
    simp only [linkJoin, same]
  have parent : linkParent sketches source = linkParent others source := by
    funext l v
    simp only [linkParent, same]
  have reference : linkReference sketches source = linkReference others source := by
    funext l v
    simp only [linkReference, same]
  have resolve : resolveReference sketches source s.name = resolveReference others source s.name := by
    funext field
    simp only [resolveReference, same]
  rw [ofSketch, ofSketch, join, parent, reference, resolve]

namespace Typed

variable {all : List Typed}

def modelOf (settings : Settings) (source : Option String) (all : List Typed) (t : Typed) :
    Except LoadError Model := do
  let children ← t.childrenOf all source
  let references ← t.referencesOf all source
  t.toModel settings source children references

theorem modelOf_congr (settings : Settings) (source : Option String) {others : List Typed}
    (same : ∀ k, all.find? (·.name == k) = others.find? (·.name == k)) :
    modelOf settings source all = modelOf settings source others := by
  funext t
  have found : find all = find others := by
    funext source owner what k
    rw [find, find, same]
  have child : childOf all source t = childOf others source t := by
    funext v
    simp only [childOf, pathOf, found]
  have reference : referenceOf all source t = referenceOf others source t := by
    funext v
    simp only [referenceOf, same]
  simp only [modelOf, childrenOf, referencesOf, child, reference]

theorem map_sketch {sketches : List Sketch} {linked : List Linked}
    (linking : sketches.mapM (Linked.ofSketch sketches source) = .ok linked)
    (typing : linked.mapM (ofLinked source) = .ok all) : all.map sketch = sketches := by
  have kept : all.map sketch = sketches.map id := by
    refine Result.map_eq_of_mapM (fun s t made => ?_) (Result.mapM_mapM linking typing)
    obtain ⟨l, link, read⟩ := Result.bind_eq_ok.mp made
    exact ofLinked_sketch link read
  rw [kept, List.map_id]

theorem map_name {sketches : List Sketch} {linked : List Linked}
    (linking : sketches.mapM (Linked.ofSketch sketches source) = .ok linked)
    (typing : linked.mapM (ofLinked source) = .ok all) : all.map name = sketches.map Sketch.name := by
  rw [← map_sketch linking typing, List.map_map]
  rfl

end Typed

/-- Loading succeeds if and only if every round does. -/
theorem loadModels_eq_ok {raw : Entries} {items : List Value} {models : List Model}
    (listed : (raw.getD "models").bare = .list items) :
    loadModels raw settings source = .ok models ↔ items ≠ [] ∧
      ∃ sketches, Sketch.ofValues settings source items = .ok sketches ∧
        ∃ linked, sketches.mapM (Linked.ofSketch sketches source) = .ok linked ∧
          ∃ typed, linked.mapM (Typed.ofLinked source) = .ok typed ∧
            typed.mapM (Typed.modelOf settings source typed) = .ok models := by
  rw [loadModels, listed]
  cases items with
  | nil => simp
  | cons first rest =>
      simp only [Result.bind_eq_ok, ne_eq, reduceCtorEq, not_false_eq_true, true_and]
      refine exists_congr fun sketches => and_congr_right fun _ => exists_congr fun linked =>
        and_congr_right fun _ => exists_congr fun typed => and_congr_right fun _ => ?_
      -- The relations are found for all models before the first model is made.
      rw [← Result.mapM_bind_eq_ok]
      refine iff_of_eq (congrArg (fun step => typed.mapM step = Except.ok models)
        (funext fun t => ?_))
      simp only [Typed.modelOf, bind_assoc, pure_bind]

end TenantSql
