import TenantSql.Proofs.Audit.Passed
import TenantSql.Proofs.Migration.Order
import TenantSql.Proofs.Migration.Table
import TenantSql.Proofs.Query.Placeholder

/-!
# Scripts of audited models

When the models that pass an audit have migration scripts. The audit sees to the
tables as such and to most foreign keys, but not to all of them, and not to the
names of indexes.
-/

namespace TenantSql

namespace Migration

variable {models : List Model} {m : Model} {e : ScriptError}

/-! ## Tables as such -/

theorem tableError?_eq_none {earlier : List String} :
    tableError? earlier m = none ↔
      m.fullTable ∉ earlier ∧
        ∀ index ∈ m.indexes, ∀ column ∈ index, column ∈ m.fields.map Field.column := by
  rw [tableError?]
  split
  · rename_i repeated
    exact iff_of_false nofun fun fine => fine.1 (List.contains_iff_mem.mp repeated)
  · rename_i fresh
    rw [List.contains_iff_mem] at fresh
    simp only [Option.map_eq_none_iff, List.find?_eq_none, List.mem_flatten, Bool.not_eq_true',
      Bool.not_eq_false, List.contains_iff_mem, fresh, not_false_eq_true, true_and]
    exact ⟨fun known index listed column among => known column ⟨index, listed, among⟩,
      fun known column ⟨index, listed, among⟩ => known index listed column among⟩

theorem tablesError?_eq_none {earlier : List String} :
    tablesError? earlier models = none ↔
      (models.map Model.fullTable).Nodup ∧ ∀ m ∈ models, tableError? earlier m = none := by
  induction models generalizing earlier with
  | nil => simp [tablesError?]
  | cons first rest induction =>
      rw [tablesError?, Option.or_eq_none_iff, induction, List.map_cons, List.nodup_cons,
        List.forall_mem_cons]
      simp only [tableError?_eq_none, List.mem_cons, not_or]
      constructor
      · rintro ⟨fine, apart, others⟩
        refine ⟨⟨fun again => ?_, apart⟩, fine, fun m later => ?_⟩
        · obtain ⟨m, later, same⟩ := List.mem_map.mp again
          exact (others m later).1.1 same
        · exact ⟨(others m later).1.2, (others m later).2⟩
      · rintro ⟨⟨fresh, apart⟩, fine, others⟩
        refine ⟨fine, apart, fun m later => ⟨⟨fun same => ?_, (others m later).1⟩,
          (others m later).2⟩⟩
        exact fresh (List.mem_map.mpr ⟨m, later, same⟩)

/-! ## The script of one model -/

structure Renders (models : List Model) (m : Model) : Prop where
  indexNames : ∀ columns ∈ indexColumns m, (indexName m columns).length ≤ maxNameLength
  targets : ∀ f ∈ m.fields, ∀ t ∈ target? models f, hasIdColumn t

instance (models : List Model) (m : Model) : Decidable (Renders models m) :=
  decidable_of_iff (_ ∧ _) ⟨fun both => ⟨both.1, both.2⟩, fun has => ⟨has.indexNames, has.targets⟩⟩

theorem mem_indexNames {name : String} :
    name ∈ (tableDefinition models m).indexes.map Index.name ↔
      ∃ columns ∈ indexColumns m, indexName m columns = name := by
  simp only [tableDefinition, List.mem_map, List.mem_mergeSort, indexOf, exists_exists_and_eq_and]

theorem script_eq_error :
    script models m = .error e ↔
      (targetError? models m).or (indexError? (tableDefinition models m)) = some e := by
  cases raised : (targetError? models m).or (indexError? (tableDefinition models m)) with
  | none =>
      rw [script, upText, raised]
      exact iff_of_false (fun same => by cases same) (fun same => by cases same)
  | some other =>
      have failed : script models m = .error other := by
        rw [script, upText, raised]
        rfl
      rw [failed, Except.error.injEq, Option.some.injEq]

/-- Without a script, one of the tables referred to lacks an `id` or an index has a long name. -/
theorem cause_of_script_error (failed : script models m = .error e) :
    (∃ f ∈ m.fields, ∃ t ∈ target? models f, hasIdColumn t = false ∧ e = .noIdColumn t.fullTable) ∨
      ∃ columns ∈ indexColumns m, maxNameLength < (indexName m columns).length ∧
        e = .longIndexName (indexName m columns) := by
  rcases Option.or_eq_some_iff.mp (script_eq_error.mp failed) with keyless | ⟨_, long⟩
  · left
    obtain ⟨t, found, rfl⟩ := Option.map_eq_some_iff.mp keyless
    obtain ⟨f, held, target⟩ := List.mem_filterMap.mp (List.mem_of_find?_eq_some found)
    exact ⟨f, held, t, target, by simpa using List.find?_some found, rfl⟩
  · right
    obtain ⟨name, found, rfl⟩ := Option.map_eq_some_iff.mp long
    obtain ⟨columns, among, rfl⟩ := mem_indexNames.mp (List.mem_of_find?_eq_some found)
    exact ⟨columns, among, by simpa using List.find?_some found, rfl⟩

theorem exists_script_iff : (∃ s, script models m = .ok s) ↔ Renders models m := by
  constructor
  · rintro ⟨s, made⟩
    have fine : (targetError? models m).or (indexError? (tableDefinition models m)) = none := by
      refine Option.eq_none_iff_forall_ne_some.mpr fun e raised => ?_
      rw [script_eq_error.mpr raised] at made
      cases made
    rw [Option.or_eq_none_iff, targetError?, indexError?, Option.map_eq_none_iff,
      Option.map_eq_none_iff, List.find?_eq_none, List.find?_eq_none] at fine
    obtain ⟨targets, names⟩ := fine
    constructor
    case indexNames =>
      intro columns among
      simpa using names _ (mem_indexNames.mpr ⟨columns, among, rfl⟩)
    case targets =>
      intro f held t target
      simpa using targets t (List.mem_filterMap.mpr ⟨f, held, target⟩)
  · intro renders
    cases written : script models m with
    | ok s => exact ⟨s, rfl⟩
    | error e =>
        rcases cause_of_script_error written with
          ⟨f, held, t, target, keyless, _⟩ | ⟨columns, among, long, _⟩
        · exact absurd (renders.targets f held t target) (Bool.eq_false_iff.mp keyless)
        · exact absurd long (Nat.not_lt_of_le (renders.indexNames columns among))

theorem mem_of_target? {f : Field} {t : Model} (target : target? models f = some t) :
    t ∈ models ∧ f.references = some t.fullTable := by
  rw [target?] at target
  split at target
  · cases target
  · rename_i fullTable stated
    have same : t.fullTable = fullTable := by simpa using List.find?_some target
    exact ⟨List.mem_of_find?_eq_some target, stated.trans (congrArg some same.symm)⟩

/-! ## What no audit looks for -/

/-- What can be wrong with the script of a model although the audit finds no error. -/
inductive Oversight (models : List Model) (m : Model) : ScriptError → Prop where
  | indexName {columns : List String} (listed : columns ∈ indexColumns m)
      (long : maxNameLength < (indexName m columns).length) :
      Oversight models m (.longIndexName (indexName m columns))
  | referenceColumn {f : Field} {t : Model} (held : f ∈ m.fields)
      (link : f.column ∈ m.references.map Reference.idColumn) (target : target? models f = some t)
      (joins : t.isJoin) (keyless : hasIdColumn t = false) :
      Oversight models m (.noIdColumn t.fullTable)
  | renamedId {f : Field} {t : Model} (held : f ∈ m.fields) (target : target? models f = some t)
      (plain : t.isJoin = false) (keyless : hasIdColumn t = false) :
      Oversight models m (.noIdColumn t.fullTable)

theorem Renders.no_oversight (renders : Renders models m) : ¬ Oversight models m e := by
  rintro (⟨listed, long⟩ | ⟨held, _, target, _, keyless⟩ | ⟨held, target, _, keyless⟩)
  · exact Nat.not_lt_of_le (renders.indexNames _ listed) long
  · exact Bool.eq_false_iff.mp keyless (renders.targets _ held _ target)
  · exact Bool.eq_false_iff.mp keyless (renders.targets _ held _ target)

end Migration

open Migration

variable {models : List Model} {settings : Settings} {m : Model}

/-- An audit without errors sees to the tables as such, so only single scripts can fail. -/
theorem Audit.Passes.scripts_eq (passes : Audit.Passes models settings) :
    scripts models = (order models).mapM (script models) := by
  have fine : tablesError? [] models = none := by
    refine tablesError?_eq_none.mpr ⟨passes.nodup_fullTables, fun m member => ?_⟩
    refine tableError?_eq_none.mpr ⟨List.not_mem_nil, fun index listed column among => ?_⟩
    exact passes.index_known member listed among
  rw [scripts, checkTables, fine]
  rfl

theorem Model.Loaded.target_plain (loaded : m.Loaded models) (passes : Audit.Passes models settings)
    (member : m ∈ models) {f : Field} {t : Model} (held : f ∈ m.fields)
    (target : target? models f = some t)
    (unlinked : f.column ∉ m.references.map Reference.idColumn) : t.isJoin = false := by
  obtain ⟨listed, references⟩ := mem_of_target? target
  -- The audit checks parents and plain fields apart, and skips the columns of references.
  by_cases named : f.name ∈ m.parents.map Parent.fieldName
  · obtain ⟨p, parent, name⟩ := List.mem_map.mp named
    obtain ⟨other, among, model, same⟩ :=
      loaded.parentTables p parent f held name.symm t listed references
    have whole : other = t := List.inj_on_of_nodup_map passes.nodup_fullTables among listed same
    exact passes.parent_plain member listed parent (whole ▸ model)
  · refine passes.field_plain member listed held ?_ references
    simp [Audit.isRelationField, -List.mem_map, named, unlinked]

theorem Model.Loaded.oversight_of_error (loaded : m.Loaded models)
    (passes : Audit.Passes models settings) (member : m ∈ models) {e : ScriptError}
    (failed : script models m = .error e) : Oversight models m e := by
  rcases cause_of_script_error failed with
    ⟨f, held, t, target, keyless, rfl⟩ | ⟨columns, listed, long, rfl⟩
  · cases joins : t.isJoin with
    | false => exact .renamedId held target joins keyless
    | true =>
        refine .referenceColumn held (Decidable.byContradiction fun unlinked => ?_) target joins
          keyless
        rw [loaded.target_plain passes member held target unlinked] at joins
        cases joins
  · exact .indexName listed long

theorem Audit.Passes.exists_scripts_iff (passes : Audit.Passes models settings) :
    (∃ made, scripts models = .ok made) ↔ ∀ m ∈ models, ∃ s, script models m = .ok s := by
  rw [passes.scripts_eq, Result.exists_mapM_iff]
  exact forall_congr' fun m => by rw [(order_perm passes.nodup_fullTables).mem_iff]

/-- If the audit of a loaded definition finds no error, then its models have migration scripts, one
per model, unless something is wrong that the audit does not look for: an index whose name is too
long, a column that is audited as the id of a reference but refers to a join table, or a table of
its own whose `id` is in a column of another name. -/
theorem loadModels_scripts_iff {raw : Entries} {loading auditing : Settings}
    {source : Option String} (loaded : loadModels raw loading source = .ok models)
    (passes : Audit.Passes models auditing) :
    ((∃ made, scripts models = .ok made) ↔ ∀ m ∈ models, ∀ e, ¬ Oversight models m e) ∧
      (∀ made, scripts models = .ok made → ∃ ordered, ordered.Perm models ∧
        List.Forall₂ (fun m s => script models m = .ok s) ordered made) ∧
      ∀ e, scripts models = .error e → ∃ m ∈ models, Oversight models m e := by
  have ordered : (order models).Perm models := order_perm passes.nodup_fullTables
  have overlooked {m : Model} (member : m ∈ models) {e : ScriptError}
      (failed : script models m = .error e) : Oversight models m e :=
    (loadModels_loaded loaded member).oversight_of_error passes member failed
  refine ⟨passes.exists_scripts_iff.trans ⟨fun each m member e => ?_, fun none m member => ?_⟩,
    fun made written => ?_, fun e failed => ?_⟩
  · exact (exists_script_iff.mp (each m member)).no_oversight
  · cases written : script models m with
    | ok s => exact ⟨s, rfl⟩
    | error e => exact absurd (overlooked member written) (none m member e)
  · rw [passes.scripts_eq] at written
    exact ⟨order models, ordered, Result.mapM_eq_ok.mp written⟩
  · rw [passes.scripts_eq] at failed
    obtain ⟨m, listed, failed⟩ := Result.exists_of_mapM_error failed
    exact ⟨m, ordered.mem_iff.mp listed, overlooked (ordered.mem_iff.mp listed) failed⟩

theorem blog_hasScripts : ∃ models made, loadModels (blog "id") .default none = .ok models ∧
    Audit.Passes models .default ∧ scripts models = .ok made ∧ made.length = 3 := by
  have loaded := loadModels_blog .id
  have renders : ∀ m ∈ blogModels .id, Renders (blogModels .id) m := by decide +kernel
  obtain ⟨guarded, whole, _⟩ := loadModels_scripts_iff loaded (blog_passes .id)
  obtain ⟨made, written⟩ := guarded.mpr fun m member e => (renders m member).no_oversight
  obtain ⟨ordered, all, each⟩ := whole made written
  exact ⟨_, made, loaded, blog_passes .id, written, each.length_eq.symm.trans all.length_eq⟩

def misledBlog : Entries := .ofFields [("models", .list [
  .ofFields [("name", .text "Post"), ("fields", .list [
    .ofFields [("name", .text "link"), ("type", .text "uuid"), ("references", .text "PostTag")]]),
    ("references", .list [.ofFields [("model", .text "Tag"), ("field", .text "link")]])],
  .ofFields [("name", .text "Tag")],
  .ofFields [("name", .text "PostTag"), ("joins", .list [.text "Post", .text "Tag"])]])]

theorem misledBlog_lacksScripts : ∃ models m,
    loadModels misledBlog .default none = .ok models ∧ Audit.Passes models .default ∧ m ∈ models ∧
    script models m = .error (.noIdColumn "public.post_tags") ∧
    ∀ made, scripts models ≠ .ok made := by
  obtain ⟨models, m, loaded, member, checked⟩ := exists_loaded misledBlog
    (fun m models => !(Audit.findings models .default).hasErrors &&
      script models m == .error (.noIdColumn "public.post_tags")) (by decide +kernel)
  simp only [Bool.and_eq_true, Bool.not_eq_true', beq_iff_eq] at checked
  obtain ⟨passes, failed⟩ := checked
  refine ⟨models, m, loaded, passes, member, failed, fun made written => ?_⟩
  obtain ⟨s, other⟩ := (Audit.Passes.exists_scripts_iff passes).mp ⟨made, written⟩ m member
  rw [failed] at other
  cases other

end TenantSql
