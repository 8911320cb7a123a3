import TenantSql.Proofs.Build.Formatting
import TenantSql.Proofs.Build.QueryLists
import TenantSql.Proofs.Definition.Accepted
import TenantSql.Proofs.Generation.Sequence

/-!
# What a failing formatter leaves

A formatter may fail for any of the files that were generated. Exactly these files
are dropped, and from the list of each module exactly their entries: a path is cut
at its last slash, and since no name of a file holds a slash, what is cut off is
the name under which the list knows the file.
-/

namespace TenantSql

open Sql Output

/-! ## Paths and their parts -/

namespace Output

theorem splitPath_pathIn {directory file : String} (plain : '/' ∉ file.toList) :
    splitPath (pathIn directory file) = (directory, file) := by
  have spelled : (pathIn directory file).toList.reverse =
      file.toList.reverse ++ '/' :: directory.toList.reverse := by
    simp [pathIn, String.toList_append]
  have before : ∀ c ∈ file.toList.reverse, (c != '/') = true := by
    intro c member
    refine bne_iff_ne.mpr ?_
    rintro rfl
    exact plain (List.mem_reverse.mp member)
  have name : ((pathIn directory file).toList.reverse).takeWhile (· != '/') =
      file.toList.reverse := by
    rw [spelled, List.takeWhile_append_of_pos before]
    simp
  simp only [splitPath, name]
  rw [spelled, List.drop_append, List.drop_of_length_le (Nat.le_succ _)]
  simp

theorem pathIn_splitPath {path : String} (slash : '/' ∈ path.toList) :
    pathIn (splitPath path).1 (splitPath path).2 = path := by
  obtain ⟨back, front, split, plain⟩ := List.eq_append_cons_of_mem (List.mem_reverse.mpr slash)
  have spelled : path = pathIn (String.ofList front.reverse) (String.ofList back.reverse) := by
    rw [← String.toList_inj, ← List.reverse_inj, split]
    simp [pathIn, String.toList_append]
  rw [spelled, splitPath_pathIn (by simpa using plain)]

end Output

namespace Build

/-! ## Modules and their files -/

structure IsFlat (modules : Generation.ByModule) : Prop where
  names : (modules.map (·.1)).Nodup
  files : ∀ entry ∈ modules, ∀ q ∈ entry.2, '/' ∉ (fileName q).toList

section

variable {modules : Generation.ByModule} {scripts : List Migration.Script}
  {entry : String × List Query}

theorem mem_paths_joined {path : String} (listed : entry ∈ modules)
    (member : path ∈ (queryFiles entry.1 entry.2).paths) :
    path ∈ (joined modules (Output.migrationFiles scripts)).paths := by
  rw [joined, FileMap.mem_paths_union_iff, FileMap.mem_paths_union_iff]
  refine .inl (.inr ?_)
  obtain ⟨file, among, rfl⟩ := List.mem_map.mp member
  exact List.mem_map_of_mem (List.mem_flatMap.mpr ⟨entry, listed, among⟩)

theorem mem_paths_queryFiles {module : String} {queries : List Query} {q : Query}
    (member : q ∈ queries) : pathIn module (fileName q) ∈ (queryFiles module queries).paths := by
  change _ ∈ (FileMap.union _ [(pathIn module listName, _)]).paths
  rw [FileMap.mem_paths_union_iff, FileMap.mem_paths_union_iff]
  exact .inl (.inr (List.mem_map.mpr ⟨_, List.mem_map_of_mem member, rfl⟩))

theorem get?_joined_list (apart : (modules.map (·.1)).Nodup) (listed : entry ∈ modules) :
    (joined modules (Output.migrationFiles scripts)).get? (pathIn entry.1 listName) =
      some (listText (entry.2.map queryEntry)) := by
  have here : (queryFiles entry.1 entry.2).get? (pathIn entry.1 listName) =
      some (listText (entry.2.map queryEntry)) := by
    rw [queryFiles, FileMap.get?_insert, if_pos rfl]
  refine FileMap.get?_of_forall (mem_paths_joined listed (FileMap.mem_paths_of_get? here))
    fun text member => ?_
  rcases mem_joined member with ⟨other, among, file⟩ | migration
  · rcases mem_queryFiles file with ⟨q, _, same⟩ | same
    · exact absurd (Prod.ext_iff.mp same).1.symm (queryPath_ne_listPath other.1 q entry.1)
    · have directories := pathIn_listName_inj.mp (Prod.ext_iff.mp same).1
      rw [List.inj_on_of_nodup_map apart listed among directories]
      exact (Prod.ext_iff.mp same).2
  · obtain ⟨front, spelled⟩ := mem_migrationFiles migration
    exact absurd spelled.symm (ne_listPath_of_sql front entry.1)

theorem slash_mem_joined {path : String}
    (member : path ∈ (joined modules (Output.migrationFiles scripts)).paths) :
    '/' ∈ path.toList := by
  have inDirectory (directory file : String) : '/' ∈ (pathIn directory file).toList := by
    simp [pathIn, String.toList_append]
  obtain ⟨file, written, rfl⟩ := List.mem_map.mp member
  rcases mem_joined written with ⟨entry, _, query⟩ | migration
  · rcases mem_queryFiles query with ⟨q, _, rfl⟩ | rfl
    · exact inDirectory ..
    · exact inDirectory ..
  · obtain ⟨name, spelled, _⟩ := exists_of_mem_migrationFiles (List.mem_map_of_mem migration)
    rw [spelled]
    exact inDirectory ..

end

/-! ## What is left of a map -/

theorem mem_paths_filter_not {files : FileMap} {fails : String × String → Bool} {path : String}
    (distinct : files.paths.Nodup) (present : path ∈ files.paths) :
    path ∈ FileMap.paths (files.filter fun file => !fails file) ↔
      path ∉ FileMap.paths (files.filter fails) := by
  obtain ⟨file, member, rfl⟩ := List.mem_map.mp present
  have only {other : String × String} (among : other ∈ files) (same : other.1 = file.1) :
      other = file := List.inj_on_of_nodup_map distinct among member same
  constructor
  · rintro left fallen
    obtain ⟨kept, among, same⟩ := List.mem_map.mp left
    obtain ⟨lost, besides, equal⟩ := List.mem_map.mp fallen
    rw [List.mem_filter] at among besides
    rw [only among.1 same] at among
    rw [only besides.1 equal] at besides
    simp [besides.2] at among
  · intro stands
    refine List.mem_map.mpr ⟨file, List.mem_filter.mpr ⟨member, ?_⟩, rfl⟩
    cases fallen : fails file with
    | false => rfl
    | true =>
        exact absurd (List.mem_map.mpr ⟨file, List.mem_filter.mpr ⟨member, fallen⟩, rfl⟩) stands

theorem isSql_listPath (directory : String) : isSql (pathIn directory listName) = false := by
  rw [Bool.eq_false_iff, isSql, ne_eq, List.isSuffixOf_iff_suffix]
  rintro ⟨front, spelled⟩
  refine ne_listPath_of_sql (String.ofList front) directory (String.toList_inj.mp ?_)
  rw [← spelled]
  simp

theorem holdsLists_formatFiles {formatText : String → String → Except Formatter.Failure String}
    {files : FileMap} {formatted : Formatted} (holds : HoldsLists files)
    (done : formatFiles formatText files = .ok formatted) : HoldsLists formatted.files where
  distinct := by
    rw [(formatFiles_spec done).1]
    exact holds.distinct.sublist (List.filter_sublist.map _)
  lists file member directory path := by
    refine holds.lists file ((mem_formatFiles done ?_).mp member) directory path
    rw [path, isSql_listPath]

section

variable {env : Environment} {settings : Settings} {command : List String} {files : FileMap}
  {modules : Generation.ByModule} {scripts : List Migration.Script}

structure KeepsFormatted (env : Environment) (settings : Settings) (command : List String)
    (files kept : FileMap) (modules : Generation.ByModule) : Prop where
  paths : kept.paths = FileMap.paths (files.filter fun file => !failsFor env settings file)
  formatted : (kept.filter fun file => isSql file.1) =
    (files.filter fun file => isSql file.1).filterMap fun file =>
      (formatText env command file.1 file.2).toOption.map fun text => (file.1, text)
  lists : ∀ entry ∈ modules,
    files.get? (pathIn entry.1 listName) = some (listText (entry.2.map queryEntry)) ∧
      kept.get? (pathIn entry.1 listName) = some (listText ((entry.2.filter fun q =>
        kept.paths.contains (pathIn entry.1 (fileName q))).map queryEntry))
  untouched : ∀ entry ∈ modules, (∀ q ∈ entry.2, pathIn entry.1 (fileName q) ∈ kept.paths) →
    kept.get? (pathIn entry.1 listName) = files.get? (pathIn entry.1 listName)

/-- An entry is dropped from its list if and only if its file is lost. -/
theorem remaining_eq_filter {directory : String} {queries : List Query} {failed : List String}
    (plain : ∀ q ∈ queries, '/' ∉ (fileName q).toList)
    (slashes : ∀ path ∈ failed, '/' ∈ path.toList)
    {left : List String}
    (lost : ∀ q ∈ queries, pathIn directory (fileName q) ∈ left ↔
      pathIn directory (fileName q) ∉ failed) :
    remaining (failed.map splitPath) directory queries =
      queries.filter fun q => left.contains (pathIn directory (fileName q)) := by
  refine List.filter_congr fun q member => ?_
  have dropped : (directory, fileName q) ∈ failed.map splitPath ↔
      pathIn directory (fileName q) ∈ failed := by
    constructor
    · intro split
      obtain ⟨path, among, parts⟩ := List.mem_map.mp split
      rw [← pathIn_splitPath (slashes path among), parts] at among
      exact among
    · intro among
      exact List.mem_map.mpr ⟨_, among, splitPath_pathIn (plain q member)⟩
  rw [Bool.eq_iff_iff, Bool.not_eq_true', Bool.eq_false_iff, ne_eq, List.contains_iff_mem,
    List.contains_iff_mem, dropped, lost q member]

theorem get?_list_of_isPruned (flat : IsFlat modules)
    (stands : files = joined modules (Output.migrationFiles scripts)) {formatted : Formatted}
    (ran : formatFiles (formatText env command) files = .ok formatted) {kept : FileMap}
    (pruned : IsPruned formatted.files
      ((FileMap.paths (files.filter (failsFor env settings))).map splitPath) kept)
    (paths : kept.paths = FileMap.paths (files.filter fun file => !failsFor env settings file))
    {entry : String × List Query} (listed : entry ∈ modules) :
    kept.get? (pathIn entry.1 listName) = some (listText ((entry.2.filter fun q =>
      kept.paths.contains (pathIn entry.1 (fileName q))).map queryEntry)) := by
  have holds : HoldsLists files := stands ▸ holdsLists_joined modules scripts
  have list : (pathIn entry.1 listName, listText (entry.2.map queryEntry)) ∈ files := by
    rw [stands]
    exact FileMap.mem_of_get? (get?_joined_list flat.names listed)
  have noSql : isSql (pathIn entry.1 listName, listText (entry.2.map queryEntry)).1 = false :=
    isSql_listPath entry.1
  have unformatted := FileMap.get?_of_mem (holdsLists_formatFiles holds ran).distinct
    ((mem_formatFiles ran noSql).mpr list)
  have slashes : ∀ path ∈ FileMap.paths (files.filter (failsFor env settings)),
      '/' ∈ path.toList := by
    intro path lost
    obtain ⟨file, among, rfl⟩ := List.mem_map.mp lost
    have member : file.1 ∈ files.paths := List.mem_map_of_mem (List.mem_filter.mp among).1
    rw [stands] at member
    exact slash_mem_joined member
  have lost : ∀ q ∈ entry.2, pathIn entry.1 (fileName q) ∈ kept.paths ↔
      pathIn entry.1 (fileName q) ∉ FileMap.paths (files.filter (failsFor env settings)) := by
    intro q member
    have present : pathIn entry.1 (fileName q) ∈ files.paths := by
      rw [stands]
      exact mem_paths_joined listed (mem_paths_queryFiles member)
    rw [paths]
    exact mem_paths_filter_not holds.distinct present
  rw [pruned.lists entry.1 entry.2 unformatted,
    remaining_eq_filter (flat.files entry listed) slashes lost]

/-- When a formatter fails for some of the files of some modules, exactly these files and their
entries are dropped. -/
theorem exists_format (flat : IsFlat modules)
    (stands : files = joined modules (Output.migrationFiles scripts))
    (chosen : Formatter.choose env.available settings = some command)
    (told : ∀ file ∈ files, isSql file.1 → ∀ failure,
      formatText env command file.1 file.2 = .error failure → ∃ e, failure = .reported e)
    (r : Report) : ∃ shown kept failures, format env settings files r = .ok (shown, kept) ∧
      KeepsFormatted env settings command files kept modules ∧
      FailuresOf env settings command files failures ∧
      shown.formatErrors = r.formatErrors ++ failures.map fun e => e.diagnostic.display := by
  obtain ⟨formatted, ran⟩ := formatFiles_ok_iff.mpr told
  have holds := holdsLists_formatFiles (stands ▸ holdsLists_joined modules scripts) ran
  have failures := failuresOf_formatFiles chosen ran
  obtain ⟨kept, dropped, pruned⟩ := exists_dropEntries holds
    (formatted.failures.map FormatError.file)
  obtain ⟨shown, done, errors⟩ := format_of_dropEntries chosen ran dropped r
  have paths := (format_spec done).paths
  rw [failures.map_file] at pruned
  have before {entry : String × List Query} (listed : entry ∈ modules) :
      files.get? (pathIn entry.1 listName) = some (listText (entry.2.map queryEntry)) := by
    rw [stands]
    exact get?_joined_list flat.names listed
  have after {entry : String × List Query} (listed : entry ∈ modules) :=
    get?_list_of_isPruned flat stands ran pruned paths listed
  refine ⟨shown, kept, _, done, ⟨paths, ?_, fun entry listed => ⟨before listed, after listed⟩,
    fun entry listed whole => ?_⟩, failures, errors⟩
  · rw [← filter_isSql_formatFiles ran]
    refine FileMap.filter_eq_of_get?_eq isSql holds.distinct pruned.paths
      fun path sql => pruned.others path fun directory same => ?_
    rw [same, isSql_listPath] at sql
    cases sql
  · rw [after listed, before listed, List.filter_eq_self.mpr]
    exact fun q member => List.contains_iff_mem.mpr (whole q member)

end

end Build

/-! ## Models and the names of their files -/

namespace Model

variable {m : Model} {wanted : List OperationKind} {q : Query}

theorem HasFileNames.noSlash_plan (named : m.HasFileNames) {kind : OperationKind} {p : Plan}
    (planned : p ∈ m.plansOf kind) : '/' ∉ p.name.toList := by
  have words : ∀ kind ∈ OperationKind.all, ∀ word ∈ kind.name :: kind.stems,
      '/' ∉ word.toList := by decide +kernel
  have among : p.name ∈ (m.plansOf kind).map Plan.name := List.mem_map_of_mem planned
  by_cases single : kind.stems = []
  · rcases names_plansOf_single (m := m) single with none | one
    · rw [none] at among
      cases among
    · rw [one] at among
      rw [List.mem_singleton.mp among]
      exact words kind (OperationKind.mem_all kind) _ List.mem_cons_self
  · rw [names_plansOf single] at among
    obtain ⟨parent, listed, under⟩ := List.mem_flatMap.mp among
    obtain ⟨stem, known, spelled⟩ := List.mem_map.mp under
    have held : parent ∈ m.parents := by
      rw [parentsOf] at listed
      split at listed
      · cases listed
      · exact listed
    rw [← spelled, String.toList_append, List.mem_append, not_or]
    exact ⟨words kind (OperationKind.mem_all kind) stem (List.mem_cons_of_mem _ known),
      Build.noSlash_of_isIdentifier (named.parents parent held)⟩

theorem HasFileNames.noSlash_query (named : m.HasFileNames) {queries : List Query}
    (found : m.queries wanted = .ok queries) (member : q ∈ queries) :
    '/' ∉ (fileName q).toList := by
  obtain ⟨parts, mapped, whole⟩ := Result.bind_eq_ok.mp found
  rw [Result.pure_eq_ok] at whole
  rw [← whole] at member
  obtain ⟨part, among, inPart⟩ := List.mem_flatten.mp member
  obtain ⟨kind, _, made⟩ := Result.exists_of_mem_mapM mapped among
  obtain ⟨plans, planned, rfl⟩ := queriesOf_eq_ok.mp made
  obtain ⟨p, listed, rfl⟩ := List.mem_map.mp inPart
  have own : p ∈ m.plansOf kind := by
    rw [plansOf, planned]
    exact listed
  have name : '/' ∉ p.name.toList := named.noSlash_plan own
  rw [show fileName p.query = p.name ++ ".sql" from rfl, String.toList_append, List.mem_append,
    not_or]
  exact ⟨name, by decide⟩

end Model

namespace Build

variable {models : List Model}

theorem isFlat_of_run {wanted : List OperationKind} (accepted : ∀ m ∈ models, m.Accepted)
    {modules : Generation.ByModule} (ran : Generation.run models wanted = .ok modules) :
    IsFlat modules := by
  have sequential := Generation.awaitAll_isSequential models wanted
  rw [← Generation.runBy_eq_awaitAll [], show Generation.runBy [] models wanted = .ok modules from
    ran] at sequential
  obtain ⟨queries, found, rfl⟩ := sequential
  constructor
  · rw [Generation.merged, List.map_map]
    change ((Text.distinct (models.map Model.moduleName)).map id).Nodup
    rw [List.map_id]
    exact Text.nodup_distinctAfter List.nodup_nil
  · intro entry listed q member
    obtain ⟨name, _, rfl⟩ := List.mem_map.mp listed
    obtain ⟨m, among, own⟩ := List.mem_flatMap.mp member
    have held := (List.mem_filter.mp among).1
    exact (accepted m held).hasFileNames.noSlash_query (found m held) own

theorem generate_spec {settings : Settings} {before report : Report} {files : FileMap}
    (generated : generate models settings before = .ok (report, some files)) :
    ∃ modules scripts, Generation.run models settings.operations = .ok modules ∧
      files = joined modules (Output.migrationFiles scripts) := by
  rw [generate] at generated
  split at generated
  · cases generated
  · rename_i modules ran
    obtain ⟨made, whole, same⟩ := Result.bind_eq_ok.mp generated
    cases same
    obtain ⟨migrations, migrated, same⟩ := Result.bind_eq_ok.mp whole
    cases same
    rw [migrationFiles] at migrated
    split at migrated
    · obtain ⟨scripts, _, rfl⟩ := Result.map_eq_ok.mp (Result.mapError_eq_ok.mp migrated)
      exact ⟨modules, scripts, ran, rfl⟩
    · cases migrated
      exact ⟨modules, [], ran, rfl⟩

/-- Whatever files are generated for accepted models, and for whichever of them the formatter fails:
exactly the files that it fails for are dropped, and their entries from the lists of queries. -/
theorem format_dropsFailures (accepted : ∀ m ∈ models, m.Accepted) {settings : Settings}
    {before report : Report} {files : FileMap}
    (generated : generate models settings before = .ok (report, some files))
    {env : Environment} {command : List String}
    (chosen : Formatter.choose env.available settings = some command)
    (told : ∀ file ∈ files, isSql file.1 → ∀ failure,
      formatText env command file.1 file.2 = .error failure → ∃ e, failure = .reported e) :
    ∃ modules shown kept failures,
      Generation.run models settings.operations = .ok modules ∧
      format env settings files report = .ok (shown, kept) ∧
      KeepsFormatted env settings command files kept modules ∧
      FailuresOf env settings command files failures ∧
      shown.formatErrors = report.formatErrors ++ failures.map fun e => e.diagnostic.display := by
  obtain ⟨modules, scripts, ran, stands⟩ := generate_spec generated
  obtain ⟨shown, kept, failures, result⟩ :=
    exists_format (isFlat_of_run accepted ran) stands chosen told report
  exact ⟨modules, shown, kept, failures, ran, result⟩

def terse : Formatter.Program := fun _ _ =>
  .ended { exitCode := 0, output := ⟨#[59, 10]⟩, errors := ⟨#[]⟩, seconds := .ofInt 0 }

def fickleEnvironment : Environment where
  program := fun _ _ => .notFound
  programFor path := if path == "post/insert.sql" then fun _ _ => .notFound else terse
  available := fun _ => false

theorem formatText_fickle (command : List String) (path text : String) :
    formatText fickleEnvironment command path text =
      if path == "post/insert.sql" then
        .error (.reported {
          file := path
          reason := "formatter '" ++ command.headD "" ++ "' not found"
          code := .formatNotFound })
      else .ok ";\n" := by
  have inTime : Formatter.exceeded (.ofInt 0) Formatter.usualLimit = .ok none := rfl
  have output : Formatter.outputText? ⟨#[59, 10]⟩ = some ";\n" := by decide +kernel
  have errors : Formatter.outputText? ⟨#[]⟩ = some "" := by decide +kernel
  have program : fickleEnvironment.programFor path =
      if path == "post/insert.sql" then fun _ _ => .notFound else terse := rfl
  rw [formatText, program]
  cases path == "post/insert.sql" with
  | true => rfl
  | false =>
    simp only [Formatter.format, terse, Formatter.judge, inTime, output, errors,
      Bool.false_eq_true, if_false]
    rfl

def changes : Settings :=
  { Settings.default with
    formatter := some ["fmt"], migrations := false, operations := [.insert, .delete] }

theorem blog_dropsFailures : ∃ models report files shown kept modules,
    loadModels (blog "id") .default none = .ok models ∧
      generate models changes {} = .ok (report, some files) ∧
      "post/insert.sql" ∈ files.paths ∧
      format fickleEnvironment changes files report = .ok (shown, kept) ∧
      "post/insert.sql" ∉ kept.paths ∧
      KeepsFormatted fickleEnvironment changes ["fmt"] files kept modules := by
  have loaded := loadModels_blog .id
  have written : "post/insert.sql" ∈
      (joined (byModule (blogModels .id) changes.operations) []).map (·.1) := by
    decide +kernel
  have ran : Generation.run (blogModels .id) changes.operations =
      .ok (byModule (blogModels .id) changes.operations) :=
    Generation.runBy_eq_ok (blog_passes .id) [] _
  have migrated : migrationFiles (blogModels .id) changes = .ok [] := rfl
  obtain ⟨report, generated⟩ := generate_eq_ok ran migrated {}
  obtain ⟨modules, shown, kept, failures, _, done, keeps, _, _⟩ :=
    @format_dropsFailures _ (fun m member => .loaded loaded member) _ _ _ _ generated
      fickleEnvironment ["fmt"] rfl (by
        intro file _ _ failure failed
        rw [formatText_fickle] at failed
        split at failed
        · cases failed
          exact ⟨_, rfl⟩
        · cases failed)
  refine ⟨_, report, _, shown, kept, modules, loaded, generated, written, done, ?_, keeps⟩
  rw [keeps.paths]
  intro left
  obtain ⟨other, stays, same⟩ := List.mem_map.mp left
  have fails : failsFor fickleEnvironment changes other = true := by
    simp only [@failsFor_eq fickleEnvironment changes ["fmt"] rfl, formatText_fickle, same]
    decide
  simp [fails] at stays

end Build

end TenantSql
