import TenantSql.Build.Stage
import TenantSql.Proofs.Generation.Run
import TenantSql.Proofs.Output.QueryFiles
import TenantSql.Proofs.Query.Placeholder

/-!
# The files of a build

The files that a build generates hold every query under a path of its own,
unless a model has one parent twice: then two of its queries have one name, and
the later text takes the place of the earlier one.
-/

namespace TenantSql

open Sql Output

namespace Model

theorem beginsWithDigit_queryName {m : Model} {wanted : List OperationKind} {q : Query}
    (member : q ∈ m.queriesFor wanted) : beginsWithDigit (fileName q) = false := by
  have letters : ∀ kind ∈ OperationKind.all, ∀ word ∈ kind.name :: kind.stems,
      word ≠ "" ∧ beginsWithDigit word = false := by decide +kernel
  have letter {kind : OperationKind} {word : String} (known : word ∈ kind.name :: kind.stems)
      (rest : String) : beginsWithDigit (word ++ rest) = false := by
    obtain ⟨some, letter⟩ := letters kind (OperationKind.mem_all kind) word known
    rw [beginsWithDigit_append some, letter]
  obtain ⟨kind, _, among⟩ := List.mem_flatMap.mp member
  obtain ⟨p, planned, rfl⟩ := List.mem_map.mp among
  have named : p.name ∈ (m.plansOf kind).map Plan.name := List.mem_map_of_mem planned
  have file : fileName p.query = p.name ++ ".sql" := rfl
  rw [file]
  by_cases single : kind.stems = []
  · rcases names_plansOf_single (m := m) single with none | one
    · rw [none] at named
      cases named
    · rw [one] at named
      rw [List.mem_singleton.mp named]
      exact letter List.mem_cons_self ".sql"
  · rw [names_plansOf single] at named
    obtain ⟨parent, _, under⟩ := List.mem_flatMap.mp named
    obtain ⟨stem, known, spelled⟩ := List.mem_map.mp under
    rw [← spelled, String.append_assoc]
    exact letter (List.mem_cons_of_mem kind.name known) (parent.snakeName ++ ".sql")

end Model

namespace Build

/-- Every query of the modules has a file of its own with its text, and beside it lies the list that
names this file. -/
structure KeepsQueries (files migrations : FileMap) (modules : Generation.ByModule) : Prop where
  names : ∀ entry ∈ modules, (entry.2.map Query.name).Nodup
  queries : ∀ entry ∈ modules, ∀ q ∈ entry.2,
    files.get? (pathIn entry.1 (fileName q)) = some (queryText q)
  lists : ∀ entry ∈ modules,
    files.get? (pathIn entry.1 listName) = some (listText (entry.2.map queryEntry))
  paths : ((modules.flatMap fun entry => modulePaths entry.1 entry.2) ++ migrations.paths).Nodup

def byModule (models : List Model) (wanted : List OperationKind) : Generation.ByModule :=
  models.map fun m => (m.moduleName, m.queriesFor wanted)

def joined (modules : Generation.ByModule) (migrations : FileMap) : FileMap :=
  (FileMap.union [] (modules.flatMap fun entry => queryFiles entry.1 entry.2)).union migrations

variable {models : List Model} {wanted : List OperationKind}

theorem noSlash_of_isIdentifier {s : String} (valid : isIdentifier s) : '/' ∉ s.toList := by
  intro slash
  rcases isIdentifier_chars valid '/' slash with allowed | lineEnd
  · revert allowed
    decide
  · cases lineEnd

theorem noSlash (loaded : ∀ m ∈ models, m.Loaded models) :
    ∀ m ∈ models, '/' ∉ m.moduleName.toList :=
  fun m member => noSlash_of_isIdentifier (loaded m member).moduleName

theorem nodup_modulePaths_byModule (loaded : ∀ m ∈ models, m.Loaded models)
    (apart : (models.map Model.moduleName).Nodup)
    (names : ∀ m ∈ models, ((m.queriesFor wanted).map Query.name).Nodup) :
    ((byModule models wanted).flatMap fun entry => modulePaths entry.1 entry.2).Nodup := by
  rw [byModule, List.flatMap_map, List.nodup_flatMap]
  refine ⟨fun m member => nodup_modulePaths (names m member), ?_⟩
  have modules := apart
  simp only [List.Nodup, List.pairwise_map] at modules
  refine modules.imp_of_mem fun first second different path left right => ?_
  obtain ⟨file, rfl, _⟩ := exists_of_mem_modulePaths left
  obtain ⟨other, same, _⟩ := exists_of_mem_modulePaths right
  exact different (eq_of_pathIn (noSlash loaded _ first) (noSlash loaded _ second) same).1

theorem modulePaths_ne_migration (loaded : ∀ m ∈ models, m.Loaded models)
    {scripts : List Migration.Script} {path : String}
    (module : path ∈ (byModule models wanted).flatMap fun entry => modulePaths entry.1 entry.2) :
    path ∉ (Output.migrationFiles scripts).paths := by
  intro migration
  obtain ⟨entry, listed, among⟩ := List.mem_flatMap.mp module
  obtain ⟨m, member, rfl⟩ := List.mem_map.mp listed
  obtain ⟨file, rfl, named⟩ := exists_of_mem_modulePaths among
  obtain ⟨other, same, digit⟩ := exists_of_mem_migrationFiles migration
  -- The path of a migration begins with its number, and no query and no list begins with a digit.
  have noDigit : beginsWithDigit file = false := by
    rcases named with rfl | ⟨q, generated, rfl⟩
    · decide
    · exact Model.beginsWithDigit_queryName generated
  rw [← (eq_of_pathIn (noSlash loaded m member) (by decide) same).2, noDigit] at digit
  cases digit

section

variable {modules : Generation.ByModule} {migrations : FileMap}

theorem paths_moduleFiles_flatMap :
    FileMap.paths (modules.flatMap fun entry => moduleFiles entry.1 entry.2) =
      modules.flatMap fun entry => modulePaths entry.1 entry.2 := by
  rw [FileMap.paths, List.map_flatMap]
  exact List.flatMap_congr fun entry _ => paths_moduleFiles entry.1 entry.2

theorem joined_eq (names : ∀ entry ∈ modules, (entry.2.map Query.name).Nodup)
    (apart : ((modules.flatMap fun entry => modulePaths entry.1 entry.2) ++
      migrations.paths).Nodup) :
    joined modules migrations =
      (modules.flatMap fun entry => moduleFiles entry.1 entry.2) ++ migrations := by
  have files : (modules.flatMap fun entry => queryFiles entry.1 entry.2) =
      modules.flatMap fun entry => moduleFiles entry.1 entry.2 :=
    List.flatMap_congr fun entry member => queryFiles_eq (names entry member)
  rw [joined, files, FileMap.union_nil_of_nodup, FileMap.union_of_nodup]
  · rw [paths_moduleFiles_flatMap]
    exact apart
  · rw [paths_moduleFiles_flatMap]
    exact (List.nodup_append.mp apart).1

theorem keepsQueries_joined (names : ∀ entry ∈ modules, (entry.2.map Query.name).Nodup)
    (apart : ((modules.flatMap fun entry => modulePaths entry.1 entry.2) ++
      migrations.paths).Nodup) :
    KeepsQueries (joined modules migrations) migrations modules := by
  have distinct : FileMap.paths ((modules.flatMap fun entry => moduleFiles entry.1 entry.2) ++
      migrations) |>.Nodup := by
    rw [FileMap.paths_append, paths_moduleFiles_flatMap]
    exact apart
  have found {entry : String × List Query} (listed : entry ∈ modules) {path text : String}
      (member : (path, text) ∈ moduleFiles entry.1 entry.2) :
      FileMap.get? ((modules.flatMap fun entry => moduleFiles entry.1 entry.2) ++ migrations) path =
        some text :=
    FileMap.get?_of_mem distinct
      (List.mem_append_left _ (List.mem_flatMap.mpr ⟨entry, listed, member⟩))
  rw [joined_eq names apart]
  exact {
    names := names
    queries := fun entry listed q member =>
      found listed (List.mem_append_left _ (List.mem_map_of_mem member))
    lists := fun entry listed => found listed (List.mem_append_right _ (List.mem_singleton_self _))
    paths := apart }

end

theorem nodup_paths_of_migrationFiles {settings : Settings} {migrations : FileMap}
    (migrated : migrationFiles models settings = .ok migrations) :
    migrations.paths.Nodup ∧ ∀ path ∈ migrations.paths, ∃ scripts : List Migration.Script,
      path ∈ (Output.migrationFiles scripts).paths := by
  unfold migrationFiles at migrated
  split at migrated
  · rw [Result.mapError_eq_ok, Result.map_eq_ok] at migrated
    obtain ⟨scripts, _, rfl⟩ := migrated
    exact ⟨nodup_migrationFiles scripts, fun path member => ⟨scripts, member⟩⟩
  · cases migrated
    exact ⟨List.nodup_nil, nofun⟩

theorem generate_eq_ok {settings : Settings} {modules : Generation.ByModule}
    (ran : Generation.run models settings.operations = .ok modules) {migrations : FileMap}
    (migrated : migrationFiles models settings = .ok migrations) (r : Report) :
    ∃ report, generate models settings r = .ok (report, some (joined modules migrations)) := by
  unfold generate
  rw [ran]
  simp only [filesOf, migrated]
  exact ⟨_, rfl⟩

theorem keepsQueries_iff (loaded : ∀ m ∈ models, m.Loaded models) {audited settings : Settings}
    (passes : Audit.Passes models audited) {migrations : FileMap}
    (migrated : migrationFiles models settings = .ok migrations) :
    KeepsQueries (joined (byModule models wanted) migrations) migrations (byModule models wanted) ↔
      ∀ m ∈ models, m.HasDistinctParents wanted := by
  have distinct {m : Model} (member : m ∈ models) :
      ((m.queriesFor wanted).map Query.name).Nodup ↔ m.HasDistinctParents wanted :=
    (loaded m member).nodup_names_iff passes
  constructor
  · intro keeps m member
    exact (distinct member).mp (keeps.names _ (List.mem_map_of_mem member))
  · intro parents
    have names : ∀ m ∈ models, ((m.queriesFor wanted).map Query.name).Nodup :=
      fun m member => (distinct member).mpr (parents m member)
    obtain ⟨apart, scripted⟩ := nodup_paths_of_migrationFiles migrated
    refine keepsQueries_joined (fun entry listed => ?_) (List.nodup_append.mpr ⟨?_, apart, ?_⟩)
    · obtain ⟨m, member, rfl⟩ := List.mem_map.mp listed
      exact names m member
    · exact nodup_modulePaths_byModule loaded passes.nodup_moduleNames names
    · intro path module other migration same
      obtain ⟨scripts, among⟩ := scripted other migration
      exact modulePaths_ne_migration loaded module (same ▸ among)

end Build

/-- Whatever definition is loaded and passes the audit, a build generates the queries of all models
for the wanted families, and its files keep every one of them, under a path that nothing else has,
if and only if no wanted family has statements for one parent twice. -/
theorem loadModels_keepsQueries_iff {raw : Entries} {loading audited settings : Settings}
    {source : Option String} {models : List Model}
    (loaded : loadModels raw loading source = .ok models) (passes : Audit.Passes models audited)
    {migrations : FileMap} (migrated : Build.migrationFiles models settings = .ok migrations)
    (r : Report) :
    (∀ m ∈ models, m.queries settings.operations = .ok (m.queriesFor settings.operations)) ∧
      ∃ report files, Build.generate models settings r = .ok (report, some files) ∧
        (Build.KeepsQueries files migrations (Build.byModule models settings.operations) ↔
          ∀ m ∈ models, m.HasDistinctParents settings.operations) := by
  have all : ∀ m ∈ models, m.Loaded models := fun _ listed => loadModels_loaded loaded listed
  refine ⟨fun m member => Model.queries_eq_ok passes member _, ?_⟩
  have ran : Generation.run models settings.operations =
      .ok (Build.byModule models settings.operations) := Generation.runBy_eq_ok passes [] _
  obtain ⟨report, generated⟩ := Build.generate_eq_ok ran migrated r
  exact ⟨report, _, generated, Build.keepsQueries_iff all passes migrated⟩

theorem blog_keepsQueries : ∃ models report files, loadModels (blog "id") .default none = .ok models ∧
    Audit.Passes models .default ∧
    Build.generate models { Settings.default with migrations := false } {} =
      .ok (report, some files) ∧
    Build.KeepsQueries files [] (Build.byModule models OperationKind.all) := by
  have loaded := loadModels_blog .id
  have parents : ∀ m ∈ blogModels .id, m.HasDistinctParents OperationKind.all := by decide +kernel
  have migrated : Build.migrationFiles (blogModels .id)
      { Settings.default with migrations := false } = .ok [] := rfl
  obtain ⟨report, files, generated, keeps⟩ :=
    (loadModels_keepsQueries_iff loaded (blog_passes .id) migrated {}).2
  exact ⟨_, report, files, loaded, blog_passes .id, generated, keeps.mpr parents⟩

def messages : Entries := .ofFields [("models", .list [
  .ofFields [("name", .text "Message"), ("belongs_to", .list [
    .ofFields [("model", .text "User"), ("field", .text "sender_id")],
    .ofFields [("model", .text "User"), ("field", .text "recipient_id")]])],
  .ofFields [("name", .text "User")]])]

theorem messages_shareName : ∃ models m, loadModels messages .default none = .ok models ∧
    Audit.Passes models .default ∧ m ∈ models ∧
    (m.queriesFor [.upsert]).map Query.name =
      ["upsert_single_child_of_user", "upsert_single_child_of_user"] ∧
    (m.upsertPlans.map Plan.statement).Nodup ∧
    ¬ ((m.queriesFor [.upsert]).map Query.name).Nodup := by
  obtain ⟨models, m, loaded, member, checked⟩ := exists_loaded messages
    (fun m models => !(Audit.findings models .default).hasErrors &&
      (m.queriesFor [.upsert]).map Query.name ==
        ["upsert_single_child_of_user", "upsert_single_child_of_user"] &&
      decide (m.upsertPlans.map Plan.statement).Nodup) (by decide +kernel)
  simp only [Bool.and_eq_true, Bool.not_eq_true', beq_iff_eq, decide_eq_true_eq] at checked
  obtain ⟨⟨passes, names⟩, statements⟩ := checked
  refine ⟨models, m, loaded, passes, member, names, statements, ?_⟩
  rw [names]
  decide

end TenantSql
