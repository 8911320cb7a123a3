import TenantSql.Output.Files
import TenantSql.Proofs.Output.FileMap

/-!
# Paths of queries and migrations

Files of different modules, different queries of one module, lists of queries
and migrations never share a path: modules are directories without a slash in
their names, and only the names of migrations begin with a digit.
-/

namespace TenantSql.Output

open Sql

theorem eq_of_pathIn {module other file second : String} (plain : '/' ∉ module.toList)
    (otherPlain : '/' ∉ other.toList) (same : pathIn module file = pathIn other second) :
    module = other ∧ file = second := by
  have spelled : module.toList ++ '/' :: file.toList = other.toList ++ '/' :: second.toList := by
    simpa [pathIn, String.toList_append] using congrArg String.toList same
  have front {directory : String} (plain : '/' ∉ directory.toList) (file : List Char) :
      (directory.toList ++ '/' :: file).takeWhile (· != '/') = directory.toList := by
    have before : ∀ c ∈ directory.toList, (c != '/') = true := by
      intro c member
      refine bne_iff_ne.mpr ?_
      rintro rfl
      exact plain member
    rw [List.takeWhile_append_of_pos before]
    simp
  have directories : module.toList = other.toList := by
    rw [← front plain file.toList, spelled, front otherPlain]
  rw [directories] at spelled
  have files := (List.cons.inj (List.append_cancel_left spelled)).2
  exact ⟨String.toList_inj.mp directories, String.toList_inj.mp files⟩

theorem pathIn_inj {module file second : String} :
    pathIn module file = pathIn module second ↔ file = second := by
  rw [← String.toList_inj, ← String.toList_inj]
  simp [pathIn, String.toList_append]

theorem fileName_ne_listName (q : Query) : fileName q ≠ listName := by
  intro same
  have last := congrArg (fun name : String => name.toList.getLast?) same
  simp [fileName, listName, String.toList_append] at last

/-! ## The files of a module -/

def modulePaths (module : String) (queries : List Query) : List String :=
  queries.map (fun q => pathIn module (fileName q)) ++ [pathIn module listName]

def moduleFiles (module : String) (queries : List Query) : FileMap :=
  queries.map (fun q => (pathIn module (fileName q), queryText q)) ++
    [(pathIn module listName, listText (queries.map queryEntry))]

@[simp] theorem paths_moduleFiles (module : String) (queries : List Query) :
    (moduleFiles module queries).paths = modulePaths module queries := by
  simp [moduleFiles, modulePaths, FileMap.paths]

theorem exists_of_mem_modulePaths {module path : String} {queries : List Query}
    (member : path ∈ modulePaths module queries) :
    ∃ file, path = pathIn module file ∧ (file = listName ∨ ∃ q ∈ queries, file = fileName q) := by
  rcases List.mem_append.mp member with query | list
  · obtain ⟨q, listed, rfl⟩ := List.mem_map.mp query
    exact ⟨_, rfl, .inr ⟨q, listed, rfl⟩⟩
  · exact ⟨listName, List.mem_singleton.mp list, .inl rfl⟩

theorem nodup_queryPaths {module : String} {queries : List Query} :
    (queries.map fun q => pathIn module (fileName q)).Nodup ↔ (queries.map Query.name).Nodup := by
  have paths : (queries.map fun q => pathIn module (fileName q)) =
      (queries.map Query.name).map fun name => pathIn module (name ++ ".sql") := by
    simp [fileName]
  rw [paths]
  refine List.nodup_map_iff fun name other same => ?_
  simpa [← String.toList_inj, pathIn, String.toList_append] using same

theorem nodup_modulePaths {module : String} {queries : List Query}
    (names : (queries.map Query.name).Nodup) : (modulePaths module queries).Nodup := by
  refine List.nodup_append.mpr ⟨nodup_queryPaths.mpr names, List.nodup_singleton _, ?_⟩
  intro path query list last same
  obtain ⟨q, _, rfl⟩ := List.mem_map.mp query
  rw [List.mem_singleton.mp last, pathIn_inj] at same
  exact fileName_ne_listName q same

theorem queryFiles_eq {module : String} {queries : List Query}
    (names : (queries.map Query.name).Nodup) :
    queryFiles module queries = moduleFiles module queries := by
  have paths : FileMap.paths (queries.map fun q => (pathIn module (fileName q), queryText q)) =
      queries.map fun q => pathIn module (fileName q) := by
    simp [FileMap.paths]
  have apart : (modulePaths module queries).Nodup := nodup_modulePaths names
  rw [modulePaths, ← paths] at apart
  have files := List.nodup_append.mp apart
  rw [queryFiles, FileMap.union_nil_of_nodup files.1]
  exact FileMap.insert_of_not_mem fun member => files.2.2 _ member _ (List.mem_singleton_self _) rfl

/-! ## The files of migrations -/

def beginsWithDigit (s : String) : Bool :=
  s.toList.head?.any Char.isDigit

theorem beginsWithDigit_append {s : String} (some : s ≠ "") (more : String) :
    beginsWithDigit (s ++ more) = beginsWithDigit s := by
  have nonempty : s.toList ≠ [] := fun none => some (String.toList_eq_nil_iff.mp none)
  rw [beginsWithDigit, beginsWithDigit, String.toList_append, List.head?_append_of_ne_nil _ nonempty]

theorem beginsWithDigit_padLeft (width number : Nat) :
    Text.padLeft width '0' (toString number) ≠ "" ∧
      beginsWithDigit (Text.padLeft width '0' (toString number)) := by
  have spelled : (Text.padLeft width '0' (toString number)).toList =
      List.replicate (width - (toString number).length) '0' ++ Nat.toDigits 10 number := by
    simp [Text.padLeft, String.toList_append]
  have digits : ∀ c ∈ (Text.padLeft width '0' (toString number)).toList, c.isDigit := by
    intro c member
    rw [spelled] at member
    rcases List.mem_append.mp member with zero | digit
    · rw [List.eq_of_mem_replicate zero]
      decide
    · exact Nat.isDigit_of_mem_toDigits (by decide) (by decide) digit
  rw [beginsWithDigit, ne_eq, ← String.toList_eq_nil_iff]
  cases whole : (Text.padLeft width '0' (toString number)).toList with
  | nil =>
      rw [spelled, List.append_eq_nil_iff] at whole
      exact absurd whole.2 Nat.toDigits_ne_nil
  | cons c rest =>
      have digit : c.isDigit := digits c (whole ▸ List.mem_cons_self)
      exact ⟨List.cons_ne_nil c rest, digit⟩

theorem nodup_migrationFiles (scripts : List Migration.Script) :
    (migrationFiles scripts).paths.Nodup :=
  FileMap.nodup_paths_union List.nodup_nil

theorem exists_of_mem_migrationFiles {scripts : List Migration.Script} {path : String}
    (member : path ∈ (migrationFiles scripts).paths) :
    ∃ file, path = pathIn migrationDirectory file ∧ beginsWithDigit file := by
  have numbered (number : Nat) (script : Migration.Script) (ending : String) :
      ∃ file, migrationStem number script ++ ending = pathIn migrationDirectory file ∧
        beginsWithDigit file := by
    obtain ⟨some, digit⟩ := beginsWithDigit_padLeft 4 number
    refine ⟨Text.padLeft 4 '0' (toString number) ++ ("_" ++ script.moduleName ++ ending), ?_, ?_⟩
    · simp [migrationStem, pathIn, String.append_assoc]
    · rw [beginsWithDigit_append some, digit]
  obtain ⟨file, written, rfl⟩ := List.mem_map.mp member
  obtain ⟨⟨script, number⟩, _, either⟩ :=
    List.mem_flatMap.mp (FileMap.mem_of_mem_union_nil written)
  rcases List.mem_cons.mp either with rfl | other
  · exact numbered number script ".up.sql"
  · rw [List.mem_singleton.mp other]
    exact numbered number script ".down.sql"

end TenantSql.Output
