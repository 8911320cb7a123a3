import TenantSql.Proofs.Build.Files
import TenantSql.Proofs.Json.RoundTrip
import TenantSql.Proofs.Text.Distinct

/-!
# Lists of queries without some entries

The list of the queries in a directory is read as what was written, so taking
entries out of it leaves the list that would be written for the other queries.
What is left of a map depends only on which files are dropped: not on the order
of their paths, and not on whether they are dropped at once or one after another.
-/

namespace TenantSql

open Sql

namespace Output

/-! ## The text of a list -/

variable {q : Query} {queries : List Query} {names : List String}

theorem readable_texts (levels : Nat) (texts : List String) :
    Json.Readable (levels + 1) (.list (texts.map .text)) := by
  refine .list fun item member => ?_
  obtain ⟨s, _, rfl⟩ := List.mem_map.mp member
  exact .text levels s

theorem readable_queryEntry (levels : Nat) (q : Query) :
    Json.Readable (levels + 2) (queryEntry q) := by
  refine .record (by simp) ?_
  simp only [List.forall_mem_cons]
  exact ⟨.text _ _, readable_texts _ _, readable_texts _ _, .text _ _, nofun⟩

theorem read_listText (queries : List Query) :
    Json.read (listText (queries.map queryEntry)) = .ok (.list (queries.map queryEntry)) := by
  have blank : (Json.Layout.mk .ascii (some "  ")).IsBlank := by
    rintro _ ⟨⟩
    simp [Json.isSpace]
  have readable : Json.Readable (987 + 3) (.list (queries.map queryEntry)) := by
    refine .list fun entry member => ?_
    obtain ⟨q, _, rfl⟩ := List.mem_map.mp member
    exact readable_queryEntry 987 q
  exact Json.read_print blank readable (by simp [Json.isSpace])

theorem namesOneOf_queryEntry :
    namesOneOf names (queryEntry q) = .ok (names.contains (fileName q)) := by
  have same (name : String) :
      ((Scalar.text (fileName q) == .text name) : Bool) = (fileName q == name) := by
    rw [Bool.eq_iff_iff, beq_iff_eq, beq_iff_eq, Scalar.text.injEq]
  rw [List.contains_eq_any_beq]
  simp [namesOneOf, queryEntry, Value.ofFields, Value.asKey, same, Functor.map, Except.map]

theorem withoutEntries_listText (names : List String) (queries : List Query) :
    withoutEntries names (listText (queries.map queryEntry)) =
      .ok (listText ((queries.filter fun q => !names.contains (fileName q)).map queryEntry)) := by
  have kept : ((queries.map queryEntry).filterM fun entry => (!·) <$> namesOneOf names entry) =
      .ok ((queries.filter fun q => !names.contains (fileName q)).map queryEntry) :=
    Result.filterM_map (fun q => by rw [namesOneOf_queryEntry]; rfl) queries
  rw [withoutEntries, read_listText]
  simp [Except.mapError, Value.parts, kept, Bind.bind, Except.bind, pure, Except.pure]

/-! ## Lists without some entries -/

structure HoldsLists (files : FileMap) : Prop where
  distinct : files.paths.Nodup
  lists : ∀ file ∈ files, ∀ directory, file.1 = pathIn directory listName →
    ∃ queries : List Query, file.2 = listText (queries.map queryEntry)

def remaining (dropped : List (String × String)) (directory : String) (queries : List Query) :
    List Query :=
  queries.filter fun q => !dropped.contains (directory, fileName q)

structure IsPruned (files : FileMap) (dropped : List (String × String)) (kept : FileMap) :
    Prop where
  paths : kept.paths = files.paths
  lists : ∀ directory (queries : List Query),
    files.get? (pathIn directory listName) = some (listText (queries.map queryEntry)) →
      kept.get? (pathIn directory listName) =
        some (listText ((remaining dropped directory queries).map queryEntry))
  others : ∀ path, (∀ directory, path ≠ pathIn directory listName) →
    kept.get? path = files.get? path

variable {dropped again : List (String × String)} {directory : String} {files kept last : FileMap}

theorem remaining_append : remaining (dropped ++ again) directory queries =
    remaining again directory (remaining dropped directory queries) := by
  simp [remaining, List.filter_filter, Bool.and_comm]

theorem remaining_congr (same : ∀ file, file ∈ dropped ↔ file ∈ again) :
    remaining dropped directory queries = remaining again directory queries := by
  refine List.filter_congr fun q _ => ?_
  rw [Bool.eq_iff_iff]
  simp [same]

theorem remaining_of_not_mem (none : ∀ q ∈ queries, (directory, fileName q) ∉ dropped) :
    remaining dropped directory queries = queries := by
  refine List.filter_eq_self.mpr fun q member => ?_
  simp [none q member]

theorem HoldsLists.exists_of_get? (holds : HoldsLists files) {text : String}
    (found : files.get? (pathIn directory listName) = some text) :
    ∃ queries : List Query, text = listText (queries.map queryEntry) :=
  holds.lists _ (FileMap.mem_of_get? found) directory rfl

namespace IsPruned

theorem refl (files : FileMap) : IsPruned files [] files :=
  ⟨rfl, fun directory queries found => by
    rwa [remaining_of_not_mem fun _ _ => List.not_mem_nil], fun _ _ => rfl⟩

theorem congr (pruned : IsPruned files dropped kept)
    (same : ∀ file, file ∈ dropped ↔ file ∈ again) : IsPruned files again kept :=
  ⟨pruned.paths, fun directory queries found => by
    rw [← remaining_congr same]
    exact pruned.lists directory queries found, pruned.others⟩

theorem trans (pruned : IsPruned files dropped kept) (more : IsPruned kept again last) :
    IsPruned files (dropped ++ again) last where
  paths := more.paths.trans pruned.paths
  lists directory queries found := by
    rw [remaining_append]
    exact more.lists directory _ (pruned.lists directory queries found)
  others path other := (more.others path other).trans (pruned.others path other)

theorem get?_eq_none (pruned : IsPruned files dropped kept) {path : String}
    (absent : files.get? path = none) : kept.get? path = none := by
  rw [FileMap.get?_eq_none_iff] at absent ⊢
  rwa [pruned.paths]

theorem holdsLists (pruned : IsPruned files dropped kept) (holds : HoldsLists files) :
    HoldsLists kept where
  distinct := pruned.paths ▸ holds.distinct
  lists := by
    rintro ⟨_, text⟩ member directory rfl
    have found := FileMap.get?_of_mem (pruned.paths ▸ holds.distinct) member
    cases before : files.get? (pathIn directory listName) with
    | none =>
        rw [pruned.get?_eq_none before] at found
        cases found
    | some old =>
        obtain ⟨queries, rfl⟩ := holds.exists_of_get? before
        rw [pruned.lists directory queries before, Option.some.injEq] at found
        exact ⟨_, found.symm⟩

/-- What is dropped determines the map that is left. -/
theorem unique (holds : HoldsLists files) (pruned : IsPruned files dropped kept)
    (other : IsPruned files dropped last) : kept = last := by
  refine FileMap.eq_of_get?_eq (other.paths ▸ holds.distinct)
    (pruned.paths.trans other.paths.symm) fun path => ?_
  by_cases list : ∃ directory, path = pathIn directory listName
  · obtain ⟨directory, rfl⟩ := list
    cases before : files.get? (pathIn directory listName) with
    | none => rw [pruned.get?_eq_none before, other.get?_eq_none before]
    | some old =>
        obtain ⟨queries, rfl⟩ := holds.exists_of_get? before
        rw [pruned.lists directory queries before, other.lists directory queries before]
  · have noList : ∀ directory, path ≠ pathIn directory listName :=
      fun directory same => list ⟨directory, same⟩
    rw [pruned.others path noList, other.others path noList]

end IsPruned

/-! ## Dropping entries -/

theorem pathIn_listName_inj {other : String} :
    pathIn directory listName = pathIn other listName ↔ directory = other := by
  rw [← String.toList_inj, ← String.toList_inj]
  simp [pathIn, String.toList_append]

theorem remaining_filter : remaining (dropped.filter (·.1 == directory)) directory queries =
    queries.filter fun q =>
      !((dropped.filter (·.1 == directory)).map (·.2)).contains (fileName q) := by
  refine List.filter_congr fun q _ => ?_
  rw [Bool.eq_iff_iff]
  simp

theorem remaining_filter_of_ne {other : String} (different : other ≠ directory) :
    remaining (dropped.filter (·.1 == directory)) other queries = queries := by
  refine remaining_of_not_mem fun q _ member => different ?_
  exact beq_iff_eq.mp (List.mem_filter.mp member).2

/-- The step for one directory takes the dropped entries out of the list of that directory. -/
theorem exists_dropFromDirectory (dropped : List (String × String)) (holds : HoldsLists files)
    (directory : String) :
    ∃ kept, dropFromDirectory dropped files directory = .ok kept ∧
      IsPruned files (dropped.filter (·.1 == directory)) kept := by
  cases here : files.get? (pathIn directory listName) with
  | none =>
      refine ⟨files, by rw [dropFromDirectory, here], rfl, fun other queries found => ?_,
        fun _ _ => rfl⟩
      have different : other ≠ directory := by
        rintro rfl
        cases here.symm.trans found
      rwa [remaining_filter_of_ne different]
  | some text =>
      obtain ⟨queries, rfl⟩ := holds.exists_of_get? here
      have stepped : dropFromDirectory dropped files directory =
          .ok (files.insert (pathIn directory listName) (listText ((remaining
            (dropped.filter (·.1 == directory)) directory queries).map queryEntry))) := by
        rw [dropFromDirectory, here, remaining_filter]
        simp only [withoutEntries_listText]
        rfl
      refine ⟨_, stepped, FileMap.paths_insert_of_mem (FileMap.mem_paths_of_get? here) _, ?_, ?_⟩
      · intro other others found
        rw [FileMap.get?_insert]
        by_cases same : other = directory
        · subst same
          have texts := Option.some.inj (here.symm.trans found)
          have lists := withoutEntries_listText
            ((dropped.filter (·.1 == other)).map (·.2)) queries
          rw [texts, withoutEntries_listText, ← remaining_filter, ← remaining_filter,
            Except.ok.injEq] at lists
          rw [if_pos rfl, lists]
        · rw [if_neg (pathIn_listName_inj.not.mpr same), remaining_filter_of_ne same, found]
      · intro path other
        rw [FileMap.get?_insert, if_neg (other directory)]

theorem exists_dropFromDirectories (dropped : List (String × String)) (directories : List String) :
    ∀ {files : FileMap}, HoldsLists files →
      ∃ kept, directories.foldlM (dropFromDirectory dropped) files = .ok kept ∧
        IsPruned files (directories.flatMap fun directory => dropped.filter (·.1 == directory))
          kept := by
  induction directories with
  | nil => exact fun {files} _ => ⟨files, rfl, .refl files⟩
  | cons directory rest induction =>
      intro files holds
      obtain ⟨next, stepped, pruned⟩ := exists_dropFromDirectory dropped holds directory
      obtain ⟨kept, later, more⟩ := induction (pruned.holdsLists holds)
      exact ⟨kept, by rw [List.foldlM_cons, stepped]; exact later, pruned.trans more⟩

/-- Entries can always be dropped, and what is left does not depend on the order of the paths. -/
theorem exists_dropEntries (holds : HoldsLists files) (paths : List String) :
    ∃ kept, dropEntries files paths = .ok kept ∧ IsPruned files (paths.map splitPath) kept := by
  obtain ⟨kept, done, pruned⟩ := exists_dropFromDirectories (paths.map splitPath)
    (Text.distinct ((paths.map splitPath).map (·.1))) holds
  refine ⟨kept, done, pruned.congr fun file => ?_⟩
  simp only [List.mem_flatMap, Text.mem_distinct, List.mem_filter, beq_iff_eq]
  constructor
  · rintro ⟨directory, _, member, _⟩
    exact member
  · exact fun member => ⟨file.1, List.mem_map_of_mem member, member, rfl⟩

theorem dropEntries_eq_ok_iff (holds : HoldsLists files) {paths : List String} :
    dropEntries files paths = .ok kept ↔ IsPruned files (paths.map splitPath) kept := by
  obtain ⟨other, done, pruned⟩ := exists_dropEntries holds paths
  rw [done, Except.ok.injEq]
  exact ⟨fun same => same ▸ pruned, fun here => pruned.unique holds here⟩

/-- Entries are dropped in one step or in several and in any order, with the same result. -/
structure PrunesTogether (files : FileMap) : Prop where
  succeeds : ∀ paths, ∃ kept, dropEntries files paths = .ok kept
  nothing : dropEntries files [] = .ok files
  append : ∀ front back, (dropEntries files front >>= (dropEntries · back)) =
    dropEntries files (front ++ back)
  comm : ∀ front back, dropEntries files (front ++ back) = dropEntries files (back ++ front)

theorem HoldsLists.prunesTogether (holds : HoldsLists files) : PrunesTogether files where
  succeeds paths := (exists_dropEntries holds paths).imp fun _ both => both.1
  nothing := (dropEntries_eq_ok_iff holds).mpr (.refl files)
  append front back := by
    obtain ⟨middle, first, pruned⟩ := exists_dropEntries holds front
    obtain ⟨kept, second, more⟩ := exists_dropEntries (pruned.holdsLists holds) back
    have whole : dropEntries files (front ++ back) = .ok kept := by
      rw [dropEntries_eq_ok_iff holds, List.map_append]
      exact pruned.trans more
    rw [first, whole]
    exact second
  comm front back := by
    obtain ⟨kept, done, pruned⟩ := exists_dropEntries holds (front ++ back)
    rw [done, eq_comm, dropEntries_eq_ok_iff holds]
    refine pruned.congr fun file => ?_
    rw [List.map_append, List.map_append, List.mem_append, List.mem_append, or_comm]

/-! ## Files that are written -/

theorem mem_queryFiles {module : String} {file : String × String}
    (member : file ∈ queryFiles module queries) :
    (∃ q ∈ queries, file = (pathIn module (fileName q), queryText q)) ∨
      file = (pathIn module listName, listText (queries.map queryEntry)) := by
  rcases FileMap.mem_insert member with query | list
  · obtain ⟨q, listed, rfl⟩ := List.mem_map.mp (FileMap.mem_of_mem_union_nil query)
    exact .inl ⟨q, listed, rfl⟩
  · exact .inr list

theorem ne_listPath_of_sql (front : String) (directory : String) :
    front ++ ".sql" ≠ pathIn directory listName := by
  intro same
  have last := congrArg (fun path : String => path.toList.getLast?) same
  simp [pathIn, listName, String.toList_append] at last

theorem queryPath_ne_listPath (module : String) (q : Query) (directory : String) :
    pathIn module (fileName q) ≠ pathIn directory listName := by
  have spelled : pathIn module (fileName q) = (module ++ "/" ++ q.name) ++ ".sql" := by
    simp [pathIn, fileName, String.append_assoc]
  rw [spelled]
  exact ne_listPath_of_sql _ directory

theorem mem_migrationFiles {scripts : List Migration.Script} {file : String × String}
    (member : file ∈ migrationFiles scripts) : ∃ front, file.1 = front ++ ".sql" := by
  obtain ⟨⟨script, number⟩, _, either⟩ :=
    List.mem_flatMap.mp (FileMap.mem_of_mem_union_nil member)
  rcases List.mem_cons.mp either with rfl | down
  · exact ⟨migrationStem number script ++ ".up", by simp [String.append_assoc]⟩
  · rw [List.mem_singleton.mp down]
    exact ⟨migrationStem number script ++ ".down", by simp [String.append_assoc]⟩

end Output

namespace Build

open Output

theorem mem_joined {modules : Generation.ByModule} {migrations : FileMap} {file : String × String}
    (member : file ∈ joined modules migrations) :
    (∃ entry ∈ modules, file ∈ queryFiles entry.1 entry.2) ∨ file ∈ migrations :=
  (FileMap.mem_union member).imp_left fun query =>
    List.mem_flatMap.mp (FileMap.mem_of_mem_union_nil query)

theorem holdsLists_joined (modules : Generation.ByModule) (scripts : List Migration.Script) :
    HoldsLists (joined modules (Output.migrationFiles scripts)) where
  distinct := FileMap.nodup_paths_union (FileMap.nodup_paths_union List.nodup_nil)
  lists file member directory path := by
    rcases mem_joined member with ⟨entry, _, among⟩ | migration
    · rcases mem_queryFiles among with ⟨q, _, rfl⟩ | rfl
      · exact absurd path (queryPath_ne_listPath entry.1 q directory)
      · exact ⟨entry.2, rfl⟩
    · obtain ⟨front, spelled⟩ := mem_migrationFiles migration
      exact absurd (spelled.symm.trans path) (ne_listPath_of_sql front directory)

theorem joined_single (module : String) (queries : List Query) :
    joined [(module, queries)] [] = queryFiles module queries := by
  rw [joined, List.flatMap_singleton]
  exact FileMap.union_nil_of_nodup
    (FileMap.nodup_paths_insert (FileMap.nodup_paths_union List.nodup_nil))

/-- The list of queries in the files of a module is read as what the queries are, in their order;
and out of the files of a module, or of several with migrations, entries can be dropped in one step
or in several and in any order. -/
theorem queryFiles_faithful (module : String) (queries : List Query) :
    (∃ text, (queryFiles module queries).get? (pathIn module listName) = some text ∧
      Json.read text = .ok (.list (queries.map fun q => .ofFields [
        ("operation_name", .text q.name),
        ("bindings", .list (q.bindings.map .text)),
        ("field_bindings", .list (q.fieldBindings.map .text)),
        ("file", .text (q.name ++ ".sql"))]))) ∧
      PrunesTogether (queryFiles module queries) ∧
      ∀ modules scripts, PrunesTogether (joined modules (Output.migrationFiles scripts)) := by
  refine ⟨⟨listText (queries.map queryEntry), ?_, read_listText queries⟩, ?_, fun modules scripts =>
    (holdsLists_joined modules scripts).prunesTogether⟩
  · rw [queryFiles, FileMap.get?_insert, if_pos rfl]
  · rw [← joined_single]
    exact (holdsLists_joined _ []).prunesTogether

end Build

end TenantSql
