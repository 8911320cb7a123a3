import TenantSql.Proofs.Export.Accounts

/-!
# Exports that keep what is there

An exporter that does not overwrite keeps the files that are there, with two
exceptions. What is behind a path that leads up through a missing directory cannot
be seen until that directory is made, and by then nobody looks again. And the
manifest takes the place of an older one, whatever the exporter was told.
-/

namespace TenantSql.Disk.Tree

variable {t here later : Tree} {p : Path} {place : Place} {content : String}

def IsRooted (t : Tree) : Prop :=
  ∀ front back content, back ≠ [] → t.node? (front ++ back) = some (.file content) →
    t.node? front = some .directory

theorem isRooted_of_ancestors (directories : ∀ entry ∈ t.nodes, entry.2 ≠ .directory →
    ∀ above ∈ ancestors entry.1, t.isDirectory above) : t.IsRooted := by
  intro front back content more there
  rw [node?_of_ne (List.append_ne_nil_of_right_ne_nil front more)] at there
  obtain ⟨before, after, split, -⟩ := List.lookup_eq_some_iff.mp there
  have listed : (front ++ back, Node.file content) ∈ t.nodes := by
    rw [split]
    exact List.mem_append_right _ List.mem_cons_self
  have above : front ∈ ancestors (front ++ back) := by
    refine List.mem_map.mpr ⟨front.length, ?_, List.take_left⟩
    rw [List.mem_range, List.length_append]
    exact Nat.lt_add_of_pos_right (List.length_pos_of_ne_nil more)
  exact isDirectory_iff.mp (directories _ listed nofun front above)

def Keeps (t later : Tree) : Prop :=
  ∀ place node, t.node? place = some node → later.node? place = some node

def KeepsFiles (t later : Tree) : Prop :=
  ∀ place content, t.node? place = some (.file content) →
    later.node? place = some (.file content)

theorem Keeps.files (keeps : t.Keeps later) : t.KeepsFiles later :=
  fun place _ was => keeps place _ was

theorem Keeps.trans (first : t.Keeps here) (second : here.Keeps later) : t.Keeps later :=
  fun place node there => second place node (first place node there)

theorem Widens.keeps (widens : t.Widens later) : t.Keeps later :=
  fun _ _ there => widens.node there

/-- As long as the directories above a file stay, it can be reached by any path that does not lead
up, if it could be reached at all. -/
theorem locate_of_file (rooted : t.IsRooted) (kept : t.Keeps here) (absolute : p.absolute = true)
    (level : Path.up ∉ p.steps) (reached : later.locate p = .ok place)
    (there : t.node? place = some (.file content)) : here.locate p = .ok place := by
  have start (u : Tree) : u.fromRoot p = p := by rw [fromRoot, Path.join, if_pos absolute]
  rw [locate_eq_ok_iff, start] at reached ⊢
  obtain ⟨nameable, short, walked⟩ := reached
  have own : place = p.steps := eq_of_walk level walked
  subst own
  refine ⟨nameable, short, walk_of_directories level (size_le_of_walk walked) ?_⟩
  intro front back split _ more
  exact kept _ _ (rooted front back content more (split ▸ there))

end TenantSql.Disk.Tree

namespace TenantSql.Export.Exporter

open Disk

variable {e next : Exporter} {t here : Tree} {relative content : String}

theorem absolute_pathOf (directory : e.directory.absolute = true) :
    (e.pathOf relative).absolute = true := by
  rw [pathOf, Path.join]
  split
  · assumption
  · exact directory

/-- One turn keeps what was there from the start. If the path leads up, its directory must be there
already. -/
theorem exportFile_keeps (protects : e.overwrite = false) (directory : e.directory.absolute = true)
    (rooted : t.IsRooted) (kept : t.Keeps here)
    (above : Path.up ∈ (e.pathOf relative).steps →
      here.look (e.pathOf relative).parent = .ok (some .directory)) (content : String) :
    t.Keeps (e.exportFile here relative content).1 := by
  rw [exportFile]
  dsimp only
  split
  · exact kept
  · rename_i there seen
    split
    · exact kept
    · rename_i free
      have nothing : there = none := by simpa [protects] using free
      subst nothing
      have written := e.writeFile_written here (e.pathOf relative) content
      generalize e.writeFile here (e.pathOf relative) content = ending at written ⊢
      obtain ⟨last, result⟩ := ending
      cases written with
      | failed failure widens systems => exact kept.trans widens.keeps
      | done made makes widens place reached noDirectory holds agrees =>
          intro other node was
          have still := widens.node (kept other node was)
          by_cases same : other = place
          · subst same
            exfalso
            cases node with
            | directory =>
                rw [Tree.isDirectory, still] at noDirectory
                cases noDirectory
            | file old =>
                -- The file would have been seen before anything was made.
                have before : here.locate (e.pathOf relative) = .ok other := by
                  by_cases leadsUp : Path.up ∈ (e.pathOf relative).steps
                  · rw [Tree.makeDirectories_of_look (above leadsUp)] at makes
                    cases makes
                    exact reached
                  · exact Tree.locate_of_file rooted kept (absolute_pathOf directory) leadsUp
                      reached was
                rw [Tree.look_of_locate before, kept other _ was] at seen
                cases seen
          · rw [agrees.nodes other (mt List.mem_singleton.mp same)]
            exact still

theorem eq_noted_of_exportFile (exported : (e.exportFile t relative content).2 = .ok next) :
    ∃ noting, next = e.noted ⟨t, relative, content⟩ noting := by
  rw [exportFile] at exported
  dsimp only at exported
  split at exported
  · cases exported
  · split at exported
    · cases exported
      exact ⟨.skipped, rfl⟩
    · unfold note at exported
      split at exported
      · cases exported
        exact ⟨.recorded, rfl⟩
      · rename_i failure _
        split at exported
        · cases exported
          exact ⟨.failed failure, rfl⟩
        · cases exported

theorem exportFiles_keeps (protects : e.overwrite = false)
    (directory : e.directory.absolute = true) (rooted : t.IsRooted) (kept : t.Keeps here)
    {files : FileMap} (above : ∀ turn ∈ e.turns here files, Path.up ∈ (e.pathOf turn.path).steps →
      turn.tree.look (e.pathOf turn.path).parent = .ok (some .directory)) :
    t.Keeps (e.exportFiles here files).1 := by
  induction files generalizing e here with
  | nil => exact kept
  | cons file rest induction =>
      obtain ⟨relative, content⟩ := file
      obtain ⟨first, others⟩ := List.forall_mem_cons.mp above
      have keeps := exportFile_keeps protects directory rooted kept first content
      rw [exportFiles_cons]
      split
      · rename_i last next exported
        rw [exported] at keeps others
        obtain ⟨noting, rfl⟩ := eq_noted_of_exportFile (congrArg Prod.snd exported)
        refine induction ?_ ?_ keeps ?_
        · rw [overwrite_noted]
          exact protects
        · cases noting <;> exact directory
        · simpa only [turns_noted, pathOf_noted] using others
      · exact keeps

theorem exists_of_exportFiles {files : FileMap} (exported : (e.exportFiles t files).2 = .ok next) :
    ∃ errors skipped records, next = { e with errors, skipped, records } := by
  induction files generalizing e t with
  | nil =>
      cases exported
      exact ⟨_, _, _, rfl⟩
  | cons file rest induction =>
      rw [exportFiles_cons] at exported
      split at exported
      · rename_i first
        obtain ⟨noting, rfl⟩ := eq_noted_of_exportFile (congrArg Prod.snd first)
        obtain ⟨errors, skipped, records, rfl⟩ := induction exported
        cases noting <;> exact ⟨errors, skipped, records, rfl⟩
      · rename_i unmatched
        generalize e.exportFile t file.1 file.2 = ending at exported unmatched
        obtain ⟨last, result⟩ := ending
        cases exported
        exact absurd rfl (unmatched last next)

/-- The manifest keeps what was there from the start unless it takes the place of another one. -/
theorem exportManifest_keeps_iff (directory : e.directory.IsResolved) (kept : t.Keeps here) :
    t.KeepsFiles (e.exportManifest here).1 ↔
      ∀ done old, (e.exportManifest here).2 = .ok done → e.writesManifest →
        done.warnings = e.warnings → t.node? (e.placeOf manifestName) = some (.file old) →
        old = done.manifest.json (some "  ") := by
  have written := exportManifest_written directory here
  generalize e.exportManifest here = ending at written ⊢
  obtain ⟨last, result⟩ := ending
  cases written with
  | done asked holds elsewhere =>
      constructor
      · intro keeps done old ends _ _ was
        cases ends
        have stays := (keeps _ old was).symm.trans holds
        cases stays
        rfl
      · intro same place content was
        by_cases own : place = e.placeOf manifestName
        · subst own
          rw [same e content rfl asked rfl was]
          exact holds
        · exact Tree.Grown.node (kept _ _ was ▸ elsewhere place own)
  | unasked unasked same =>
      cases same
      exact iff_of_true kept.files fun done old _ asked => absurd asked unasked
  | warned warning widens =>
      refine iff_of_true (kept.trans widens.keeps).files ?_
      intro done old ends _ unwarned
      cases ends
      exact absurd unwarned (by simp)
  | failed failure widens foreign systems =>
      exact iff_of_true (kept.trans widens.keeps).files nofun

/-- An exporter that does not overwrite keeps all files that are there just if no manifest takes the
place of another one, provided that no path leads up through a missing directory. -/
theorem exportAll_keeps_iff {files : FileMap} (protects : e.overwrite = false)
    (directory : e.directory.IsResolved) (rooted : t.IsRooted)
    (above : ∀ turn ∈ e.turns (t.makeDirectories e.directory.steps.length e.directory).1
        (inOrder files),
      Path.up ∈ (e.pathOf turn.path).steps →
        turn.tree.look (e.pathOf turn.path).parent = .ok (some .directory)) :
    t.KeepsFiles (e.exportAll t files).1 ↔
      ∀ done old, (e.exportAll t files).2 = .ok done → e.writesManifest →
        done.warnings = e.warnings → t.node? (e.placeOf manifestName) = some (.file old) →
        old = done.manifest.json (some "  ") := by
  have opened := (t.makeDirectories_widens e.directory.steps.length e.directory).keeps
  have keeps := exportFiles_keeps protects directory.absolute rooted opened above
  rw [exportAll]
  split
  · rename_i here failure unopened
    rw [unopened] at opened
    exact iff_of_true opened.files (by simp)
  · rename_i here opens
    rw [opens] at keeps
    dsimp only at keeps ⊢
    generalize ends : e.exportFiles here (inOrder files) = ending at keeps ⊢
    obtain ⟨last, result⟩ := ending
    cases result with
    | error failure => exact iff_of_true keeps.files (by simp)
    | ok next =>
        obtain ⟨errors, skipped, records, rfl⟩ := exists_of_exportFiles (congrArg Prod.snd ends)
        exact exportManifest_keeps_iff (e := { e with errors, skipped, records }) directory keeps

theorem crowded_isRooted : crowded.IsRooted :=
  Tree.isRooted_of_ancestors (by decide)

theorem shelf_keeps_crowded :
    crowded.KeepsFiles
      (shelf.exportAll crowded [("../shelf/a.sql", "1"), ("c.sql", "3")]).1 := by
  have inTurn : inOrder [("../shelf/a.sql", "1"), ("c.sql", "3")] =
      [("../shelf/a.sql", "1"), ("c.sql", "3")] :=
    List.mergeSort_of_pairwise (by decide +kernel)
  refine (exportAll_keeps_iff rfl shelf_isFresh.isReady.directory crowded_isRooted ?_).mpr ?_
  · rw [inTurn]
    decide +kernel
  · intro _ _ _ _ _ was
    have absent : crowded.node? (shelf.placeOf manifestName) = none := by decide +kernel
    rw [absent] at was
    cases was

-- Once the missing directory is made, the path leads to a file that is there.
example : crowded.node? ["shelf", "a.sql"] = some (.file "0") ∧
    (shelf.exportAll crowded [("x/../a.sql", "1")]).1.node? ["shelf", "a.sql"] =
      some (.file "1") := by
  decide +kernel

def listed : Tree where
  nodes := [(["shelf"], .directory), (["shelf", "manifest.json"], .file "")]

/-- The manifest takes the place of the one that is there. -/
theorem shelf_loses_manifest :
    shelf.overwrite = false ∧ listed.node? (shelf.placeOf manifestName) = some (.file "") ∧
      (shelf.exportAll listed []).1.node? (shelf.placeOf manifestName) ≠ some (.file "") := by
  decide +kernel

end TenantSql.Export.Exporter
