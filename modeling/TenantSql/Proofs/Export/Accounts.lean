import Mathlib.Data.List.Induction
import TenantSql.Export.Exporter
import TenantSql.Proofs.Disk.Writing
import TenantSql.Proofs.Output.FileMap

/-!
# Exports account for every file

Whatever the disk refuses, every file of an export is recorded, skipped or failed, in
the order of the paths. A recorded file holds its content; any other path is as it
was before, and no temporary file is left. Only a name that is too long for the
system ends an export early, for it is noticed before the attempt to write begins.
-/

namespace TenantSql.Disk

/-! ## Resolved paths -/

namespace Path

/-- The path starts at the root, leads up nowhere and can be named. -/
structure IsResolved (p : Path) : Prop where
  absolute : p.absolute = true
  level : up ∉ p.steps
  nameable : p.isUnnameable = false

theorem nameable_iff {p : Path} :
    p.isUnnameable = false ↔ ∀ step ∈ p.steps, '\x00' ∉ step.toList := by
  simp [isUnnameable]

theorem climb_append_singleton (steps : List String) (step : String) :
    climb (steps ++ [step]) =
      if step == up then (climb steps).dropLast else climb steps ++ [step] :=
  List.foldl_append

theorem up_notMem_climb (steps : List String) : up ∉ climb steps := by
  induction steps using List.reverseRecOn with
  | nil => exact List.not_mem_nil
  | append_singleton steps step induction =>
      rw [climb_append_singleton]
      split
      · exact fun member => induction (List.dropLast_subset _ member)
      · rename_i other
        rw [List.mem_append, List.mem_singleton, not_or]
        exact ⟨induction, fun same => other (beq_iff_eq.mpr same.symm)⟩

theorem climb_subset (steps : List String) : climb steps ⊆ steps := by
  induction steps using List.reverseRecOn with
  | nil => exact fun _ member => member
  | append_singleton steps step induction =>
      rw [climb_append_singleton]
      split
      · exact fun _ member =>
          List.mem_append_left _ (induction (List.dropLast_subset _ member))
      · exact List.append_subset.mpr
          ⟨fun _ member => List.mem_append_left _ (induction member), List.subset_append_right _ _⟩

theorem isResolved_of_resolve {p working resolved : Path} (known : working.isUnnameable = false)
    (resolves : p.resolve working = .ok resolved) : resolved.IsResolved := by
  rw [resolve] at resolves
  split at resolves
  · cases resolves
  · rename_i nameable
    cases resolves
    refine ⟨rfl, up_notMem_climb _, nameable_iff.mpr fun step member => ?_⟩
    have source := climb_subset _ member
    have own := nameable_iff.mp (eq_false_of_ne_true nameable)
    rw [join] at source
    split at source
    · exact own step source
    · rcases List.mem_append.mp source with first | second
      · exact nameable_iff.mp known step first
      · exact own step second

theorem pieces_of_slashless {chars : List Char} (slashless : '/' ∉ chars) :
    pieces chars = [chars] := by
  induction chars with
  | nil => rfl
  | cons first rest induction =>
      rw [List.mem_cons, not_or] at slashless
      rw [pieces, induction slashless.2]
      exact fun same => slashless.1 same.symm

theorem ofText_of_slashless {name : String} (slashless : '/' ∉ name.toList) (named : name ≠ "")
    (noPoint : name ≠ ".") : ofText name = ⟨false, [name]⟩ := by
  have rootless : (name.toList.head? == some '/') = false := by
    refine beq_false_of_ne fun first => slashless ?_
    exact List.mem_of_mem_head? first
  rw [ofText, rootless, pieces_of_slashless slashless]
  simp [named, noPoint]

end Path

/-! ## Names that are too long -/

namespace Tree

variable {t : Tree} {p : Path} {place : Place}

theorem fromRoot_of_resolved (resolved : p.IsResolved) : t.fromRoot p = p := by
  rw [fromRoot, Path.join, if_pos resolved.absolute]

inductive MeetsLongName (t : Tree) : Place → List String → Prop
  | here {place : Place} {name : String} {rest : List String}
      (long : maxNameBytes < name.utf8ByteSize) : MeetsLongName t place (name :: rest)
  | behind {place : Place} {step : String} {rest : List String}
      (there : t.node? (place ++ [step]) = some .directory)
      (further : MeetsLongName t (place ++ [step]) rest) : MeetsLongName t place (step :: rest)

theorem meetsLongName_cons_iff {name : String} {rest : List String} :
    t.MeetsLongName place (name :: rest) ↔ maxNameBytes < name.utf8ByteSize ∨
      t.node? (place ++ [name]) = some .directory ∧ t.MeetsLongName (place ++ [name]) rest := by
  constructor
  · rintro (here | ⟨there, further⟩)
    · exact .inl here
    · exact .inr ⟨there, further⟩
  · rintro (here | ⟨there, further⟩)
    · exact .here here
    · exact .behind there further

instance decidableMeetsLongName (t : Tree) :
    (place : Place) → (steps : List String) → Decidable (t.MeetsLongName place steps)
  | _, [] => isFalse nofun
  | place, name :: rest =>
      have := decidableMeetsLongName t (place ++ [name]) rest
      decidable_of_iff' _ meetsLongName_cons_iff

theorem walk_eq_nameTooLong_iff {steps : List String} (level : Path.up ∉ steps) :
    t.walk place steps = .error .nameTooLong ↔ t.MeetsLongName place steps := by
  induction steps generalizing place with
  | nil =>
      refine iff_of_false (by simp [walk]) fun meets => ?_
      cases meets
  | cons step rest induction =>
      rw [List.mem_cons, not_or] at level
      rw [walk, beq_false_of_ne (Ne.symm level.1), if_neg Bool.false_ne_true,
        meetsLongName_cons_iff]
      by_cases long : maxNameBytes < step.utf8ByteSize
      · rw [if_pos long]
        exact iff_of_true rfl (.inl long)
      · rw [if_neg long, or_iff_right long]
        dsimp only
        split
        · rename_i last
          rw [List.isEmpty_iff.mp last]
          refine iff_of_false (by simp) ?_
          rintro ⟨_, further⟩
          cases further
        · split
          · rename_i there
            rw [induction level.2, there]
            exact (and_iff_right rfl).symm
          · rename_i file
            refine iff_of_false (by simp) ?_
            rintro ⟨there, _⟩
            rw [there] at file
            cases file
          · rename_i absent
            refine iff_of_false (by simp) ?_
            rintro ⟨there, _⟩
            rw [there] at absent
            cases absent

/-- The path is longer than the system takes, or a name on its way is. -/
def IsTooLong (t : Tree) (p : Path) : Prop :=
  pathBytesLimit ≤ p.text.utf8ByteSize ∨ t.MeetsLongName [] p.steps

instance (t : Tree) (p : Path) : Decidable (t.IsTooLong p) :=
  inferInstanceAs (Decidable (_ ∨ _))

theorem locate_eq_nameTooLong_iff (resolved : p.IsResolved) :
    t.locate p = .error .nameTooLong ↔ t.IsTooLong p := by
  rw [locate, fromRoot_of_resolved resolved, resolved.nameable, if_neg Bool.false_ne_true,
    IsTooLong, ← walk_eq_nameTooLong_iff resolved.level]
  by_cases long : pathBytesLimit ≤ p.text.utf8ByteSize <;> simp [long]

theorem exists_look_iff (resolved : p.IsResolved) :
    (∃ there, t.look p = .ok there) ↔ ¬t.IsTooLong p := by
  rw [← locate_eq_nameTooLong_iff resolved, look]
  split
  · rename_i reached
    exact iff_of_true ⟨_, rfl⟩ (by simp [reached])
  · rename_i blocked
    exact iff_of_false (by simp) (not_not_intro blocked)
  · rename_i cause different blocked
    refine iff_of_true ⟨_, rfl⟩ ?_
    rw [blocked]
    exact fun same => different (Except.error.inj same)

end Tree

end TenantSql.Disk

namespace TenantSql.Export

open Disk

namespace Exporter

variable {e : Exporter} {t later : Tree} {path : Path} {content : String}

/-! ## Writing one file -/

theorem nameable_temporaryName (token : '\x00' ∉ e.token.toList) {name : String}
    (nameable : '\x00' ∉ name.toList) : '\x00' ∉ (e.temporaryName name).toList := by
  simp [temporaryName, token, nameable]

theorem nameable_name (nameable : path.isUnnameable = false) : '\x00' ∉ path.name.toList := by
  rw [Path.name]
  cases last : path.steps.getLast? with
  | none => exact List.not_mem_nil
  | some name => exact Path.nameable_iff.mp nameable name (List.mem_of_getLast? last)

theorem nameable_besides (resolved : path.IsResolved) (token : '\x00' ∉ e.token.toList) :
    (t.fromRoot (t.besides path (e.temporaryName path.name))).isUnnameable = false := by
  rw [Tree.fromRoot, Path.join, Tree.besides, if_pos rfl, Tree.fromRoot_of_resolved resolved,
    Path.nameable_iff]
  intro step member
  rcases List.mem_append.mp member with above | last
  · have inPath := List.dropLast_subset _ (Path.climb_subset _ above)
    exact Path.nameable_iff.mp resolved.nameable step inPath
  · rw [List.mem_singleton.mp last]
    exact nameable_temporaryName token (nameable_name resolved.nameable)

/-- What became of a file that was to be written: its directories were made and its place holds the
content, or at most directories were made. -/
inductive Written (e : Exporter) (t later : Tree) (path : Path) (content : String) :
    Except Failure Unit → Prop
  | done (here : Tree)
      (made : t.makeDirectories path.parent.steps.length path.parent = (here, .ok ()))
      (widens : t.Widens here) (place : Place) (reached : here.locate path = .ok place)
      (noDirectory : here.isDirectory place = false)
      (holds : later.node? place = some (.file content))
      (agrees : here.AgreesExcept [place] later) : Written e t later path content (.ok ())
  | failed (failure : Failure) (widens : t.Widens later)
      (systems : t.RefusesAsSystem → path.IsResolved → '\x00' ∉ e.token.toList →
        failure.cause.isSystems) : Written e t later path content (.error failure)

theorem writeFile_written (e : Exporter) (t : Tree) (path : Path) (content : String) :
    e.Written t (e.writeFile t path content).1 path content (e.writeFile t path content).2 := by
  have widens := t.makeDirectories_widens path.parent.steps.length path.parent
  rw [writeFile]
  split
  · rename_i here made
    rw [made] at widens
    have replaced := here.replaceFile_replaced path (e.temporaryName path.name) content
    generalize here.replaceFile path (e.temporaryName path.name) content = ending at replaced ⊢
    obtain ⟨last, result⟩ := ending
    cases replaced with
    | done place reached noDirectory holds agrees =>
        exact .done here made widens place reached noDirectory holds agrees
    | failed failure agrees systems =>
        refine .failed failure (widens.trans agrees.widens) fun refuses resolved token => ?_
        have nameable : (here.fromRoot path).isUnnameable = false := by
          rw [Tree.fromRoot_of_resolved resolved]
          exact resolved.nameable
        exact systems (refuses.congr widens.refuses) nameable (nameable_besides resolved token)
  · rename_i unmade
    generalize ends : t.makeDirectories path.parent.steps.length path.parent = ending
      at widens unmade ⊢
    obtain ⟨last, result⟩ := ending
    cases result with
    | ok => exact absurd rfl (unmade last)
    | error failure =>
        refine .failed failure widens fun refuses resolved _ => ?_
        refine Tree.isSystems_of_makeDirectories refuses ?_ (congrArg Prod.snd ends)
        apply Tree.nameable_parent
        rw [Tree.fromRoot_of_resolved resolved]
        exact resolved.nameable

theorem place_of_locate (resolved : path.IsResolved) {place : Place}
    (reached : t.locate path = .ok place) : place = path.steps := by
  have walked := (Tree.locate_eq_ok_iff.mp reached).2.2
  rw [Tree.fromRoot_of_resolved resolved] at walked
  exact Tree.eq_of_walk resolved.level walked

/-- The place of a file that was written holds its content, and anywhere else there may be new
directories only. -/
theorem Written.changes (written : e.Written t later path content (.ok ()))
    (resolved : path.IsResolved) :
    later.working = t.working ∧ later.refuses = t.refuses ∧
      later.node? path.steps = some (.file content) ∧
      ∀ place ≠ path.steps, Tree.Grown (t.node? place) (later.node? place) := by
  cases written with
  | done here made widens place reached noDirectory holds agrees =>
      have own : place = path.steps := place_of_locate resolved reached
      subst own
      refine ⟨agrees.working.trans widens.working, agrees.refuses.trans widens.refuses, holds, ?_⟩
      intro other away
      rw [agrees.nodes other (mt List.mem_singleton.mp away)]
      exact widens.nodes other

theorem Written.refused {failure : Failure}
    (written : e.Written t later path content (.error failure)) :
    t.Widens later ∧ (t.RefusesAsSystem → path.IsResolved → '\x00' ∉ e.token.toList →
      failure.cause.isSystems) := by
  cases written with
  | failed _ widens systems => exact ⟨widens, systems⟩

/-! ## Places of files -/

/-- The text is a path relative to a directory, written without empty steps, points or steps that
lead up. -/
structure IsPlain (relative : String) : Prop where
  written : (Path.ofText relative).text = relative
  rootless : (Path.ofText relative).absolute = false
  level : Path.up ∉ (Path.ofText relative).steps
  nameable : (Path.ofText relative).isUnnameable = false

instance (relative : String) : Decidable (IsPlain relative) :=
  decidable_of_iff ((Path.ofText relative).text = relative ∧
      (Path.ofText relative).absolute = false ∧ Path.up ∉ (Path.ofText relative).steps ∧
      (Path.ofText relative).isUnnameable = false)
    ⟨fun ⟨written, rootless, level, nameable⟩ => ⟨written, rootless, level, nameable⟩,
      fun plain => ⟨plain.written, plain.rootless, plain.level, plain.nameable⟩⟩

theorem isPlain_of_slashless {name : String} (slashless : '/' ∉ name.toList)
    (nameable : '\x00' ∉ name.toList) (named : name ∉ ["", ".", Path.up]) : IsPlain name := by
  simp only [List.mem_cons, List.not_mem_nil, or_false, not_or] at named
  have single := Path.ofText_of_slashless slashless named.1 named.2.1
  refine ⟨?_, ?_, ?_, ?_⟩
  · rw [single, Path.text]
    simp [named.1]
  · rw [single]
  · rw [single]
    exact fun member => named.2.2 (List.mem_singleton.mp member).symm
  · rw [single, Path.nameable_iff]
    exact List.forall_mem_singleton.mpr nameable

def placeOf (e : Exporter) (relative : String) : Place :=
  (e.pathOf relative).steps

theorem pathOf_of_plain {relative : String} (plain : IsPlain relative) :
    e.pathOf relative =
      { e.directory with steps := e.directory.steps ++ (Path.ofText relative).steps } := by
  rw [pathOf, Path.join, if_neg (by rw [plain.rootless]; exact Bool.false_ne_true)]

theorem isResolved_pathOf (resolved : e.directory.IsResolved) {relative : String}
    (plain : IsPlain relative) : (e.pathOf relative).IsResolved := by
  rw [pathOf_of_plain plain]
  refine ⟨resolved.absolute, ?_, Path.nameable_iff.mpr fun step member => ?_⟩
  · exact fun member => (List.mem_append.mp member).elim resolved.level plain.level
  · rcases List.mem_append.mp member with above | own
    · exact Path.nameable_iff.mp resolved.nameable step above
    · exact Path.nameable_iff.mp plain.nameable step own

/-- Different plain paths have different places. -/
theorem placeOf_inj {first second : String} (plain : IsPlain first) (plainToo : IsPlain second)
    (same : e.placeOf first = e.placeOf second) : first = second := by
  rw [placeOf, placeOf, pathOf_of_plain plain, pathOf_of_plain plainToo] at same
  have steps : (Path.ofText first).steps = (Path.ofText second).steps :=
    List.append_cancel_left same
  have paths : Path.ofText first = Path.ofText second := by
    rw [Disk.Path.mk.injEq]
    exact ⟨plain.rootless.trans plainToo.rootless.symm, steps⟩
  rw [← plain.written, paths, plainToo.written]

structure IsReady (e : Exporter) : Prop where
  directory : e.directory.IsResolved
  token : '\x00' ∉ e.token.toList

/-! ## Turns -/

inductive Outcome where
  | recorded
  | skipped
  | failed (failure : Failure)
  deriving DecidableEq

structure Turn where
  tree : Tree
  path : String
  content : String

def turns (e : Exporter) (t : Tree) : List (String × String) → List Turn
  | [] => []
  | (path, content) :: rest => ⟨t, path, content⟩ :: e.turns (e.exportFile t path content).1 rest

/-- What becomes of a file: where something is that must stay it is skipped, else it is attempted to
write it. -/
def outcome (e : Exporter) (turn : Turn) : Outcome :=
  if turn.tree.look (e.pathOf turn.path) matches .ok (some _) && !e.overwrite then .skipped
  else
    match (e.writeFile turn.tree (e.pathOf turn.path) turn.content).2 with
    | .ok () => .recorded
    | .error failure => .failed failure

def noted (e : Exporter) (turn : Turn) (outcome : Outcome) : Exporter :=
  match outcome with
  | .recorded => { e with records := e.records ++ [FileRecord.ofContent turn.path turn.content] }
  | .skipped => { e with skipped := e.skipped ++ [turn.path] }
  | .failed failure => { e with errors := e.errors ++ [failureMessage turn.path failure] }

section

variable {turn : Turn} {noting : Outcome}

theorem pathOf_noted (path : String) : (e.noted turn noting).pathOf path = e.pathOf path := by
  cases noting <;> rfl

theorem IsReady.noted (ready : e.IsReady) : (e.noted turn noting).IsReady := by
  cases noting <;> exact ⟨ready.directory, ready.token⟩

theorem overwrite_noted : (e.noted turn noting).overwrite = e.overwrite := by
  cases noting <;> rfl

theorem writeFile_noted : (e.noted turn noting).writeFile t = e.writeFile t := by
  cases noting <;> rfl

theorem exportFile_noted (path content : String) :
    ((e.noted turn noting).exportFile t path content).1 = (e.exportFile t path content).1 := by
  rw [exportFile, exportFile, pathOf_noted, overwrite_noted, writeFile_noted]
  split
  · rfl
  · split
    · rfl
    · rfl

theorem turns_noted (files : List (String × String)) :
    (e.noted turn noting).turns t files = e.turns t files := by
  induction files generalizing t with
  | nil => rfl
  | cons file rest induction => rw [turns, turns, exportFile_noted, induction]

theorem short_noted_iff {files : List (String × String)} :
    (∀ other ∈ (e.noted turn noting).turns t files,
      ¬other.tree.IsTooLong ((e.noted turn noting).pathOf other.path)) ↔
      ∀ other ∈ e.turns t files, ¬other.tree.IsTooLong (e.pathOf other.path) := by
  simp only [turns_noted, pathOf_noted]

theorem outcome_noted (other : Turn) : (e.noted turn noting).outcome other = e.outcome other := by
  rw [outcome, outcome, pathOf_noted, overwrite_noted, writeFile_noted]

end

structure Leaves (e : Exporter) (t last : Tree) (turns : List Turn) : Prop where
  working : last.working = t.working
  refuses : last.refuses = t.refuses
  elsewhere : ∀ place, (∀ turn ∈ turns, e.outcome turn = .recorded → place ≠ e.placeOf turn.path) →
    Tree.Grown (t.node? place) (last.node? place)
  holds : ∀ turn ∈ turns, e.outcome turn = .recorded →
    last.node? (e.placeOf turn.path) = some (.file turn.content)

theorem Leaves.nil (t : Tree) : e.Leaves t t [] :=
  ⟨rfl, rfl, fun _ _ => .inl rfl, nofun⟩

theorem Leaves.cons {last : Tree} {turn : Turn} {rest : List Turn}
    (first : e.Leaves t later [turn]) (others : e.Leaves later last rest)
    (apart : ∀ other ∈ rest, e.placeOf turn.path ≠ e.placeOf other.path) :
    e.Leaves t last (turn :: rest) := by
  refine ⟨others.working.trans first.working, others.refuses.trans first.refuses, ?_, ?_⟩
  · intro place away
    obtain ⟨here, below⟩ := List.forall_mem_cons.mp away
    have early := first.elsewhere place (List.forall_mem_singleton.mpr here)
    exact early.trans (others.elsewhere place below)
  · intro other member recorded
    rcases List.mem_cons.mp member with rfl | below
    · have held := first.holds other List.mem_cons_self recorded
      have kept := others.elsewhere _ fun next among _ => apart next among
      exact Tree.Grown.node (held ▸ kept)
    · exact others.holds other below recorded

theorem outcome_of_look (e : Exporter) (turn : Turn) {there : Option Node}
    (seen : turn.tree.look (e.pathOf turn.path) = .ok there) :
    e.outcome turn =
      if there.isSome && !e.overwrite then .skipped
      else
        match (e.writeFile turn.tree (e.pathOf turn.path) turn.content).2 with
        | .ok () => .recorded
        | .error failure => .failed failure := by
  rw [outcome, seen]
  cases there <;> rfl

/-- One turn, where it can be told whether something is at the path. -/
theorem exportFile_spec (ready : e.IsReady)
    (refuses : t.RefusesAsSystem) {relative : String} (plain : IsPlain relative)
    (short : ¬t.IsTooLong (e.pathOf relative)) (content : String) :
    ∃ last, e.exportFile t relative content =
        (last, .ok (e.noted ⟨t, relative, content⟩ (e.outcome ⟨t, relative, content⟩))) ∧
      e.Leaves t last [⟨t, relative, content⟩] := by
  have resolvedPath := isResolved_pathOf ready.directory plain
  obtain ⟨there, seen⟩ := (Tree.exists_look_iff resolvedPath).mpr short
  have becomes := e.outcome_of_look ⟨t, relative, content⟩ seen
  rw [exportFile, seen]
  dsimp only at becomes ⊢
  by_cases stays : (there.isSome && !e.overwrite) = true
  · rw [if_pos stays] at becomes ⊢
    refine ⟨t, by rw [becomes]; rfl, rfl, rfl, fun _ _ => .inl rfl, ?_⟩
    rw [List.forall_mem_singleton, becomes]
    exact nofun
  · rw [if_neg stays] at becomes ⊢
    have written := e.writeFile_written t (e.pathOf relative) content
    generalize e.writeFile t (e.pathOf relative) content = ending at becomes written ⊢
    obtain ⟨last, result⟩ := ending
    cases result with
    | ok =>
        obtain ⟨working, sameRefusals, holds, elsewhere⟩ := written.changes resolvedPath
        refine ⟨last, by rw [becomes]; rfl, working, sameRefusals, fun other away => ?_, ?_⟩
        · exact elsewhere other (List.forall_mem_singleton.mp away becomes)
        · exact List.forall_mem_singleton.mpr fun _ => holds
    | error failure =>
        obtain ⟨widens, systems⟩ := written.refused
        have isSystems := systems refuses resolvedPath ready.token
        refine ⟨last, ?_, widens.working, widens.refuses, fun other _ => widens.nodes other, ?_⟩
        · rw [becomes, note, if_pos isSystems]
          rfl
        · rw [List.forall_mem_singleton, becomes]
          exact nofun

/-! ## Runs -/

def tally (e : Exporter) (turns : List Turn) : Exporter :=
  turns.foldl (fun e turn => e.noted turn (e.outcome turn)) e

theorem tally_cons (turn : Turn) (rest : List Turn) :
    e.tally (turn :: rest) = (e.noted turn (e.outcome turn)).tally rest := by
  rw [tally, tally, List.foldl_cons]

theorem exportFiles_cons (path content : String) (rest : List (String × String)) :
    e.exportFiles t ((path, content) :: rest) =
      match e.exportFile t path content with
      | (t, .ok e) => e.exportFiles t rest
      | failed => failed := rfl

theorem leaves_noted {last : Tree} {turn : Turn} {noting : Outcome} {turns : List Turn}
    (leaves : (e.noted turn noting).Leaves t last turns) : e.Leaves t last turns := by
  have places (path : String) : (e.noted turn noting).placeOf path = e.placeOf path := by
    rw [placeOf, placeOf, pathOf_noted]
  refine ⟨leaves.working, leaves.refuses, fun place away => ?_, fun other member recorded => ?_⟩
  · refine leaves.elsewhere place fun other member recorded => ?_
    rw [outcome_noted] at recorded
    rw [places]
    exact away other member recorded
  · rw [← places]
    refine leaves.holds other member ?_
    rwa [outcome_noted]

theorem map_turns (files : List (String × String)) :
    ((e.turns t files).map fun turn => (turn.path, turn.content)) = files := by
  induction files generalizing t with
  | nil => rfl
  | cons file rest induction =>
      rw [turns, List.map_cons, induction]

theorem paths_turns (files : FileMap) : (e.turns t files).map Turn.path = files.paths := by
  rw [FileMap.paths, ← map_turns (e := e) (t := t) files, List.map_map, map_turns]
  rfl

theorem exportFiles_spec (ready : e.IsReady)
    (refuses : t.RefusesAsSystem) {files : List (String × String)}
    (plain : ∀ file ∈ files, IsPlain file.1) (distinct : (files.map (·.1)).Nodup)
    (short : ∀ turn ∈ e.turns t files, ¬turn.tree.IsTooLong (e.pathOf turn.path)) :
    ∃ last, e.exportFiles t files = (last, .ok (e.tally (e.turns t files))) ∧
      e.Leaves t last (e.turns t files) := by
  induction files generalizing e t with
  | nil => exact ⟨t, rfl, .nil t⟩
  | cons file rest induction =>
      obtain ⟨relative, content⟩ := file
      obtain ⟨plainHere, plainBelow⟩ := List.forall_mem_cons.mp plain
      obtain ⟨shortHere, shortBelow⟩ := List.forall_mem_cons.mp short
      rw [List.map_cons, List.nodup_cons] at distinct
      obtain ⟨next, exported, leaves⟩ :=
        exportFile_spec ready refuses plainHere shortHere content
      rw [exported] at shortBelow
      obtain ⟨last, further, others⟩ := induction
        (e := e.noted ⟨t, relative, content⟩ (e.outcome ⟨t, relative, content⟩)) (t := next)
        ready.noted (refuses.congr leaves.refuses) plainBelow distinct.2
        (short_noted_iff.mpr shortBelow)
      rw [turns_noted] at further others
      rw [exportFiles_cons, turns, exported]
      refine ⟨last, further, leaves.cons (leaves_noted others) fun other member same => ?_⟩
      have among : (other.path, other.content) ∈ rest :=
        map_turns rest ▸ List.mem_map_of_mem member
      have path := placeOf_inj plainHere (plainBelow _ among) same
      exact distinct.1 (path ▸ List.mem_map_of_mem among)

/-- If a run of exports comes to its end, it could be told of every file whether it is there. -/
theorem short_of_exportFiles (ready : e.IsReady) (refuses : t.RefusesAsSystem)
    {files : List (String × String)} (plain : ∀ file ∈ files, IsPlain file.1) {done : Exporter}
    (ends : (e.exportFiles t files).2 = .ok done) :
    ∀ turn ∈ e.turns t files, ¬turn.tree.IsTooLong (e.pathOf turn.path) := by
  induction files generalizing e t with
  | nil => exact nofun
  | cons file rest induction =>
      obtain ⟨relative, content⟩ := file
      obtain ⟨plainHere, plainBelow⟩ := List.forall_mem_cons.mp plain
      have short : ¬t.IsTooLong (e.pathOf relative) := by
        rw [← Tree.exists_look_iff (isResolved_pathOf ready.directory plainHere)]
        rw [exportFiles_cons, exportFile] at ends
        cases seen : t.look (e.pathOf relative) with
        | error failure =>
            rw [seen] at ends
            cases ends
        | ok there => exact ⟨there, rfl⟩
      obtain ⟨next, exported, leaves⟩ :=
        exportFile_spec ready refuses plainHere short content
      rw [exportFiles_cons, exported] at ends
      rw [turns, exported]
      refine List.forall_mem_cons.mpr ⟨short, ?_⟩
      exact short_noted_iff.mp (induction ready.noted (refuses.congr leaves.refuses) plainBelow ends)

/-! ## What is told of a run -/

def Turn.record (turn : Turn) : FileRecord :=
  .ofContent turn.path turn.content

def recordsOf (e : Exporter) (turns : List Turn) : List FileRecord :=
  (turns.filter fun turn => e.outcome turn = .recorded).map Turn.record

def skippedOf (e : Exporter) (turns : List Turn) : List String :=
  (turns.filter fun turn => e.outcome turn = .skipped).map Turn.path

def errorsOf (e : Exporter) (turns : List Turn) : List String :=
  turns.filterMap fun turn => match e.outcome turn with
    | .failed failure => some (failureMessage turn.path failure)
    | _ => none

theorem tally_eq (turns : List Turn) : e.tally turns = { e with
    records := e.records ++ e.recordsOf turns
    skipped := e.skipped ++ e.skippedOf turns
    errors := e.errors ++ e.errorsOf turns } := by
  induction turns generalizing e with
  | nil => simp [tally, recordsOf, skippedOf, errorsOf]
  | cons turn rest induction =>
      rw [tally_cons, induction]
      simp only [recordsOf, skippedOf, errorsOf, outcome_noted]
      cases becomes : e.outcome turn <;> simp [noted, becomes, Turn.record]

theorem errorsOf_eq_nil_iff {turns : List Turn} :
    e.errorsOf turns = [] ↔ ∀ turn ∈ turns, ∀ failure, e.outcome turn ≠ .failed failure := by
  rw [errorsOf, List.filterMap_eq_nil_iff]
  refine forall₂_congr fun turn _ => ?_
  cases e.outcome turn <;> simp

/-! ## The manifest -/

theorem isPlain_manifestName : IsPlain manifestName := by
  decide

inductive ManifestWritten (e : Exporter) (t last : Tree) : Except Failure Exporter → Prop
  | done (asked : e.writesManifest)
      (holds : last.node? (e.placeOf manifestName) = some (.file (e.manifest.json (some "  "))))
      (elsewhere : ∀ place ≠ e.placeOf manifestName,
        Tree.Grown (t.node? place) (last.node? place)) : ManifestWritten e t last (.ok e)
  | unasked (unasked : ¬e.writesManifest) (same : last = t) : ManifestWritten e t last (.ok e)
  | warned (warning : String) (widens : t.Widens last) :
      ManifestWritten e t last (.ok { e with warnings := e.warnings ++ [warning] })
  | failed (failure : Failure) (widens : t.Widens last) (foreign : ¬failure.cause.isSystems)
      (systems : t.RefusesAsSystem → '\x00' ∉ e.token.toList → failure.cause.isSystems) :
      ManifestWritten e t last (.error failure)

theorem exportManifest_written (directory : e.directory.IsResolved) (t : Tree) :
    e.ManifestWritten t (e.exportManifest t).1 (e.exportManifest t).2 := by
  have resolved := isResolved_pathOf directory isPlain_manifestName
  rw [exportManifest]
  by_cases asked : e.writesManifest = true
  · rw [if_pos asked]
    have written := e.writeFile_written t (e.pathOf manifestName) (e.manifest.json (some "  "))
    generalize e.writeFile t (e.pathOf manifestName) (e.manifest.json (some "  ")) = ending
      at written ⊢
    obtain ⟨last, result⟩ := ending
    cases result with
    | ok =>
        obtain ⟨_, _, holds, elsewhere⟩ := written.changes resolved
        exact .done asked holds elsewhere
    | error failure =>
        obtain ⟨widens, systems⟩ := written.refused
        dsimp only
        split
        · exact .warned _ widens
        · rename_i foreign
          exact .failed failure widens foreign fun refuses => systems refuses resolved
  · rw [if_neg asked]
    exact .unasked asked rfl

structure LeavesManifest (e : Exporter) (t last : Tree) (warnings : List String) : Prop where
  elsewhere : ∀ place, (e.writesManifest → warnings = [] → place ≠ e.placeOf manifestName) →
    Tree.Grown (t.node? place) (last.node? place)
  holds : e.writesManifest → warnings = [] →
    last.node? (e.placeOf manifestName) = some (.file (e.manifest.json (some "  ")))

theorem exportManifest_spec (ready : e.IsReady) (refuses : t.RefusesAsSystem) :
    ∃ last warnings,
      e.exportManifest t = (last, .ok { e with warnings := e.warnings ++ warnings }) ∧
      e.LeavesManifest t last warnings := by
  have unwarned : { e with warnings := e.warnings ++ [] } = e := by rw [List.append_nil]
  have written := exportManifest_written ready.directory t
  generalize e.exportManifest t = ending at written ⊢
  obtain ⟨last, result⟩ := ending
  refine ⟨last, ?_⟩
  cases written with
  | done asked holds elsewhere =>
      exact ⟨[], by rw [unwarned], fun place away => elsewhere place (away asked rfl),
        fun _ _ => holds⟩
  | unasked unasked same =>
      cases same
      exact ⟨[], by rw [unwarned], fun _ _ => .inl rfl, fun asked => absurd asked unasked⟩
  | warned warning widens =>
      exact ⟨[warning], rfl, fun place _ => widens.nodes place, fun _ none => nomatch none⟩
  | failed failure widens foreign systems =>
      exact absurd (systems refuses ready.token) foreign

/-! ## Whole exports -/

structure IsFresh (e : Exporter) : Prop where
  directory : ∃ path working : Path, working.isUnnameable = false ∧
    path.resolve working = .ok e.directory
  token : '\x00' ∉ e.token.toList
  errors : e.errors = []
  warnings : e.warnings = []
  skipped : e.skipped = []
  records : e.records = []

theorem IsFresh.isReady (fresh : e.IsFresh) : e.IsReady := by
  obtain ⟨_, _, known, resolves⟩ := fresh.directory
  exact ⟨Path.isResolved_of_resolve known resolves, fresh.token⟩

theorem inOrder_perm (files : FileMap) : (inOrder files).Perm files :=
  List.mergeSort_perm ..

theorem pairwise_inOrder {files : FileMap} (distinct : files.paths.Nodup) :
    (inOrder files).paths.Pairwise (· < ·) := by
  have ascending : (inOrder files).Pairwise fun a b => (!decide (b.1 < a.1)) = true := by
    refine List.pairwise_mergeSort (fun a b c early late => ?_) (fun a b => ?_) files
    · simp only [Bool.not_eq_eq_eq_not, Bool.not_true, decide_eq_false_iff_not, String.not_lt] at *
      exact String.le_trans early late
    · simpa only [Bool.or_eq_true, Bool.not_eq_eq_eq_not, Bool.not_true, decide_eq_false_iff_not,
        String.not_lt] using String.le_total a.1 b.1
  have different : (inOrder files).Pairwise fun a b => a.1 ≠ b.1 :=
    List.pairwise_map.mp (((inOrder_perm files).map _).nodup_iff.mpr distinct)
  refine List.pairwise_map.mpr (ascending.imp₂ (fun a b notAfter apart => ?_) different)
  rw [Bool.not_eq_eq_eq_not, Bool.not_true, decide_eq_false_iff_not, String.not_lt] at notAfter
  exact String.not_le.mp fun other => apart (String.le_antisymm notAfter other)

/-- An export accounts for every file, and no file is torn: recorded files hold their contents, and
whatever was at another place is still there. -/
structure Accounts (e : Exporter) (t last : Tree) (files : FileMap) (turns : List Turn)
    (done : Exporter) : Prop where
  every : (turns.map fun turn => (turn.path, turn.content)).Perm files
  ordered : (turns.map Turn.path).Pairwise (· < ·)
  records : done.records = e.recordsOf turns
  skipped : done.skipped = e.skippedOf turns
  errors : done.errors = e.errorsOf turns
  success : done.success ↔ ∀ turn ∈ turns, ∀ failure, e.outcome turn ≠ .failed failure
  manifest : done.manifest.files = e.recordsOf turns
  holds : ∀ turn ∈ turns, e.outcome turn = .recorded →
    last.node? (e.placeOf turn.path) = some (.file turn.content)
  keeps : ∀ turn ∈ turns, e.outcome turn ≠ .recorded → ∀ node,
    t.node? (e.placeOf turn.path) = some node → last.node? (e.placeOf turn.path) = some node
  elsewhere : ∀ place, (∀ turn ∈ turns, e.outcome turn = .recorded → place ≠ e.placeOf turn.path) →
    (e.writesManifest → done.warnings = [] → place ≠ e.placeOf manifestName) →
    Tree.Grown (t.node? place) (last.node? place)
  manifestHolds : e.writesManifest → done.warnings = [] →
    last.node? (e.placeOf manifestName) = some (.file (done.manifest.json (some "  ")))

theorem accounts_of_leaves {opened last final : Tree} {files : FileMap} {turns : List Turn}
    {warnings : List String} (fresh : e.IsFresh) (opens : t.Widens opened)
    (every : (turns.map fun turn => (turn.path, turn.content)).Perm files)
    (ordered : (turns.map Turn.path).Pairwise (· < ·))
    (single : ∀ turn ∈ turns, ∀ other ∈ turns, e.placeOf turn.path = e.placeOf other.path →
      turn = other)
    (apart : ∀ turn ∈ turns, e.placeOf turn.path ≠ e.placeOf manifestName)
    (leaves : e.Leaves opened last turns)
    (closes : (e.tally turns).LeavesManifest last final warnings) :
    e.Accounts t final files turns
      { e.tally turns with warnings := (e.tally turns).warnings ++ warnings } := by
  have records : (e.tally turns).records = e.recordsOf turns := by rw [tally_eq, fresh.records]; rfl
  have skipped : (e.tally turns).skipped = e.skippedOf turns := by rw [tally_eq, fresh.skipped]; rfl
  have errors : (e.tally turns).errors = e.errorsOf turns := by rw [tally_eq, fresh.errors]; rfl
  have warned : (e.tally turns).warnings ++ warnings = warnings := by
    rw [tally_eq, fresh.warnings]
    rfl
  have asked : (e.tally turns).writesManifest = e.writesManifest := by rw [tally_eq]
  have placed : (e.tally turns).placeOf manifestName = e.placeOf manifestName := by
    rw [tally_eq]
    rfl
  obtain ⟨elsewhere, holds⟩ := closes
  rw [asked, placed] at elsewhere holds
  have grows (place : Place) (away : ∀ turn ∈ turns, e.outcome turn = .recorded →
      place ≠ e.placeOf turn.path) : Tree.Grown (t.node? place) (last.node? place) :=
    (opens.nodes place).trans (leaves.elsewhere place away)
  have undisturbed (turn : Turn) (member : turn ∈ turns) :
      Tree.Grown (last.node? (e.placeOf turn.path)) (final.node? (e.placeOf turn.path)) :=
    elsewhere _ fun _ _ => apart turn member
  refine ⟨every, ordered, records, skipped, errors, ?_, records, ?_, ?_, ?_, ?_⟩
  · refine List.isEmpty_iff.trans ?_
    rw [errors, errorsOf_eq_nil_iff]
  · exact fun turn member recorded =>
      Tree.Grown.node (leaves.holds turn member recorded ▸ undisturbed turn member)
  · intro turn member unrecorded node there
    have kept : Tree.Grown (t.node? (e.placeOf turn.path)) (last.node? (e.placeOf turn.path)) :=
      grows _ fun other among recorded same =>
        unrecorded (single turn member other among same ▸ recorded)
    exact Tree.Grown.node (there ▸ kept.trans (undisturbed turn member))
  · rw [warned]
    exact fun place away awayToo => (grows place away).trans (elsewhere place awayToo)
  · rw [warned]
    exact holds

/-- An export accounts for every file, whatever the system refuses, just if no path is too long for
it to be told whether something is there. -/
theorem exportAll_accounts_iff {files : FileMap} {opened : Tree} (fresh : e.IsFresh)
    (refuses : t.RefusesAsSystem)
    (plain : ∀ path ∈ files.paths, IsPlain path ∧ path ≠ manifestName)
    (distinct : files.paths.Nodup)
    (opens : t.makeDirectories e.directory.steps.length e.directory = (opened, .ok ())) :
    (∃ last done, e.exportAll t files = (last, .ok done) ∧
      e.Accounts t last files (e.turns opened (inOrder files)) done) ↔
      ∀ turn ∈ e.turns opened (inOrder files), ¬turn.tree.IsTooLong (e.pathOf turn.path) := by
  have widens := t.makeDirectories_widens e.directory.steps.length e.directory
  rw [opens] at widens
  have refusesHere := refuses.congr widens.refuses
  have listed : (inOrder files).paths.Perm files.paths := (inOrder_perm files).map _
  have plainFiles : ∀ file ∈ inOrder files, IsPlain file.1 := fun file member =>
    (plain file.1 (listed.subset (List.mem_map_of_mem member))).1
  constructor
  · rintro ⟨last, done, ends, -⟩
    rw [exportAll, opens] at ends
    dsimp only at ends
    split at ends
    · rename_i here exporter exported
      exact short_of_exportFiles fresh.isReady refusesHere plainFiles (congrArg Prod.snd exported)
    · rename_i unmatched
      exact absurd ends (unmatched last done)
  · intro short
    obtain ⟨last, exported, leaves⟩ := exportFiles_spec fresh.isReady refusesHere plainFiles
      (listed.nodup_iff.mpr distinct) short
    have ready : (e.tally (e.turns opened (inOrder files))).IsReady := by
      rw [tally_eq]
      exact ⟨fresh.isReady.directory, fresh.isReady.token⟩
    obtain ⟨final, warnings, manifested, closes⟩ :=
      exportManifest_spec ready (refusesHere.congr leaves.refuses)
    refine ⟨final, _, by rw [exportAll, opens]; dsimp only; rw [exported]; exact manifested, ?_⟩
    have every := (map_turns (e := e) (t := opened) (inOrder files)).symm ▸ inOrder_perm files
    have paths := paths_turns (e := e) (t := opened) (inOrder files)
    have ordered := paths ▸ pairwise_inOrder distinct
    have plainTurn : ∀ turn ∈ e.turns opened (inOrder files),
        IsPlain turn.path ∧ turn.path ≠ manifestName := fun turn member =>
      plain turn.path (listed.subset (paths ▸ List.mem_map_of_mem member))
    refine accounts_of_leaves fresh widens every ordered ?_ ?_ leaves closes
    · intro turn member other among same
      refine List.inj_on_of_nodup_map (paths ▸ listed.nodup_iff.mpr distinct) member among ?_
      exact placeOf_inj (plainTurn turn member).1 (plainTurn other among).1 same
    · intro turn member same
      have plainHere := plainTurn turn member
      exact plainHere.2 (placeOf_inj plainHere.1 isPlain_manifestName same)

def shelf : Exporter where
  projectName := "library"
  projectVersion := "1.0.0"
  overwrite := false
  directory := ⟨true, ["shelf"]⟩

def crowded : Tree where
  nodes := [(["shelf"], .directory), (["shelf", "a.sql"], .file "0"), (["shelf", "b"], .file "")]
  refuses _ action :=
    if action = .rename ["shelf", ".c.sql.________.tmp"] ["shelf", "c.sql"] then
      some .notPermitted
    else none

theorem shelf_isFresh : shelf.IsFresh :=
  ⟨⟨⟨true, ["shelf"]⟩, ⟨true, []⟩, rfl, by decide⟩, by decide, rfl, rfl, rfl, rfl⟩

theorem shelf_accounts_crowded :
    let files : FileMap := [("a.sql", "1"), ("b/b.sql", "2"), ("c.sql", "3"), ("d.sql", "4")]
    ∃ last done, shelf.exportAll crowded files = (last, .ok done) ∧
      shelf.Accounts crowded last files (shelf.turns crowded files) done ∧
      done.skipped = ["a.sql"] ∧ done.errors.length = 2 ∧
      done.records.map (·.path) = ["d.sql"] := by
  intro files
  have refuses : crowded.RefusesAsSystem := by
    intro time action cause refused
    unfold crowded at refused
    dsimp only at refused
    split at refused
    · cases refused
      rfl
    · cases refused
  have plain : ∀ path ∈ files.paths, IsPlain path ∧ path ≠ manifestName := by
    decide +kernel
  have opens : crowded.makeDirectories shelf.directory.steps.length shelf.directory =
      (crowded, .ok ()) := rfl
  have inTurn : inOrder files = files := List.mergeSort_of_pairwise (by decide +kernel)
  have all := exportAll_accounts_iff shelf_isFresh refuses plain (by decide) opens
  rw [inTurn] at all
  obtain ⟨last, done, ends, accounts⟩ := all.mpr (by decide +kernel)
  refine ⟨last, done, ends, accounts, ?_, ?_, ?_⟩
  · rw [accounts.skipped]
    decide +kernel
  · rw [accounts.errors]
    decide +kernel
  · rw [accounts.records]
    decide +kernel

def longName : String :=
  String.ofList (List.replicate 256 'x')

def bare : Tree where
  nodes := [(["shelf"], .directory)]

/-- The export ends at the long name, and the file after it is not even attempted. -/
theorem shelf_endsEarly :
    shelf.IsFresh ∧ (∀ path ∈ FileMap.paths [(longName, "1"), ("z.sql", "2")],
      IsPlain path ∧ path ≠ manifestName) ∧
    inOrder [(longName, "1"), ("z.sql", "2")] = [(longName, "1"), ("z.sql", "2")] ∧
    shelf.exportAll bare [(longName, "1"), ("z.sql", "2")] =
      (bare, .error { cause := .nameTooLong, path := shelf.pathOf longName }) ∧
    bare.node? (shelf.placeOf "z.sql") = none := by
  have chars : longName.toList = List.replicate 256 'x' := String.toList_ofList
  have without (c : Char) (different : c ≠ 'x') : c ∉ longName.toList := by
    rw [chars]
    exact fun member => different (List.eq_of_mem_replicate member)
  have long : Tree.maxNameBytes < longName.utf8ByteSize := by
    decide +kernel
  have different {name : String} (short : name.utf8ByteSize ≤ Tree.maxNameBytes) :
      longName ≠ name := fun same => Nat.not_lt.mpr short (same ▸ long)
  have named : longName ∉ ["", ".", Path.up] := by
    simpa using ⟨different (by decide), different (by decide), different (by decide)⟩
  have plain := isPlain_of_slashless (without '/' (by decide)) (without '\x00' (by decide)) named
  have plainFiles : ∀ path ∈ FileMap.paths [(longName, "1"), ("z.sql", "2")],
      IsPlain path ∧ path ≠ manifestName :=
    List.forall_mem_cons.mpr ⟨⟨plain, different (by decide)⟩, by decide +kernel⟩
  have inTurn : inOrder [(longName, "1"), ("z.sql", "2")] = [(longName, "1"), ("z.sql", "2")] := by
    refine List.mergeSort_of_pairwise (List.pairwise_pair.mpr ?_)
    rw [Bool.not_eq_true', decide_eq_false_iff_not]
    change ¬"z.sql".toList < longName.toList
    rw [chars]
    exact fun before => absurd before (by decide)
  have blocked : bare.locate (shelf.pathOf longName) = .error .nameTooLong := by
    have resolved := isResolved_pathOf shelf_isFresh.isReady.directory plain
    refine (Tree.locate_eq_nameTooLong_iff resolved).mpr (.inr ?_)
    rw [pathOf_of_plain plain, Path.ofText_of_slashless (without '/' (by decide))
      (different (by decide)) (different (by decide))]
    exact .behind rfl (.here long)
  refine ⟨shelf_isFresh, plainFiles, inTurn, ?_, by decide +kernel⟩
  have opens : bare.makeDirectories shelf.directory.steps.length shelf.directory = (bare, .ok ()) :=
    rfl
  rw [exportAll, opens]
  dsimp only
  rw [inTurn, exportFiles_cons, exportFile, Tree.look, blocked]

end Exporter

end TenantSql.Export
