import TenantSql.Disk.Tree

/-!
# What writing does to the disk

Making directories adds directories where nothing was. Replacing a file changes the
place that its path leads to, or nothing at all if it fails; the temporary file
that it goes through is gone in either case.
-/

namespace TenantSql.Disk

namespace Tree

variable {t later : Tree} {p : Path} {place other : Place}

/-! ## Places -/

theorem node?_of_ne (different : place ≠ []) : t.node? place = t.nodes.lookup place := by
  cases place with
  | nil => exact absurd rfl different
  | cons step rest => rfl

theorem lookup_filter_ne (nodes : List (Place × Node)) :
    (nodes.filter (·.1 != place)).lookup other =
      if other = place then none else nodes.lookup other := by
  induction nodes with
  | nil => simp
  | cons entry rest induction =>
      obtain ⟨first, node⟩ := entry
      by_cases here : first = place
      · rw [List.filter_cons_of_neg (by simp [here]), induction, List.lookup_cons]
        by_cases same : other = place
        · rw [if_pos same, if_pos same]
        · rw [if_neg same, if_neg same, here, beq_false_of_ne same]
      · rw [List.filter_cons_of_pos (by simp [here]), List.lookup_cons, List.lookup_cons, induction]
        by_cases same : other = first
        · rw [same, beq_self_eq_true, if_neg here, if_neg here]
        · rw [beq_false_of_ne same]

theorem node?_put_self (different : place ≠ []) (node : Node) :
    (t.put place node).node? place = some node := by
  rw [node?_of_ne different, put, List.lookup_cons_self]

theorem node?_put_of_ne (different : other ≠ place) (node : Node) :
    (t.put place node).node? other = t.node? other := by
  by_cases root : other = []
  · rw [root]
    rfl
  · rw [node?_of_ne root, node?_of_ne root, put, List.lookup_cons, beq_false_of_ne different]
    exact (lookup_filter_ne t.nodes).trans (if_neg different)

theorem node?_remove_self (different : place ≠ []) : (t.remove place).node? place = none := by
  rw [node?_of_ne different, remove, lookup_filter_ne, if_pos rfl]

theorem node?_remove_of_ne (different : other ≠ place) :
    (t.remove place).node? other = t.node? other := by
  by_cases root : other = []
  · rw [root]
    rfl
  · rw [node?_of_ne root, node?_of_ne root, remove, lookup_filter_ne, if_neg different]

theorem ne_nil_of_node? (absent : t.node? place = none) : place ≠ [] := by
  rintro rfl
  cases absent

/-! ## Ways -/

theorem isSystems_of_walk {steps : List String} {cause : Cause}
    (blocked : t.walk place steps = .error cause) : cause.isSystems := by
  induction steps generalizing place with
  | nil => cases blocked
  | cons step rest induction =>
      rw [walk] at blocked
      split at blocked
      · cases blocked
        rfl
      · dsimp only at blocked
        split at blocked
        · cases blocked
        · split at blocked
          · exact induction blocked
          · cases blocked
            rfl
          · cases blocked
            rfl

/-- Only directories are gone through, so that a way leads on as long as they are there. -/
theorem walk_of_walk {steps : List String}
    (directories : ∀ place, t.node? place = some .directory → later.node? place = some .directory)
    (reached : t.walk place steps = .ok other) : later.walk place steps = .ok other := by
  induction steps generalizing place with
  | nil => exact reached
  | cons step rest induction =>
      rw [walk] at reached ⊢
      split at reached
      · cases reached
      · rename_i short
        rw [if_neg short]
        dsimp only at reached ⊢
        split at reached
        · rename_i last
          rw [if_pos last]
          exact reached
        · rename_i more
          rw [if_neg more]
          split at reached
          · rename_i there
            rw [directories _ there]
            exact induction reached
          · cases reached
          · cases reached

theorem size_le_of_walk {steps : List String} (reached : t.walk place steps = .ok other) :
    ∀ step ∈ steps, step.utf8ByteSize ≤ maxNameBytes := by
  induction steps generalizing place with
  | nil => exact fun _ member => nomatch member
  | cons step rest induction =>
      rw [walk] at reached
      split at reached
      · cases reached
      · rename_i short
        refine List.forall_mem_cons.mpr ⟨Nat.not_lt.mp short, ?_⟩
        dsimp only at reached
        split at reached
        · rename_i last
          rw [List.isEmpty_iff.mp last]
          exact fun _ member => nomatch member
        · split at reached
          · exact induction reached
          · cases reached
          · cases reached

theorem eq_of_walk {steps : List String} (level : Path.up ∉ steps)
    (reached : t.walk place steps = .ok other) : other = place ++ steps := by
  induction steps generalizing place with
  | nil =>
      cases reached
      exact (List.append_nil _).symm
  | cons step rest induction =>
      rw [List.mem_cons, not_or] at level
      rw [walk, beq_false_of_ne (Ne.symm level.1), if_neg Bool.false_ne_true] at reached
      split at reached
      · cases reached
      · dsimp only at reached
        split at reached
        · rename_i last
          cases reached
          rw [List.isEmpty_iff.mp last]
        · split at reached
          · rw [induction level.2 reached, List.append_assoc]
            rfl
          · cases reached
          · cases reached

theorem walk_of_directories {steps : List String} (level : Path.up ∉ steps)
    (short : ∀ step ∈ steps, step.utf8ByteSize ≤ maxNameBytes)
    (directories : ∀ front back, steps = front ++ back → front ≠ [] → back ≠ [] →
      t.node? (place ++ front) = some .directory) :
    t.walk place steps = .ok (place ++ steps) := by
  induction steps generalizing place with
  | nil => rw [walk, List.append_nil]
  | cons step rest induction =>
      rw [List.mem_cons, not_or] at level
      obtain ⟨here, after⟩ := List.forall_mem_cons.mp short
      rw [walk, if_neg (Nat.not_lt.mpr here), beq_false_of_ne (Ne.symm level.1),
        if_neg Bool.false_ne_true]
      dsimp only
      split
      · rename_i last
        rw [List.isEmpty_iff.mp last]
      · rename_i more
        rw [directories [step] rest rfl (List.cons_ne_nil _ _) (by simpa using more)]
        have further : t.walk (place ++ [step]) rest = .ok (place ++ [step] ++ rest) := by
          refine induction level.2 after fun front back split first last => ?_
          rw [List.append_assoc]
          exact directories (step :: front) back (by rw [split]; rfl) (List.cons_ne_nil _ _) last
        rw [List.append_assoc] at further
        exact further

/-! ## Paths -/

theorem locate_eq_ok_iff : t.locate p = .ok place ↔
    (t.fromRoot p).isUnnameable = false ∧ p.text.utf8ByteSize < pathBytesLimit ∧
      t.walk [] (t.fromRoot p).steps = .ok place := by
  rw [locate]
  cases (t.fromRoot p).isUnnameable with
  | true => simp
  | false =>
      by_cases long : pathBytesLimit ≤ p.text.utf8ByteSize
      · simp [long, Nat.not_lt.mpr long]
      · simp [long, Nat.not_le.mp long]

theorem isSystems_of_locate {cause : Cause} (nameable : (t.fromRoot p).isUnnameable = false)
    (blocked : t.locate p = .error cause) : cause.isSystems := by
  rw [locate] at blocked
  rw [nameable, if_neg Bool.false_ne_true] at blocked
  split at blocked
  · cases blocked
    rfl
  · exact isSystems_of_walk blocked

theorem locate_of_locate (working : later.working = t.working)
    (directories : ∀ place, t.node? place = some .directory → later.node? place = some .directory)
    (reached : t.locate p = .ok place) : later.locate p = .ok place := by
  have start : later.fromRoot p = t.fromRoot p := by rw [fromRoot, fromRoot, working]
  rw [locate_eq_ok_iff] at reached ⊢
  rw [start]
  exact ⟨reached.1, reached.2.1, walk_of_walk directories reached.2.2⟩

theorem look_of_locate (reached : t.locate p = .ok place) : t.look p = .ok (t.node? place) := by
  rw [look, reached]

theorem exists_of_look {node : Node} (seen : t.look p = .ok (some node)) :
    ∃ place, t.locate p = .ok place ∧ t.node? place = some node := by
  rw [look] at seen
  split at seen
  · rename_i place reached
    exact ⟨place, reached, Except.ok.inj seen⟩
  · cases seen
  · cases seen

/-! ## Directories -/

/-- What is at a place is the same, or there is a directory where nothing was. -/
def Grown (before after : Option Node) : Prop :=
  after = before ∨ before = none ∧ after = some .directory

namespace Grown

theorem trans {first second third : Option Node} (early : Grown first second)
    (late : Grown second third) : Grown first third := by
  rcases early with rfl | ⟨absent, rfl⟩
  · exact late
  · rcases late with rfl | ⟨still, _⟩
    · exact .inr ⟨absent, rfl⟩
    · cases still

theorem node {after : Option Node} {node : Node} (grown : Grown (some node) after) :
    after = some node := by
  rcases grown with same | ⟨absent, _⟩
  · exact same
  · cases absent

end Grown

structure Widens (t later : Tree) : Prop where
  working : later.working = t.working
  refuses : later.refuses = t.refuses
  nodes : ∀ place, Grown (t.node? place) (later.node? place)

namespace Widens

theorem refl (t : Tree) : t.Widens t :=
  ⟨rfl, rfl, fun _ => .inl rfl⟩

theorem trans {last : Tree} (first : t.Widens later) (second : later.Widens last) :
    t.Widens last :=
  ⟨second.working.trans first.working, second.refuses.trans first.refuses,
    fun place => (first.nodes place).trans (second.nodes place)⟩

theorem node (widens : t.Widens later) {node : Node} (there : t.node? place = some node) :
    later.node? place = some node :=
  Grown.node (there ▸ widens.nodes place)

end Widens

theorem widens_ask (t : Tree) (action : Action) : t.Widens (t.ask action).1 :=
  ⟨rfl, rfl, fun _ => .inl rfl⟩

theorem widens_put (absent : t.node? place = none) : t.Widens (t.put place .directory) := by
  refine ⟨rfl, rfl, fun other => ?_⟩
  by_cases same : other = place
  · rw [same]
    exact .inr ⟨absent, node?_put_self (ne_nil_of_node? absent) _⟩
  · exact .inl (node?_put_of_ne same _)

theorem makeDirectory_widens (t : Tree) (p : Path) : t.Widens (t.makeDirectory p).1 := by
  rw [makeDirectory]
  split
  · exact .refl t
  · rename_i place _
    split
    · exact .refl t
    · rename_i absent
      rw [Bool.or_eq_true, not_or, Option.not_isSome_iff_eq_none] at absent
      split
      · rename_i asked
        exact congrArg Prod.fst asked ▸ widens_ask t (.makeDirectory place)
      · rename_i asked
        have same := congrArg Prod.fst asked
        subst same
        exact (widens_ask t _).trans (widens_put absent.2)

theorem ensureDirectory_widens (t : Tree) (p : Path) : t.Widens (t.ensureDirectory p).1 := by
  have widens := t.makeDirectory_widens p
  rw [ensureDirectory]
  split
  · rename_i made
    rwa [made] at widens
  · rename_i failed
    rwa [failed] at widens

theorem makeDirectories_widens (t : Tree) (height : Nat) (p : Path) :
    t.Widens (t.makeDirectories height p).1 := by
  induction height generalizing t p with
  | zero => exact t.ensureDirectory_widens p
  | succ height induction =>
      have widens := t.makeDirectory_widens p
      rw [makeDirectories]
      split
      · rename_i made
        rwa [made] at widens
      · rename_i here failure failed
        rw [failed] at widens
        split
        · exact widens
        · split
          · exact widens
          · have above := induction here p.parent
            split
            · rename_i made
              rw [made] at above
              exact (widens.trans above).trans (ensureDirectory_widens _ p)
            · exact widens.trans above

theorem makeDirectories_of_look (present : t.look p = .ok (some .directory)) (height : Nat) :
    t.makeDirectories height p = (t, .ok ()) := by
  obtain ⟨place, reached, there⟩ := exists_of_look present
  have already : t.makeDirectory p = (t, .error { cause := .exists, path := p }) := by
    rw [makeDirectory, reached]
    simp only [there, Option.isSome_some, Bool.or_true, if_true]
  have enough : t.unlessPresent p { cause := .exists, path := p } = .ok () := by
    rw [unlessPresent, seesDirectory, present]
    rfl
  cases height with
  | zero =>
      rw [makeDirectories, ensureDirectory, already]
      exact congrArg (Prod.mk t) enough
  | succ height =>
      rw [makeDirectories, already]
      exact congrArg (Prod.mk t) enough

def RefusesAsSystem (t : Tree) : Prop :=
  ∀ time action cause, t.refuses time action = some cause → cause.isSystems

theorem RefusesAsSystem.congr (refuses : t.RefusesAsSystem)
    (same : later.refuses = t.refuses) : later.RefusesAsSystem :=
  fun time action cause refused => refuses time action cause (same ▸ refused)

theorem isSystems_of_makeDirectory (refuses : t.RefusesAsSystem)
    (nameable : (t.fromRoot p).isUnnameable = false) {failure : Failure}
    (failed : (t.makeDirectory p).2 = .error failure) : failure.cause.isSystems := by
  rw [makeDirectory] at failed
  split at failed
  · rename_i cause blocked
    cases failed
    exact isSystems_of_locate nameable blocked
  · rename_i place _
    split at failed
    · cases failed
      rfl
    · split at failed
      · rename_i cause asked
        cases failed
        exact refuses _ _ cause (congrArg Prod.snd asked)
      · cases failed

theorem eq_of_unlessPresent {failure other : Failure}
    (failed : t.unlessPresent p failure = .error other) : other = failure := by
  rw [unlessPresent] at failed
  split at failed
  · cases failed
  · cases failed
    rfl

theorem isSystems_of_ensureDirectory (refuses : t.RefusesAsSystem)
    (nameable : (t.fromRoot p).isUnnameable = false) {failure : Failure}
    (failed : (t.ensureDirectory p).2 = .error failure) : failure.cause.isSystems := by
  rw [ensureDirectory] at failed
  split at failed
  · cases failed
  · rename_i here first refused
    rw [eq_of_unlessPresent failed]
    exact isSystems_of_makeDirectory refuses nameable (congrArg Prod.snd refused)

theorem nameable_parent (nameable : (t.fromRoot p).isUnnameable = false) :
    (t.fromRoot p.parent).isUnnameable = false := by
  rw [Path.isUnnameable, List.any_eq_false] at nameable ⊢
  intro step member
  refine nameable step ?_
  rw [fromRoot, Path.join] at member ⊢
  by_cases absolute : p.absolute = true
  · rw [if_pos (show p.parent.absolute = true from absolute)] at member
    rw [if_pos absolute]
    exact List.dropLast_subset _ member
  · rw [if_neg (show ¬p.parent.absolute = true from absolute)] at member
    rw [if_neg absolute]
    refine List.mem_append.mpr ((List.mem_append.mp member).imp id fun last => ?_)
    exact List.dropLast_subset _ last

theorem fromRoot_of_working (same : later.working = t.working) (p : Path) :
    later.fromRoot p = t.fromRoot p := by
  rw [fromRoot, fromRoot, same]

theorem isSystems_of_makeDirectories (refuses : t.RefusesAsSystem)
    (nameable : (t.fromRoot p).isUnnameable = false) {height : Nat} {failure : Failure}
    (failed : (t.makeDirectories height p).2 = .error failure) : failure.cause.isSystems := by
  induction height generalizing t p with
  | zero => exact isSystems_of_ensureDirectory refuses nameable failed
  | succ height induction =>
      have widens := t.makeDirectory_widens p
      rw [makeDirectories] at failed
      split at failed
      · cases failed
      · rename_i here first refused
        have systems : first.cause.isSystems :=
          isSystems_of_makeDirectory refuses nameable (congrArg Prod.snd refused)
        rw [refused] at widens
        have refusesHere := refuses.congr widens.refuses
        split at failed
        · rw [eq_of_unlessPresent failed]
          exact systems
        · split at failed
          · cases failed
            exact systems
          · have above := here.makeDirectories_widens height p.parent
            split at failed
            · rename_i made
              rw [made] at above
              refine isSystems_of_ensureDirectory (refusesHere.congr above.refuses) ?_ failed
              rwa [fromRoot_of_working (above.working.trans widens.working)]
            · refine induction refusesHere ?_ failed
              rw [fromRoot_of_working widens.working]
              exact nameable_parent nameable

/-! ## Files -/

structure AgreesExcept (t : Tree) (places : List Place) (later : Tree) : Prop where
  working : later.working = t.working
  refuses : later.refuses = t.refuses
  nodes : ∀ other ∉ places, later.node? other = t.node? other

theorem AgreesExcept.trans {last : Tree} {places : List Place}
    (first : t.AgreesExcept places later) (second : later.AgreesExcept places last) :
    t.AgreesExcept places last :=
  ⟨second.working.trans first.working, second.refuses.trans first.refuses,
    fun other apart => (second.nodes other apart).trans (first.nodes other apart)⟩

theorem AgreesExcept.mono {places more : List Place} (agrees : t.AgreesExcept places later)
    (subset : places ⊆ more) : t.AgreesExcept more later :=
  ⟨agrees.working, agrees.refuses, fun other apart =>
    agrees.nodes other fun member => apart (subset member)⟩

theorem agreesExcept_ask (t : Tree) (action : Action) (places : List Place) :
    t.AgreesExcept places (t.ask action).1 :=
  ⟨rfl, rfl, fun _ _ => rfl⟩

theorem agreesExcept_put (t : Tree) (place : Place) (node : Node) :
    t.AgreesExcept [place] (t.put place node) :=
  ⟨rfl, rfl, fun _ apart => node?_put_of_ne (mt List.mem_singleton.mpr apart) node⟩

theorem AgreesExcept.widens (agrees : t.AgreesExcept [] later) : t.Widens later :=
  ⟨agrees.working, agrees.refuses, fun place => .inl (agrees.nodes place List.not_mem_nil)⟩

theorem isDirectory_iff : t.isDirectory place ↔ t.node? place = some .directory :=
  beq_iff_eq

theorem AgreesExcept.isDirectory_eq (agrees : t.AgreesExcept [place] later)
    (absent : t.node? place = none) {content : String}
    (holds : later.node? place = some (.file content)) (other : Place) :
    later.isDirectory other = t.isDirectory other := by
  by_cases same : other = place
  · rw [isDirectory, isDirectory, same, absent, holds]
    rfl
  · rw [isDirectory, isDirectory, agrees.nodes other (mt List.mem_singleton.mp same)]

theorem AgreesExcept.remove (agrees : t.AgreesExcept [place] later)
    (absent : t.node? place = none) : t.AgreesExcept [] (later.remove place) := by
  refine ⟨agrees.working, agrees.refuses, fun other _ => ?_⟩
  by_cases same : other = place
  · rw [same, node?_remove_self (ne_nil_of_node? absent), absent]
  · rw [node?_remove_of_ne same, agrees.nodes other (mt List.mem_singleton.mp same)]

theorem createFile_cases (t : Tree) (place : Place) :
    (∃ later cause, t.createFile place = (later, .error cause) ∧ t.AgreesExcept [] later ∧
      (t.RefusesAsSystem → cause.isSystems)) ∨
    ∃ later, t.createFile place = (later, .ok ()) ∧ t.AgreesExcept [place] later ∧
      t.node? place = none := by
  rw [createFile]
  split
  · exact .inl ⟨t, .exists, rfl, ⟨rfl, rfl, fun _ _ => rfl⟩, fun _ => rfl⟩
  · rename_i absent
    rw [Option.not_isSome_iff_eq_none] at absent
    have asked := t.agreesExcept_ask (.create place)
    split
    · rename_i here cause refused
      rw [refused] at asked
      exact .inl ⟨here, cause, rfl, asked [], fun refuses =>
        refuses _ _ cause (congrArg Prod.snd refused)⟩
    · rename_i here refused
      rw [refused] at asked
      exact .inr ⟨_, rfl, (asked [place]).trans (here.agreesExcept_put place _), absent⟩

theorem writeFile_cases (t : Tree) (place : Place) (content : String) :
    (∃ later cause, t.writeFile place content = (later, .error cause) ∧
      t.AgreesExcept [] later ∧ (t.RefusesAsSystem → cause.isSystems)) ∨
    ∃ later, t.writeFile place content = (later, .ok ()) ∧ t.AgreesExcept [place] later ∧
      (place ≠ [] → later.node? place = some (.file content)) := by
  have asked := t.agreesExcept_ask (.write place)
  rw [writeFile]
  split
  · rename_i here cause refused
    rw [refused] at asked
    exact .inl ⟨here, cause, rfl, asked [], fun refuses =>
      refuses _ _ cause (congrArg Prod.snd refused)⟩
  · rename_i here refused
    rw [refused] at asked
    exact .inr ⟨_, rfl, (asked [place]).trans (here.agreesExcept_put place _), fun named =>
      node?_put_self named _⟩

theorem renameFile_cases (t : Tree) (source : Place) (content : String) (target : Path) :
    (∃ later cause, t.renameFile source content target = (later, .error cause) ∧
      t.AgreesExcept [] later ∧
      (t.RefusesAsSystem → (t.fromRoot target).isUnnameable = false → cause.isSystems)) ∨
    ∃ here place, t.locate target = .ok place ∧ t.isDirectory place = false ∧
      t.AgreesExcept [] here ∧ t.renameFile source content target =
        ((here.remove source).put place (.file content), .ok ()) := by
  have stays : t.AgreesExcept [] t := ⟨rfl, rfl, fun _ _ => rfl⟩
  rw [renameFile]
  split
  · rename_i cause blocked
    exact .inl ⟨t, cause, rfl, stays, fun _ nameable => isSystems_of_locate nameable blocked⟩
  · rename_i place reached
    split
    · exact .inl ⟨t, .busy, rfl, stays, fun _ _ => rfl⟩
    · split
      · exact .inl ⟨t, .isADirectory, rfl, stays, fun _ _ => rfl⟩
      · rename_i noDirectory
        have asked := t.agreesExcept_ask (.rename source place)
        split
        · rename_i here cause refused
          rw [refused] at asked
          exact .inl ⟨here, cause, rfl, asked [], fun refuses _ =>
            refuses _ _ cause (congrArg Prod.snd refused)⟩
        · rename_i here refused
          rw [refused] at asked
          exact .inr ⟨here, place, reached, eq_false_of_ne_true noDirectory, asked [], rfl⟩

inductive Replaced (t later : Tree) (target temporary : Path) (content : String) :
    Except Failure Unit → Prop
  | done (place : Place) (reached : t.locate target = .ok place)
      (noDirectory : t.isDirectory place = false)
      (holds : later.node? place = some (.file content))
      (agrees : t.AgreesExcept [place] later) : Replaced t later target temporary content (.ok ())
  | failed (failure : Failure) (agrees : t.AgreesExcept [] later)
      (systems : t.RefusesAsSystem → (t.fromRoot target).isUnnameable = false →
        (t.fromRoot temporary).isUnnameable = false → failure.cause.isSystems) :
      Replaced t later target temporary content (.error failure)

theorem replaceFile_replaced (t : Tree) (target : Path) (temporaryName content : String) :
    t.Replaced (t.replaceFile target temporaryName content).1 target
      (t.besides target temporaryName) content (t.replaceFile target temporaryName content).2 := by
  rw [replaceFile]
  split
  · rename_i cause blocked
    exact .failed _ ⟨rfl, rfl, fun _ _ => rfl⟩ fun _ _ nameable =>
      isSystems_of_locate nameable blocked
  · rename_i source _
    rcases t.createFile_cases source with
      ⟨here, cause, created, agrees, systems⟩ | ⟨here, created, agrees, absent⟩
    · rw [created]
      exact .failed _ agrees fun refuses _ _ => systems refuses
    · rw [created]
      dsimp only
      rcases here.writeFile_cases source content with
        ⟨filled, cause, written, more, systems⟩ | ⟨filled, written, more, holds⟩
      · rw [written]
        have all := agrees.trans (more.mono (List.nil_subset [source]))
        exact .failed _ (all.remove absent) fun refuses _ _ =>
          systems (refuses.congr agrees.refuses)
      · rw [written]
        dsimp only
        -- Up to here the tree differs from the first one in the temporary file alone.
        have all := agrees.trans more
        rcases filled.renameFile_cases source content target with
          ⟨last, cause, renamed, same, systems⟩ | ⟨last, place, reached, noDirectory, same, renamed⟩
        · rw [renamed]
          have cleared := (all.trans (same.mono (List.nil_subset [source]))).remove absent
          refine .failed _ cleared fun refuses nameable _ => systems (refuses.congr all.refuses) ?_
          rwa [fromRoot_of_working all.working]
        · rw [renamed]
          have named : place ≠ [] := by
            rintro rfl
            cases noDirectory
          have directories := all.isDirectory_eq absent (holds (ne_nil_of_node? absent))
          have reachedBefore : t.locate target = .ok place := by
            refine locate_of_locate all.working.symm (fun other there => ?_) reached
            rwa [← isDirectory_iff, ← directories, isDirectory_iff]
          have cleared := (all.trans (same.mono (List.nil_subset [source]))).remove absent
          exact .done place reachedBefore (directories place ▸ noDirectory) (node?_put_self named _)
            ((cleared.mono (List.nil_subset [place])).trans (agreesExcept_put _ place _))

end Tree

end TenantSql.Disk
