import TenantSql.Proofs.Model.Identifier
import TenantSql.Proofs.Sql.Legible
import TenantSql.Proofs.Sql.Lexeme

/-!
# Splitting legible fragments

A legible fragment whose names are bare is split into the lexemes of its pieces,
piece by piece: no lexeme begins in one piece and ends in another. For this the
scan is followed from seam to seam. After a piece it stands between lexemes, or
in a lexeme that any boundary ends, or at a dot that a name follows.
-/

namespace TenantSql

/-- A name that needs no quotes, perhaps after the name of what holds it. -/
def IsBareName (s : String) : Prop :=
  isIdentifier s ∨ ∃ front back, isIdentifier front ∧ isIdentifier back ∧ s = front ++ "." ++ back

namespace Sql

variable {π : Type}

namespace Piece

def lexemes (number : π → Nat) : Piece π → List Lexeme
  | .fixed s | .name s => (lexemes? s.toList).getD []
  | .literal s => [.constant s.toList]
  | .label s => [.label (doubling (· == '%') s.toList)]
  | .param p => [.parameter (Nat.toDigits 10 (number p))]

def IsQuotable : Piece π → Prop
  | .literal s => '\x00' ∉ s.toList
  | .label s => s ≠ "" ∧ '\x00' ∉ s.toList
  | .fixed _ | .name _ | .param _ => True

end Piece

def Lexeme.isOfName : Lexeme → Bool
  | .word spelling => isIdentifierWord spelling
  | .symbol spelling => spelling == ['.']
  | .blank c => c == '\n'
  | _ => false

namespace Scan

/-! ## Scans at a seam -/

def isIdle (r : Scan) : Bool :=
  r == .between || r == .afterConstant false

def isDone : Scan → Bool
  | .word _ | .constantEnd _ => true
  | .parameter read | .labelEnd read => !read.isEmpty
  | _ => false

def Alike (r other : Scan) : Prop :=
  r = other ∨ r.isIdle ∧ other.isIdle

theorem isIdle_iff {r : Scan} : r.isIdle ↔ r = .between ∨ r = .afterConstant false := by
  simp [isIdle]

theorem settle?_of_isIdle {r : Scan} (idle : r.isIdle) : r.settle? = some [] := by
  rcases isIdle_iff.mp idle with rfl | rfl <;> rfl

theorem Alike.settle? {r other : Scan} (alike : r.Alike other) : r.settle? = other.settle? := by
  rcases alike with rfl | ⟨first, second⟩
  · rfl
  · rw [settle?_of_isIdle first, settle?_of_isIdle second]

theorem settle?_of_isDone {r : Scan} (done : r.isDone) : ∃ settled, r.settle? = some settled := by
  cases r with
  | word | constantEnd => exact ⟨_, rfl⟩
  | parameter read | labelEnd read => exact ⟨_, if_neg (by simpa [isDone] using done)⟩
  | between | number | dot | colon | operator | constant | afterConstant | label | refused =>
      cases done

/-! ## Fixed texts -/

theorem isBreak_of_isTemplateChar {c : Char} (fixed : isTemplateChar c) : isBreak c = false := by
  rw [isBreak, Bool.or_eq_false_iff, beq_eq_false_iff_ne, beq_eq_false_iff_ne]
  constructor <;> rintro rfl <;> revert fixed <;> decide

theorem not_of_boundary {c : Char} (boundary : isBoundary c) (fixed : isTemplateChar c) :
    isWordPart c = false ∧ c.isDigit = false ∧ c ≠ '\'' ∧ c ≠ '"' ∧ c ≠ '&' ∧ isBreak c = false := by
  have amp : c ≠ '&' := by
    rintro rfl
    revert fixed
    decide
  simp only [isBoundary, Bool.and_eq_true, Bool.not_eq_true', bne_iff_ne] at boundary
  obtain ⟨⟨noPart, noQuote⟩, noDoubleQuote⟩ := boundary
  have noDigit : c.isDigit = false := by
    simp only [isWordPart, isWordStart, Char.isAlphanum, Bool.or_eq_false_iff] at noPart
    exact noPart.1.1.1.2
  exact ⟨noPart, noDigit, noQuote, noDoubleQuote, amp, isBreak_of_isTemplateChar fixed⟩

theorem next_of_isDone {r : Scan} (done : r.isDone) {settled : List Lexeme}
    (settles : r.settle? = some settled) {c : Char} (boundary : isBoundary c)
    (fixed : isTemplateChar c) :
    (r.next c).1 = settled ++ (between.next c).1 ∧ (r.next c).2.Alike (between.next c).2 := by
  obtain ⟨noPart, noDigit, noQuote, noDoubleQuote, amp, unbroken⟩ := not_of_boundary boundary fixed
  have again : r.restart c = (settled ++ (start c).1, (start c).2) := by simp [restart, settles]
  have ends (same : r.next c = r.restart c) :
      (r.next c).1 = settled ++ (between.next c).1 ∧
        (r.next c).2.Alike (between.next c).2 := by
    rw [same, again]
    exact ⟨rfl, .inl rfl⟩
  cases r with
  | word read => exact ends (by simp [next, noPart, isMark, noQuote, amp])
  | parameter read => exact ends (by simp [next, noDigit, noPart])
  | labelEnd read => exact ends (by simp [next, noDoubleQuote])
  | constantEnd read =>
      cases blank : isBlank c with
      | false => exact ends (by simp [next, noQuote, blank])
      | true =>
          -- a blank after a constant could be the first of those that continue it
          have stays : between.next c = ([.blank c], between) := by simp [next, start, blank]
          cases settles
          rw [stays]
          simp only [next, beq_eq_false_iff_ne.mpr noQuote, blank, unbroken, Bool.false_eq_true,
            if_false, if_true]
          exact ⟨rfl, .inr ⟨rfl, rfl⟩⟩
  | between | number | dot | colon | operator | constant | afterConstant | label | refused =>
      cases done

theorem next_of_isIdle {r : Scan} (idle : r.isIdle) {c : Char} (unbroken : isBreak c = false) :
    r.next c = if isBlank c then ([.blank c], r) else start c := by
  rcases isIdle_iff.mp idle with rfl | rfl
  · cases blank : isBlank c <;> simp [next, start, blank]
  · cases blank : isBlank c <;> simp [next, blank, unbroken]

theorem next_alike {r other : Scan} (alike : r.Alike other) {c : Char}
    (unbroken : isBreak c = false) :
    (r.next c).1 = (other.next c).1 ∧ (r.next c).2.Alike (other.next c).2 := by
  rcases alike with rfl | ⟨first, second⟩
  · exact ⟨rfl, .inl rfl⟩
  · rw [next_of_isIdle first unbroken, next_of_isIdle second unbroken]
    split
    · exact ⟨rfl, .inr ⟨first, second⟩⟩
    · exact ⟨rfl, .inl rfl⟩

theorem run_alike {r other : Scan} (alike : r.Alike other) {cs : List Char}
    (unbroken : ∀ c ∈ cs, isBreak c = false) :
    (r.run cs).1 = (other.run cs).1 ∧ (r.run cs).2.Alike (other.run cs).2 := by
  induction cs generalizing r other with
  | nil => exact ⟨rfl, alike⟩
  | cons c rest induction =>
      obtain ⟨here, goesOn⟩ := next_alike alike (unbroken c List.mem_cons_self)
      obtain ⟨later, ends⟩ := induction goesOn fun d member =>
        unbroken d (List.mem_cons_of_mem c member)
      exact ⟨by rw [run, run, here, later], ends⟩

/-- A fixed text is read as it is by itself, from wherever it may stand. -/
theorem run_fixed {r : Scan} {s : String} (fixed : isTemplate s)
    (stands : r.isIdle ∨ r.isDone ∧ opensWithBoundary s) {before : List Lexeme}
    (settles : r.settle? = some before) :
    (r.run s.toList).1 = before ++ (between.run s.toList).1 ∧
      (r.run s.toList).2.Alike (between.run s.toList).2 := by
  have chars := isTemplateChar_of_isTemplate fixed
  have unbroken : ∀ c ∈ s.toList, isBreak c = false := fun c member =>
    isBreak_of_isTemplateChar (chars c member)
  rcases stands with idle | ⟨done, opens⟩
  · cases (settle?_of_isIdle idle).symm.trans settles
    exact run_alike (.inr ⟨idle, rfl⟩) unbroken
  · obtain ⟨c, first, boundary⟩ := (Option.any_eq_true _ _).mp opens
    obtain ⟨rest, text⟩ := List.head?_eq_some_iff.mp first
    rw [text] at chars unbroken ⊢
    obtain ⟨here, alike⟩ := next_of_isDone done settles boundary (chars c List.mem_cons_self)
    obtain ⟨later, ends⟩ := run_alike alike fun d member =>
      unbroken d (List.mem_cons_of_mem c member)
    exact ⟨by rw [run, run, here, later, List.append_assoc], ends⟩

theorem run_template {s : String} (fixed : isTemplate s) :
    if closesWithDot s then (between.run s.toList).2 = .dot
    else if closesWithBoundary s then (between.run s.toList).2 = .between
    else (between.run s.toList).2.isDone := by
  have each : ∀ s ∈ templates, if closesWithDot s then (between.run s.toList).2 = .dot
      else if closesWithBoundary s then (between.run s.toList).2 = .between
      else (between.run s.toList).2.isDone := by decide +kernel
  exact each s (List.contains_iff_mem.mp fixed)

/-! ## Reading on -/

def Reads (r : Scan) (cs : List Char) (lexemes : List Lexeme) : Prop :=
  ∀ before, r.settle? = some before → r.finish? cs = some (before ++ lexemes)

theorem Reads.append {r : Scan} {front back : List Char} {first second : List Lexeme}
    (reads : r.Reads front first) (later : (r.run front).2.Reads back second) :
    r.Reads (front ++ back) (first ++ second) := by
  intro before settles
  obtain ⟨after, ends, whole⟩ := Option.map_eq_some_iff.mp (reads before settles)
  rw [finish?_append, later after ends, Option.map_some, ← List.append_assoc, whole,
    List.append_assoc]

theorem Reads.spelled {r : Scan} {cs : List Char} {lexemes : List Lexeme}
    (reads : r.Reads cs lexemes) (settles : (r.settle?).isSome) : spelled lexemes = cs := by
  obtain ⟨before, settled⟩ := Option.isSome_iff_exists.mp settles
  have whole := spelled_finish? (reads before settled)
  rw [spelled_append, spelled_of_settle? settled] at whole
  exact List.append_cancel_left whole

theorem reads_of_alike {r : Scan} {cs : List Char}
    (alike : ∀ before, r.settle? = some before →
      (r.run cs).1 = before ++ (between.run cs).1 ∧ (r.run cs).2.Alike (between.run cs).2)
    (ends : (between.run cs).2.settle?.isSome) : r.Reads cs ((lexemes? cs).getD []) := by
  intro before settles
  obtain ⟨same, alike⟩ := alike before settles
  obtain ⟨after, settled⟩ := Option.isSome_iff_exists.mp ends
  simp [finish?, lexemes?, same, alike.settle?, settled]

/-! ## Names -/

theorem isWordStart_of_identifier {c : Char} (allowed : isIdentifierChar c) : isWordStart c := by
  simp only [isIdentifierChar, Bool.or_eq_true] at allowed
  show ((c.isUpper || c.isLower) || c.isDigit || c == '_' || decide (0x80 ≤ c.toNat)) = true
  simp only [Bool.or_eq_true]
  rcases allowed with (lower | underscore) | digit
  · exact .inl (.inl (.inl (.inr lower)))
  · exact .inl (.inr underscore)
  · exact .inl (.inl (.inr digit))

theorem isWordPart_of_identifier {c : Char} (allowed : isIdentifierChar c) : isWordPart c := by
  rw [isWordPart, isWordStart_of_identifier allowed, Bool.true_or]

theorem start_of_identifier {c : Char} (starts : isIdentifierStart c) :
    start c = ([], .word [c]) ∧ c.isDigit = false ∧ c ≠ '.' := by
  have part := isWordStart_of_identifier (isIdentifierChar_of_start starts)
  have different {d : Char} (refused : isIdentifierStart d = false) : c ≠ d := by
    rintro rfl
    rw [starts] at refused
    cases refused
  have noDigit : c.isDigit = false := by
    simp only [isIdentifierStart, Bool.or_eq_true, beq_iff_eq] at starts
    rcases starts with lower | rfl
    · simp only [Char.isDigit, ge_iff_le, Bool.and_eq_false_imp, decide_eq_true_eq,
        decide_eq_false_iff_not, UInt32.le_iff_toNat_le]
      intro _ small
      exact absurd (Nat.le_trans (lower_range lower).1 small) (by decide)
    · decide
  have noBlank : isBlank c = false := by
    simp [isBlank, isBreak, different (d := ' ') (by decide), different (d := '\t') (by decide),
      different (d := '\x0c') (by decide), different (d := '\n') (by decide),
      different (d := '\r') (by decide)]
  refine ⟨?_, noDigit, different (by decide)⟩
  simp [start, noBlank, noDigit, part]

theorem next_of_start {r : Scan} (stands : r.isIdle ∨ r = .dot) {before : List Lexeme}
    (settles : r.settle? = some before) {c : Char} (starts : isIdentifierStart c) :
    r.next c = (before, .word [c]) := by
  obtain ⟨begins, noDigit, noDot⟩ := start_of_identifier starts
  rcases stands with idle | rfl
  · cases (settle?_of_isIdle idle).symm.trans settles
    have noBlank : isBlank c = false := by
      cases blank : isBlank c with
      | false => rfl
      | true => simp [start, blank] at begins
    have unbroken : isBreak c = false := by
      simp only [isBlank, Bool.or_eq_false_iff] at noBlank
      exact noBlank.2
    rw [next_of_isIdle idle unbroken, noBlank, if_neg Bool.false_ne_true, begins]
  · cases settles
    simp [next, restart, settle?, noDigit, noDot, begins]

theorem run_word (read : List Char) {cs : List Char} (parts : ∀ c ∈ cs, isWordPart c) :
    (word read).run cs = ([], .word (read ++ cs)) := by
  induction cs generalizing read with
  | nil => simp [run]
  | cons c rest induction =>
      have here := parts c List.mem_cons_self
      have later := induction (read ++ [c]) fun d member => parts d (List.mem_cons_of_mem c member)
      simp [run, next, here, later]

theorem reads_word {r : Scan} (stands : r.isIdle ∨ r = .dot) {w : List Char}
    (isWord : isIdentifierWord w) : r.Reads w [.word w] ∧ (r.run w).2 = .word w := by
  obtain ⟨c, rest, rfl⟩ : ∃ c rest, w = c :: rest := by
    cases w with
    | nil => cases isWord
    | cons c rest => exact ⟨c, rest, rfl⟩
  have starts : isIdentifierStart c := (Bool.and_eq_true_iff.mp isWord).1
  have parts : ∀ d ∈ rest, isWordPart d := fun d member =>
    isWordPart_of_identifier (isIdentifierWord_chars isWord d (List.mem_cons_of_mem c member))
  have others : (word [c]).run rest = ([], .word (c :: rest)) := run_word [c] parts
  have runs {before : List Lexeme} (settles : r.settle? = some before) :
      r.run (c :: rest) = (before, .word (c :: rest)) := by
    simp [run, next_of_start stands settles starts, others]
  obtain ⟨before, settles⟩ : ∃ before, r.settle? = some before := by
    rcases stands with idle | rfl
    · exact ⟨_, settle?_of_isIdle idle⟩
    · exact ⟨_, rfl⟩
  refine ⟨fun before settles => ?_, by rw [runs settles]⟩
  rw [finish?, runs settles]
  rfl

theorem reads_break (w : List Char) : (word w).Reads ['\n'] [.blank '\n'] ∧
    ((word w).run ['\n']).2 = .between := by
  have noPart : isWordPart '\n' = false := by decide
  have begins : start '\n' = ([.blank '\n'], .between) := by decide
  have runs : (word w).run ['\n'] = ([.word w, .blank '\n'], .between) := by
    simp [run, next, noPart, isMark, restart, settle?, begins]
  refine ⟨fun before settles => ?_, by rw [runs]⟩
  cases settles
  rw [finish?, runs]
  rfl

/-- An identifier is read alike wherever it may begin, and then any boundary may follow. -/
theorem reads_identifier {s : String} (valid : isIdentifier s) :
    ∃ lexemes : List Lexeme, (∀ lexeme ∈ lexemes, lexeme.isOfName) ∧
      ∀ r : Scan, r.isIdle ∨ r = .dot → r.Reads s.toList lexemes ∧
        ((r.run s.toList).2.isIdle ∨ (r.run s.toList).2.isDone) := by
  obtain ⟨w, isWord, whole⟩ := isIdentifier_iff.mp valid
  rcases whole with whole | whole
  · refine ⟨[.word w], by simpa [Lexeme.isOfName] using isWord, fun r stands => ?_⟩
    obtain ⟨reads, ends⟩ := reads_word stands isWord
    rw [whole, ends]
    exact ⟨reads, .inr rfl⟩
  · -- an identifier is checked up to a last line end, so one may follow the word
    refine ⟨[.word w] ++ [.blank '\n'], by simpa [Lexeme.isOfName] using isWord,
      fun r stands => ?_⟩
    obtain ⟨reads, ends⟩ := reads_word stands isWord
    obtain ⟨breaks, atEnd⟩ := reads_break w
    rw [whole, run_append, ends, atEnd]
    exact ⟨reads.append (ends ▸ breaks), .inl rfl⟩

theorem reads_dot {r : Scan} (stands : r.isIdle ∨ r.isDone) :
    r.Reads ".".toList [.symbol ['.']] ∧ (r.run ".".toList).2 = .dot := by
  have alone : (between.run ".".toList).2 = .dot := by decide
  have stands : r.isIdle ∨ r.isDone ∧ opensWithBoundary "." :=
    stands.imp_right fun done => ⟨done, by decide⟩
  have alike {before : List Lexeme} (settles : r.settle? = some before) :=
    run_fixed (by decide : isTemplate ".") stands settles
  constructor
  · exact reads_of_alike (fun _ => alike) (by rw [alone]; rfl)
  · obtain ⟨before, settles⟩ : ∃ before, r.settle? = some before := by
      rcases stands with idle | ⟨done, _⟩
      · exact ⟨_, settle?_of_isIdle idle⟩
      · exact settle?_of_isDone done
    rcases (alike settles).2 with same | ⟨_, idle⟩
    · rw [same, alone]
    · rw [alone] at idle
      cases idle

theorem reads_bareName {s : String} (bare : IsBareName s) :
    ∃ lexemes : List Lexeme, (∀ lexeme ∈ lexemes, lexeme.isOfName) ∧
      ∀ r : Scan, r.isIdle ∨ r = .dot → r.Reads s.toList lexemes ∧
        ((r.run s.toList).2.isIdle ∨ (r.run s.toList).2.isDone) := by
  rcases bare with valid | ⟨front, back, owner, valid, rfl⟩
  · exact reads_identifier valid
  · obtain ⟨first, firstNamed, firstReads⟩ := reads_identifier owner
    obtain ⟨last, lastNamed, lastReads⟩ := reads_identifier valid
    refine ⟨first ++ [.symbol ['.']] ++ last, fun lexeme member => ?_, fun r stands => ?_⟩
    · simp only [List.mem_append, List.mem_singleton] at member
      rcases member with (owned | rfl) | named
      · exact firstNamed lexeme owned
      · rfl
      · exact lastNamed lexeme named
    · obtain ⟨reads, ends⟩ := firstReads r stands
      obtain ⟨dots, atDot⟩ := reads_dot ends
      have atEnd : (r.run (front.toList ++ ".".toList)).2 = .dot := by rw [run_append, atDot]
      obtain ⟨later, finishes⟩ := lastReads .dot (.inr rfl)
      rw [String.toList_append, String.toList_append, run_append, atEnd]
      exact ⟨(reads.append dots).append (atEnd ▸ later), finishes⟩

/-! ## Quoted texts and parameters -/

theorem run_constant (read : List Char) {cs : List Char} (noZero : '\x00' ∉ cs) :
    (constant read).run (doubling (· == '\'') cs ++ ['\'']) = ([], .constantEnd (read ++ cs)) := by
  induction cs generalizing read with
  | nil => simp [run, doubling, next]
  | cons c rest induction =>
      have here : c ≠ '\x00' := fun same => noZero (by simp [same])
      have later := induction (read ++ [c]) fun member => noZero (List.mem_cons_of_mem c member)
      by_cases quote : c = '\''
      · subst quote
        simp [doubling, run, next, later]
      · simp [doubling, run, next, quote, here, later]

/-- Inside a label a doubled quote is read as one; a percent sign stays doubled. -/
theorem run_label (read : List Char) {cs : List Char} (noZero : '\x00' ∉ cs) :
    (label read).run (doubling (fun c => c == '"' || c == '%') cs ++ ['"']) =
      ([], .labelEnd (read ++ doubling (· == '%') cs)) := by
  induction cs generalizing read with
  | nil => simp [run, doubling, next]
  | cons c rest induction =>
      have here : c ≠ '\x00' := fun same => noZero (by simp [same])
      have later (read : List Char) := induction read fun member =>
        noZero (List.mem_cons_of_mem c member)
      by_cases quote : c = '"'
      · subst quote
        simp [doubling, run, next, later]
      · by_cases percent : c = '%'
        · subst percent
          simp [doubling, run, next, later]
        · simp [doubling, run, next, quote, percent, here, later]

theorem run_parameter (digits : List Char) {cs : List Char} (numeric : ∀ c ∈ cs, c.isDigit) :
    (parameter digits).run cs = ([], .parameter (digits ++ cs)) := by
  induction cs generalizing digits with
  | nil => simp [run]
  | cons c rest induction =>
      have here := numeric c List.mem_cons_self
      have later := induction (digits ++ [c]) fun d member =>
        numeric d (List.mem_cons_of_mem c member)
      simp [run, next, here, later]

theorem next_of_opening {r : Scan} (idle : r.isIdle) {c : Char} (opening : c ∈ ['\'', '"', '$']) :
    r.next c = start c := by
  have ⟨unbroken, noBlank⟩ : isBreak c = false ∧ isBlank c = false := by
    simp only [List.mem_cons, List.not_mem_nil, or_false] at opening
    rcases opening with rfl | rfl | rfl <;> decide
  rw [next_of_isIdle idle unbroken, noBlank, if_neg Bool.false_ne_true]

/-! ## Pieces -/

def Ready (r : Scan) (free : Bool) (fragment : Fragment π) : Prop :=
  r.isIdle ∨ free = false ∧ r.isDone ∨ r = .dot ∧ ∃ n rest, fragment = .name n :: rest

theorem Ready.isIdle {r : Scan} {piece : Piece π} {rest : Fragment π}
    (ready : r.Ready true (piece :: rest)) (noName : ∀ n, piece ≠ .name n) : r.isIdle := by
  rcases ready with idle | ⟨closed, _⟩ | ⟨_, n, _, same⟩
  · exact idle
  · cases closed
  · exact absurd (List.cons.inj same).1 (noName n)

theorem Ready.settles {r : Scan} {free : Bool} {fragment : Fragment π}
    (ready : r.Ready free fragment) : r.settle?.isSome := by
  rcases ready with idle | ⟨_, done⟩ | ⟨rfl, _⟩
  · rw [settle?_of_isIdle idle]
    rfl
  · obtain ⟨settled, settles⟩ := settle?_of_isDone done
    rw [settles]
    rfl
  · rfl

theorem reads_fixed {r : Scan} {free : Bool} {s : String} {rest : Fragment π}
    (ready : r.Ready free (.fixed s :: rest)) (opens : (free || opensWithBoundary s) = true)
    (fixed : isTemplate s) (leads : (Piece.fixed s).Leads rest) :
    r.Reads s.toList ((lexemes? s.toList).getD []) ∧
      (r.run s.toList).2.Ready (closesWithBoundary s) rest := by
  have stands : r.isIdle ∨ r.isDone ∧ opensWithBoundary s := by
    rcases ready with idle | ⟨rfl, done⟩ | ⟨_, n, others, same⟩
    · exact .inl idle
    · exact .inr ⟨done, opens⟩
    · cases same
  have ends := run_template fixed
  have alike {before : List Lexeme} (settles : r.settle? = some before) :=
    run_fixed fixed stands settles
  obtain ⟨before, settles⟩ := Option.isSome_iff_exists.mp ready.settles
  obtain ⟨_, same⟩ := alike settles
  split at ends
  · rename_i dot
    refine ⟨reads_of_alike (fun _ => alike) (by rw [ends]; rfl), .inr (.inr ⟨?_, leads dot⟩)⟩
    rcases same with same | ⟨_, idle⟩
    · rw [same, ends]
    · rw [ends] at idle
      cases idle
  · split at ends
    · refine ⟨reads_of_alike (fun _ => alike) (by rw [ends]; rfl), .inl ?_⟩
      rcases same with same | ⟨idle, _⟩
      · rw [same, ends]
        rfl
      · exact idle
    · rename_i closes
      obtain ⟨settled, settles⟩ := settle?_of_isDone ends
      refine ⟨reads_of_alike (fun _ => alike) (by rw [settles]; rfl), ?_⟩
      rcases same with same | ⟨idle, _⟩
      · exact .inr (.inl ⟨Bool.eq_false_iff.mpr closes, same ▸ ends⟩)
      · exact .inl idle

theorem reads_name {r : Scan} {free : Bool} {s : String} {rest : Fragment π}
    (ready : r.Ready free (.name s :: rest)) (opens : free = true) (bare : IsBareName s) :
    r.Reads s.toList ((lexemes? s.toList).getD []) ∧ (r.run s.toList).2.Ready false rest := by
  have stands : r.isIdle ∨ r = .dot := by
    rcases ready with idle | ⟨closed, _⟩ | ⟨dot, _⟩
    · exact .inl idle
    · exact absurd (opens.symm.trans closed) (by decide)
    · exact .inr dot
  obtain ⟨lexemes, _, reads⟩ := reads_bareName bare
  have alone : lexemes? s.toList = some lexemes := (reads between (.inl rfl)).1 [] rfl
  obtain ⟨here, ends⟩ := reads r stands
  rw [alone]
  exact ⟨here, ends.imp_right fun done => .inl ⟨rfl, done⟩⟩

theorem reads_single {r begun read : Scan} {c : Char} {cs : List Char} {lexeme : Lexeme}
    (idle : r.isIdle) (opening : c ∈ ['\'', '"', '$']) (begins : start c = ([], begun))
    (runs : begun.run cs = ([], read)) (done : read.isDone)
    (settles : read.settle? = some [lexeme]) (rest : Fragment π) :
    r.Reads (c :: cs) [lexeme] ∧ (r.run (c :: cs)).2.Ready false rest := by
  have first := next_of_opening idle opening
  have whole : r.run (c :: cs) = ([], read) := by simp [run, first, begins, runs]
  refine ⟨fun before settled => ?_, ?_⟩
  · cases (settle?_of_isIdle idle).symm.trans settled
    simp [finish?, whole, settles]
  · rw [whole]
    exact .inr (.inl ⟨rfl, done⟩)

/-- A piece is read as its own lexemes, and the scan is ready for the next piece. -/
theorem reads_piece (number : π → Nat) {r : Scan} {free : Bool} {piece : Piece π}
    {rest : Fragment π} (ready : r.Ready free (piece :: rest))
    (legible : Fragment.Legible IsBareName free (piece :: rest)) (quotable : piece.IsQuotable) :
    r.Reads (piece.write fun p => placeholder (number p)).toList (piece.lexemes number) ∧
      (r.run (piece.write fun p => placeholder (number p)).toList).2.Ready piece.closes rest := by
  obtain ⟨opens, fits, leads, _⟩ := legible
  have quotes (begins : piece.opens = false) (noName : ∀ n, piece ≠ .name n) : r.isIdle := by
    rw [begins, Bool.or_false] at opens
    exact (opens ▸ ready).isIdle noName
  cases piece with
  | fixed s => exact reads_fixed ready opens fits leads
  | name s => exact reads_name ready (by simpa [Piece.opens] using opens) fits
  | literal s =>
      have text : (Sql.literal s).toList = '\'' :: (doubling (· == '\'') s.toList ++ ['\'']) := by
        rw [Sql.literal, String.toList_ofList, List.cons_append]
      rw [Piece.write, text]
      have begins : start '\'' = ([], .constant []) := by decide
      exact reads_single (quotes rfl (by simp)) (by decide) begins (run_constant [] quotable) rfl rfl
        rest
  | label s =>
      have begins : start '"' = ([], .label []) := by decide
      have text : (Sql.label s).toList =
          '"' :: (doubling (fun c => c == '"' || c == '%') s.toList ++ ['"']) := by
        rw [Sql.label, String.toList_ofList, List.cons_append]
      have named : (doubling (· == '%') s.toList).isEmpty = false := by
        cases letters : s.toList with
        | nil => exact absurd (String.toList_eq_nil_iff.mp letters) quotable.1
        | cons c cs => by_cases percent : c = '%' <;> simp [doubling, percent]
      rw [Piece.write, text]
      exact reads_single (quotes rfl (by simp)) (by decide) begins (run_label [] quotable.2)
        (by simp [isDone, named]) (by simp [settle?, named]) rest
  | param p =>
      have numeric : ∀ c ∈ Nat.toDigits 10 (number p), c.isDigit := fun c member =>
        Nat.isDigit_of_mem_toDigits (by decide) (by decide) member
      have numbered : (Nat.toDigits 10 (number p)).isEmpty = false :=
        List.isEmpty_eq_false_iff.mpr Nat.toDigits_ne_nil
      have begins : start '$' = ([], .parameter []) := by decide
      rw [Piece.write, toList_placeholder]
      exact reads_single (quotes rfl (by simp)) (by decide) begins (run_parameter [] numeric)
        (by simp [isDone, numbered]) (by simp [settle?, numbered]) rest

end Scan

namespace Fragment

/-- A legible fragment with bare names is split into the lexemes of its pieces, from wherever it
may stand, and the lexemes of each piece spell this piece. -/
theorem Legible.reads {free : Bool} {fragment : Fragment π}
    (legible : Legible IsBareName free fragment)
    (quotable : ∀ piece ∈ fragment, piece.IsQuotable) (number : π → Nat) {r : Scan}
    (ready : r.Ready free fragment) :
    r.Reads (fragment.write fun p => placeholder (number p)).toList
        (fragment.flatMap (Piece.lexemes number)) ∧
      ∀ piece ∈ fragment,
        spelled (piece.lexemes number) = (piece.write fun p => placeholder (number p)).toList := by
  -- Each piece leaves the scan ready for the rest, which is legible from there on.
  induction fragment generalizing free r with
  | nil => exact ⟨fun before settles => by simpa [write] using settles, nofun⟩
  | cons piece rest induction =>
      obtain ⟨reads, goesOn⟩ :=
        Scan.reads_piece number ready legible (quotable piece List.mem_cons_self)
      obtain ⟨later, others⟩ := induction legible.2.2.2
        (fun other member => quotable other (List.mem_cons_of_mem piece member)) goesOn
      refine ⟨?_, fun other member => ?_⟩
      · rw [write_cons, List.flatMap_cons]
        exact reads.append later
      · rcases List.mem_cons.mp member with rfl | member
        · exact reads.spelled ready.settles
        · exact others other member

end Fragment

end Sql

end TenantSql
