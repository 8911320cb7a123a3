import TenantSql.Proofs.Sql.Token

/-!
# Lexemes of SQL text

How PostgreSQL splits a text into lexemes, with standard strings: blanks, words,
numbers, parameters, constants, labels, and punctuation and operators. Here
every character counts: what is written right after a number, a parameter or a
constant decides how it is read.

Lexemes of other kinds are refused, and with them the whole text: comments,
constants with a mark in front or in dollar signs, constants that are continued
on another line, numbers that are not whole, and operators that end in a sign.
Nothing may hold the character zero, and no label is empty. So a text that is
not refused is split in this one way.
-/

namespace TenantSql.Sql

inductive Lexeme where
  | blank (c : Char)
  | word (spelling : List Char)
  | number (digits : List Char)
  | parameter (digits : List Char)
  | constant (value : List Char)
  | label (name : List Char)
  | symbol (spelling : List Char)
  deriving DecidableEq, Repr

def Lexeme.spelling : Lexeme → List Char
  | .blank c => [c]
  | .word spelling | .number spelling | .symbol spelling => spelling
  | .parameter digits => '$' :: digits
  | .constant value => '\'' :: doubling (· == '\'') value ++ ['\'']
  | .label name => '"' :: doubling (· == '"') name ++ ['"']

def spelled (lexemes : List Lexeme) : List Char :=
  lexemes.flatMap Lexeme.spelling

@[simp] theorem spelled_nil : spelled [] = [] := rfl

@[simp] theorem spelled_cons (first : Lexeme) (rest : List Lexeme) :
    spelled (first :: rest) = first.spelling ++ spelled rest := rfl

@[simp] theorem spelled_append (front back : List Lexeme) :
    spelled (front ++ back) = spelled front ++ spelled back :=
  List.flatMap_append

/-! ## Characters -/

def isBreak (c : Char) : Bool :=
  c == '\n' || c == '\r'

def isBlank (c : Char) : Bool :=
  c == ' ' || c == '\t' || c == '\x0c' || isBreak c

def isOperatorChar (c : Char) : Bool :=
  "~!@#^&|`?+-*/%<>=".toList.contains c

def isPunctuation (c : Char) : Bool :=
  ",()[];".toList.contains c

def isMark (word : List Char) (c : Char) : Bool :=
  let small := word.map Char.toLower
  c == '\'' && [['b'], ['e'], ['n'], ['x']].contains small || c == '&' && small == ['u']

def opensComment (before : Option Char) (c : Char) : Bool :=
  before == some '-' && c == '-' || before == some '/' && c == '*'

/-! ## Scanning -/

inductive Scan where
  | between
  | word (read : List Char)
  | number (read : List Char)
  | parameter (digits : List Char)
  | dot
  | colon
  | operator (read : List Char)
  | constant (read : List Char)
  | constantEnd (read : List Char)
  | afterConstant (broken : Bool)
  | label (read : List Char)
  | labelEnd (read : List Char)
  | refused
  deriving DecidableEq, Repr

namespace Scan

def settle? : Scan → Option (List Lexeme)
  | .between | .afterConstant _ => some []
  | .word read => some [.word read]
  | .number read => some [.number read]
  | .parameter digits => if digits.isEmpty then none else some [.parameter digits]
  | .dot => some [.symbol ['.']]
  | .colon => some [.symbol [':']]
  | .operator read =>
      if read.length != 1 && read.getLast?.any "+-".toList.contains then none
      else some [.symbol read]
  | .constantEnd read => some [.constant read]
  | .labelEnd read => if read.isEmpty then none else some [.label read]
  | .constant _ | .label _ | .refused => none

def start (c : Char) : List Lexeme × Scan :=
  if isBlank c then ([.blank c], .between)
  else if c.isDigit then ([], .number [c])
  else if isWordStart c then ([], .word [c])
  else if c == '$' then ([], .parameter [])
  else if c == '\'' then ([], .constant [])
  else if c == '"' then ([], .label [])
  else if c == '.' then ([], .dot)
  else if c == ':' then ([], .colon)
  else if isOperatorChar c then ([], .operator [c])
  else if isPunctuation c then ([.symbol [c]], .between)
  else ([], .refused)

def restart (r : Scan) (c : Char) : List Lexeme × Scan :=
  match r.settle? with
  | some settled => (settled ++ (start c).1, (start c).2)
  | none => ([], .refused)

def next (r : Scan) (c : Char) : List Lexeme × Scan :=
  match r with
  | .between => start c
  | .word read =>
      if isWordPart c then ([], .word (read ++ [c]))
      else if isMark read c then ([], .refused)
      else r.restart c
  | .number read =>
      if c.isDigit then ([], .number (read ++ [c]))
      else if isWordPart c || c == '.' then ([], .refused)
      else r.restart c
  | .parameter digits =>
      if c.isDigit then ([], .parameter (digits ++ [c]))
      else if isWordPart c then ([], .refused)
      else r.restart c
  | .dot => if c.isDigit || c == '.' then ([], .refused) else r.restart c
  | .colon =>
      if c == ':' || c == '=' then ([.symbol [':', c]], .between) else r.restart c
  | .operator read =>
      if opensComment read.getLast? c then ([], .refused)
      else if isOperatorChar c then ([], .operator (read ++ [c]))
      else r.restart c
  | .constant read =>
      if c == '\x00' then ([], .refused)
      else if c == '\'' then ([], .constantEnd read)
      else ([], .constant (read ++ [c]))
  | .constantEnd read =>
      if c == '\'' then ([], .constant (read ++ [c]))
      else if isBlank c then ([.constant read, .blank c], .afterConstant (isBreak c))
      else r.restart c
  | .afterConstant broken =>
      if c == '\'' && broken then ([], .refused)
      else if isBlank c then ([.blank c], .afterConstant (broken || isBreak c))
      else start c
  | .label read =>
      if c == '\x00' then ([], .refused)
      else if c == '"' then ([], .labelEnd read)
      else ([], .label (read ++ [c]))
  | .labelEnd read => if c == '"' then ([], .label (read ++ [c])) else r.restart c
  | .refused => ([], .refused)

def run (r : Scan) : List Char → List Lexeme × Scan
  | [] => ([], r)
  | c :: rest => ((r.next c).1 ++ ((r.next c).2.run rest).1, ((r.next c).2.run rest).2)

def finish? (r : Scan) (cs : List Char) : Option (List Lexeme) :=
  (r.run cs).2.settle?.map ((r.run cs).1 ++ ·)

end Scan

def lexemes? (cs : List Char) : Option (List Lexeme) :=
  Scan.between.finish? cs

example : lexemes? "t.id <> $1 OR 'it''s'".toList =
    some [.word ['t'], .symbol ['.'], .word ['i', 'd'], .blank ' ', .symbol ['<', '>'], .blank ' ',
      .parameter ['1'], .blank ' ', .word ['O', 'R'], .blank ' ',
      .constant ['i', 't', '\'', 's']] := by
  decide +kernel

example : lexemes? "id = $1 --'".toList = none := by decide +kernel

example : lexemes? "id = b'1'".toList = none := by decide +kernel

namespace Scan

theorem run_append (r : Scan) (front back : List Char) :
    r.run (front ++ back) =
      ((r.run front).1 ++ ((r.run front).2.run back).1, ((r.run front).2.run back).2) := by
  induction front generalizing r with
  | nil => rfl
  | cons c rest induction => simp [run, induction]

theorem finish?_append (r : Scan) (front back : List Char) :
    r.finish? (front ++ back) = ((r.run front).2.finish? back).map ((r.run front).1 ++ ·) := by
  simp [finish?, run_append, Function.comp_def]

@[simp] theorem finish?_nil (r : Scan) : r.finish? [] = r.settle? := by
  simp [finish?, run]

@[simp] theorem run_refused (cs : List Char) : refused.run cs = ([], refused) := by
  induction cs with
  | nil => rfl
  | cons c rest induction => simp [run, next, induction]

/-! ## Lexemes spell the text -/

def pending : Scan → List Char
  | .between | .afterConstant _ | .refused => []
  | .word read | .number read | .operator read => read
  | .parameter digits => '$' :: digits
  | .dot => ['.']
  | .colon => [':']
  | .constant read => '\'' :: doubling (· == '\'') read
  | .constantEnd read => '\'' :: doubling (· == '\'') read ++ ['\'']
  | .label read => '"' :: doubling (· == '"') read
  | .labelEnd read => '"' :: doubling (· == '"') read ++ ['"']

theorem spelled_of_settle? {r : Scan} {settled : List Lexeme} (settles : r.settle? = some settled) :
    spelled settled = r.pending := by
  cases r with
  | parameter | operator | labelEnd =>
      cases (Option.ite_none_left_eq_some.mp settles).2
      simp [Lexeme.spelling, pending]
  | constant | label | refused => cases settles
  | between | afterConstant | word | number | dot | colon | constantEnd =>
      cases settles
      simp [Lexeme.spelling, pending]

def Spells (result : List Lexeme × Scan) (cs : List Char) : Prop :=
  result.2 = refused ∨ spelled result.1 ++ result.2.pending = cs

theorem Spells.ite {p : Prop} [Decidable p] {a b : List Lexeme × Scan} {cs : List Char}
    (yes : p → Spells a cs) (no : ¬ p → Spells b cs) : Spells (if p then a else b) cs := by
  by_cases holds : p
  · rw [if_pos holds]
    exact yes holds
  · rw [if_neg holds]
    exact no holds

theorem spells_start (c : Char) : Spells (start c) [c] := by
  have same {d : Char} (equal : (c == d) = true) : [d] = [c] := by rw [beq_iff_eq.mp equal]
  unfold start
  refine .ite (fun _ => .inr rfl) fun _ => ?blank
  refine .ite (fun _ => .inr rfl) fun _ => ?digit
  refine .ite (fun _ => .inr rfl) fun _ => ?letter
  refine .ite (fun dollar => .inr (same dollar)) fun _ => ?dollar
  refine .ite (fun quote => .inr (same quote)) fun _ => ?quote
  refine .ite (fun quote => .inr (same quote)) fun _ => ?doubleQuote
  refine .ite (fun dot => .inr (same dot)) fun _ => ?dot
  refine .ite (fun colon => .inr (same colon)) fun _ => ?colon
  refine .ite (fun _ => .inr rfl) fun _ => ?operator
  exact .ite (fun _ => .inr rfl) fun _ => .inl rfl

theorem spells_restart (r : Scan) (c : Char) : Spells (r.restart c) (r.pending ++ [c]) := by
  unfold restart
  split
  · rename_i settled settles
    refine (spells_start c).imp_right fun spells => ?_
    rw [spelled_append, List.append_assoc, spells, spelled_of_settle? settles]
  · exact .inl rfl

theorem spells_next (r : Scan) (c : Char) : Spells (r.next c) (r.pending ++ [c]) := by
  have refuses {cs : List Char} : Spells ([], refused) cs := .inl rfl
  have again := spells_restart r c
  have quoted (q : Char) (read : List Char) :
      doubling (· == q) (read ++ [q]) = doubling (· == q) read ++ [q, q] := by
    simp [doubling_append, doubling]
  have kept (q : Char) (read : List Char) (different : ¬ (c == q) = true) :
      doubling (· == q) (read ++ [c]) = doubling (· == q) read ++ [c] := by
    simp [doubling_append, doubling, different]
  cases r with
  | between => exact spells_start c
  | refused => exact refuses
  | word read => exact .ite (fun _ => .inr rfl) fun _ => .ite (fun _ => refuses) fun _ => again
  | number read => exact .ite (fun _ => .inr rfl) fun _ => .ite (fun _ => refuses) fun _ => again
  | parameter read => exact .ite (fun _ => .inr rfl) fun _ => .ite (fun _ => refuses) fun _ => again
  | dot => exact .ite (fun _ => refuses) fun _ => again
  | colon => exact .ite (fun _ => .inr rfl) fun _ => again
  | operator read => exact .ite (fun _ => refuses) fun _ => .ite (fun _ => .inr rfl) fun _ => again
  | constant read =>
      refine .ite (fun _ => refuses) fun _ => .ite (fun quote => .inr ?_) fun other => .inr ?_
      · simp [pending, beq_iff_eq.mp quote]
      · simp [pending, kept _ read other]
  | constantEnd read =>
      refine .ite (fun quote => .inr ?_) fun _ => .ite (fun _ => .inr ?_) fun _ => again
      · simp [pending, quoted, beq_iff_eq.mp quote]
      · simp [pending, Lexeme.spelling]
  | afterConstant broken =>
      exact .ite (fun _ => refuses) fun _ => .ite (fun _ => .inr rfl) fun _ => spells_start c
  | label read =>
      refine .ite (fun _ => refuses) fun _ => .ite (fun quote => .inr ?_) fun other => .inr ?_
      · simp [pending, beq_iff_eq.mp quote]
      · simp [pending, kept _ read other]
  | labelEnd read =>
      refine .ite (fun quote => .inr ?_) fun _ => again
      simp [pending, quoted, beq_iff_eq.mp quote]

theorem spells_run (r : Scan) (cs : List Char) : Spells (r.run cs) (r.pending ++ cs) := by
  -- What is pending after a step is the front of the text for the rest of the run.
  induction cs generalizing r with
  | nil => exact .inr (by simp [run])
  | cons c rest induction =>
      rcases spells_next r c with refuses | here
      · exact .inl (by simp [run, refuses])
      · refine (induction (r.next c).2).imp_right fun later => ?_
        rw [run, spelled_append, List.append_assoc, later, ← List.append_assoc, here,
          List.append_assoc, List.singleton_append]

theorem spelled_finish? {r : Scan} {cs : List Char} {lexemes : List Lexeme}
    (read : r.finish? cs = some lexemes) : spelled lexemes = r.pending ++ cs := by
  obtain ⟨settled, settles, rfl⟩ := Option.map_eq_some_iff.mp read
  rcases spells_run r cs with refuses | spells
  · rw [refuses] at settles
    cases settles
  · rw [spelled_append, spelled_of_settle? settles, spells]

/-! ## The character zero -/

theorem next_zero (r : Scan) : (r.next '\x00').2 = refused := by
  have started : (start '\x00').2 = refused := by decide
  have again (r : Scan) : (r.restart '\x00').2 = refused := by
    unfold restart
    split
    · exact started
    · rfl
  have noPart : isWordPart '\x00' = false := by decide
  have noDigit : Char.isDigit '\x00' = false := by decide
  have noOperator : isOperatorChar '\x00' = false := by decide
  have noBlank : isBlank '\x00' = false := by decide
  cases r with
  | between => exact started
  | word =>
      simp only [next, noPart, Bool.false_eq_true, if_false]
      split
      · rfl
      · exact again _
  | operator =>
      simp only [next, noOperator, Bool.false_eq_true, if_false]
      split
      · rfl
      · exact again _
  | number | parameter | dot | colon | constant | constantEnd | afterConstant | label | labelEnd |
    refused =>
      simp [next, noPart, noDigit, noBlank, again, started]

end Scan

/-- The lexemes of a text spell it: no character is lost, and none is read twice. -/
theorem spelled_lexemes? {cs : List Char} {lexemes : List Lexeme}
    (read : lexemes? cs = some lexemes) : spelled lexemes = cs :=
  Scan.spelled_finish? read

theorem lexemes?_zero {cs : List Char} (zero : '\x00' ∈ cs) : lexemes? cs = none := by
  obtain ⟨front, back, rfl⟩ := List.append_of_mem zero
  have refuses : (Scan.between.run (front ++ '\x00' :: back)).2 = .refused := by
    simp [Scan.run_append, Scan.run, Scan.next_zero]
  simp [lexemes?, Scan.finish?, refuses, Scan.settle?]

end TenantSql.Sql
