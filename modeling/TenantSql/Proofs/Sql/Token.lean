import TenantSql.Sql.Draft

/-!
# Tokens of SQL text

How a text of SQL falls into tokens when it is read from left to right: words
and numbers, parameters, quoted constants and labels, and single signs. A
doubled quote inside quotes stands for itself. A text whose last quote is never
closed has no tokens.
-/

namespace TenantSql.Sql

inductive Token where
  | word (spelling : List Char)
  | parameter (number : Nat)
  | constant (value : List Char)
  | label (name : List Char)
  | sign (c : Char)
  deriving DecidableEq, Repr

def Token.parameter? : Token → Option Nat
  | .parameter number => some number
  | _ => none

def Token.isPlain : Token → Bool
  | .word _ | .sign _ => true
  | .parameter _ | .constant _ | .label _ => false

def isWordStart (c : Char) : Bool :=
  c.isAlphanum || c == '_' || decide (0x80 ≤ c.toNat)

def isWordPart (c : Char) : Bool :=
  isWordStart c || c == '$'

def isBoundary (c : Char) : Bool :=
  !isWordPart c && c != '\'' && c != '"'

inductive Reading where
  | between
  | word (read : List Char)
  | parameter (digits : List Char)
  | constant (read : List Char)
  | constantEnd (read : List Char)
  | label (read : List Char)
  | labelEnd (read : List Char)
  deriving DecidableEq, Repr

namespace Reading

def settle? : Reading → Option (List Token)
  | .between => some []
  | .word read => some [.word read]
  | .parameter [] => some [.sign '$']
  | .parameter digits => some [.parameter (Nat.ofDigitChars 10 digits 0)]
  | .constant _ | .label _ => none
  | .constantEnd read => some [.constant read]
  | .labelEnd read => some [.label read]

def start (c : Char) : List Token × Reading :=
  if c == '$' then ([], .parameter [])
  else if isWordStart c then ([], .word [c])
  else if c == '\'' then ([], .constant [])
  else if c == '"' then ([], .label [])
  else if Text.isWhiteSpace c then ([], .between)
  else ([.sign c], .between)

def restart (r : Reading) (c : Char) : List Token × Reading :=
  (r.settle?.getD [] ++ (start c).1, (start c).2)

def next (r : Reading) (c : Char) : List Token × Reading :=
  match r with
  | .between => start c
  | .word read => if isWordPart c then ([], .word (read ++ [c])) else r.restart c
  | .parameter digits => if c.isDigit then ([], .parameter (digits ++ [c])) else r.restart c
  | .constant read =>
      if c == '\'' then ([], .constantEnd read) else ([], .constant (read ++ [c]))
  | .constantEnd read => if c == '\'' then ([], .constant (read ++ [c])) else r.restart c
  | .label read => if c == '"' then ([], .labelEnd read) else ([], .label (read ++ [c]))
  | .labelEnd read => if c == '"' then ([], .label (read ++ [c])) else r.restart c

def run (r : Reading) : List Char → List Token × Reading
  | [] => ([], r)
  | c :: rest => ((r.next c).1 ++ ((r.next c).2.run rest).1, ((r.next c).2.run rest).2)

end Reading

def tokens? (cs : List Char) : Option (List Token) :=
  (Reading.between.run cs).2.settle?.map ((Reading.between.run cs).1 ++ ·)

def parameters? (text : String) : Option (List Nat) :=
  (tokens? text.toList).map (List.filterMap Token.parameter?)

example : parameters? "a = $12 AND b IN ('$3''$4', \"$5\")" = some [12] := by decide +kernel

namespace Reading

theorem run_append (r : Reading) (front back : List Char) :
    r.run (front ++ back) =
      ((r.run front).1 ++ ((r.run front).2.run back).1, ((r.run front).2.run back).2) := by
  induction front generalizing r with
  | nil => rfl
  | cons c rest induction => simp [run, induction]

theorem start_of_boundary {c : Char} (boundary : isBoundary c) : (start c).2 = .between := by
  simp only [isBoundary, isWordPart, Bool.and_eq_true, Bool.not_eq_true', Bool.or_eq_false_iff,
    bne_iff_ne] at boundary
  obtain ⟨⟨⟨noStart, noDollar⟩, noQuote⟩, noDoubleQuote⟩ := boundary
  simp only [start, noDollar, noStart, beq_eq_false_iff_ne.mpr noQuote,
    beq_eq_false_iff_ne.mpr noDoubleQuote, Bool.false_eq_true, if_false]
  split <;> rfl

/-- A boundary settles every reading that can be settled. -/
theorem next_of_boundary {r : Reading} {settled : List Token} (settles : r.settle? = some settled)
    {c : Char} (boundary : isBoundary c) : r.next c = (settled ++ (start c).1, .between) := by
  have started := start_of_boundary boundary
  simp only [isBoundary, isWordPart, Bool.and_eq_true, Bool.not_eq_true', Bool.or_eq_false_iff,
    bne_iff_ne] at boundary
  obtain ⟨⟨⟨noStart, noDollar⟩, noQuote⟩, noDoubleQuote⟩ := boundary
  have restarted : r.restart c = (settled ++ (start c).1, .between) := by
    simp [restart, settles, started]
  cases r with
  | between =>
      cases settles
      exact Prod.ext rfl started
  | word read => simpa [next, isWordPart, noStart, noDollar] using restarted
  | parameter digits =>
      have noDigit : c.isDigit = false := by
        simp only [isWordStart, Char.isAlphanum, Bool.or_eq_false_iff] at noStart
        exact noStart.1.1.2
      simpa [next, noDigit] using restarted
  | constant read => cases settles
  | constantEnd read => simpa [next, noQuote] using restarted
  | label read => cases settles
  | labelEnd read => simpa [next, noDoubleQuote] using restarted

theorem run_of_last_boundary {r : Reading} {cs : List Char} {settled : List Token}
    (settles : (r.run cs).2.settle? = some settled) {c : Char} (last : cs.getLast? = some c)
    (boundary : isBoundary c) : (r.run cs).2 = .between := by
  obtain ⟨front, rfl⟩ := List.getLast?_eq_some_iff.mp last
  rw [run_append] at settles ⊢
  generalize (r.run front).2 = before at settles ⊢
  simp only [run] at settles ⊢
  cases closed : before.settle? with
  | some tokens => rw [next_of_boundary closed boundary]
  | none =>
      simp only [isBoundary, Bool.and_eq_true, bne_iff_ne] at boundary
      cases before with
      | constant read => simp [next, boundary.1.2, settle?] at settles
      | label read => simp [next, boundary.2, settle?] at settles
      | parameter digits => cases digits <;> simp [settle?] at closed
      | between | word | constantEnd | labelEnd => simp [settle?] at closed

end Reading

/-! ## Texts one after another -/

def Meet (front back : List Char) : Prop :=
  (∃ c, front.getLast? = some c ∧ isBoundary c) ∨ back = [] ∨
    ∃ c, back.head? = some c ∧ isBoundary c

/-- Texts that meet at a boundary are read one after the other. -/
theorem tokens?_append {front back : List Char} (meet : Meet front back) {tokens : List Token}
    (read : tokens? front = some tokens) :
    tokens? (front ++ back) = (tokens? back).map (tokens ++ ·) := by
  obtain ⟨settled, settles, rfl⟩ := Option.map_eq_some_iff.mp read
  rw [tokens?, tokens?, Reading.run_append]
  rcases meet with ⟨c, last, boundary⟩ | rfl | ⟨c, first, boundary⟩
  · have between := Reading.run_of_last_boundary settles last boundary
    rw [between] at settles ⊢
    cases settles
    simp [Function.comp_def]
  · simp only [Reading.run, List.append_nil, settles]
    exact congrArg some (List.append_nil _).symm
  · obtain ⟨rest, rfl⟩ : ∃ rest, back = c :: rest := by
      cases back with
      | nil => cases first
      | cons d rest => cases first; exact ⟨rest, rfl⟩
    have started : Reading.between.next c = ((Reading.start c).1, .between) :=
      Prod.ext rfl (Reading.start_of_boundary boundary)
    simp [Reading.run, Reading.next_of_boundary settles boundary, started, Function.comp_def]

/-! ## The tokens of single texts -/

def isUnquoted (c : Char) : Bool :=
  c != '$' && c != '\'' && c != '"'

namespace Reading

def IsPlain (r : Reading) : Prop :=
  r = .between ∨ ∃ read, r = .word read

theorem start_of_unquoted {c : Char} (unquoted : isUnquoted c) :
    (start c).2.IsPlain ∧ (start c).1.all Token.isPlain := by
  simp only [isUnquoted, Bool.and_eq_true, bne_iff_ne] at unquoted
  obtain ⟨⟨noDollar, noQuote⟩, noDoubleQuote⟩ := unquoted
  simp only [start, beq_eq_false_iff_ne.mpr noDollar, beq_eq_false_iff_ne.mpr noQuote,
    beq_eq_false_iff_ne.mpr noDoubleQuote, Bool.false_eq_true, if_false]
  split
  · exact ⟨.inr ⟨_, rfl⟩, rfl⟩
  · split <;> exact ⟨.inl rfl, rfl⟩

theorem next_of_unquoted {r : Reading} (plain : r.IsPlain) {c : Char} (unquoted : isUnquoted c) :
    (r.next c).2.IsPlain ∧ (r.next c).1.all Token.isPlain := by
  have started := start_of_unquoted unquoted
  rcases plain with rfl | ⟨read, rfl⟩
  · exact started
  · simp only [next]
    split
    · exact ⟨.inr ⟨_, rfl⟩, rfl⟩
    · exact ⟨started.1, by simpa [restart, settle?, Token.isPlain] using started.2⟩

theorem run_of_unquoted {r : Reading} (plain : r.IsPlain) {cs : List Char}
    (unquoted : ∀ c ∈ cs, isUnquoted c) :
    (r.run cs).2.IsPlain ∧ (r.run cs).1.all Token.isPlain := by
  induction cs generalizing r with
  | nil => exact ⟨plain, rfl⟩
  | cons c rest induction =>
      have here := next_of_unquoted plain (unquoted c (by simp))
      have later := induction here.1 fun d member => unquoted d (by simp [member])
      exact ⟨later.1, by rw [run, List.all_append, here.2, later.2]; rfl⟩

theorem run_constant (read cs : List Char) (noQuote : '\'' ∉ cs) :
    (constant read).run cs = ([], .constant (read ++ cs)) := by
  induction cs generalizing read with
  | nil => simp [run]
  | cons c rest induction =>
      have different : c ≠ '\'' := fun equal => noQuote (by simp [equal])
      have absent : '\'' ∉ rest := fun member => noQuote (by simp [member])
      simp [run, next, different, induction _ absent]

theorem run_constant_doubling (read cs : List Char) :
    (constant read).run (doubling (· == '\'') cs) = ([], .constant (read ++ cs)) := by
  induction cs generalizing read with
  | nil => simp [run, doubling]
  | cons c rest induction =>
      by_cases quote : c = '\''
      · subst quote
        simp [doubling, run, next, induction]
      · simp [doubling, quote, run, next, induction]

theorem run_label_doubling (read cs : List Char) :
    (label read).run (doubling (fun c => c == '"' || c == '%') cs) =
      ([], .label (read ++ doubling (· == '%') cs)) := by
  induction cs generalizing read with
  | nil => simp [run, doubling]
  | cons c rest induction =>
      by_cases quote : c = '"'
      · subst quote
        simp [doubling, run, next, induction]
      · by_cases percent : c = '%'
        · subst percent
          simp [doubling, run, next, induction]
        · simp [doubling, quote, percent, run, next, induction]

theorem run_parameter (digits cs : List Char) (numeric : ∀ c ∈ cs, c.isDigit) :
    (parameter digits).run cs = ([], .parameter (digits ++ cs)) := by
  induction cs generalizing digits with
  | nil => simp [run]
  | cons c rest induction =>
      have here : c.isDigit := numeric c (by simp)
      simp [run, next, here, induction _ fun d member => numeric d (by simp [member])]

end Reading

theorem tokens?_of_unquoted {cs : List Char} (unquoted : ∀ c ∈ cs, isUnquoted c) :
    ∃ tokens, tokens? cs = some tokens ∧ ∀ token ∈ tokens, token.isPlain := by
  have ⟨plain, absent⟩ := Reading.run_of_unquoted (.inl rfl) unquoted
  rw [List.all_eq_true] at absent
  rw [tokens?]
  rcases plain with between | ⟨read, word⟩
  · exact ⟨_, by rw [between]; rfl, by simpa using absent⟩
  · refine ⟨_, by rw [word]; rfl, fun token member => ?_⟩
    rcases List.mem_append.mp member with earlier | last
    · exact absent token earlier
    · rw [List.mem_singleton.mp last]
      rfl

theorem parameters_of_isPlain {tokens : List Token} (plain : ∀ token ∈ tokens, token.isPlain) :
    tokens.filterMap Token.parameter? = [] := by
  rw [List.filterMap_eq_nil_iff]
  intro token member
  have plain := plain token member
  cases token with
  | word | sign => rfl
  | parameter | constant | label => cases plain

theorem tokens?_literal (s : String) : tokens? (literal s).toList = some [.constant s.toList] := by
  have opened : Reading.between.next '\'' = ([], .constant []) := rfl
  have ended : Reading.between.run (literal s).toList = ([], .constantEnd s.toList) := by
    rw [literal, String.toList_ofList, List.cons_append, Reading.run, opened, Reading.run_append,
      Reading.run_constant_doubling]
    rfl
  rw [tokens?, ended]
  rfl

theorem tokens?_label (s : String) :
    tokens? (label s).toList = some [.label (doubling (· == '%') s.toList)] := by
  have opened : Reading.between.next '"' = ([], .label []) := rfl
  have ended : Reading.between.run (label s).toList =
      ([], .labelEnd (doubling (· == '%') s.toList)) := by
    rw [label, String.toList_ofList, List.cons_append, Reading.run, opened, Reading.run_append,
      Reading.run_label_doubling]
    rfl
  rw [tokens?, ended]
  rfl

theorem toList_placeholder (number : Nat) :
    (placeholder number).toList = '$' :: Nat.toDigits 10 number := by
  simp [placeholder, String.toList_append, ToString.toString, Int.repr]

theorem tokens?_placeholder (number : Nat) :
    tokens? (placeholder number).toList = some [.parameter number] := by
  have opened : Reading.between.next '$' = ([], .parameter []) := rfl
  have numeric : ∀ c ∈ Nat.toDigits 10 number, c.isDigit := fun c member =>
    Nat.isDigit_of_mem_toDigits (by decide) (by decide) member
  have settled : (Reading.parameter (Nat.toDigits 10 number)).settle? =
      some [.parameter (Nat.ofDigitChars 10 (Nat.toDigits 10 number) 0)] := by
    cases digits : Nat.toDigits 10 number with
    | nil => exact absurd digits Nat.toDigits_ne_nil
    | cons c rest => rfl
  rw [toList_placeholder, tokens?, Reading.run, opened, Reading.run_parameter [] _ numeric]
  simp [settled, Nat.ofDigitChars_ten_toDigits]

theorem tokens?_mark_constant {cs : List Char} (noQuote : '\'' ∉ cs) :
    tokens? ('b' :: '\'' :: cs ++ ['\'']) = some [.word ['b'], .constant cs] := by
  have marked : Reading.between.next 'b' = ([], .word ['b']) := rfl
  have opened : (Reading.word ['b']).next '\'' = ([.word ['b']], .constant []) := rfl
  have ended : Reading.between.run ('b' :: '\'' :: cs ++ ['\'']) =
      ([.word ['b']], .constantEnd cs) := by
    rw [List.cons_append, Reading.run, marked, List.cons_append, Reading.run, opened,
      Reading.run_append, Reading.run_constant _ _ noQuote]
    rfl
  rw [tokens?, ended]
  rfl

/-! ## Texts without parameters -/

def HoldsNoParameter (text : String) : Prop :=
  parameters? text = some []

instance (text : String) : Decidable (HoldsNoParameter text) :=
  inferInstanceAs (Decidable (parameters? text = some []))

theorem holdsNoParameter_iff {text : String} : HoldsNoParameter text ↔
    ∃ tokens, tokens? text.toList = some tokens ∧ tokens.filterMap Token.parameter? = [] :=
  Option.map_eq_some_iff

theorem holdsNoParameter_of_unquoted {text : String} (unquoted : ∀ c ∈ text.toList, isUnquoted c) :
    HoldsNoParameter text := by
  obtain ⟨tokens, read, plain⟩ := tokens?_of_unquoted unquoted
  exact holdsNoParameter_iff.mpr ⟨tokens, read, parameters_of_isPlain plain⟩

theorem HoldsNoParameter.dotted {front back : String} (first : HoldsNoParameter front)
    (second : HoldsNoParameter back) : HoldsNoParameter (front ++ "." ++ back) := by
  obtain ⟨frontTokens, frontRead, frontPlain⟩ := holdsNoParameter_iff.mp first
  obtain ⟨backTokens, backRead, backPlain⟩ := holdsNoParameter_iff.mp second
  have dot : tokens? ".".toList = some [.sign '.'] := by decide +kernel
  refine holdsNoParameter_iff.mpr ⟨frontTokens ++ ([.sign '.'] ++ backTokens), ?_, ?_⟩
  · rw [String.toList_append, String.toList_append, List.append_assoc,
      tokens?_append (.inr (.inr ⟨'.', rfl, by decide⟩)) frontRead,
      tokens?_append (.inl ⟨'.', rfl, by decide⟩) dot, backRead]
    rfl
  · rw [List.filterMap_append, List.filterMap_append, frontPlain, backPlain]
    rfl

end TenantSql.Sql
