import TenantSql.Json.Printer
import TenantSql.Json.Reader
import TenantSql.Proofs.Check.Result

/-!
# Reading what was printed

Printed texts, and lists and records of them, are read back as they were, with
any indent and in both alphabets. A character takes one step of the reader
whatever its escape is; a value takes no more steps than it has characters, so
the length of a text is fuel enough.
-/

namespace TenantSql.Json

variable {alphabet : Alphabet}

/-! ## Characters -/

theorem hexDigits_one {n : Nat} (small : n < 16) :
    (Text.hexDigits 1 n).toList = [n.digitChar] := by
  simp [Text.hexDigits, Nat.toDigits_of_lt_base small]

theorem hexDigits_succ {width n : Nat} (some : 0 < width) :
    (Text.hexDigits (width + 1) n).toList =
      (Text.hexDigits width (n / 16)).toList ++ [(n % 16).digitChar] := by
  by_cases small : n < 16
  · obtain ⟨rest, rfl⟩ := Nat.exists_eq_add_of_le' some
    rw [Nat.div_eq_of_lt small, Nat.mod_eq_of_lt small]
    simp [Text.hexDigits, Nat.toDigits_of_lt_base small, List.replicate_succ']
  · have step := Nat.toDigits_of_base_le (b := 16) (n := n) (by decide) (Nat.le_of_not_lt small)
    simp [Text.hexDigits, step]

theorem hexValue?_digitChar : ∀ n < 16, hexValue? n.digitChar = some n := by decide

theorem exists_hexUnit {n : Nat} (unit : n < 0x10000) :
    ∃ a b c d, (Text.hexDigits 4 n).toList = [a, b, c, d] ∧ hexUnit? a b c d = some n := by
  have digits : (Text.hexDigits 4 n).toList = [(n / 16 / 16 / 16).digitChar,
      (n / 16 / 16 % 16).digitChar, (n / 16 % 16).digitChar, (n % 16).digitChar] := by
    rw [hexDigits_succ (by decide), hexDigits_succ (by decide), hexDigits_succ (by decide),
      hexDigits_one (by omega)]
    rfl
  refine ⟨_, _, _, _, digits, ?_⟩
  rw [hexUnit?, hexValue?_digitChar _ (by omega), hexValue?_digitChar _ (Nat.mod_lt _ (by decide)),
    hexValue?_digitChar _ (Nat.mod_lt _ (by decide)),
    hexValue?_digitChar _ (Nat.mod_lt _ (by decide))]
  exact congrArg some (by omega)

theorem readUnicodeEscape_unit {n : Nat} (unit : n < 0x10000) (high : isHighUnit n = false)
    (letter : List Char) {rest : List Char} (more : rest ≠ []) :
    readUnicodeEscape letter ((Text.hexDigits 4 n).toList ++ rest) = .ok (unitChar n, rest) := by
  obtain ⟨a, b, c, d, digits, value⟩ := exists_hexUnit unit
  obtain ⟨next, rest, rfl⟩ := List.exists_cons_of_ne_nil more
  simp [digits, readUnicodeEscape, value, high]

theorem readUnicodeEscape_pair {high low : Nat} (isHigh : isHighUnit high) (isLow : isLowUnit low)
    (letter : List Char) {rest : List Char} (more : rest ≠ []) :
    readUnicodeEscape letter ((Text.hexDigits 4 high).toList ++
        '\\' :: 'u' :: (Text.hexDigits 4 low).toList ++ rest) = .ok (pairChar high low, rest) := by
  simp only [isHighUnit, isLowUnit, Bool.and_eq_true, decide_eq_true_eq] at isHigh isLow
  obtain ⟨a, b, c, d, digits, value⟩ := exists_hexUnit (n := high) (by omega)
  obtain ⟨e, f, g, h, lowDigits, lowValue⟩ := exists_hexUnit (n := low) (by omega)
  obtain ⟨next, rest, rfl⟩ := List.exists_cons_of_ne_nil more
  simp [digits, lowDigits, readUnicodeEscape, value, lowValue, isHighUnit, isLowUnit, isHigh, isLow]

theorem unitChar_toNat (c : Char) : unitChar c.toNat = c := by
  have valid : c.toNat < 0xD800 ∨ 0xDFFF < c.toNat ∧ c.toNat < 0x110000 := c.valid
  have half : (isHighUnit c.toNat || isLowUnit c.toNat) = false := by
    simp only [isHighUnit, isLowUnit, Bool.or_eq_false_iff, Bool.and_eq_false_iff,
      decide_eq_false_iff_not]
    omega
  rw [unitChar, half, if_neg Bool.false_ne_true, Char.ofNat_toNat]

theorem toList_unitEscape (n : Nat) :
    (unitEscape n).toList = '\\' :: 'u' :: (Text.hexDigits 4 n).toList := by
  rw [unitEscape, String.toList_append]
  rfl

theorem exists_pair {c : Char} (astral : ¬ c.toNat < 0x10000) : ∃ high low,
    numericEscape c = unitEscape high ++ unitEscape low ∧ isHighUnit high ∧ isLowUnit low ∧
      pairChar high low = c := by
  have valid : c.toNat < 0xD800 ∨ 0xDFFF < c.toNat ∧ c.toNat < 0x110000 := c.valid
  refine ⟨_, _, by rw [numericEscape]; exact if_neg astral, ?_, ?_, ?_⟩
  · simp only [isHighUnit, Bool.and_eq_true, decide_eq_true_eq]
    omega
  · simp only [isLowUnit, Bool.and_eq_true, decide_eq_true_eq]
    omega
  · rw [pairChar]
    refine Eq.trans (congrArg Char.ofNat ?_) c.ofNat_toNat
    omega

theorem readUnicodeEscape_numericEscape (c : Char) : ∃ escape,
    (numericEscape c).toList = '\\' :: 'u' :: escape ∧
      ∀ letter rest, rest ≠ [] → readUnicodeEscape letter (escape ++ rest) = .ok (c, rest) := by
  have valid : c.toNat < 0xD800 ∨ 0xDFFF < c.toNat ∧ c.toNat < 0x110000 := c.valid
  by_cases basic : c.toNat < 0x10000
  · refine ⟨(Text.hexDigits 4 c.toNat).toList, ?_, fun letter rest more => ?_⟩
    · rw [numericEscape, if_pos basic, toList_unitEscape]
    · have single : isHighUnit c.toNat = false := by
        simp only [isHighUnit, Bool.and_eq_false_iff, decide_eq_false_iff_not]
        omega
      rw [readUnicodeEscape_unit basic single letter more, unitChar_toNat]
  · obtain ⟨high, low, spelled, isHigh, isLow, pair⟩ := exists_pair basic
    refine ⟨(Text.hexDigits 4 high).toList ++ '\\' :: 'u' :: (Text.hexDigits 4 low).toList, ?_,
      fun letter rest more => ?_⟩
    · rw [spelled, String.toList_append, toList_unitEscape, toList_unitEscape]
      rfl
    · rw [readUnicodeEscape_pair isHigh isLow letter more, pair]

inductive IsWritten (alphabet : Alphabet) (c : Char) : Prop where
  | letter (letter : Char) (spelled : (escapedChar alphabet c).toList = ['\\', letter])
      (stands : simpleEscape? letter = some c) (noNumber : letter ≠ 'u')
  | numbers (spelled : escapedChar alphabet c = numericEscape c)
  | plain (spelled : (escapedChar alphabet c).toList = [c]) (noQuote : c ≠ '"')
      (noBackslash : c ≠ '\\') (visible : ¬ c.toNat < 0x20)

theorem isWritten (alphabet : Alphabet) (c : Char) : IsWritten alphabet c := by
  by_cases special : c ∈ ['"', '\\', '\n', '\r', '\t', '\x08', '\x0c']
  · simp only [List.mem_cons, List.not_mem_nil, or_false] at special
    rcases special with rfl | rfl | rfl | rfl | rfl | rfl | rfl
    · exact .letter '"' (by simp [escapedChar]) rfl (by decide)
    · exact .letter '\\' (by simp [escapedChar]) rfl (by decide)
    · exact .letter 'n' (by simp [escapedChar]) rfl (by decide)
    · exact .letter 'r' (by simp [escapedChar]) rfl (by decide)
    · exact .letter 't' (by simp [escapedChar]) rfl (by decide)
    · exact .letter 'b' (by simp [escapedChar]) rfl (by decide)
    · exact .letter 'f' (by simp [escapedChar]) rfl (by decide)
  · simp only [List.mem_cons, List.not_mem_nil, or_false, not_or] at special
    have spelled : escapedChar alphabet c =
        if c.toNat < 0x20 then numericEscape c
        else if alphabet = .ascii && 0x7F ≤ c.toNat then numericEscape c
        else c.toString := by
      simp only [escapedChar, beq_iff_eq, special, if_false]
    split at spelled
    · exact .numbers spelled
    · rename_i visible
      split at spelled
      · exact .numbers spelled
      · exact .plain (by rw [spelled]; simp) special.1 special.2.1 visible

theorem readChars_plain (opening : List Char) (fuel : Nat) (read : List Char) {c : Char}
    (noQuote : c ≠ '"') (noBackslash : c ≠ '\\') (visible : ¬ c.toNat < 0x20) (rest : List Char) :
    readChars opening (fuel + 1) read (c :: rest) = readChars opening fuel (c :: read) rest := by
  rw [readChars]
  · exact if_neg visible
  all_goals simp [noQuote, noBackslash]

/-- One character of a printed text is read in one step. -/
theorem readChars_escapedChar (opening : List Char) (fuel : Nat) (read : List Char) (c : Char)
    {rest : List Char} (more : rest ≠ []) :
    readChars opening (fuel + 1) read ((escapedChar alphabet c).toList ++ rest) =
      readChars opening fuel (c :: read) rest := by
  cases isWritten alphabet c with
  | letter letter spelled stands noNumber =>
      rw [spelled, List.cons_append, List.singleton_append, readChars]
      · simp only [stands]
      all_goals simp [noNumber]
  | numbers spelled =>
      obtain ⟨escape, digits, reads⟩ := readUnicodeEscape_numericEscape c
      rw [spelled, digits]
      simp only [List.cons_append, readChars, reads _ _ more]
      rfl
  | plain spelled noQuote noBackslash visible =>
      rw [spelled, List.singleton_append,
        readChars_plain opening fuel read noQuote noBackslash visible]

/-! ## Texts -/

def escapes (alphabet : Alphabet) (cs : List Char) : List Char :=
  cs.flatMap fun c => (escapedChar alphabet c).toList

theorem toList_printText (s : String) :
    (printText alphabet s).toList = '"' :: (escapes alphabet s.toList ++ ['"']) := by
  simp [printText, escapes, List.flatMap_map]

theorem length_le_escapes (alphabet : Alphabet) (cs : List Char) :
    cs.length ≤ (escapes alphabet cs).length := by
  have some (c : Char) : 1 ≤ (escapedChar alphabet c).toList.length := by
    obtain ⟨escape, digits, _⟩ := readUnicodeEscape_numericEscape c
    cases isWritten alphabet c with
    | letter _ spelled => simp [spelled]
    | numbers spelled => simp [spelled, digits]
    | plain spelled => simp [spelled]
  induction cs with
  | nil => exact Nat.le_refl 0
  | cons c rest induction =>
      have one := some c
      simp only [escapes, List.flatMap_cons, List.length_append, List.length_cons] at induction ⊢
      omega

theorem readChars_escapes (opening : List Char) {rest : List Char} :
    ∀ {cs read : List Char} {fuel : Nat}, cs.length < fuel →
      readChars opening fuel read (escapes alphabet cs ++ '"' :: rest) =
        .ok (read.reverse ++ cs, rest)
  | [], read, fuel + 1, _ => by simp [escapes, readChars]
  | c :: cs, read, fuel + 1, enough => by
      have more : escapes alphabet cs ++ '"' :: rest ≠ [] := by simp
      rw [escapes, List.flatMap_cons, List.append_assoc, ← escapes,
        readChars_escapedChar opening fuel read c more,
        readChars_escapes opening (Nat.lt_of_succ_lt_succ enough)]
      simp

theorem readString_printText (opening : List Char) (s : String) (rest : List Char) :
    readString opening (escapes alphabet s.toList ++ '"' :: rest) = .ok (s, rest) := by
  have enough : s.toList.length < (escapes alphabet s.toList ++ '"' :: rest).length + 1 := by
    have escaped := length_le_escapes alphabet s.toList
    simp only [List.length_append, List.length_cons]
    omega
  rw [readString, readChars_escapes opening enough]
  simp [bind, Except.bind, pure, Except.pure]

/-! ## Values -/

/-- The value holds texts, lists and records alone, at most so many lists and records around each
other, and no record has two entries under one name. -/
inductive Readable : Nat → Value → Prop where
  | text (levels : Nat) (s : String) : Readable levels (.text s)
  | list {levels : Nat} {items : List Value} :
      (∀ item ∈ items, Readable levels item) → Readable (levels + 1) (.list items)
  | record {levels : Nat} {fields : List (String × Value)} :
      (fields.map (·.1)).Nodup → (∀ field ∈ fields, Readable levels field.2) →
        Readable (levels + 1) (.ofFields fields)

def Layout.IsBlank (layout : Layout) : Prop :=
  ∀ unit ∈ layout.unit, ∀ c ∈ unit.toList, isSpace c

theorem skipSpace_append {blank : List Char} (spaces : ∀ c ∈ blank, isSpace c) (rest : List Char) :
    skipSpace (blank ++ rest) = skipSpace rest := by
  rw [skipSpace, List.dropWhile_append_of_pos spaces, skipSpace]

theorem skipSpace_cons {c : Char} (visible : isSpace c = false) (rest : List Char) :
    skipSpace (c :: rest) = c :: rest := by
  simp [skipSpace, visible]

namespace Layout

variable {layout : Layout} {depth : Nat}

theorem isSpace_lineBreak (blank : layout.IsBlank) (depth : Nat) :
    ∀ c ∈ (layout.lineBreak depth).toList, isSpace c := by
  intro c member
  cases spread : layout.unit with
  | none => simp [lineBreak, spread] at member
  | some unit =>
      simp only [lineBreak, spread, String.toList_append, String.toList_join,
        List.mem_append, List.mem_flatMap] at member
      rcases member with first | ⟨indent, repeated, among⟩
      · rw [List.mem_singleton.mp first]
        rfl
      · rw [List.eq_of_mem_replicate repeated] at among
        exact blank unit spread c among

theorem exists_separator (blank : layout.IsBlank) (depth : Nat) : ∃ gap : List Char,
    (layout.separator depth).toList = ',' :: gap ∧ ∀ c ∈ gap, isSpace c := by
  cases spread : layout.unit with
  | none => exact ⟨[' '], by simp [separator, spread], List.forall_mem_singleton.mpr rfl⟩
  | some unit =>
      exact ⟨(layout.lineBreak depth).toList, by simp [separator, spread],
        isSpace_lineBreak blank depth⟩

def following (layout : Layout) (depth : Nat) (items : List String) : List Char :=
  items.flatMap fun item => (layout.separator depth).toList ++ item.toList

theorem toList_intercalate_cons (separator first : String) (rest : List String) :
    (separator.intercalate (first :: rest)).toList =
      first.toList ++ rest.flatMap fun item => separator.toList ++ item.toList := by
  induction rest generalizing first with
  | nil => simp
  | cons second rest induction =>
      rw [String.intercalate_cons_cons, String.toList_append, String.toList_append, induction,
        List.flatMap_cons, List.append_assoc, List.append_assoc]

theorem toList_enclose_cons {opening closing first : String} {rest : List String} {o c : Char}
    (opens : opening.toList = [o]) (closes : closing.toList = [c]) :
    (layout.enclose depth opening closing (first :: rest)).toList =
      o :: ((layout.lineBreak (depth + 1)).toList ++ (first.toList ++
        (layout.following (depth + 1) rest ++ ((layout.lineBreak depth).toList ++ [c])))) := by
  simp only [enclose, List.isEmpty_cons, Bool.false_eq_true, if_false, String.toList_append,
    toList_intercalate_cons, following, List.append_assoc, opens, closes, List.cons_append,
    List.nil_append]

theorem exists_enclose {items : List String} {o c : Char} (opening closing : String)
    (opens : opening.toList = [o]) (closes : closing.toList = [c]) :
    ∃ tail, (layout.enclose depth opening closing items).toList = o :: tail := by
  cases items with
  | nil => exact ⟨[c], by simp [enclose, opens, closes]⟩
  | cons first rest => exact ⟨_, toList_enclose_cons opens closes⟩

theorem exists_printAt {levels : Nat} {v : Value} (readable : Readable levels v) (depth : Nat) :
    ∃ c tail, (layout.printAt depth v).toList = c :: tail ∧ c ∈ ['"', '[', '\x7b'] := by
  cases readable with
  | text _ s => exact ⟨_, _, toList_printText s, by decide⟩
  | list _ =>
      obtain ⟨tail, spelled⟩ := exists_enclose "[" "]" rfl rfl
      exact ⟨'[', tail, spelled, by decide⟩
  | record _ _ =>
      obtain ⟨tail, spelled⟩ := exists_enclose "\x7b" "\x7d" rfl rfl
      exact ⟨'\x7b', tail, spelled, by decide⟩

theorem skipSpace_printAt {levels : Nat} {v : Value} (readable : Readable levels v)
    (rest : List Char) : skipSpace ((layout.printAt depth v).toList ++ rest) =
      (layout.printAt depth v).toList ++ rest := by
  have visible : ∀ c ∈ ['"', '[', '\x7b'], isSpace c = false := by simp [isSpace]
  obtain ⟨c, tail, spelled, among⟩ := exists_printAt readable depth
  rw [spelled, List.cons_append, skipSpace_cons (visible c among)]

theorem head?_printAt {levels : Nat} {v : Value} (readable : Readable levels v) (rest : List Char)
    {c : Char} (other : c ∉ ['"', '[', '\x7b']) :
    ((layout.printAt depth v).toList ++ rest).head? ≠ some c := by
  obtain ⟨first, tail, spelled, among⟩ := exists_printAt readable depth
  rw [spelled, List.cons_append, List.head?_cons, ne_eq, Option.some.injEq]
  rintro rfl
  exact other among

def ReadsBack (layout : Layout) (around : Nat) (v : Value) : Prop :=
  ∀ depth fuel rest, (layout.printAt depth v).toList.length ≤ fuel →
    readValue around fuel ((layout.printAt depth v).toList ++ rest) = .ok (v, rest)

theorem readsBack_text (around : Nat) (s : String) : layout.ReadsBack around (.text s) := by
  intro depth fuel rest enough
  have spelled : (layout.printAt depth (.text s)).toList =
      '"' :: (escapes layout.alphabet s.toList ++ ['"']) := toList_printText s
  rw [spelled, List.length_cons] at enough
  obtain ⟨fuel, rfl⟩ := Nat.exists_eq_succ_of_ne_zero (Nat.ne_zero_of_lt enough)
  rw [spelled, List.cons_append, List.append_assoc, List.singleton_append, readValue]
  simp [bind, Except.bind, pure, Except.pure, readString_printText]

/-! ## Lists -/

theorem printItems_eq (items : List Value) :
    printItems layout depth items = items.map (printAt layout depth) := by
  induction items with
  | nil => rfl
  | cons item rest induction => rw [printItems, induction, List.map_cons]

theorem following_cons (item : String) (items : List String) :
    layout.following depth (item :: items) =
      (layout.separator depth).toList ++ (item.toList ++ layout.following depth items) := by
  simp [following]

theorem readItems_printed (blank : layout.IsBlank) {levels around : Nat} {last : List Char}
    (spaces : ∀ c ∈ last, isSpace c) {rest : List Char} {items : List Value} :
    ∀ {first : Value} {fuel : Nat},
      (∀ v ∈ first :: items, Readable levels v ∧ layout.ReadsBack around v) →
      (layout.printAt depth first).toList.length +
        (layout.following depth (items.map (layout.printAt depth))).length < fuel →
      readItems around fuel ((layout.printAt depth first).toList ++
        (layout.following depth (items.map (layout.printAt depth)) ++ (last ++ ']' :: rest))) =
        .ok (first :: items, rest) := by
  induction items with
  | nil =>
      intro first fuel each enough
      obtain ⟨fuel, rfl⟩ := Nat.exists_eq_succ_of_ne_zero (Nat.ne_zero_of_lt enough)
      rw [readItems, (each first List.mem_cons_self).2 depth fuel _ (by omega)]
      simp [bind, Except.bind, pure, Except.pure, following, skipSpace_append spaces,
        skipSpace_cons (c := ']') (by decide)]
  | cons second items induction =>
      intro first fuel each enough
      obtain ⟨fuel, rfl⟩ := Nat.exists_eq_succ_of_ne_zero (Nat.ne_zero_of_lt enough)
      obtain ⟨gap, spelled, gapSpaces⟩ := exists_separator blank depth
      have later := List.forall_mem_cons.mp each
      have secondReadable := (later.2 second List.mem_cons_self).1
      rw [List.map_cons, following_cons, spelled] at enough ⊢
      simp only [List.length_append, List.length_cons] at enough
      rw [readItems, later.1.2 depth fuel _ (by omega)]
      simp only [bind, Except.bind, List.cons_append, List.append_assoc,
        skipSpace_cons (c := ',') (by decide), skipSpace_append gapSpaces,
        skipSpace_printAt secondReadable, induction later.2 (show _ < fuel by omega)]
      rfl

theorem readValue_list {around fuel : Nat} (shallow : around < maxDepth) {cs after : List Char}
    (more : (skipSpace cs).head? ≠ some ']') {items : List Value}
    (reads : readItems (around + 1) fuel (skipSpace cs) = .ok (items, after)) :
    readValue around (fuel + 1) ('[' :: cs) = .ok (.list items, after) := by
  rw [readValue, if_neg (Nat.not_le.mpr shallow)]
  split
  · rename_i closed
    simp [closed] at more
  · simp [bind, Except.bind, pure, Except.pure, reads]

theorem readsBack_list (blank : layout.IsBlank) {levels around : Nat} (below : around < maxDepth)
    {items : List Value}
    (parts : ∀ v ∈ items, Readable levels v ∧ layout.ReadsBack (around + 1) v) :
    layout.ReadsBack around (.list items) := by
  intro depth fuel rest enough
  rw [printAt, printItems_eq] at enough ⊢
  cases items with
  | nil =>
      obtain ⟨fuel, rfl⟩ := Nat.exists_eq_succ_of_ne_zero (n := fuel) (by
        rintro rfl
        simp [enclose] at enough)
      simp [enclose, readValue, Nat.not_le.mpr below, skipSpace_cons (c := ']') (by decide)]
  | cons first items =>
      have readable := (parts first List.mem_cons_self).1
      have skips := skipSpace_append (isSpace_lineBreak blank (depth + 1))
      rw [List.map_cons, toList_enclose_cons rfl rfl] at enough ⊢
      simp only [List.length_cons, List.length_append] at enough
      obtain ⟨fuel, rfl⟩ := Nat.exists_eq_succ_of_ne_zero (n := fuel) (by omega)
      simp only [List.cons_append, List.append_assoc]
      refine readValue_list below ?_ ?_
      all_goals rw [skips, skipSpace_printAt readable]
      · exact head?_printAt readable _ (by decide)
      · exact readItems_printed blank (isSpace_lineBreak blank depth) parts (by omega)

/-! ## Records -/

def printField (layout : Layout) (depth : Nat) (field : String × Value) : String :=
  printText layout.alphabet field.1 ++ ": " ++ layout.printAt depth field.2

theorem printEntries_ofFields (fields : List (String × Value)) :
    printEntries layout depth (fields.map fun field => (.text field.1, field.2)) =
      fields.map (layout.printField depth) := by
  induction fields with
  | nil => rfl
  | cons field rest induction =>
      rw [List.map_cons, printEntries, induction, List.map_cons]
      rfl

def entriesOf (fields : List (String × Value)) : Entries :=
  fields.map fun field => (.text field.1, field.2)

theorem set_entriesOf {fields : List (String × Value)} {name : String} {v : Value}
    (new : name ∉ fields.map (·.1)) :
    (entriesOf fields).set name v = entriesOf (fields ++ [(name, v)]) := by
  have absent : (entriesOf fields).any (·.1.same (.text name)) = false := by
    rw [List.any_eq_false]
    intro entry member same
    obtain ⟨field, listed, rfl⟩ := List.mem_map.mp member
    rw [Scalar.same_text, beq_iff_eq, Scalar.text.injEq] at same
    exact new (List.mem_map.mpr ⟨field, listed, same⟩)
  rw [Entries.set, Entries.insert, absent, if_neg Bool.false_ne_true]
  simp [entriesOf]

theorem toList_printField (field : String × Value) (rest : List Char) :
    (layout.printField depth field).toList ++ rest =
      '"' :: (escapes layout.alphabet field.1.toList ++
        '"' :: ':' :: ([' '] ++ ((layout.printAt depth field.2).toList ++ rest))) := by
  simp [printField, toList_printText]

theorem skipSpace_printField (field : String × Value) (rest : List Char) :
    skipSpace ((layout.printField depth field).toList ++ rest) =
      (layout.printField depth field).toList ++ rest := by
  rw [toList_printField, skipSpace_cons (by decide)]

theorem length_printAt_le (field : String × Value) :
    (layout.printAt depth field.2).toList.length ≤
      (layout.printField depth field).toList.length := by
  simp only [printField, String.toList_append, List.length_append]
  omega

theorem readEntries_printField {levels around fuel : Nat} {field : String × Value}
    {seen : List (String × Value)} (readable : Readable levels field.2)
    (back : layout.ReadsBack around field.2) (new : field.1 ∉ seen.map (·.1))
    (enough : (layout.printField depth field).toList.length ≤ fuel) (more : List Char) :
    readEntries around (fuel + 1) (entriesOf seen)
        ((layout.printField depth field).toList ++ more) =
      match skipSpace more with
      | '\x7d' :: after => .ok (entriesOf (seen ++ [field]), after)
      | ',' :: rest => readEntries around fuel (entriesOf (seen ++ [field])) (skipSpace rest)
      | other => failAt .expectedComma other := by
  have value := back depth fuel more (Nat.le_trans (length_printAt_le field) enough)
  have space : ∀ c ∈ [' '], isSpace c := List.forall_mem_singleton.mpr rfl
  rw [toList_printField, readEntries]
  simp only [bind, Except.bind, readString_printText, skipSpace_cons (c := ':') (by decide),
    skipSpace_append space, skipSpace_printAt readable, value, set_entriesOf new]
  rfl

theorem name_notMem_front {field : String × Value} {front back : List (String × Value)}
    (names : ((front ++ field :: back).map (·.1)).Nodup) : field.1 ∉ front.map (·.1) := by
  rw [List.map_append, List.map_cons] at names
  intro member
  exact (List.nodup_append.mp names).2.2 _ member _ List.mem_cons_self rfl

theorem readEntries_printed (blank : layout.IsBlank) {levels around : Nat} {last : List Char}
    (spaces : ∀ c ∈ last, isSpace c) {rest : List Char} {fields : List (String × Value)} :
    ∀ {first : String × Value} {seen : List (String × Value)} {fuel : Nat},
      (∀ field ∈ first :: fields, Readable levels field.2 ∧ layout.ReadsBack around field.2) →
      ((seen ++ first :: fields).map (·.1)).Nodup →
      (layout.printField depth first).toList.length +
        (layout.following depth (fields.map (layout.printField depth))).length < fuel →
      readEntries around fuel (entriesOf seen) ((layout.printField depth first).toList ++
        (layout.following depth (fields.map (layout.printField depth)) ++
          (last ++ '\x7d' :: rest))) =
        .ok (entriesOf (seen ++ first :: fields), rest) := by
  induction fields with
  | nil =>
      intro first seen fuel each names enough
      obtain ⟨fuel, rfl⟩ := Nat.exists_eq_succ_of_ne_zero (Nat.ne_zero_of_lt enough)
      obtain ⟨readable, back⟩ := each first List.mem_cons_self
      rw [readEntries_printField readable back (name_notMem_front names) (by omega)]
      simp [following, skipSpace_append spaces, skipSpace_cons (c := '\x7d') (by decide)]
  | cons second fields induction =>
      intro first seen fuel each names enough
      obtain ⟨fuel, rfl⟩ := Nat.exists_eq_succ_of_ne_zero (Nat.ne_zero_of_lt enough)
      obtain ⟨gap, spelled, gapSpaces⟩ := exists_separator blank depth
      obtain ⟨⟨readable, back⟩, later⟩ := List.forall_mem_cons.mp each
      rw [List.map_cons, following_cons, spelled] at enough ⊢
      simp only [List.length_append, List.length_cons] at enough
      rw [readEntries_printField readable back (name_notMem_front names) (by omega)]
      simp only [List.cons_append, List.append_assoc, skipSpace_cons (c := ',') (by decide),
        skipSpace_append gapSpaces, skipSpace_printField]
      rw [induction later (by simpa using names) (by omega)]
      simp

theorem readValue_object {around fuel : Nat} (shallow : around < maxDepth) {cs after : List Char}
    (more : (skipSpace cs).head? ≠ some '\x7d') {entries : Entries}
    (reads : readEntries (around + 1) fuel [] (skipSpace cs) = .ok (entries, after)) :
    readValue around (fuel + 1) ('\x7b' :: cs) = .ok (.object entries, after) := by
  rw [readValue, if_neg (Nat.not_le.mpr shallow)]
  split
  · rename_i closed
    simp [closed] at more
  · simp [bind, Except.bind, pure, Except.pure, reads]

theorem readsBack_record (blank : layout.IsBlank) {levels around : Nat} (below : around < maxDepth)
    {fields : List (String × Value)} (names : (fields.map (·.1)).Nodup)
    (parts : ∀ field ∈ fields, Readable levels field.2 ∧ layout.ReadsBack (around + 1) field.2) :
    layout.ReadsBack around (.ofFields fields) := by
  intro depth fuel rest enough
  rw [Value.ofFields, printAt, printEntries_ofFields] at enough ⊢
  cases fields with
  | nil =>
      obtain ⟨fuel, rfl⟩ := Nat.exists_eq_succ_of_ne_zero (n := fuel) (by
        rintro rfl
        simp [enclose] at enough)
      simp [enclose, readValue, Nat.not_le.mpr below, skipSpace_cons (c := '\x7d') (by decide)]
  | cons first fields =>
      have skips := skipSpace_append (isSpace_lineBreak blank (depth + 1))
      rw [List.map_cons, toList_enclose_cons rfl rfl] at enough ⊢
      simp only [List.length_cons, List.length_append] at enough
      obtain ⟨fuel, rfl⟩ := Nat.exists_eq_succ_of_ne_zero (n := fuel) (by omega)
      simp only [List.cons_append, List.append_assoc]
      refine readValue_object below ?_ ?_
      all_goals rw [skips, skipSpace_printField]
      · rw [toList_printField]
        simp
      · change readEntries _ _ (entriesOf []) _ = _
        exact readEntries_printed blank (isSpace_lineBreak blank depth) parts names (by omega)

/-! ## Whole values -/

/-- A printed value is read back, as long as there are not too many collections around it. -/
theorem readsBack_of_readable (blank : layout.IsBlank) {levels : Nat} {v : Value}
    (readable : Readable levels v) {around : Nat} (shallow : around + levels ≤ maxDepth) :
    layout.ReadsBack around v := by
  induction readable generalizing around with
  | text levels s => exact readsBack_text around s
  | list each induction =>
      exact readsBack_list blank (by omega) fun v member =>
        ⟨each v member, induction v member (by omega)⟩
  | record names each induction =>
      exact readsBack_record blank (by omega) names fun field member =>
        ⟨each field member, induction field member (by omega)⟩

end Layout

/-- A printed value is read back, whatever white space is behind it. -/
theorem read_print {layout : Layout} (blank : layout.IsBlank) {v : Value}
    (readable : Readable maxDepth v) {behind : String} (spaces : ∀ c ∈ behind.toList, isSpace c) :
    read (layout.print v ++ behind) = .ok v := by
  have back : layout.ReadsBack 0 v :=
    Layout.readsBack_of_readable blank readable (Nat.le_of_eq (Nat.zero_add maxDepth))
  have noMark : ((layout.printAt 0 v).toList ++ behind.toList).head? ≠ some '\uFEFF' :=
    Layout.head?_printAt readable behind.toList (by decide)
  have enough : (layout.printAt 0 v).toList.length ≤
      ((layout.printAt 0 v).toList ++ behind.toList).length + 1 := by
    rw [List.length_append]
    omega
  have ends : skipSpace behind.toList = [] := by
    rw [← List.append_nil behind.toList, skipSpace_append spaces]
    rfl
  have whole : readAll (layout.print v ++ behind).toList = .ok v := by
    rw [Layout.print, String.toList_append, readAll, if_neg (by simpa using noMark),
      Layout.skipSpace_printAt readable, back 0 _ _ enough]
    simp [bind, Except.bind, pure, Except.pure, ends]
  rw [read, whole]
  rfl

end TenantSql.Json
