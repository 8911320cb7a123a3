import TenantSql.Model.Identifier
import TenantSql.Value.Display
import TenantSql.Proofs.Sql.Token
import TenantSql.Proofs.Check.Result

/-!
# Identifiers in texts

An identifier holds nothing that could be read as a parameter or a quote, and
neither does the way in which a value is shown that was read as an identifier,
or that stands for "no".
-/

namespace TenantSql

open Sql (HoldsNoParameter isUnquoted)

theorem isIdentifierChar_unquoted {c : Char} (allowed : isIdentifierChar c) : isUnquoted c := by
  simp only [isUnquoted, Bool.and_eq_true, bne_iff_ne]
  refine ⟨⟨?_, ?_⟩, ?_⟩ <;> rintro rfl <;> revert allowed <;> decide

theorem isIdentifierChar_of_start {c : Char} (starts : isIdentifierStart c) : isIdentifierChar c := by
  simp only [isIdentifierStart, isIdentifierChar] at starts ⊢
  rw [starts, Bool.true_or]

theorem isIdentifierWord_chars {cs : List Char} (valid : isIdentifierWord cs) :
    ∀ c ∈ cs, isIdentifierChar c := by
  cases cs with
  | nil => cases valid
  | cons first rest =>
      rw [isIdentifierWord, Bool.and_eq_true, List.all_eq_true] at valid
      intro c member
      rcases List.mem_cons.mp member with rfl | later
      · exact isIdentifierChar_of_start valid.1
      · exact valid.2 c later

/-- An identifier is a word, perhaps with one line end. -/
theorem isIdentifier_iff {s : String} : isIdentifier s ↔
    ∃ word, isIdentifierWord word ∧ (s.toList = word ∨ s.toList = word ++ ['\n']) := by
  rw [isIdentifier, withoutLastBreak]
  constructor
  · intro valid
    split at valid
    · rename_i broken
      obtain ⟨front, whole⟩ := List.getLast?_eq_some_iff.mp (beq_iff_eq.mp broken)
      rw [whole, List.dropLast_concat] at valid
      exact ⟨front, valid, .inr whole⟩
    · exact ⟨s.toList, valid, .inl rfl⟩
  · rintro ⟨word, valid, same | broken⟩
    · have unbroken : (word.getLast? == some '\n') = false := by
        refine beq_eq_false_iff_ne.mpr fun last => ?_
        have allowed := isIdentifierWord_chars valid '\n' (List.mem_of_getLast? last)
        revert allowed
        decide
      simpa [same, unbroken] using valid
    · simpa [broken] using valid

theorem isIdentifier_chars {s : String} (valid : isIdentifier s) :
    ∀ c ∈ s.toList, isIdentifierChar c ∨ c = '\n' := by
  obtain ⟨word, isWord, same⟩ := isIdentifier_iff.mp valid
  intro c member
  rcases same with same | broken
  · exact .inl (isIdentifierWord_chars isWord c (same ▸ member))
  · rw [broken, List.mem_append, List.mem_singleton] at member
    exact member.imp_left (isIdentifierWord_chars isWord c)

theorem isIdentifier_ne_empty {s : String} (valid : isIdentifier s) : s ≠ "" := by
  rintro rfl
  cases valid

theorem isIdentifier_append {front s : String} (begins : isIdentifierWord front.toList)
    (valid : isIdentifier s) : isIdentifier (front ++ s) := by
  obtain ⟨word, isWord, same⟩ := isIdentifier_iff.mp valid
  refine isIdentifier_iff.mpr ⟨front.toList ++ word, ?_, ?_⟩
  · cases letters : front.toList with
    | nil =>
        rw [letters] at begins
        cases begins
    | cons first rest =>
        rw [letters, isIdentifierWord, Bool.and_eq_true] at begins
        rw [List.cons_append, isIdentifierWord, begins.1, List.all_append, begins.2,
          List.all_eq_true.mpr (isIdentifierWord_chars isWord)]
        rfl
  · rw [String.toList_append, List.append_assoc]
    exact same.imp (congrArg _) (congrArg _)

theorem isIdentifier_unquoted {s : String} (valid : isIdentifier s) :
    ∀ c ∈ s.toList, isUnquoted c := by
  intro c member
  rcases isIdentifier_chars valid c member with allowed | rfl
  · exact isIdentifierChar_unquoted allowed
  · decide

theorem isIdentifier_holdsNoParameter {s : String} (valid : isIdentifier s) : HoldsNoParameter s :=
  Sql.holdsNoParameter_of_unquoted (isIdentifier_unquoted valid)

/-! ## Values that are read as identifiers -/

namespace Value

theorem readText_eq_ok {v : Value} {s : String} : v.readText = .ok s ↔
    v = .text s ∨ ∃ content, v = .scalar (.bytes content) ∧
      String.fromUTF8? (ByteArray.mk content.toArray) = some s := by
  have decoding (content : List UInt8) : decoded content .undecodable = .ok s ↔
      String.fromUTF8? (ByteArray.mk content.toArray) = some s := by
    rw [decoded]
    cases String.fromUTF8? (ByteArray.mk content.toArray) <;> simp
  unfold readText
  split
  · simp
  · simp [decoding]
  · simp_all

theorem readIdentifier_eq_ok {what : String} {v : Value} {s : String} :
    v.readIdentifier what = .ok s ↔ v.readText = .ok s ∧ isIdentifier s :=
  Checked.ensure_eq_ok

theorem readNonEmptyText_eq_ok {v : Value} {s : String} :
    v.readNonEmptyText = .ok s ↔ v.readText = .ok s ∧ s ≠ "" := by
  rw [readNonEmptyText, Checked.andThen_eq_ok]
  constructor
  · rintro ⟨found, read, rule⟩
    split at rule
    · simp at rule
    · rename_i some
      cases rule
      exact ⟨read, by simpa using some⟩
  · rintro ⟨read, some⟩
    exact ⟨s, read, by simp [some]⟩

end Value

theorem bytes_of_decoded {content : List UInt8} {s : String}
    (decoded : String.fromUTF8? (ByteArray.mk content.toArray) = some s) :
    content = s.toList.flatMap String.utf8EncodeChar := by
  rw [String.fromUTF8?] at decoded
  split at decoded
  · rename_i valid
    have bytes : s.toByteArray = ByteArray.mk content.toArray := by
      rw [← Option.some.inj decoded]
      rfl
    rw [← String.utf8Encode_toList, List.utf8Encode] at bytes
    have listed := congrArg (fun b : ByteArray => b.data.toList) bytes
    simpa using listed.symm
  · cases decoded

theorem lower_range {c : Char} (lower : c.isLower) : 0x61 ≤ c.toNat ∧ c.toNat ≤ 0x7A := by
  change (decide (c.val ≥ 'a'.val) && decide (c.val ≤ 'z'.val)) = true at lower
  simp only [Bool.and_eq_true, decide_eq_true_eq, ge_iff_le, UInt32.le_iff_toNat_le] at lower
  exact lower

theorem identifierChar_range {c : Char} (allowed : isIdentifierChar c) :
    0x30 ≤ c.toNat ∧ c.toNat ≤ 0x7A := by
  simp only [isIdentifierChar, Bool.or_eq_true, beq_iff_eq] at allowed
  rcases allowed with (lower | rfl) | digit
  · have range := lower_range lower
    exact ⟨Nat.le_trans (by decide) range.1, range.2⟩
  · decide
  · simp only [Char.isDigit, Bool.and_eq_true, decide_eq_true_eq, ge_iff_le, UInt32.le_iff_toNat_le,
      Char.toNat] at digit ⊢
    exact ⟨digit.1, Nat.le_trans digit.2 (by decide)⟩

theorem byte_of_identifier {content : List UInt8} {s : String}
    (decoded : String.fromUTF8? (ByteArray.mk content.toArray) = some s) (valid : isIdentifier s)
    {byte : UInt8} (member : byte ∈ content) :
    ∃ c ∈ s.toList, c.toNat ≤ 0x7A ∧ byte = UInt8.ofNat c.toNat := by
  rw [bytes_of_decoded decoded] at member
  obtain ⟨c, among, encoded⟩ := List.mem_flatMap.mp member
  have low : c.toNat ≤ 0x7A := by
    rcases isIdentifier_chars valid c among with allowed | rfl
    · exact (identifierChar_range allowed).2
    · decide
  have single : String.utf8EncodeChar c = [UInt8.ofNat c.toNat] := by
    rw [String.utf8EncodeChar]
    exact if_pos (Nat.le_trans low (by decide))
  rw [single, List.mem_singleton] at encoded
  exact ⟨c, among, low, encoded⟩

theorem escapedChar_noQuote {c : Char} (allowed : isIdentifierChar c ∨ c = '\n') :
    '\'' ∉ (Text.escapedChar '\'' c).toList := by
  rcases allowed with allowed | rfl
  · have range := identifierChar_range allowed
    have printable := Text.isPrintable_of_ascii (Nat.le_trans (by decide) range.1)
      (Nat.lt_of_le_of_lt range.2 (by decide))
    have different {d : Char} (refused : isIdentifierChar d = false) : c ≠ d := by
      rintro rfl
      rw [allowed] at refused
      cases refused
    have quote := different (d := '\'') (by decide)
    have itself : Text.escapedChar '\'' c = c.toString := by
      simp [Text.escapedChar, printable, quote, different (d := '\\') (by decide),
        different (d := '\n') (by decide), different (d := '\r') (by decide),
        different (d := '\t') (by decide)]
    rw [itself, Char.toString, String.toList_singleton, List.mem_singleton]
    exact quote.symm
  · decide

theorem quotedBytes_holdsNoParameter {content : List UInt8} {s : String}
    (decoded : String.fromUTF8? (ByteArray.mk content.toArray) = some s) (valid : isIdentifier s) :
    HoldsNoParameter (Text.quotedBytes content) := by
  have shown (byte : UInt8) (member : byte ∈ content) :
      ∃ c ∈ s.toList, Char.ofNat byte.toNat = c ∧ byte < 0x80 := by
    obtain ⟨c, among, low, rfl⟩ := byte_of_identifier decoded valid member
    have same : (UInt8.ofNat c.toNat).toNat = c.toNat := by
      rw [UInt8.toNat_ofNat']
      omega
    exact ⟨c, among, by rw [same, Char.ofNat_toNat], by
      rw [UInt8.lt_iff_toNat_lt, same]
      exact Nat.lt_of_le_of_lt low (by decide)⟩
  have single : Text.enclosingQuote (content.map fun byte => Char.ofNat byte.toNat) = '\'' := by
    have absent : (content.map fun byte => Char.ofNat byte.toNat).contains '\'' = false := by
      simp only [List.contains_eq_mem, decide_eq_false_iff_not, List.mem_map, not_exists, not_and]
      intro byte member same
      obtain ⟨c, among, code, _⟩ := shown byte member
      have quote := isIdentifier_unquoted valid c among
      rw [← code, same] at quote
      revert quote
      decide
    rw [Text.enclosingQuote, absent]
    rfl
  have noQuote : '\'' ∉ (String.join (content.map (Text.escapedByte '\''))).toList := by
    simp only [String.toList_join, List.mem_flatMap, List.mem_map, not_exists, not_and]
    rintro _ ⟨byte, member, rfl⟩
    obtain ⟨c, among, code, low⟩ := shown byte member
    rw [Text.escapedByte, if_pos low, code]
    exact escapedChar_noQuote (isIdentifier_chars valid c among)
  have written : (Text.quotedBytes content).toList =
      'b' :: '\'' :: (String.join (content.map (Text.escapedByte '\''))).toList ++ ['\''] := by
    simp [Text.quotedBytes, single, Char.toString]
  have read := Sql.tokens?_mark_constant noQuote
  rw [← written] at read
  exact Sql.holdsNoParameter_iff.mpr ⟨_, read, rfl⟩

theorem Text.quotedBytes_ends (content : List UInt8) :
    ∃ front quote, Text.quotedBytes content = front ++ quote.toString ∧
      (quote = '"' ∨ quote = '\'') := by
  refine ⟨_, _, rfl, ?_⟩
  rw [Text.enclosingQuote]
  split
  · exact .inl rfl
  · exact .inr rfl

namespace Value

theorem eq_text_of_unquoted {v : Value} {s : String} (read : v.readText = .ok s)
    (unquoted : ∀ c ∈ v.display.toList, isUnquoted c) : v = .text s := by
  rcases readText_eq_ok.mp read with rfl | ⟨content, rfl, _⟩
  · rfl
  · obtain ⟨front, quote, shown, either⟩ := Text.quotedBytes_ends content
    have display : (Value.scalar (.bytes content)).display = front ++ quote.toString := shown
    have plain := unquoted quote (by simp [display, Char.toString])
    rcases either with rfl | rfl
    · exact absurd plain (by decide)
    · exact absurd plain (by decide)

/-- However an identifier is given, it is shown without a parameter. -/
theorem display_of_readIdentifier {what : String} {v : Value} {s : String}
    (read : v.readIdentifier what = .ok s) : HoldsNoParameter v.display := by
  obtain ⟨text, valid⟩ := readIdentifier_eq_ok.mp read
  rcases readText_eq_ok.mp text with rfl | ⟨content, rfl, decoded⟩
  · exact isIdentifier_holdsNoParameter valid
  · exact quotedBytes_holdsNoParameter decoded valid

/-- How values are shown that stand for "no": as a word, as a zero or as something empty. -/
def negations : List String :=
  ["None", "False", "0", "0.0", "-0.0", "", "''", "b''", "[]", "[...]", "set()", "\x7b\x7d",
    "\x7b...\x7d"]

theorem quoted_of_falsy {s : Scalar} (falsy : s.isTruthy = false) : s.quoted ∈ negations := by
  cases s with
  | null => decide +kernel
  | bool b =>
      cases b with
      | false => decide +kernel
      | true => cases falsy
  | int n =>
      have zero : n = 0 := by simpa [Scalar.isTruthy] using falsy
      subst zero
      decide +kernel
  | real x =>
      cases x with
      | finite negative mantissa exponent =>
          have zero : mantissa = 0 := by
            simpa [Scalar.isTruthy, Number.Binary64.isZero] using falsy
          subst zero
          have shown : (Scalar.real (.finite negative 0 exponent)).quoted =
              Number.Binary64.signed negative "0.0" := rfl
          rw [shown]
          cases negative <;> decide +kernel
      | infinite | undefined => cases falsy
  | text s =>
      have empty : s = "" := by simpa [Scalar.isTruthy] using falsy
      subst empty
      decide +kernel
  | bytes content =>
      cases content with
      | nil => decide +kernel
      | cons => cases falsy
  | undefined | date | moment => cases falsy

theorem quotedWithin_of_falsy (around : List Nat) (v : Value) (falsy : v.isTruthy = false) :
    v.quotedWithin around ∈ negations := by
  match v with
  | .scalar s => exact quoted_of_falsy falsy
  | .list items =>
      cases items with
      | nil =>
          rw [quotedWithin, quotedItems]
          decide +kernel
      | cons => cases falsy
  | .pair a b => cases falsy
  | .set members =>
      cases members with
      | nil =>
          rw [quotedWithin]
          decide +kernel
      | cons => cases falsy
  | .object entries =>
      cases entries with
      | nil =>
          rw [quotedWithin, quotedEntries]
          decide +kernel
      | cons => cases falsy
  | .knot mark collection =>
      unfold quotedWithin
      split
      · exact quotedWithin_of_falsy (mark :: around) collection falsy
      · split <;> decide +kernel

theorem display_mem_of_falsy {v : Value} (falsy : v.isTruthy = false) : v.display ∈ negations := by
  cases v with
  | scalar s =>
      cases s with
      | text s =>
          have empty : s = "" := by simpa [isTruthy, Scalar.isTruthy] using falsy
          subst empty
          decide +kernel
      | date | moment => cases falsy
      | null | bool | int | real | undefined | bytes => exact quoted_of_falsy falsy
  | list | pair | set | object | knot => exact quotedWithin_of_falsy [] _ falsy

theorem display_of_falsy {v : Value} (falsy : v.isTruthy = false) : HoldsNoParameter v.display := by
  have each : ∀ shown ∈ negations, HoldsNoParameter shown := by decide +kernel
  exact each _ (display_mem_of_falsy falsy)

end Value

/-! ## Names as they are read -/

namespace Sql

/-- A bare name as it is read: line ends are no part of it, and it may be spelled in any case. -/
def readName (s : String) : String :=
  String.ofList ((s.toList.filter (· != '\n')).map Char.toLower)

theorem toList_readName (s : String) :
    (readName s).toList = (s.toList.filter (· != '\n')).map Char.toLower :=
  String.toList_ofList

theorem readName_append (front back : String) :
    readName (front ++ back) = readName front ++ readName back := by
  refine String.toList_injective ?_
  simp [toList_readName]

def afterLastDot (cs : List Char) : List Char :=
  (cs.reverse.takeWhile (· != '.')).reverse

theorem afterLastDot_eq_self {cs : List Char} (absent : '.' ∉ cs) : afterLastDot cs = cs := by
  have all : ∀ c ∈ cs.reverse, (c != '.') = true := by
    intro c member
    refine bne_iff_ne.mpr fun same => absent ?_
    exact same ▸ List.mem_reverse.mp member
  have whole : (cs.reverse ++ []).takeWhile (· != '.') = cs.reverse ++ [] :=
    List.takeWhile_append_of_pos all
  rw [List.append_nil] at whole
  rw [afterLastDot, whole, List.reverse_reverse]

theorem afterLastDot_append (front back : List Char) :
    afterLastDot (front ++ '.' :: back) = afterLastDot back := by
  have stops : List.takeWhile (· != '.') ('.' :: front.reverse) = [] := rfl
  rw [afterLastDot, afterLastDot, List.reverse_append, List.reverse_cons, List.append_assoc,
    List.takeWhile_append]
  split
  · rename_i whole
    rw [List.singleton_append, stops, List.append_nil,
      List.IsPrefix.eq_of_length (List.takeWhile_prefix _) whole]
  · rfl

theorem mem_afterLastDot {front : List Char} {c : Char} (other : c ≠ '.') :
    c ∈ afterLastDot (front ++ [c]) := by
  simp [afterLastDot, other]

end Sql

open Sql

theorem toLower_of_identifierChar {c : Char} (allowed : isIdentifierChar c) : c.toLower = c := by
  refine dif_neg fun upper => ?_
  have range : 0x41 ≤ c.toNat ∧ c.toNat ≤ 0x5A := by
    simp only [ge_iff_le, UInt32.le_iff_toNat_le] at upper
    exact upper
  simp only [isIdentifierChar, Bool.or_eq_true, beq_iff_eq] at allowed
  rcases allowed with (lower | rfl) | digit
  · have lowerRange := lower_range lower
    omega
  · revert range
    decide
  · simp only [Char.isDigit, Bool.and_eq_true, decide_eq_true_eq, ge_iff_le,
      UInt32.le_iff_toNat_le] at digit
    have low : c.toNat ≤ 0x39 := digit.2
    omega

theorem toList_readName_of_word {s : String} {word : List Char} (isWord : isIdentifierWord word)
    (same : s.toList = word ∨ s.toList = word ++ ['\n']) : (readName s).toList = word := by
  have chars := isIdentifierWord_chars isWord
  have kept : word.filter (· != '\n') = word := by
    refine List.filter_eq_self.mpr fun c member => bne_iff_ne.mpr ?_
    rintro rfl
    have allowed := chars _ member
    revert allowed
    decide
  have lower : word.map Char.toLower = word := by
    refine (List.map_congr_left fun c member => ?_).trans (List.map_id word)
    exact toLower_of_identifierChar (chars c member)
  rw [toList_readName]
  rcases same with same | broken
  · rw [same, kept, lower]
  · rw [broken, List.filter_append, kept, List.map_append, lower]
    exact List.append_nil word

theorem isIdentifierWord_readName {s : String} (valid : isIdentifier s) :
    isIdentifierWord (readName s).toList := by
  obtain ⟨word, isWord, same⟩ := isIdentifier_iff.mp valid
  rwa [toList_readName_of_word isWord same]

theorem readName_eq_self {s : String} (valid : isIdentifier s)
    (unbroken : s.toList.getLast? ≠ some '\n') : readName s = s := by
  obtain ⟨word, isWord, same⟩ := isIdentifier_iff.mp valid
  refine String.toList_injective ((toList_readName_of_word isWord same).trans ?_)
  rcases same with same | broken
  · exact same.symm
  · exact absurd (by simp [broken]) unbroken

/-- After its last dot, what is shown reads as the column or as no name at all; what stands for
"no" may read as a word. -/
def ShowsColumn (shown column : String) : Prop :=
  isIdentifierWord (afterLastDot (readName shown).toList) →
    afterLastDot (readName shown).toList ∈
      [(readName column).toList, "none".toList, "false".toList]

namespace Value

theorem showsColumn_of_falsy {v : Value} (falsy : v.isTruthy = false) (column : String) :
    ShowsColumn v.display column := by
  have each : ∀ shown ∈ negations, isIdentifierWord (afterLastDot (readName shown).toList) →
      afterLastDot (readName shown).toList ∈ ["none".toList, "false".toList] := by decide +kernel
  exact fun word => List.mem_cons_of_mem _ (each _ (display_mem_of_falsy falsy) word)

theorem showsColumn_of_readIdentifier {what : String} {v : Value} {s : String}
    (read : v.readIdentifier what = .ok s) : ShowsColumn v.display s := by
  obtain ⟨text, valid⟩ := readIdentifier_eq_ok.mp read
  intro word
  rcases readText_eq_ok.mp text with rfl | ⟨content, rfl, _⟩
  · have absent : '.' ∉ (readName s).toList := by
      intro member
      have allowed := isIdentifierWord_chars (isIdentifierWord_readName valid) '.' member
      revert allowed
      decide
    have shown : (Value.text s).display = s := rfl
    rw [shown, afterLastDot_eq_self absent]
    exact List.mem_cons_self
  · -- Bytes are shown in quotes, so the last sign is no part of a word.
    obtain ⟨front, quote, shown, either⟩ := Text.quotedBytes_ends content
    have written : (readName (Value.scalar (.bytes content)).display).toList =
        (readName front).toList ++ [quote] := by
      have display : (Value.scalar (.bytes content)).display = front ++ quote.toString := shown
      have last : (readName quote.toString).toList = [quote] := by
        rcases either with rfl | rfl <;> decide
      rw [display, readName_append, String.toList_append, last]
    rw [written] at word
    have other : quote ≠ '.' := by rcases either with rfl | rfl <;> decide
    have allowed := isIdentifierWord_chars word quote (mem_afterLastDot other)
    rcases either with rfl | rfl
    · exact absurd allowed (by decide)
    · exact absurd allowed (by decide)

end Value

end TenantSql
