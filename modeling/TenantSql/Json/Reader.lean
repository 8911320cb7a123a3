import TenantSql.Number.Integer
import TenantSql.Value.Basic
import TenantSql.Value.Fault

/-!
# Reading JSON

A reader that says where a text stops being JSON. Strings must not hold control
characters; a number without a point or an exponent is an integer, which must not
have too many digits; values must not be nested too deeply; of two equal keys the
later value counts, in the place of the first; and the words `NaN`, `Infinity` and
`-Infinity` are read as numbers.
-/

namespace TenantSql.Json

inductive Problem where
  | expectedValue
  | expectedName
  | expectedColon
  | expectedComma
  | extraData
  | unterminatedString
  | controlCharacter
  | badEscape
  | badUnicodeEscape
  | byteOrderMark
  | beyond (f : Fault)
  deriving DecidableEq, Repr

def Problem.message : Problem → String
  | .expectedValue => "Expecting value"
  | .expectedName => "Expecting property name enclosed in double quotes"
  | .expectedColon => "Expecting ':' delimiter"
  | .expectedComma => "Expecting ',' delimiter"
  | .extraData => "Extra data"
  | .unterminatedString => "Unterminated string starting at"
  | .controlCharacter => "Invalid control character at"
  | .badEscape => "Invalid \\escape"
  | .badUnicodeEscape => "Invalid \\uXXXX escape"
  | .byteOrderMark => "Unexpected UTF-8 BOM (decode using utf-8-sig)"
  | .beyond _ => "Too much"

structure Failure where
  problem : Problem
  left : Nat
  deriving DecidableEq, Repr

def failAt {α : Type} (problem : Problem) (rest : List Char) : Except Failure α :=
  .error ⟨problem, rest.length⟩

def isSpace (c : Char) : Bool :=
  c == ' ' || c == '\t' || c == '\n' || c == '\r'

def skipSpace (cs : List Char) : List Char :=
  cs.dropWhile isSpace

def hexValue? (c : Char) : Option Nat :=
  if c.isDigit then some (c.toNat - '0'.toNat)
  else if 'a' ≤ c && c ≤ 'f' then some (c.toNat - 'a'.toNat + 10)
  else if 'A' ≤ c && c ≤ 'F' then some (c.toNat - 'A'.toNat + 10)
  else none

def hexUnit? (a b c d : Char) : Option Nat := do
  let a ← hexValue? a
  let b ← hexValue? b
  let c ← hexValue? c
  let d ← hexValue? d
  return ((a * 16 + b) * 16 + c) * 16 + d

def isHighUnit (n : Nat) : Bool := 0xD800 ≤ n && n < 0xDC00

def isLowUnit (n : Nat) : Bool := 0xDC00 ≤ n && n < 0xE000

def unitChar (n : Nat) : Char :=
  if isHighUnit n || isLowUnit n then '\uFFFD' else Char.ofNat n

def pairChar (high low : Nat) : Char :=
  Char.ofNat (0x10000 + (high - 0xD800) * 0x400 + (low - 0xDC00))

def simpleEscape? : Char → Option Char
  | '"' => some '"'
  | '\\' => some '\\'
  | '/' => some '/'
  | 'b' => some '\x08'
  | 'f' => some '\x0c'
  | 'n' => some '\n'
  | 'r' => some '\r'
  | 't' => some '\t'
  | _ => none

/-- The character after the letter `u` of an escape, and the rest; `letter` is the text from
that letter on. A first half of a pair takes the second along when one follows. -/
def readUnicodeEscape (letter : List Char) : List Char → Except Failure (Char × List Char)
  | a :: b :: c :: d :: next :: rest =>
      match hexUnit? a b c d with
      | none => failAt .badUnicodeEscape letter
      | some unit =>
        let after := next :: rest
        if isHighUnit unit then
          match after with
          | '\\' :: 'u' :: e :: f :: g :: h :: beyond :: tail =>
              match hexUnit? e f g h with
              | none => failAt .badUnicodeEscape (after.drop 1)
              | some low =>
                if isLowUnit low then .ok (pairChar unit low, beyond :: tail)
                else .ok (unitChar unit, after)
          | _ => .ok (unitChar unit, after)
        else .ok (unitChar unit, after)
  | _ => failAt .badUnicodeEscape letter

/-- The characters of a string up to its closing quote, and the rest. The string's text from its
opening quote on, `opening`, is where an unterminated string is reported. -/
def readChars (opening : List Char) : Nat → List Char → List Char →
    Except Failure (List Char × List Char)
  | 0, _, _ => failAt .unterminatedString opening
  | fuel + 1, read, cs =>
    match cs with
    | [] => failAt .unterminatedString opening
    | '"' :: rest => .ok (read.reverse, rest)
    | ['\\'] => failAt .unterminatedString opening
    | '\\' :: 'u' :: rest => do
        let (c, rest) ← readUnicodeEscape ('u' :: rest) rest
        readChars opening fuel (c :: read) rest
    | '\\' :: letter :: rest =>
        match simpleEscape? letter with
        | some c => readChars opening fuel (c :: read) rest
        | none => failAt .badEscape cs
    | c :: rest =>
        if c.toNat < 0x20 then failAt .controlCharacter cs
        else readChars opening fuel (c :: read) rest

def readString (opening rest : List Char) : Except Failure (String × List Char) := do
  let (cs, rest) ← readChars opening (rest.length + 1) [] rest
  return (String.ofList cs, rest)

def takeDigits (cs : List Char) : List Char × List Char :=
  (cs.takeWhile Char.isDigit, cs.dropWhile Char.isDigit)

def digitsValue (digits : List Char) : Nat :=
  digits.foldl (fun value c => value * 10 + (c.toNat - '0'.toNat)) 0

def takeFraction : List Char → List Char × List Char
  | '.' :: rest =>
      let (digits, after) := takeDigits rest
      if digits.isEmpty then ([], '.' :: rest) else (digits, after)
  | cs => ([], cs)

def takeExponent (cs : List Char) : Option Int × List Char :=
  match cs with
  | mark :: rest =>
      if mark == 'e' || mark == 'E' then
        let (negative, unsigned) := match rest with
          | '+' :: more => (false, more)
          | '-' :: more => (true, more)
          | more => (false, more)
        let (digits, after) := takeDigits unsigned
        if digits.isEmpty then (none, cs)
        else
          let size : Int := digitsValue digits
          (some (if negative then -size else size), after)
      else (none, cs)
  | [] => (none, cs)

def readNumber (cs : List Char) : Except Failure (Value × List Char) :=
  let (negative, unsigned) := match cs with
    | '-' :: rest => (true, rest)
    | rest => (false, rest)
  let (whole, afterWhole) := match unsigned with
    | '0' :: rest => (['0'], rest)
    | rest => takeDigits rest
  if whole.isEmpty then failAt .expectedValue cs
  else
    let (fraction, afterFraction) := takeFraction afterWhole
    let (exponent, rest) := takeExponent afterFraction
    if fraction.isEmpty && exponent.isNone then
      let size : Int := digitsValue whole
      if Number.maxDigits < whole.length then failAt (.beyond .wrongContent) cs
      else .ok (.int (if negative then -size else size), rest)
    else
      let digits := digitsValue (whole ++ fraction)
      .ok (.real (.ofDecimal negative digits (exponent.getD 0 - fraction.length)), rest)

def words : List (List Char × Value) :=
  [("null".toList, .null), ("true".toList, .bool true), ("false".toList, .bool false),
    ("NaN".toList, .scalar (.undefined 0)), ("Infinity".toList, .real (.infinite false)),
    ("-Infinity".toList, .real (.infinite true))]

def readWord? (cs : List Char) : Option (Value × List Char) :=
  (words.find? fun word => word.1.isPrefixOf cs).map fun word => (word.2, cs.drop word.1.length)

def maxDepth : Nat := 990

mutual

def readValue (depth : Nat) : Nat → List Char → Except Failure (Value × List Char)
  | 0, cs => failAt .expectedValue cs
  | fuel + 1, cs =>
    match cs with
    | '"' :: rest => do
        let (s, rest) ← readString cs rest
        return (.text s, rest)
    | '\x7b' :: rest =>
        if maxDepth ≤ depth then failAt (.beyond .tooDeep) cs
        else match skipSpace rest with
        | '\x7d' :: after => .ok (.object [], after)
        | entries => do
            let (entries, after) ← readEntries (depth + 1) fuel [] entries
            return (.object entries, after)
    | '[' :: rest =>
        if maxDepth ≤ depth then failAt (.beyond .tooDeep) cs
        else match skipSpace rest with
        | ']' :: after => .ok (.list [], after)
        | items => do
            let (items, after) ← readItems (depth + 1) fuel items
            return (.list items, after)
    | _ =>
        match readWord? cs with
        | some read => .ok read
        | none => readNumber cs

def readItems (depth : Nat) : Nat → List Char → Except Failure (List Value × List Char)
  | 0, cs => failAt .expectedValue cs
  | fuel + 1, cs => do
      let (item, rest) ← readValue depth fuel cs
      match skipSpace rest with
      | ']' :: after => return ([item], after)
      | ',' :: more => do
          let (items, after) ← readItems depth fuel (skipSpace more)
          return (item :: items, after)
      | other => failAt .expectedComma other

def readEntries (depth : Nat) : Nat → Entries → List Char → Except Failure (Entries × List Char)
  | 0, _, cs => failAt .expectedName cs
  | fuel + 1, entries, cs =>
    match cs with
    | '"' :: rest => do
        let (key, rest) ← readString cs rest
        match skipSpace rest with
        | ':' :: more => do
            let (value, rest) ← readValue depth fuel (skipSpace more)
            let entries := entries.set key value
            match skipSpace rest with
            | '\x7d' :: after => return (entries, after)
            | ',' :: more => readEntries depth fuel entries (skipSpace more)
            | other => failAt .expectedComma other
        | other => failAt .expectedColon other
    | _ => failAt .expectedName cs

end

def readAll (cs : List Char) : Except Failure Value := do
  if cs.head? == some '\uFEFF' then failAt .byteOrderMark cs
  else
    let (value, rest) ← readValue 0 (cs.length + 1) (skipSpace cs)
    match skipSpace rest with
    | [] => return value
    | extra => failAt .extraData extra

structure ReadError where
  problem : Problem
  line : Nat
  column : Nat
  offset : Nat
  deriving DecidableEq, Repr

namespace ReadError

def message (e : ReadError) : String :=
  s!"{e.problem.message}: line {e.line} column {e.column} (char {e.offset})"

def locate (cs : List Char) (failure : Failure) : ReadError :=
  let before := cs.take (cs.length - failure.left)
  { problem := failure.problem
    line := before.count '\n' + 1
    column := (before.reverse.takeWhile (· != '\n')).length + 1
    offset := before.length }

end ReadError

def read (s : String) : Except ReadError Value :=
  (readAll s.toList).mapError (.locate s.toList)

end TenantSql.Json
