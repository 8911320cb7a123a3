import TenantSql.Yaml.Cursor
import TenantSql.Json.Reader

/-!
# Texts of YAML

The three ways to write a text: in quotes, plain, and as a block of lines. A
line break inside a text is folded: one break reads as a space, and of several
the first is left out.
-/

namespace TenantSql.Yaml

def folded (first : Char) (others : List Char) : List Char :=
  if first != '\n' then first :: others
  else if others.isEmpty then [' ']
  else others

/-! ## Texts in quotes -/

def simpleEscape? : Char → Option Char
  | '0' => some '\x00'
  | 'a' => some '\x07'
  | 'b' => some '\x08'
  | 't' => some '\t'
  | '\t' => some '\t'
  | 'n' => some '\n'
  | 'v' => some '\x0b'
  | 'f' => some '\x0c'
  | 'r' => some '\r'
  | 'e' => some '\x1b'
  | ' ' => some ' '
  | '"' => some '"'
  | '\\' => some '\\'
  | '/' => some '/'
  | 'N' => some '\x85'
  | '_' => some '\xa0'
  | 'L' => some '\u2028'
  | 'P' => some '\u2029'
  | _ => none

def escapeWidth? : Char → Option Nat
  | 'x' => some 2
  | 'u' => some 4
  | 'U' => some 8
  | _ => none

def hexNumber? (digits : List Char) : Option Nat :=
  digits.foldlM (fun value c => (Json.hexValue? c).map (value * 16 + ·)) 0

def maxCodePoint : Nat := 0x10FFFF

def codePoint (width : Nat) (after : List Char) : Except Problem Char :=
  let digits := after.take width
  match hexNumber? digits with
  | none => malformed
  | some code =>
      if digits.length < width then malformed
      else if maxCodePoint < code then .error (.fault .wrongContent)
      else .ok (Json.unitChar code)

def readQuotedBreaks : Nat → Cursor → Except Problem (List Char × Cursor)
  | 0, c => .ok ([], c)
  | fuel + 1, c =>
    if c.seesDocumentMark then malformed
    else
      let after := c.dropWhile isGap
      match after.takeBreak? with
      | none => .ok ([], after)
      | some (char, after) => do
          let (more, after) ← readQuotedBreaks fuel after
          return (char :: more, after)

/-- The characters at the front that a gap and the line breaks after it read as, and the cursor
after them. -/
def readQuotedGap (c : Cursor) : Except Problem (List Char × Cursor) := do
  let (gap, after) := c.takeWhile isGap
  match after.takeBreak? with
  | some (first, after) =>
      let (others, after) ← readQuotedBreaks (after.rest.length + 1) after
      return (folded first others, after)
  | none =>
      demand after.peek.isSome
      return (gap, after)

/-- The character at the front of a text in double quotes, and the cursor after it: an escape
stands for one character, or for none at the end of a line. -/
def readEscape (c : Cursor) : Except Problem (List Char × Cursor) :=
  match c.ahead 1 with
  | none => malformed
  | some letter =>
    match simpleEscape? letter, escapeWidth? letter with
    | some char, _ => .ok ([char], c.skip 2)
    | none, some width => do
        let char ← codePoint width (c.rest.drop 2)
        return ([char], c.skip (2 + width))
    | none, none =>
        match c.next.takeBreak? with
        | some (_, after) => readQuotedBreaks (after.rest.length + 1) after
        | none => malformed

/-- The characters of a text in quotes up to its closing quote, and the cursor after that. In
single quotes a doubled quote stands for itself; in double quotes there are escapes. -/
def readQuotedChars (quote : Char) : Nat → Cursor → Except Problem (List Char × Cursor)
  | 0, _ => malformed
  | fuel + 1, c =>
    match c.rest with
    | [] => malformed
    | char :: following =>
        if char == quote then
          if quote == '\'' && following.head? == some '\'' then do
            let (more, after) ← readQuotedChars quote fuel (c.skip 2)
            return ('\'' :: more, after)
          else .ok ([], c.next)
        else do
          let (read, after) ←
            if isGap char || isBreak char then readQuotedGap c
            else if quote == '"' && char == '\\' then readEscape c
            else pure ([char], c.next)
          let (more, after) ← readQuotedChars quote fuel after
          return (read ++ more, after)

def readQuoted (quote : Char) (c : Cursor) : Except Problem (String × Cursor) := do
  let (chars, after) ← readQuotedChars quote (c.rest.length + 1) c.next
  return (String.ofList chars, after)

/-! ## Plain texts -/

def isFlowSign (c : Char) : Bool :=
  c == ',' || c == '[' || c == ']' || c == '\x7b' || c == '\x7d'

/-- The characters at the front without gaps: up to a colon that ends a key and, in brackets, up
to a sign that parts items. -/
def plainWord (inFlow : Bool) : List Char → List Char
  | [] => []
  | char :: rest =>
      let next := rest.head?
      let endsKey := char == ':' && (endsWord next || (inFlow && next.any isFlowSign))
      let endsItem := inFlow && (char == '?' || isFlowSign char)
      if isGap char || isBreak char || endsKey || endsItem then []
      else char :: plainWord inFlow rest

structure PlainGap where
  chars : List Char
  broken : Bool
  after : Cursor

def readPlainBreaks : Nat → Cursor → List Char × Cursor × Bool
  | 0, c => ([], c, false)
  | fuel + 1, c =>
    if c.seesDocumentMark && c.column == 0 then ([], c, true)
    else
      let after := c.dropWhile (· == ' ')
      match after.takeBreak? with
      | none => ([], after, false)
      | some (char, after) =>
          let (more, after, ended) := readPlainBreaks fuel after
          (char :: more, after, ended)

def readPlainGap (c : Cursor) : PlainGap :=
  let (spaces, after) := c.takeWhile (· == ' ')
  match after.takeBreak? with
  | none => ⟨spaces, false, after⟩
  | some (first, after) =>
      let (others, after, ended) := readPlainBreaks (after.rest.length + 1) after
      ⟨if ended then [] else folded first others, true, after⟩

structure PlainText where
  chars : List Char
  broken : Bool
  after : Cursor

/-- The words of a plain text from the next one on. Outside of brackets, words on lines with a
lesser indent do not belong to it. -/
def readPlainWords (inFlow : Bool) (indent : Int) : Nat → Cursor → Bool → List Char → PlainText
  | 0, c, broken, _ => ⟨[], broken, c⟩
  | fuel + 1, c, broken, gap =>
    let word := if c.sees '#' then [] else plainWord inFlow c.rest
    if word.isEmpty then ⟨[], broken, c⟩
    else
      let next := readPlainGap (c.skip word.length)
      let stops := next.chars.isEmpty || next.after.sees '#' ||
        (!inFlow && (next.after.column : Int) < indent)
      if stops then ⟨gap ++ word, next.broken, next.after⟩
      else
        let more := readPlainWords inFlow indent fuel next.after next.broken next.chars
        { more with chars := gap ++ word ++ more.chars }

def readPlain (inFlow : Bool) (indent : Int) (c : Cursor) : PlainText :=
  readPlainWords inFlow indent (c.rest.length + 1) c false []

/-! ## Blocks of lines -/

inductive Chomping where
  | strip
  | clip
  | keep
  deriving DecidableEq, Repr

def chomping? : Option Char → Option Chomping
  | some '+' => some .keep
  | some '-' => some .strip
  | _ => none

def indentDigit? : Option Char → Option Nat
  | some c => if c.isDigit then some (c.toNat - '0'.toNat) else none
  | none => none

def readBlockSigns (c : Cursor) : Except Problem (Chomping × Option Nat × Cursor) := do
  let (chomping, indent, after) :=
    match chomping? c.peek, indentDigit? c.peek with
    | some chomping, _ =>
        match indentDigit? (c.ahead 1) with
        | some digit => (chomping, some digit, c.skip 2)
        | none => (chomping, none, c.next)
    | none, some digit =>
        match chomping? (c.ahead 1) with
        | some chomping => (chomping, some digit, c.skip 2)
        | none => (.clip, some digit, c.next)
    | none, none => (.clip, none, c)
  demand (indent != some 0 && endsAtSpace after.peek)
  return (chomping, indent, after)

def readLeadingBreaks : Nat → Nat → Cursor → List Char × Nat × Cursor
  | 0, widest, c => ([], widest, c)
  | fuel + 1, widest, c =>
    let after := c.dropWhile (· == ' ')
    let widest := max widest after.column
    match after.takeBreak? with
    | none => ([], widest, after)
    | some (char, after) =>
        let (more, widest, after) := readLeadingBreaks fuel widest after
        (char :: more, widest, after)

def indentTo (column : Nat) (c : Cursor) : Cursor :=
  let spaces := (c.rest.takeWhile (· == ' ')).length
  c.skip (min spaces (column - c.column))

def readBlockBreaks (indent : Nat) : Nat → Cursor → List Char × Cursor
  | 0, c => ([], c)
  | fuel + 1, c =>
    let after := indentTo indent c
    match after.takeBreak? with
    | none => ([], after)
    | some (char, after) =>
        let (more, after) := readBlockBreaks indent fuel after
        (char :: more, after)

/-- What stands between two lines of a block. In a folded block a single break between lines that
do not begin with a gap becomes a space. -/
def betweenLines (folds : Bool) (line : List Char) (lineBreak next : Option Char)
    (breaks : List Char) : List Char :=
  let startsWithGap := fun c : Option Char => c.any isGap
  if folds && lineBreak == some '\n' && !startsWithGap line.head? && !startsWithGap next then
    if breaks.isEmpty then [' '] else breaks
  else lineBreak.toList ++ breaks

def lastBreaks (chomping : Chomping) (lineBreak : Option Char) (breaks : List Char) : List Char :=
  match chomping with
  | .strip => []
  | .clip => lineBreak.toList
  | .keep => lineBreak.toList ++ breaks

def readBlockLines (folds : Bool) (chomping : Chomping) (indent : Nat) :
    Nat → Cursor → List Char × Cursor
  | 0, c => ([], c)
  | fuel + 1, c =>
    let (line, after) := c.takeWhile (!isBreak ·)
    let lineBreak := after.takeBreak?.map (·.1)
    let (breaks, after) := readBlockBreaks indent (after.rest.length + 1) after.skipBreak
    if after.column == indent && after.peek.isSome then
      let (more, beyond) := readBlockLines folds chomping indent fuel after
      (line ++ betweenLines folds line lineBreak after.peek breaks ++ more, beyond)
    else (line ++ lastBreaks chomping lineBreak breaks, after)

def readBlock (folds : Bool) (outer : Int) (c : Cursor) : Except Problem (String × Cursor) := do
  let (chomping, digit, after) ← readBlockSigns c.next
  let after ← after.finishLine
  let least := (max (outer + 1) 1).toNat
  let fuel := after.rest.length + 1
  let (breaks, indent, after) :=
    match digit with
    | none =>
        let (breaks, widest, after) := readLeadingBreaks fuel 0 after
        (breaks, max least widest, after)
    | some digit =>
        let indent := least + digit - 1
        let (breaks, after) := readBlockBreaks indent fuel after
        (breaks, indent, after)
  if after.column == indent && after.peek.isSome then
    let (lines, after) := readBlockLines folds chomping indent fuel after
    return (String.ofList (breaks ++ lines), after)
  else return (String.ofList (lastBreaks chomping none breaks), after)

end TenantSql.Yaml
