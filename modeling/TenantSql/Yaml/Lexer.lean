import TenantSql.Yaml.Property
import TenantSql.Yaml.Text

/-!
# The tokens of a YAML text

Tokens are read from left to right. The indents of the open block collections
are kept, so that a line with a lesser one ends them. Whether a node is the key
of a mapping shows only at the colon after it, so the lexer remembers, for each
level of brackets, where the last node began that may be a key, and puts the
signs of a key and of its mapping in front of it once the colon comes.
-/

namespace TenantSql.Yaml

structure PossibleKey where
  index : Nat
  required : Bool
  line : Nat
  column : Nat
  offset : Nat
  deriving Repr

def maxKeyLength : Nat := 1024

/-- A text that is read into tokens. The list of possible keys has one place for each open bracket
and one for the text outside of all. -/
structure Lexer where
  cursor : Cursor
  tokens : Array Token := #[]
  indent : Int := -1
  outer : List Int := []
  keyAllowed : Bool := true
  inner : Option PossibleKey := none
  enclosing : List (Option PossibleKey) := []

namespace Lexer

def inFlow (l : Lexer) : Bool :=
  !l.enclosing.isEmpty

def push (l : Lexer) (t : Token) : Lexer :=
  { l with tokens := l.tokens.push t }

def pushSign (l : Lexer) (t : Token) (width : Nat) : Lexer :=
  { l with tokens := l.tokens.push t, cursor := l.cursor.skip width }

def skipBlank : Nat → Lexer → Lexer
  | 0, l => l
  | fuel + 1, l =>
    let after := (l.cursor.dropWhile (· == ' ')).skipComment
    match after.takeBreak? with
    | none => { l with cursor := after }
    | some (_, after) =>
        skipBlank fuel { l with cursor := after, keyAllowed := l.keyAllowed || !l.inFlow }

/-- The possible key while its colon may still come: on the same line, and not too far away. -/
def fresh (c : Cursor) : Option PossibleKey → Except Problem (Option PossibleKey)
  | none => .ok none
  | some key =>
      if key.line == c.line && c.offset - key.offset ≤ maxKeyLength then .ok (some key)
      else if key.required then malformed
      else .ok none

def dropStale (l : Lexer) : Except Problem Lexer := do
  let inner ← fresh l.cursor l.inner
  let enclosing ← l.enclosing.mapM (fresh l.cursor)
  return { l with inner, enclosing }

def dropKey (l : Lexer) : Except Problem Lexer := do
  demand (!l.inner.any PossibleKey.required)
  return { l with inner := none }

def noteKey (l : Lexer) : Except Problem Lexer :=
  if l.keyAllowed then do
    let l ← l.dropKey
    let c := l.cursor
    let required := !l.inFlow && l.indent == c.column
    return { l with inner := some ⟨l.tokens.size, required, c.line, c.column, c.offset⟩ }
  else .ok l

def closeBlocks (column : Int) : List Int → Lexer → Lexer
  | [], l => l
  | next :: outer, l =>
      if l.indent ≤ column then l
      else
        let closed := l.push .blockEnd
        closeBlocks column outer { closed with indent := next, outer }

def unindent (l : Lexer) (column : Int) : Lexer :=
  if l.inFlow then l else closeBlocks column l.outer l

def isDeeper (l : Lexer) (column : Nat) : Bool :=
  l.indent < column

def indentAt (l : Lexer) (column : Nat) : Lexer :=
  { l with indent := column, outer := l.indent :: l.outer }

def openBlock (l : Lexer) (start : Token) : Lexer :=
  if l.isDeeper l.cursor.column then (l.indentAt l.cursor.column).push start else l

def betweenDocuments (l : Lexer) : Except Problem Lexer := do
  let l ← (l.unindent (-1)).dropKey
  return { l with keyAllowed := false }

def openFlow (l : Lexer) (t : Token) : Except Problem Lexer := do
  let l ← l.noteKey
  let opened := l.pushSign t 1
  return { opened with keyAllowed := true, inner := none, enclosing := l.inner :: l.enclosing }

def closeFlow (l : Lexer) (t : Token) : Except Problem Lexer := do
  let l ← l.dropKey
  match l.enclosing with
  | [] => malformed
  | inner :: enclosing =>
      let closed := l.pushSign t 1
      return { closed with keyAllowed := false, inner, enclosing }

def readComma (l : Lexer) : Except Problem Lexer := do
  let l ← l.dropKey
  return { l.pushSign .flowEntry 1 with keyAllowed := true }

def readBlockEntry (l : Lexer) : Except Problem Lexer := do
  demand (l.inFlow || l.keyAllowed)
  let l := if l.inFlow then l else l.openBlock .blockSequenceStart
  let l ← l.dropKey
  return { l.pushSign .blockEntry 1 with keyAllowed := true }

def readKeySign (l : Lexer) : Except Problem Lexer := do
  demand (l.inFlow || l.keyAllowed)
  let l := if l.inFlow then l else l.openBlock .blockMappingStart
  let l ← l.dropKey
  return { l.pushSign .key 1 with keyAllowed := !l.inFlow }

/-- The lexer with the sign of a key in front of a node that began before, and the start of its
mapping before that if the key is further in than the innermost block collection. -/
def insertKey (l : Lexer) (key : PossibleKey) : Lexer :=
  let tokens := (l.tokens.toList.take key.index, l.tokens.toList.drop key.index)
  let withSigns := fun signs : List Token => (tokens.1 ++ signs ++ tokens.2).toArray
  if !l.inFlow && l.isDeeper key.column then
    { l.indentAt key.column with tokens := withSigns [.blockMappingStart, .key] }
  else { l with tokens := withSigns [.key] }

def readColon (l : Lexer) : Except Problem Lexer :=
  match l.inner with
  | some key => .ok { (l.insertKey key).pushSign .value 1 with inner := none, keyAllowed := false }
  | none => do
      demand (l.inFlow || l.keyAllowed)
      let l := if l.inFlow then l else l.openBlock .blockMappingStart
      return { l.pushSign .value 1 with keyAllowed := !l.inFlow }

def readNodePart (l : Lexer) (read : Cursor → Except Problem (Token × Cursor)) :
    Except Problem Lexer := do
  let l ← l.noteKey
  let (token, cursor) ← read l.cursor
  return { l.push token with cursor, keyAllowed := false }

def readBlockText (l : Lexer) (folds : Bool) : Except Problem Lexer := do
  let l ← l.dropKey
  let (text, cursor) ← readBlock folds l.indent l.cursor
  return { l.push (.scalar false text) with cursor, keyAllowed := true }

def readPlainText (l : Lexer) : Except Problem Lexer := do
  let l ← l.noteKey
  let plain := readPlain l.inFlow (l.indent + 1) l.cursor
  return { l.push (.scalar true (String.ofList plain.chars)) with
    cursor := plain.after, keyAllowed := plain.broken }

def startsPlain (l : Lexer) (char : Char) : Bool :=
  let apart := !endsWord (l.cursor.ahead 1)
  if char == '-' then apart
  else if char == '?' || char == ':' then apart && !l.inFlow
  else !isGap char && !isBreak char && !",[]\x7b\x7d#&*!|>'\"%@`".toList.contains char

def readToken (l : Lexer) (char : Char) : Except Problem Lexer :=
  let c := l.cursor
  let apart := endsWord (c.ahead 1)
  if char == '%' && c.column == 0 then do
    let l ← l.betweenDocuments
    let (directive, cursor) ← readDirective c
    return { l.push (.directive directive) with cursor }
  else if c.column == 0 && c.seesMarks '-' then
    (·.pushSign .documentStart 3) <$> l.betweenDocuments
  else if c.column == 0 && c.seesMarks '.' then
    (·.pushSign .documentEnd 3) <$> l.betweenDocuments
  else if char == '[' then l.openFlow .flowSequenceStart
  else if char == '\x7b' then l.openFlow .flowMappingStart
  else if char == ']' then l.closeFlow .flowSequenceEnd
  else if char == '\x7d' then l.closeFlow .flowMappingEnd
  else if char == ',' then l.readComma
  else if char == '-' && apart then l.readBlockEntry
  else if char == '?' && (l.inFlow || apart) then l.readKeySign
  else if char == ':' && (l.inFlow || apart) then l.readColon
  else if char == '*' then
    l.readNodePart fun c => (fun read => (.alias read.1, read.2)) <$> readAnchor c
  else if char == '&' then
    l.readNodePart fun c => (fun read => (.anchor read.1, read.2)) <$> readAnchor c
  else if char == '!' then
    l.readNodePart fun c => (fun read => (.tag read.1, read.2)) <$> readTag c
  else if char == '|' && !l.inFlow then l.readBlockText false
  else if char == '>' && !l.inFlow then l.readBlockText true
  else if char == '\'' || char == '"' then
    l.readNodePart fun c => (fun read => (.scalar false read.1, read.2)) <$> readQuoted char c
  else if l.startsPlain char then l.readPlainText
  else malformed

def run : Nat → Lexer → Except Problem (List Token)
  | 0, _ => malformed
  | fuel + 1, l => do
    let l ← (skipBlank (l.cursor.rest.length + 1) l).dropStale
    let l := l.unindent l.cursor.column
    match l.cursor.peek with
    | none =>
        let l ← l.betweenDocuments
        return l.tokens.toList
    | some char => run fuel (← l.readToken char)

end Lexer

def tokens (s : String) : Except Problem (List Token) := do
  demand (s.toList.all isAllowed)
  let start : Cursor := { rest := s.toList }
  let start := if start.sees '\uFEFF' then start.next else start
  Lexer.run (s.length + 1) { cursor := start }

end TenantSql.Yaml
