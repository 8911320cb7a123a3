import TenantSql.Value.Fault

/-!
# Places in a YAML text

A cursor is the rest of a text with its place. Line breaks are the line feed,
the carriage return with or without a line feed after it, the next-line
character and the two separators of Unicode; a mark of the byte order takes no
column.
-/

namespace TenantSql.Yaml

inductive Problem where
  | malformed
  | fault (f : Fault)
  deriving DecidableEq, Repr

def malformed {α : Type} : Except Problem α :=
  .error .malformed

def demand (holds : Bool) : Except Problem Unit :=
  if holds then .ok () else malformed

def isBreak (c : Char) : Bool :=
  c == '\n' || c == '\r' || c == '\x85' || c == '\u2028' || c == '\u2029'

def isGap (c : Char) : Bool :=
  c == ' ' || c == '\t'

def endsLine (next : Option Char) : Bool :=
  next.all isBreak

def endsWord (next : Option Char) : Bool :=
  next.all fun c => isGap c || isBreak c

def endsAtSpace (next : Option Char) : Bool :=
  next.all fun c => c == ' ' || isBreak c

def isAllowed (c : Char) : Bool :=
  c == '\t' || c == '\n' || c == '\r' || c == '\x85' ||
    (0x20 ≤ c.toNat && c.toNat ≤ 0x7E) || (0xA0 ≤ c.toNat && c.toNat ≤ 0xFFFD) ||
    0x10000 ≤ c.toNat

def isNameChar (c : Char) : Bool :=
  c.isAlphanum || c == '-' || c == '_'

structure Cursor where
  rest : List Char
  line : Nat := 0
  column : Nat := 0
  offset : Nat := 0
  deriving Repr

namespace Cursor

def peek (c : Cursor) : Option Char :=
  c.rest.head?

def ahead (c : Cursor) (count : Nat) : Option Char :=
  c.rest[count]?

def sees (c : Cursor) (char : Char) : Bool :=
  c.peek == some char

def next (c : Cursor) : Cursor :=
  match c.rest with
  | [] => c
  | char :: rest =>
      if isBreak char && !(char == '\r' && rest.head? == some '\n') then
        ⟨rest, c.line + 1, 0, c.offset + 1⟩
      else if char == '\uFEFF' then ⟨rest, c.line, c.column, c.offset + 1⟩
      else ⟨rest, c.line, c.column + 1, c.offset + 1⟩

def skip : Nat → Cursor → Cursor
  | 0, c => c
  | count + 1, c => skip count c.next

def takeWhile (c : Cursor) (kind : Char → Bool) : List Char × Cursor :=
  let taken := c.rest.takeWhile kind
  (taken, c.skip taken.length)

def dropWhile (c : Cursor) (kind : Char → Bool) : Cursor :=
  (c.takeWhile kind).2

/-- The line break at the front as one character, and the cursor after it. All breaks but the two
separators of Unicode read as line feeds. -/
def takeBreak? (c : Cursor) : Option (Char × Cursor) :=
  match c.rest with
  | '\r' :: '\n' :: _ => some ('\n', c.skip 2)
  | char :: _ =>
      if char == '\u2028' || char == '\u2029' then some (char, c.next)
      else if isBreak char then some ('\n', c.next)
      else none
  | [] => none

def skipBreak (c : Cursor) : Cursor :=
  (c.takeBreak?.map (·.2)).getD c

def skipComment (c : Cursor) : Cursor :=
  if c.sees '#' then c.dropWhile (!isBreak ·) else c

def seesMarks (c : Cursor) (mark : Char) : Bool :=
  [mark, mark, mark].isPrefixOf c.rest && endsWord (c.ahead 3)

def seesDocumentMark (c : Cursor) : Bool :=
  c.seesMarks '-' || c.seesMarks '.'

def finishLine (c : Cursor) : Except Problem Cursor := do
  let ended := (c.dropWhile (· == ' ')).skipComment
  demand (endsLine ended.peek)
  return ended.skipBreak

end Cursor

end TenantSql.Yaml
