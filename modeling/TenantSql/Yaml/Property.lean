import TenantSql.Yaml.Cursor
import TenantSql.Json.Reader

/-!
# Tokens, tags, anchors and directives

The pieces that a text of YAML is made of; the words that stand in front of a
node, and the lines that stand in front of a document.
-/

namespace TenantSql.Yaml

/-! ## Tokens

The indents of lines show as the starts and ends of block collections. -/

inductive Directive where
  | version (major : Nat)
  | handle (name expansion : String)
  | other
  deriving DecidableEq, Repr

structure WrittenTag where
  handle : Option String
  suffix : String
  deriving DecidableEq, Repr

inductive Token where
  | directive (d : Directive)
  | documentStart
  | documentEnd
  | blockSequenceStart
  | blockMappingStart
  | blockEnd
  | flowSequenceStart
  | flowSequenceEnd
  | flowMappingStart
  | flowMappingEnd
  | blockEntry
  | flowEntry
  | key
  | value
  | alias (name : String)
  | anchor (name : String)
  | tag (t : WrittenTag)
  | scalar (plain : Bool) (text : String)
  deriving DecidableEq, Repr

/-! ## Words and lines in front -/

def endsAnchor (next : Option Char) : Bool :=
  endsWord next || next.any fun c => "?:,]\x7d%@`".toList.contains c

def readAnchor (c : Cursor) : Except Problem (String × Cursor) := do
  let (name, after) := c.next.takeWhile isNameChar
  demand (!name.isEmpty && endsAnchor after.peek)
  return (String.ofList name, after)

def isTagChar (c : Char) : Bool :=
  c.isAlphanum || "-;/?:@&=+$,_.!~*'()[]".toList.contains c

def readByteEscapes : Nat → Cursor → Except Problem (List UInt8 × Cursor)
  | 0, c => .ok ([], c)
  | fuel + 1, c =>
    match c.rest with
    | '%' :: high :: low :: _ =>
        match Json.hexValue? high, Json.hexValue? low with
        | some high, some low => do
            let (bytes, after) ← readByteEscapes fuel (c.skip 3)
            return (UInt8.ofNat (high * 16 + low) :: bytes, after)
        | _, _ => malformed
    | '%' :: _ => malformed
    | _ => .ok ([], c)

def readTagChars : Nat → Cursor → Except Problem (List Char × Cursor)
  | 0, c => .ok ([], c)
  | fuel + 1, c =>
    let (plain, after) := c.takeWhile isTagChar
    if after.sees '%' then do
      let (bytes, after) ← readByteEscapes (after.rest.length + 1) after
      match String.fromUTF8? (ByteArray.mk bytes.toArray) with
      | none => malformed
      | some text =>
          let (more, after) ← readTagChars fuel after
          return (plain ++ text.toList ++ more, after)
    else .ok (plain, after)

def readTagText (c : Cursor) : Except Problem (String × Cursor) := do
  let (chars, after) ← readTagChars (c.rest.length + 1) c
  demand (!chars.isEmpty)
  return (String.ofList chars, after)

def readHandle (c : Cursor) : Except Problem (String × Cursor) := do
  demand (c.sees '!')
  if c.ahead 1 == some ' ' then return ("!", c.next)
  let (name, after) := c.next.takeWhile isNameChar
  demand (after.sees '!')
  return ("!" ++ String.ofList name ++ "!", after.next)

def hasHandle (c : Cursor) : Bool :=
  (c.rest.drop 1 |>.takeWhile fun char => !endsAtSpace (some char)).contains '!'

def readTag (c : Cursor) : Except Problem (WrittenTag × Cursor) := do
  let (tag, after) ←
    if c.ahead 1 == some '<' then do
      let (suffix, after) ← readTagText (c.skip 2)
      demand (after.sees '>')
      pure (WrittenTag.mk none suffix, after.next)
    else if endsWord (c.ahead 1) then pure (WrittenTag.mk none "!", c.next)
    else do
      let (handle, after) ← if hasHandle c then readHandle c else pure ("!", c.next)
      let (suffix, after) ← readTagText after
      pure (WrittenTag.mk (some handle) suffix, after)
  demand (endsAtSpace after.peek)
  return (tag, after)

def readNumber (c : Cursor) : Except Problem (Nat × Cursor) := do
  let (digits, after) := c.takeWhile Char.isDigit
  demand (!digits.isEmpty)
  return (Json.digitsValue digits, after)

def readVersion (c : Cursor) : Except Problem (Directive × Cursor) := do
  let (major, after) ← readNumber (c.dropWhile (· == ' '))
  demand (after.sees '.')
  let (_, after) ← readNumber after.next
  demand (endsAtSpace after.peek)
  return (.version major, after)

def readExpansion (c : Cursor) : Except Problem (Directive × Cursor) := do
  let (handle, after) ← readHandle (c.dropWhile (· == ' '))
  demand (after.sees ' ')
  let (expansion, after) ← readTagText (after.dropWhile (· == ' '))
  demand (endsAtSpace after.peek)
  return (.handle handle expansion, after)

def readDirective (c : Cursor) : Except Problem (Directive × Cursor) := do
  let (name, after) := c.next.takeWhile isNameChar
  demand (!name.isEmpty && endsAtSpace after.peek)
  let (directive, after) ←
    match String.ofList name with
    | "YAML" => readVersion after
    | "TAG" => readExpansion after
    | _ => pure (.other, after.dropWhile (!isBreak ·))
  return (directive, ← after.finishLine)

end TenantSql.Yaml
