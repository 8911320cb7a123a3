import TenantSql.Value.Display

/-!
# Printing JSON

A value is printed on one line or with an indent, and its texts either in ASCII
alone or with every character above the controls as it is.
-/

namespace TenantSql.Json

inductive Alphabet where
  | ascii
  | unicode
  deriving DecidableEq

def unitEscape (n : Nat) : String :=
  "\\u" ++ Text.hexDigits 4 n

def numericEscape (c : Char) : String :=
  let n := c.toNat
  if n < 0x10000 then unitEscape n
  else unitEscape (0xD800 + (n - 0x10000) / 0x400) ++ unitEscape (0xDC00 + (n - 0x10000) % 0x400)

def escapedChar (alphabet : Alphabet) (c : Char) : String :=
  if c == '"' then "\\\""
  else if c == '\\' then "\\\\"
  else if c == '\n' then "\\n"
  else if c == '\r' then "\\r"
  else if c == '\t' then "\\t"
  else if c == '\x08' then "\\b"
  else if c == '\x0c' then "\\f"
  else if c.toNat < 0x20 then numericEscape c
  else if alphabet = .ascii && 0x7F ≤ c.toNat then numericEscape c
  else c.toString

def printText (alphabet : Alphabet) (s : String) : String :=
  "\"" ++ String.join (s.toList.map (escapedChar alphabet)) ++ "\""

def printReal (x : Number.Binary64) : String :=
  match x with
  | .undefined => "NaN"
  | .infinite negative => if negative then "-Infinity" else "Infinity"
  | .finite .. => x.display

def printScalar (alphabet : Alphabet) : Scalar → String
  | .null => "null"
  | .bool b => if b then "true" else "false"
  | .int n => toString n
  | .real x => printReal x
  | .undefined _ => "NaN"
  | .text s => printText alphabet s
  | .date d => printText alphabet d.display
  | .bytes content => printText alphabet (Text.quotedBytes content)
  | .moment m => printText alphabet m.display

def printKey (alphabet : Alphabet) : Scalar → String
  | .text s => printText alphabet s
  | .date d => printText alphabet d.display
  | .bytes content => printText alphabet (Text.quotedBytes content)
  | .moment m => printText alphabet m.display
  | other => printText alphabet (printScalar alphabet other)

structure Layout where
  alphabet : Alphabet
  unit : Option String

namespace Layout

def lineBreak (layout : Layout) (depth : Nat) : String :=
  match layout.unit with
  | none => ""
  | some unit => "\n" ++ String.join (List.replicate depth unit)

def separator (layout : Layout) (depth : Nat) : String :=
  match layout.unit with
  | none => ", "
  | some _ => "," ++ layout.lineBreak depth

def enclose (layout : Layout) (depth : Nat) (opening closing : String) (items : List String) :
    String :=
  if items.isEmpty then opening ++ closing
  else
    opening ++ layout.lineBreak (depth + 1) ++ (layout.separator (depth + 1)).intercalate items ++
      layout.lineBreak depth ++ closing

mutual

def printAt (layout : Layout) (depth : Nat) : Value → String
  | .scalar s => printScalar layout.alphabet s
  | .list items => layout.enclose depth "[" "]" (printItems layout (depth + 1) items)
  | .pair a b => layout.enclose depth "[" "]"
      [printAt layout (depth + 1) a, printAt layout (depth + 1) b]
  | .set members => layout.enclose depth "[" "]" (members.map (printScalar layout.alphabet))
  | .object entries =>
      layout.enclose depth "\x7b" "\x7d" (printEntries layout (depth + 1) entries)
  | .knot _ collection => printAt layout depth collection

def printItems (layout : Layout) (depth : Nat) : List Value → List String
  | [] => []
  | item :: rest => printAt layout depth item :: printItems layout depth rest

def printEntries (layout : Layout) (depth : Nat) : List (Scalar × Value) → List String
  | [] => []
  | (key, value) :: rest =>
      (printKey layout.alphabet key ++ ": " ++ printAt layout depth value)
        :: printEntries layout depth rest

end

def print (layout : Layout) (value : Value) : String :=
  layout.printAt 0 value

end Layout

def compact : Layout := ⟨.ascii, none⟩

end TenantSql.Json
