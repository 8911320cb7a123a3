import TenantSql.Number.Integer
import TenantSql.Value.Basic
import TenantSql.Value.Fault
import TenantSql.Text.Quoted
import TenantSql.Number.Standard

/-!
# Values in messages

A message shows a text as it is and any other value as an expression: truth
values and the missing value by their words, numbers in decimals, lists in
brackets, pairs in parentheses, sets and objects in braces, with the texts
inside them in quotes. A collection that is among its own parts is not shown again
there, and an integer with too many digits cannot be shown.
-/

namespace TenantSql

namespace Scalar

def quoted : Scalar → String
  | .null => "None"
  | .bool b => if b then "True" else "False"
  | .int n => toString n
  | .real x => x.display
  | .undefined _ => "nan"
  | .text s => Text.quoted s
  | .bytes content => Text.quotedBytes content
  | .date d => d.quoted
  | .moment m => m.quoted

def isShowable : Scalar → Bool
  | .int n => n.natAbs < 10 ^ Number.maxDigits
  | _ => true

def display : Scalar → String
  | .text s => s
  | .date d => d.display
  | .moment m => m.display
  | other => other.quoted

end Scalar

namespace Value

mutual

/-- The value as it stands inside the collections with the given marks. One of these is not shown
again. -/
def quotedWithin (around : List Nat) : Value → String
  | .scalar s => s.quoted
  | .list items => "[" ++ ", ".intercalate (quotedItems around items) ++ "]"
  | .pair a b => "(" ++ quotedWithin around a ++ ", " ++ quotedWithin around b ++ ")"
  | .set [] => "set()"
  | .set members => "\x7b" ++ ", ".intercalate (members.map Scalar.quoted) ++ "\x7d"
  | .object entries => "\x7b" ++ ", ".intercalate (quotedEntries around entries) ++ "\x7d"
  | .knot mark collection =>
      if !around.contains mark then quotedWithin (mark :: around) collection
      else match collection with
        | .object _ => "\x7b...\x7d"
        | _ => "[...]"

def quotedItems (around : List Nat) : List Value → List String
  | [] => []
  | item :: rest => quotedWithin around item :: quotedItems around rest

def quotedEntries (around : List Nat) : List (Scalar × Value) → List String
  | [] => []
  | (key, value) :: rest =>
      (key.quoted ++ ": " ++ quotedWithin around value) :: quotedEntries around rest

end

def quoted (v : Value) : String :=
  v.quotedWithin []

def display : Value → String
  | .scalar s => s.display
  | other => other.quoted

mutual

def isShowable : Value → Bool
  | .scalar s => s.isShowable
  | .list items => areShowable items
  | .pair a b => isShowable a && isShowable b
  | .set members => members.all Scalar.isShowable
  | .object entries => entriesAreShowable entries
  | .knot _ collection => isShowable collection

def areShowable : List Value → Bool
  | [] => true
  | item :: rest => isShowable item && areShowable rest

def entriesAreShowable : List (Scalar × Value) → Bool
  | [] => true
  | (key, value) :: rest => key.isShowable && isShowable value && entriesAreShowable rest

end

def shown (v : Value) : Except Fault String :=
  if v.isShowable then .ok v.display else .error .wrongContent

def asNumber : Value → Except Fault Number.Binary64
  | .text _ => .error .wrongContent
  | .int n =>
      match Number.Binary64.ofInt n with
      | .infinite _ => .error .tooLarge
      | x => .ok x
  | .scalar s => s.number?.elim (.error .wrongKind) .ok
  | _ => .error .wrongKind

def kindName : Value → String
  | .null => "NoneType"
  | .bool _ => "bool"
  | .int _ => "int"
  | .real _ => "float"
  | .text _ => "str"
  | .scalar (.bytes _) => "bytes"
  | .scalar (.date _) => "date"
  | .scalar (.moment _) => "datetime"
  | .scalar (.undefined _) => "float"
  | .list _ => "list"
  | .pair .. => "tuple"
  | .set _ => "set"
  | .object _ => "dict"
  | .knot _ collection => collection.kindName

end Value

end TenantSql
