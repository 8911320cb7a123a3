import TenantSql.Value.Display
import TenantSql.Text.Order

/-!
# Values as sequences

Where a definition expects several things, a text counts as its characters,
bytes as their numbers and an object as its keys. Values can be put in order if
all of them are texts, all numbers, all dates, all moments or all pairs of such
values.
-/

namespace TenantSql

namespace Text

def hasPiece (piece : List Char) : List Char → Bool
  | [] => piece.isEmpty
  | c :: rest => piece.isPrefixOf (c :: rest) || hasPiece piece rest

end Text

namespace Scalar

def distinct (scalars : List Scalar) : List Scalar :=
  scalars.foldl (fun seen s => if seen.any (·.same s) then seen else seen ++ [s]) []

def numberBelow (a b : Number.Binary64) : Bool :=
  match a, b with
  | .infinite true, .infinite true => false
  | .infinite true, _ => true
  | _, .infinite false => a != .infinite false
  | _, _ =>
    match a.toFraction?, b.toFraction? with
    | some (aNegative, an, ad), some (bNegative, bn, bd) =>
        let left : Int := an * bd
        let right : Int := bn * ad
        (if aNegative then -left else left) < (if bNegative then -right else right)
    | _, _ => false

def below : Scalar → Scalar → Except Fault Bool
  | .text a, .text b => .ok (a < b)
  | .date a, .date b => .ok (a.display < b.display)
  | .bytes a, .bytes b => .ok (a < b)
  | .moment a, .moment b =>
      match a.below? b with
      | some before => .ok before
      | none => .error .wrongKind
  | a, b =>
    match a, b, a.number?, b.number? with
    | .undefined _, _, _, some _ | _, .undefined _, some _, _ => .ok false
    | .real x, _, _, some y => .ok (numberBelow x y)
    | _, .real y, some x, _ => .ok (numberBelow x y)
    | _, _, some _, some _ => .ok (a.integer?.getD 0 < b.integer?.getD 0)
    | _, _, _, _ => .error .wrongKind

end Scalar

namespace Value

def isKey : Value → Bool
  | .scalar _ => true
  | .pair a b => isKey a && isKey b
  | _ => false

def distinct (values : List Value) : List Value :=
  values.foldl (fun seen v => if seen.any (·.same v) then seen else seen ++ [v]) []

def precedes : Value → Value → Except Fault Bool
  | .scalar a, .scalar b => a.below b
  | .pair a b, .pair c d => if same a c then precedes b d else precedes a c
  | _, _ => .error .wrongKind

def sorted (values : List Value) : Except Fault (List Value) := do
  for (a, m) in values.zipIdx do
    for (b, n) in values.zipIdx do
      if m != n then
        let _ ← a.precedes b
  return values.mergeSort fun a b =>
    match b.precedes a with
    | .ok before => !before
    | .error _ => true

def parts : Value → Except Fault (List Value)
  | .list items => .ok items
  | .pair a b => .ok [a, b]
  | .set members => .ok (members.map .scalar)
  | .object entries => .ok (entries.map fun entry => .scalar entry.1)
  | .text s => .ok (s.toList.map fun c => .text c.toString)
  | .scalar (.bytes content) => .ok (content.map fun byte => .int byte.toNat)
  | .scalar _ => .error .wrongKind
  | .knot _ collection => collection.parts

def partsOrNone (v : Value) : Except Fault (List Value) :=
  if v.isTruthy then v.parts else .ok []

def asKey : Value → Except Fault Scalar
  | .scalar s => .ok s
  | _ => .error .wrongKind

def asEntry (v : Value) : Except Fault (Value × Value) := do
  match ← v.parts with
  | [key, value] => if key.isKey then return (key, value) else throw .wrongKind
  | _ => throw .wrongContent

/-- The entries of an object, or of a collection of keys and values. Those whose keys are pairs are
left out, since nothing asks for them. -/
def asEntries : Value → Except Fault Entries
  | .object entries => .ok entries
  | .knot _ collection => collection.asEntries
  | v => do
      let parts ← match v with
        | .scalar (.bytes _) => v.parts
        | .scalar _ => .error .wrongKind
        | _ => v.parts
      parts.foldlM (fun entries item => do
        match ← item.asEntry with
        | (.scalar key, value) => return Entries.insert entries key value
        | _ => return entries) []

def hasPart (v : Value) (part : String) : Except Fault Bool :=
  match v with
  | .text s => .ok (Text.hasPiece part.toList s.toList)
  | .object entries => .ok (Entries.has entries part)
  | .knot _ collection => collection.hasPart part
  | .scalar _ => .error .wrongKind
  | _ => return (← v.parts).any (·.same (.text part))

end Value

end TenantSql
