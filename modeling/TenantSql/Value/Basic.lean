import TenantSql.Value.Date
import TenantSql.Number.Decimal

/-!
# Values of a definition

What a definition file holds before anything is known about its meaning:
scalars, lists, and objects whose entries keep their order. JSON gives objects
with text keys only. YAML has more: any scalar as a key, bytes, sets, pairs, and
collections that are among their own parts.
-/

namespace TenantSql

inductive Scalar where
  | null
  | bool (b : Bool)
  | int (n : Int)
  | real (x : Number.Binary64)
  /-- A number without a value. It equals none but itself, which its mark tells from others. -/
  | undefined (mark : Nat)
  | text (s : String)
  | bytes (content : List UInt8)
  | date (d : Date)
  | moment (m : Moment)
  deriving DecidableEq, Repr, Inhabited

inductive Value where
  | scalar (s : Scalar)
  | list (items : List Value)
  | pair (first second : Value)
  | set (members : List Scalar)
  | object (entries : List (Scalar × Value))
  /-- A list or an object that is among its own parts. The mark tells where it comes again; below
  some depth it is empty. -/
  | knot (mark : Nat) (collection : Value)
  deriving Repr

namespace Value

@[match_pattern] abbrev null : Value := .scalar .null
@[match_pattern] abbrev bool (b : Bool) : Value := .scalar (.bool b)
@[match_pattern] abbrev int (n : Int) : Value := .scalar (.int n)
@[match_pattern] abbrev real (x : Number.Binary64) : Value := .scalar (.real x)
@[match_pattern] abbrev text (s : String) : Value := .scalar (.text s)

instance : Inhabited Value := ⟨.null⟩

def bare : Value → Value
  | .knot _ collection => collection
  | v => v

def ofFields (fields : List (String × Value)) : Value :=
  .object (fields.map fun field => (.text field.1, field.2))

end Value

namespace Scalar

def number? : Scalar → Option Number.Binary64
  | .bool b => some (.ofInt b.toNat)
  | .int n => some (.ofInt n)
  | .real x => some x
  | .undefined _ => some .undefined
  | _ => none

def integer? : Scalar → Option Int
  | .bool b => some b.toNat
  | .int n => some n
  | .real x => x.toInt?
  | _ => none

def same (a b : Scalar) : Bool :=
  match a, b with
  | .moment m, .moment n => m.same n
  | _, _ =>
    match a.integer?, b.integer? with
    | some m, some n => m == n
    | none, none => a == b
    | _, _ => false

def isTruthy : Scalar → Bool
  | .null => false
  | .bool b => b
  | .int n => n != 0
  | .real x => !x.isZero
  | .text s => s != ""
  | .bytes content => !content.isEmpty
  | .undefined _ | .date _ | .moment _ => true

end Scalar

abbrev Entries := List (Scalar × Value)

namespace Entries

def get? (entries : Entries) (key : String) : Option Value :=
  (entries.find? fun entry => entry.1 == .text key).map (·.2)

def getD (entries : Entries) (key : String) : Value :=
  (entries.get? key).getD .null

def has (entries : Entries) (key : String) : Bool :=
  (entries.get? key).isSome

def insert (entries : Entries) (key : Scalar) (value : Value) : Entries :=
  if entries.any (·.1.same key) then
    entries.map fun entry => if entry.1.same key then (entry.1, value) else entry
  else entries ++ [(key, value)]

def set (entries : Entries) (key : String) (value : Value) : Entries :=
  entries.insert (.text key) value

end Entries

namespace Value

def isTruthy : Value → Bool
  | .scalar s => s.isTruthy
  | .list items => !items.isEmpty
  | .set members => !members.isEmpty
  | .object entries => !entries.isEmpty
  | .pair .. => true
  | .knot _ collection => collection.isTruthy

mutual

def same : Value → Value → Bool
  | .knot _ collection, other => same collection other
  | .scalar a, .scalar b => a.same b
  | .list as, other =>
      match other.bare with
      | .list bs => sameItems as bs
      | _ => false
  | .pair a b, .pair c d => same a c && same b d
  | .set as, .set bs => as.length == bs.length && as.all fun a => bs.any a.same
  | .object as, other =>
      match other.bare with
      | .object bs => as.length == bs.length && sameEntries as bs
      | _ => false
  | _, _ => false

def sameItems : List Value → List Value → Bool
  | [], [] => true
  | a :: as, b :: bs => same a b && sameItems as bs
  | _, _ => false

def sameEntries : List (Scalar × Value) → List (Scalar × Value) → Bool
  | [], _ => true
  | (key, value) :: rest, others =>
      (match others.find? (·.1.same key) with
        | some other => same value other.2
        | none => false) && sameEntries rest others

end

end Value

end TenantSql
