import TenantSql.Check.Checked
import TenantSql.Value.Display
import TenantSql.Text.Blank
import TenantSql.Number.Standard

/-!
# Reading parts of a value

The checks by which values become texts, truth values, numbers, choices, lists
and the fields of records. Truth values may be written as words or as the
numbers 0 and 1, integers as texts; a text must be a text. Bytes count as the
text that they encode.
-/

namespace TenantSql

def boolWords : List (String × Bool) :=
  [("true", true), ("t", true), ("yes", true), ("y", true), ("on", true), ("1", true),
    ("false", false), ("f", false), ("no", false), ("n", false), ("off", false), ("0", false)]

/-- The text from its first digit that counts on, or from a minus sign in front of it; zeros with
underscores among them are left out. If nothing but zeros stands in front of the decimal point or
the end, the last character of them remains. Nothing else may come first. -/
def fromFirstDigit? : List Char → Option (List Char)
  | [] => none
  | c :: cs =>
      let zeros := if c == '0' then c :: cs.takeWhile fun c => c == '0' || c == '_' else []
      match (c :: cs).drop zeros.length with
      | [] => some (zeros.drop (zeros.length - 1))
      | d :: rest =>
          if d.isDigit || d == '-' then some (d :: rest)
          else if d == '.' && !zeros.isEmpty then some (zeros.drop (zeros.length - 1) ++ d :: rest)
          else none

def dropZeroFraction (cs : List Char) : List Char :=
  let fraction := (cs.dropWhile (· != '.')).drop 1
  if !fraction.isEmpty && fraction.all (· == '0') then cs.takeWhile (· != '.') else cs

def dropSeparators (cs : List Char) : List Char :=
  if cs.head? == some '_' || cs.getLast? == some '_' || (cs.zip (cs.drop 1)).contains ('_', '_')
  then cs
  else cs.filter (· != '_')

def integerWidth : Nat := 4300

def isWord (n : Int) : Bool :=
  -2 ^ 63 ≤ n && n < 2 ^ 63

namespace Value

def readIntText (s : String) : Checked Int :=
  let inner := (s.toList.dropWhile Text.isWhiteSpace).reverse.dropWhile Text.isWhiteSpace |>.reverse
  let unsigned := match inner with
    | '+' :: '-' :: _ => none
    | '+' :: rest => fromFirstDigit? rest
    | _ => fromFirstDigit? inner
  let whole := dropSeparators (dropZeroFraction (unsigned.getD []))
  let negative := whole.head? == some '-'
  let size := if negative then whole.drop 1 else whole
  let digits := size.takeWhile Char.isDigit
  if integerWidth < digits.length + negative.toNat then .refuse .longInt
  else if digits.isEmpty || digits.length < size.length then .refuse .unclearInt
  else
    let value : Int := digits.foldl (fun n c => n * 10 + (c.toNat - '0'.toNat)) (0 : Nat)
    .ok (if negative then -value else value)

def decoded (content : List UInt8) (otherwise : Problem) : Checked String :=
  match String.fromUTF8? (ByteArray.mk content.toArray) with
  | some s => .ok s
  | none => .refuse otherwise

def readText : Value → Checked String
  | .text s => .ok s
  | .scalar (.bytes content) => decoded content .undecodable
  | _ => .refuse .notText

def readNonEmptyText (v : Value) : Checked String :=
  v.readText.andThen fun s => if s.isEmpty then .refuse .textTooShort else .ok s

def readBoolText (s : String) : Checked Bool :=
  match boolWords.lookup (String.ofList (s.toList.map Char.toLower)) with
  | some b => .ok b
  | none => .refuse .unclearBool

def readBool : Value → Checked Bool
  | .bool b => .ok b
  | .int n =>
      if n == 0 then .ok false else if n == 1 then .ok true
      else .refuse (if isWord n then .unclearBool else .notBool)
  | .text s => readBoolText s
  | .scalar (.bytes content) => (decoded content .unclearBool).andThen readBoolText
  | .real x =>
      match x.toInt? with
      | some 0 => .ok false
      | some 1 => .ok true
      | _ => .refuse .notBool
  | _ => .refuse .notBool

def readInt : Value → Checked Int
  | .int n => .ok n
  | .bool b => .ok b.toNat
  | .real x =>
      match x, x.toInt? with
      | _, some n => if isWord n && n != -2 ^ 63 then .ok n else .refuse .longInt
      | .finite .., none => .refuse .fractionalInt
      | _, none => .refuse .infiniteInt
  | .scalar (.undefined _) => .refuse .infiniteInt
  | .text s => readIntText s
  | .scalar (.bytes content) => (decoded content .unclearInt).andThen readIntText
  | _ => .refuse .notInt

def readPositive (v : Value) : Checked Nat :=
  v.readInt.andThen fun n => if n < 1 then .refuse (.tooSmall 1) else .ok n.toNat

def readChoice {α : Type} (choices : List α) (name : α → String) (v : Value) : Checked α :=
  let found := match v.readText with
    | .ok s => choices.find? fun choice => name choice == s
    | .refused _ => none
  match found with
  | some choice => .ok choice
  | none => .refuse (.notOneOf (choices.map name))

def readOptional {α : Type} (read : Value → Checked α) : Value → Checked (Option α)
  | .null => .ok none
  | v => some <$> read v

def items? : Value → Option (List Value)
  | .list items => some items
  | .pair a b => some [a, b]
  | .set members => some (members.map .scalar)
  | .knot _ collection => collection.items?
  | _ => none

def readList {α : Type} (read : Value → Checked α) (v : Value) : Checked (List α) :=
  match v.items? with
  | some items => .all (items.zipIdx.map fun (item, index) => (read item).within (.item index))
  | none => .refuse .notList

def readPair (v : Value) : Checked (String × String) :=
  match v.items? with
  | some items =>
      let part := fun index : Nat =>
        (match items[index]? with
          | some item => item.readText
          | none => .refuse .missing).within (.item index)
      if 2 < items.length then .refuse (.pairTooLong items.length)
      else Prod.mk <$> part 0 <*> part 1
  | none => .refuse .notPair

def readRecord {α : Type} (title : String) (read : Entries → Checked α) : Value → Checked α
  | .object entries => read entries
  | .knot _ collection => collection.readRecord title read
  | _ => .refuse (.notRecord title)

end Value

namespace Entries

def required {α : Type} (entries : Entries) (key : String) (read : Value → Checked α) :
    Checked α :=
  (match entries.get? key with
    | some v => read v
    | none => .refuse .missing).within (.field key)

def optional {α : Type} (entries : Entries) (key : String) (default : α)
    (read : Value → Checked α) : Checked α :=
  match entries.get? key with
  | some v => (read v).within (.field key)
  | none => .ok default

/-- The key under which a field with a second name is found; the short name goes first. -/
def nameOf (entries : Entries) (short long : String) : String :=
  if !entries.has short && entries.has long then long else short

def aliased {α : Type} (entries : Entries) (short long : String) (default : α)
    (read : Value → Checked α) : Checked α :=
  entries.optional (entries.nameOf short long) default read

def stepTo : Scalar → Step
  | .text s => .field s
  | .int n =>
      if isWord n then .item n
      else .field (if (Scalar.int n).isShowable then toString n else "<unprintable int object>")
  | .bool b => .item b.toNat
  | .null => .field "None"
  | .real x => .field x.display
  | .undefined _ => .field "nan"
  | .bytes content => .field (Text.quotedBytes content)
  | .date d => .field d.quoted
  | .moment m => .field m.quoted

def unknownIssue? (known : List String) (key : Scalar) : Option Issue :=
  match key with
  | .text s => if known.contains s then none else some ⟨[.field s], .unknownField⟩
  | .bytes content =>
      let encodesText := (String.fromUTF8? (ByteArray.mk content.toArray)).isSome
      some ⟨[stepTo key], if encodesText then .unknownField else .keyNotText⟩
  | other => some ⟨[stepTo other], .keyNotText⟩

def only (entries : Entries) (known : List String) : Checked Unit :=
  match entries.filterMap fun entry => unknownIssue? known entry.1 with
  | [] => .ok ()
  | issues => .refused issues

end Entries

end TenantSql
