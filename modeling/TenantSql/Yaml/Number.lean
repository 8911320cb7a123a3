import TenantSql.Yaml.Cursor
import TenantSql.Json.Reader
import TenantSql.Number.Integer

/-!
# Numbers of YAML

Integers are written in decimals, in binary, octal or hexadecimal digits, or as
parts of a count by sixties; numbers with a point in decimals or by sixties.
Digits may be grouped by underscores.
-/

namespace TenantSql.Yaml

open Number (Binary64)

/-! ## The forms of numbers -/

def unsigned : List Char → List Char
  | '+' :: rest => rest
  | '-' :: rest => rest
  | cs => cs

def isGroupedDigit (c : Char) : Bool :=
  c.isDigit || c == '_'

def allOf (kind : Char → Bool) (cs : List Char) : Bool :=
  !cs.isEmpty && cs.all kind

def afterSixtieth? : List Char → Option (List Char)
  | a :: b :: rest =>
      if b.isDigit then if '0' ≤ a && a ≤ '5' then some rest else none
      else if a.isDigit then some (b :: rest)
      else none
  | [a] => if a.isDigit then some [] else none
  | [] => none

def afterSixtieths? : Nat → List Char → Option (List Char)
  | fuel + 1, ':' :: rest => do
      let after ← afterSixtieth? rest
      if after.head? == some ':' then afterSixtieths? fuel after else return after
  | _, _ => none

def isUnsignedInteger (cs : List Char) : Bool :=
  match cs with
  | '0' :: 'b' :: digits => allOf (fun c => c == '0' || c == '1' || c == '_') digits
  | '0' :: 'x' :: digits => allOf (fun c => (Json.hexValue? c).isSome || c == '_') digits
  | ['0'] => true
  | '0' :: digits => allOf (fun c => ('0' ≤ c && c ≤ '7') || c == '_') digits
  | first :: rest =>
      first.isDigit &&
        (match rest.dropWhile isGroupedDigit with
          | [] => true
          | sixtieths => afterSixtieths? sixtieths.length sixtieths == some [])
  | [] => false

def isInteger (cs : List Char) : Bool :=
  isUnsignedInteger (unsigned cs)

def isExponent : List Char → Bool
  | [] => true
  | mark :: sign :: digits =>
      (mark == 'e' || mark == 'E') && (sign == '+' || sign == '-') && allOf Char.isDigit digits
  | _ => false

/-- The form of a number with a point. A number that begins with its point has no sign. -/
def isReal (cs : List Char) : Bool :=
  match cs with
  | '.' :: first :: rest =>
      (first.isDigit && isExponent (rest.dropWhile isGroupedDigit)) ||
        [".inf", ".Inf", ".INF", ".nan", ".NaN", ".NAN"].contains (String.ofList cs)
  | _ =>
    match unsigned cs with
    | '.' :: rest => ["inf", "Inf", "INF"].contains (String.ofList rest)
    | first :: rest =>
        first.isDigit &&
          (match rest.dropWhile isGroupedDigit with
            | '.' :: fraction => isExponent (fraction.dropWhile isGroupedDigit)
            | sixtieths =>
                match afterSixtieths? sixtieths.length sixtieths with
                | some ('.' :: fraction) => fraction.all isGroupedDigit
                | _ => false)
    | [] => false

/-! ## The values of numbers -/

def notANumber {α : Type} : Except Problem α :=
  .error (.fault .wrongContent)

def splitSign : List Char → Bool × List Char
  | '-' :: rest => (true, rest)
  | '+' :: rest => (false, rest)
  | cs => (false, cs)

def sixtieths : List Char → List (List Char)
  | [] => [[]]
  | ':' :: rest => [] :: sixtieths rest
  | c :: rest =>
      match sixtieths rest with
      | first :: more => (c :: first) :: more
      | [] => [[c]]

def unsignedIntegerValue? (cs : List Char) : Option Int :=
  match cs with
  | ['0'] => some 0
  | '0' :: 'b' :: digits => Number.integerIn? 2 digits
  | '0' :: 'x' :: digits => Number.integerIn? 16 digits
  | '0' :: _ => Number.integerIn? 8 cs
  | _ =>
      if cs.contains ':' then do
        let parts ← (sixtieths cs).mapM (Number.integerIn? 10)
        return parts.foldl (fun value part => value * 60 + part) 0
      else Number.integerIn? 10 cs

def readInteger (cs : List Char) : Except Problem Int :=
  match cs.filter (· != '_') with
  | [] => .error (.fault .outOfRange)
  | written =>
      let (negative, digits) := splitSign written
      match digits with
      | [] => .error (.fault .outOfRange)
      | _ =>
        match unsignedIntegerValue? digits with
        | some size => .ok (if negative then -size else size)
        | none => notANumber

def decimalValue? (negative : Bool) (cs : List Char) : Option Binary64 :=
  let (whole, afterWhole) := Json.takeDigits cs
  let (fraction, afterFraction) := match afterWhole with
    | '.' :: rest => Json.takeDigits rest
    | rest => ([], rest)
  let (exponent, rest) := Json.takeExponent afterFraction
  if (whole ++ fraction).isEmpty || !rest.isEmpty then none
  else
    let digits := Json.digitsValue (whole ++ fraction)
    some (.ofDecimal negative digits (exponent.getD 0 - fraction.length))

def asciiDigit (c : Char) : Char :=
  match Text.decimalDigit? c with
  | some digit => Char.ofNat ('0'.toNat + digit)
  | none => c

def realValue? (cs : List Char) : Option Binary64 :=
  let (negative, size) := splitSign ((Number.withoutBlanks cs).map asciiDigit)
  match String.ofList size with
  | "inf" | "infinity" => some (.infinite negative)
  | "nan" => some .undefined
  | _ => decimalValue? negative size

def sumSixtieths : Nat → Binary64 → List Binary64 → Except Problem Binary64
  | _, sum, [] => .ok sum
  | unit, sum, part :: rest =>
      match Binary64.ofInt unit with
      | .infinite _ => .error (.fault .tooLarge)
      | factor => sumSixtieths (unit * 60) (sum.add (part.mul factor)) rest

def readUnsignedReal (cs : List Char) : Except Problem Binary64 :=
  match String.ofList cs with
  | ".inf" => .ok (.infinite false)
  | ".nan" => .ok .undefined
  | _ =>
      if cs.contains ':' then
        match (sixtieths cs).mapM realValue? with
        | some parts => sumSixtieths 1 (.ofInt 0) parts.reverse
        | none => notANumber
      else
        match realValue? cs with
        | some x => .ok x
        | none => notANumber

def readReal (cs : List Char) : Except Problem Binary64 :=
  match (cs.filter (· != '_')).map Char.toLower with
  | [] => .error (.fault .outOfRange)
  | written =>
      let (negative, size) := splitSign written
      (fun x => if negative then x.neg else x) <$> readUnsignedReal size

end TenantSql.Yaml
