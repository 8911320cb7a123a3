import TenantSql.Yaml.Cursor
import TenantSql.Json.Reader
import TenantSql.Value.Date
import TenantSql.Number.Standard

/-!
# Dates and moments of YAML

A date has four, two and two digits; with a time of day after it, month and day
may have one digit each. A moment may end in a fraction of a second and in its
distance from universal time.
-/

namespace TenantSql.Yaml

def takeDigits? (count : Nat) (cs : List Char) : Option (Nat × List Char) :=
  let digits := cs.take count
  if digits.length == count && digits.all Char.isDigit then
    some (Json.digitsValue digits, cs.drop count)
  else none

def takeShort? (cs : List Char) : Option (Nat × List Char) :=
  (takeDigits? 2 cs).orElse fun _ => takeDigits? 1 cs

def after? (sign : Char) : List Char → Option (List Char)
  | c :: rest => if c == sign then some rest else none
  | [] => none

def takeDate? (cs : List Char) : Option (Date × List Char) := do
  let (year, rest) ← takeDigits? 4 cs
  let (month, rest) ← takeShort? (← after? '-' rest)
  let (day, rest) ← takeShort? (← after? '-' rest)
  return (⟨year, month, day⟩, rest)

def afterDate? : List Char → Option (List Char)
  | [] => none
  | c :: rest =>
      if c == 'T' || c == 't' then some rest
      else if isGap c then some (rest.dropWhile isGap)
      else none

def microseconds (fraction : List Char) : Nat :=
  let digits := fraction.take 6
  Json.digitsValue digits * 10 ^ (6 - digits.length)

def takeFraction : List Char → Nat × List Char
  | '.' :: rest =>
      let (digits, after) := Json.takeDigits rest
      (microseconds digits, after)
  | cs => (0, cs)

def offset? (cs : List Char) : Option Int := do
  let (sign, rest) ← match cs with
    | '+' :: rest => some ((1 : Int), rest)
    | '-' :: rest => some (-1, rest)
    | _ => none
  let (hours, rest) ← takeShort? rest
  match rest with
  | [] => return sign * (hours * 60)
  | _ =>
      let (minutes, rest) ← takeDigits? 2 (← after? ':' rest)
      if rest.isEmpty then return sign * (hours * 60 + minutes) else none

def zone? (cs : List Char) : Option (Option Int) :=
  match cs, cs.dropWhile isGap with
  | [], _ => some none
  | _, ['Z'] => some (some 0)
  | _, written => (offset? written).map some

def momentOn? (date : Date) (cs : List Char) : Option Moment := do
  let (hour, rest) ← takeShort? cs
  let (minute, rest) ← takeDigits? 2 (← after? ':' rest)
  let (second, rest) ← takeDigits? 2 (← after? ':' rest)
  let (microsecond, rest) := takeFraction rest
  let offset ← zone? rest
  return { date, hour, minute, second, microsecond, offset }

abbrev Stamp := Date ⊕ Moment

def stamp? (cs : List Char) : Option Stamp := do
  let (date, rest) ← takeDate? cs
  if rest.isEmpty then return .inl date
  return .inr (← momentOn? date (← afterDate? rest))

def isStamp (cs : List Char) : Bool :=
  match stamp? cs with
  | some (.inl _) => cs.length == 10
  | some (.inr _) => true
  | none => false

def withoutLineEnd (cs : List Char) : List Char :=
  if cs.getLast? == some '\n' then cs.dropLast else cs

def readStamp (cs : List Char) : Except Problem Stamp :=
  match stamp? (withoutLineEnd cs) with
  | none => .error (.fault .notARecord)
  | some stamp =>
      let valid := match stamp with
        | .inl date => date.isValid
        | .inr moment => moment.isValid
      if valid then .ok stamp else .error (.fault .wrongContent)

end TenantSql.Yaml
