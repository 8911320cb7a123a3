import TenantSql.Number.Binary64

/-!
# Decimal text of numbers

Two ways to write a number: with a fixed count of decimals, rounded from its
exact value, and with the fewest digits that read back as the same number.
-/

namespace TenantSql.Number

def decimalMagnitude (numerator denominator : Nat) : Int :=
  let estimate : Int :=
    (Nat.toDigits 10 numerator).length - ((Nat.toDigits 10 denominator).length : Int)
  if denominator * 10 ^ estimate.toNat ≤ numerator * 10 ^ (-estimate).toNat then estimate + 1
  else estimate

/-- The numbers around a positive one that round to it: four times its mantissa
of 53 bits, the distance of both ends in the same unit, and that unit's exponent of two. -/
structure Neighbourhood where
  centre : Nat
  below : Nat
  above : Nat
  exponent : Int
  closed : Bool

namespace Neighbourhood

def of (mantissa : Nat) (exponent : Int) : Neighbourhood :=
  let shift := min (53 - bitLength mantissa) (exponent + 1074).toNat
  let wide := mantissa * 2 ^ shift
  let atPower := wide == 2 ^ 52 && -1074 < exponent - shift
  { centre := 4 * wide, below := if atPower then 1 else 2, above := 2,
    exponent := exponent - shift - 2, closed := wide % 2 == 0 }

/-- Twice the two sides of the comparison of `count * 10 ^ grid` with `size * 2 ^ exponent`. -/
def scaled (around : Neighbourhood) (count : Nat) (grid : Int) (size : Nat) : Nat × Nat :=
  (count * 10 ^ grid.toNat * 2 ^ (-around.exponent).toNat,
    size * 2 ^ around.exponent.toNat * 10 ^ (-grid).toNat)

def holds (around : Neighbourhood) (count : Nat) (grid : Int) : Bool :=
  let (point, low) := around.scaled count grid (around.centre - around.below)
  let (_, high) := around.scaled count grid (around.centre + around.above)
  if around.closed then low ≤ point && point ≤ high else low < point && point < high

def candidates (around : Neighbourhood) (grid : Int) : List Nat :=
  let (unit, centre) := around.scaled 1 grid around.centre
  let low := centre / unit
  let nearest := roundDiv centre unit
  if nearest == low then [low, low + 1] else [low + 1, low]

end Neighbourhood

def shortestFrom (around : Neighbourhood) (magnitude : Int) : Nat → Nat → Nat × Int
  | 0, digits => (around.candidates (magnitude - digits) |>.headD 0, magnitude - digits)
  | places + 1, digits =>
      let grid := magnitude - digits
      match (around.candidates grid).find? (around.holds · grid) with
      | some count => (count, grid)
      | none => shortestFrom around magnitude places (digits + 1)

/-- The fewest digits that read back as `mantissa * 2 ^ exponent`, and the exponent of ten of
the last one. -/
def shortest (mantissa : Nat) (exponent : Int) : Nat × Int :=
  let magnitude :=
    decimalMagnitude (mantissa * 2 ^ exponent.toNat) (2 ^ (-exponent).toNat)
  shortestFrom (.of mantissa exponent) magnitude 16 1

def zeros (n : Nat) : List Char :=
  List.replicate n '0'

def significant (count : Nat) (grid : Int) : List Char × Int :=
  let digits := Nat.toDigits 10 count
  let kept := (digits.reverse.dropWhile (· == '0')).reverse
  (kept, digits.length + grid)

/-- Digits with a decimal point: positional from `0.0001` up to below `10 ^ 16`, and with an
exponent of at least two digits otherwise. -/
def layOutDigits (digits : List Char) (point : Int) : List Char :=
  if -4 < point && point ≤ 16 then
    if point ≤ 0 then '0' :: '.' :: zeros (-point).toNat ++ digits
    else if digits.length ≤ point.toNat then
      digits ++ zeros (point.toNat - digits.length) ++ ['.', '0']
    else digits.take point.toNat ++ '.' :: digits.drop point.toNat
  else
    let power := point - 1
    let powerDigits := Nat.toDigits 10 power.natAbs
    let fraction := digits.drop 1
    digits.take 1 ++ (if fraction.isEmpty then [] else '.' :: fraction) ++
      'e' :: (if power < 0 then '-' else '+') :: zeros (2 - powerDigits.length) ++ powerDigits

namespace Binary64

def signed (negative : Bool) (size : String) : String :=
  if negative then "-" ++ size else size

def display : Binary64 → String
  | .undefined => "nan"
  | .infinite negative => signed negative "inf"
  | .finite negative mantissa exponent =>
      if mantissa = 0 then signed negative "0.0"
      else
        let (count, grid) := shortest mantissa exponent
        let (digits, point) := significant count grid
        signed negative (String.ofList (layOutDigits digits point))

def fixed (places : Nat) (x : Binary64) : String :=
  match x, x.toFraction? with
  | .infinite negative, _ => signed negative "inf"
  | _, some (negative, numerator, denominator) =>
      let digits := Nat.toDigits 10 (roundDiv (numerator * 10 ^ places) denominator)
      let all := zeros (places + 1 - digits.length) ++ digits
      let whole := all.length - places
      let fraction := all.drop whole
      signed negative (String.ofList
        (all.take whole ++ if fraction.isEmpty then [] else '.' :: fraction))
  | _, none => "nan"

end Binary64

end TenantSql.Number
