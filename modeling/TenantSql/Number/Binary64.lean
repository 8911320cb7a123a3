import TenantSql.Number.Standard

/-!
# Numbers of 53 bits

The numbers that a decimal point or an exponent in a definition stands for:
`mantissa * 2 ^ exponent` with a mantissa below `2 ^ 53`, the two infinities,
and the undefined value. Reading rounds to the nearest number and, halfway, to
the even mantissa. A mantissa is kept odd, so that equal numbers are equal
values; zero keeps its sign.
-/

namespace TenantSql.Number

inductive Binary64 where
  | finite (negative : Bool) (mantissa : Nat) (exponent : Int)
  | infinite (negative : Bool)
  | undefined
  deriving DecidableEq, Repr, Inhabited

def roundDiv (numerator denominator : Nat) : Nat :=
  let low := numerator / denominator
  let twice := 2 * (numerator % denominator)
  if twice < denominator then low
  else if twice == denominator && low % 2 == 0 then low
  else low + 1

def bitLength (n : Nat) : Nat :=
  if n = 0 then 0 else n.log2 + 1

def oddPart : Nat → Nat → Int → Nat × Int
  | 0, m, e => (m, e)
  | fuel + 1, m, e => if m ≠ 0 && m % 2 == 0 then oddPart fuel (m / 2) (e + 1) else (m, e)

namespace Binary64

def ofParts (negative : Bool) (mantissa : Nat) (exponent : Int) : Binary64 :=
  if mantissa = 0 then .finite negative 0 0
  else
    let (m, e) := oddPart (bitLength mantissa) mantissa exponent
    .finite negative m e

def ofQuotient (negative : Bool) (numerator denominator : Nat) : Binary64 :=
  let estimate : Int := (bitLength numerator : Int) - bitLength denominator - 53
  let scaled := fun exponent : Int =>
    (numerator * 2 ^ (-exponent).toNat, denominator * 2 ^ exponent.toNat)
  let fits := fun exponent : Int =>
    let (n, d) := scaled exponent
    n / d < 2 ^ 53
  let exponent := max (-1074) (if fits estimate then estimate else estimate + 1)
  let (n, d) := scaled exponent
  let mantissa := roundDiv n d
  if 2 ^ 53 ≤ mantissa && 971 ≤ exponent || 971 < exponent then .infinite negative
  else ofParts negative mantissa exponent

def ofDecimal (negative : Bool) (digits : Nat) (exponent : Int) : Binary64 :=
  let magnitude := exponent + (Nat.toDigits 10 digits).length
  if digits = 0 || magnitude < -400 then .finite negative 0 0
  else if 400 < magnitude then .infinite negative
  else ofQuotient negative (digits * 10 ^ exponent.toNat) (10 ^ (-exponent).toNat)

def ofInt (n : Int) : Binary64 :=
  ofDecimal (n < 0) n.natAbs 0

def ofScaled (negative : Bool) (size : Nat) (exponent : Int) : Binary64 :=
  ofQuotient negative (size * 2 ^ exponent.toNat) (2 ^ (-exponent).toNat)

def add : Binary64 → Binary64 → Binary64
  | .finite s m e, .finite t n f =>
      let least := min e f
      let part := fun (negative : Bool) (mantissa : Nat) (exponent : Int) =>
        let size : Int := mantissa * 2 ^ (exponent - least).toNat
        if negative then -size else size
      let sum := part s m e + part t n f
      ofScaled (if sum == 0 then s && t else sum < 0) sum.natAbs least
  | .infinite s, .infinite t => if s == t then .infinite s else .undefined
  | .infinite s, .finite .. => .infinite s
  | .finite .., .infinite t => .infinite t
  | _, _ => .undefined

def mul : Binary64 → Binary64 → Binary64
  | .finite s m e, .finite t n f => ofScaled (s != t) (m * n) (e + f)
  | .infinite s, .finite t n _ => if n == 0 then .undefined else .infinite (s != t)
  | .finite s m _, .infinite t => if m == 0 then .undefined else .infinite (s != t)
  | .infinite s, .infinite t => .infinite (s != t)
  | _, _ => .undefined

def neg : Binary64 → Binary64
  | .finite negative mantissa exponent => .finite (!negative) mantissa exponent
  | .infinite negative => .infinite (!negative)
  | .undefined => .undefined

def isZero : Binary64 → Bool
  | .finite _ mantissa _ => mantissa == 0
  | _ => false

def toInt? : Binary64 → Option Int
  | .finite negative mantissa exponent =>
      if mantissa == 0 then some 0
      else if 0 ≤ exponent then
        let size : Int := mantissa * 2 ^ exponent.toNat
        some (if negative then -size else size)
      else none
  | _ => none

def toFraction? : Binary64 → Option (Bool × Nat × Nat)
  | .finite negative mantissa exponent =>
      some (negative, mantissa * 2 ^ exponent.toNat, 2 ^ (-exponent).toNat)
  | _ => none

end Binary64

end TenantSql.Number
