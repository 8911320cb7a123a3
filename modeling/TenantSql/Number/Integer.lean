import TenantSql.Text.Blank
import TenantSql.Text.CharRange

/-!
# Reading integers

Digits of a base, the decimal ones of any script, with a sign and blanks around
them and with single underscores between digits. In a base that is a power of
two the base may be written in front.
-/

namespace TenantSql.Number

def maxDigits : Nat := 4300

def digitValue? (base : Nat) (c : Char) : Option Nat :=
  let value := (Text.decimalDigit? c).orElse fun _ =>
    if c.isAlpha then some (c.toLower.toNat - 'a'.toNat + 10) else none
  value.filter (· < base)

def moreDigits? (base : Nat) : List Char → Option (List Nat)
  | [] => some []
  | '_' :: c :: rest => do return (← digitValue? base c) :: (← moreDigits? base rest)
  | c :: rest => do return (← digitValue? base c) :: (← moreDigits? base rest)

/-- The number that digits write; the first character is a digit. There are not too many of them,
unless the base is a power of two. -/
def digits? (base : Nat) : List Char → Option Nat
  | [] => none
  | c :: rest => do
      let digits := (← digitValue? base c) :: (← moreDigits? base rest)
      if base == 10 && maxDigits < digits.length then none
      else return digits.foldl (fun n digit => n * base + digit) 0

def baseLetter? : Nat → Option Char
  | 2 => some 'b'
  | 8 => some 'o'
  | 16 => some 'x'
  | _ => none

def withoutBase (base : Nat) (cs : List Char) : List Char :=
  match cs with
  | '0' :: letter :: rest =>
      if baseLetter? base == some letter.toLower then
        if rest.head? == some '_' then rest.tail else rest
      else cs
  | _ => cs

/-- The blanks around a number: those of ASCII alone unless another script is in use. -/
def isBlankAround (cs : List Char) (c : Char) : Bool :=
  if cs.all (·.toNat < 128) then c == ' ' || (9 ≤ c.toNat && c.toNat ≤ 13) else Text.isBlank c

def withoutBlanks (cs : List Char) : List Char :=
  let blank := isBlankAround cs
  ((cs.dropWhile blank).reverse.dropWhile blank).reverse

def integerIn? (base : Nat) (cs : List Char) : Option Int :=
  let size := fun digits => digits? base (withoutBase base digits)
  match withoutBlanks cs with
  | '-' :: digits => (size digits).map fun n => -(n : Int)
  | '+' :: digits => (size digits).map Int.ofNat
  | digits => (size digits).map Int.ofNat

def integer? (s : String) : Option Int :=
  integerIn? 10 s.toList

end TenantSql.Number
