import TenantSql.Number.Decimal
import TenantSql.Shell.Utilities

/-!
# Formulas and formats

What turns words into numbers and numbers into words: the formulas that are filled
into words, and the utilities that print.
-/

namespace TenantSql.Shell

/-! ## Arithmetic

Formulas that are filled into words: numbers, variables, assignments and the
usual operators, on integers of 64 bits. A part that the result does not depend
on has no effect. -/

inductive FormulaError where
  | noOperand
  | leftOver
  | notClosed
  | noAlternative
  | divisionByZero
  | notANumber (value : Bytes)
  deriving DecidableEq, Repr

def FormulaError.message (formula : Bytes) : FormulaError → Bytes
  | notANumber value => "Illegal number: ".toList ++ value
  | noOperand => within "expecting primary"
  | leftOver => within "expecting EOF"
  | notClosed => within "expecting ')'"
  | noAlternative => within "expecting ':'"
  | divisionByZero => within "division by zero"
where
  within (what : String) : Bytes :=
    s!"arithmetic expression: {what}: ".toList ++ '"' :: formula ++ ['"']

inductive Operator where
  | bitOr | bitXor | bitAnd
  | equal | unequal
  | less | atMost | greater | atLeast
  | shiftLeft | shiftRight
  | plus | minus
  | times | quotient | remainder
  deriving DecidableEq, Repr

inductive Sign where
  | plus | minus | not | complement
  deriving DecidableEq, Repr

inductive Formula where
  | number (n : Int)
  | named (name : Bytes)
  | signed (sign : Sign) (f : Formula)
  | joined (operator : Operator) (left right : Formula)
  | both (left right : Formula)
  | either (left right : Formula)
  | choice (condition yes no : Formula)
  | assign (name : Bytes) (operator : Option Operator) (value : Formula)
  | wrong (e : FormulaError)
  | wrongAfter (f : Formula) (e : FormulaError)
  deriving Repr

/-! ### Values -/

def wrapped (n : Int) : Int :=
  n.bmod (2 ^ 64)

namespace Operator

def truth (holds : Bool) : Int :=
  if holds then 1 else 0

def onBits (f : BitVec 64 → BitVec 64 → BitVec 64) (m n : Int) : Int :=
  (f (.ofInt 64 m) (.ofInt 64 n)).toInt

def value? (m n : Int) : Operator → Option Int
  | bitOr => some (onBits (· ||| ·) m n)
  | bitXor => some (onBits (· ^^^ ·) m n)
  | bitAnd => some (onBits (· &&& ·) m n)
  | equal => some (truth (m == n))
  | unequal => some (truth (m != n))
  | less => some (truth (m < n))
  | atMost => some (truth (m ≤ n))
  | greater => some (truth (n < m))
  | atLeast => some (truth (n ≤ m))
  | shiftLeft => some (wrapped (m * 2 ^ (n % 64).toNat))
  | shiftRight => some (m / 2 ^ (n % 64).toNat)
  | plus => some (wrapped (m + n))
  | minus => some (wrapped (m - n))
  | times => some (wrapped (m * n))
  | quotient => if n == 0 then none else some (wrapped (m.tdiv n))
  | remainder => if n == 0 then none else some (m.tmod n)

end Operator

def Sign.apply (n : Int) : Sign → Int
  | plus => n
  | minus => wrapped (-n)
  | not => Operator.truth (n == 0)
  | complement => -n - 1

def takeNatural (cs : Bytes) : Nat × Bytes :=
  let take := fun base (isDigit : Char → Bool) (cs : Bytes) =>
    (naturalInBase base (cs.takeWhile isDigit), cs.dropWhile isDigit)
  let isOctal := fun c : Char => '0' ≤ c && c ≤ '7'
  match cs with
  | '0' :: x :: digit :: rest =>
      if x.toLower == 'x' && isHexDigit digit then take 16 isHexDigit (digit :: rest)
      else take 8 isOctal cs
  | '0' :: _ => take 8 isOctal cs
  | _ => take 10 Char.isDigit cs

def takeNumber (cs : Bytes) : Int × Bytes :=
  let (n, rest) := takeNatural cs
  (min n (2 ^ 63 - 1), rest)

def valueOf (cs : Bytes) : Except FormulaError Int :=
  let (negative, digits) := takeSign cs
  let (size, rest) := takeNatural digits
  let n : Int := if negative then -size else size
  if cs.all isSpace then .ok 0
  else if digits.head?.any Char.isDigit && rest.all isSpace && wrapped n == n then .ok n
  else .error (.notANumber cs)

def Formula.fault? : Formula → Option FormulaError
  | number _ | named _ => none
  | signed _ f => f.fault?
  | joined _ left right | both left right | either left right => left.fault?.or right.fault?
  | choice condition yes no => (condition.fault?.or yes.fault?).or no.fault?
  | assign _ _ value => value.fault?
  | wrong e => some e
  | wrongAfter f e => f.fault?.or (some e)

/-- The value of a formula, where variables have texts as values, and the values that it gives to
variables, the latest first. A part that does not count has no effect, but must be well written. -/
def Formula.value (values : Bytes → Bytes) (given : List (Bytes × Int)) :
    Formula → Except FormulaError (Int × List (Bytes × Int))
  | number n => .ok (n, given)
  | named name => (·, given) <$> known given name
  | signed sign f => do
      let (n, given) ← f.value values given
      return (sign.apply n, given)
  | joined operator left right => do
      let (m, given) ← left.value values given
      let (n, given) ← right.value values given
      return (← join operator m n, given)
  | both left right => do
      let (m, given) ← left.value values given
      if m == 0 then
        skip right
        return (0, given)
      let (n, given) ← right.value values given
      return (Operator.truth (n != 0), given)
  | either left right => do
      let (m, given) ← left.value values given
      if m != 0 then
        skip right
        return (1, given)
      let (n, given) ← right.value values given
      return (Operator.truth (n != 0), given)
  | choice condition yes no => do
      let (m, given) ← condition.value values given
      if m == 0 then
        skip yes
        no.value values given
      else
        let result ← yes.value values given
        skip no
        return result
  | assign name operator value => do
      let (n, given) ← value.value values given
      let n ← match operator with
        | none => pure n
        | some operator => join operator (← known given name) n
      return (n, (name, n) :: given)
  | wrong e => .error e
  | wrongAfter f e => do
      discard (f.value values given)
      throw e
where
  known (given : List (Bytes × Int)) (name : Bytes) : Except FormulaError Int :=
    match given.lookup name with
    | some n => .ok n
    | none => valueOf (values name)
  skip (f : Formula) : Except FormulaError Unit :=
    match f.fault? with
    | some e => .error e
    | none => .ok ()
  join (operator : Operator) (m n : Int) : Except FormulaError Int :=
    match operator.value? m n with
    | some n => .ok n
    | none => .error .divisionByZero

/-! ### Reading -/

inductive Token where
  | number (n : Int)
  | name (cs : Bytes)
  | sign (s : String)
  | stray
  deriving DecidableEq, Repr

def operatorSigns : List (List (String × Operator)) :=
  [[("|", .bitOr)], [("^", .bitXor)], [("&", .bitAnd)], [("==", .equal), ("!=", .unequal)],
    [("<=", .atMost), (">=", .atLeast), ("<", .less), (">", .greater)],
    [("<<", .shiftLeft), (">>", .shiftRight)], [("+", .plus), ("-", .minus)],
    [("*", .times), ("/", .quotient), ("%", .remainder)]]

def assignmentSigns : List (String × Option Operator) :=
  ("=", none) :: (operatorSigns.flatten.filter fun sign =>
    !(["==", "!=", "<=", ">=", "<", ">"].contains sign.1)).map fun sign =>
      (sign.1 ++ "=", some sign.2)

def frontSigns : List (String × Sign) :=
  [("-", .minus), ("+", .plus), ("!", .not), ("~", .complement)]

def signs : List String :=
  let all := assignmentSigns.map (·.1) ++ operatorSigns.flatten.map (·.1) ++
    frontSigns.map (·.1) ++ ["&&", "||", "?", ":", "(", ")"]
  all.filter (·.length == 3) ++ all.filter (·.length == 2) ++ all.filter (·.length == 1)

def tokens : Nat → Bytes → List Token
  | 0, _ => []
  | fuel + 1, cs =>
    match cs with
    | [] => []
    | c :: rest =>
      if c == ' ' || c == '\t' || c == '\n' then tokens fuel rest
      else if c.isDigit then
        let (n, rest) := takeNumber cs
        .number n :: tokens fuel rest
      else if c.isAlpha || c == '_' then
        let isPart := fun c : Char => c.isAlphanum || c == '_'
        .name (cs.takeWhile isPart) :: tokens fuel (cs.dropWhile isPart)
      else
        match signs.find? fun sign => sign.toList.isPrefixOf cs with
        | some sign => .sign sign :: tokens fuel (cs.drop sign.length)
        | none => [.stray]

def signOf? {α : Type} (table : List (String × α)) : List Token → Option α
  | .sign s :: _ => table.lookup s
  | _ => none

namespace Formula

mutual

/-- A whole formula at the front, and the pieces after it. Where something is wrong, none are left,
since nothing is read behind it. -/
def readWhole : Nat → List Token → Formula × List Token
  | 0, _ => (.wrong .noOperand, [])
  | fuel + 1, ts =>
    match ts with
    | .name name :: rest =>
        match signOf? assignmentSigns rest with
        | some operator =>
            let (value, rest) := readWhole fuel (rest.drop 1)
            (.assign name operator value, rest)
        | none => readChoice fuel ts
    | _ => readChoice fuel ts

def readChoice : Nat → List Token → Formula × List Token
  | 0, _ => (.wrong .noOperand, [])
  | fuel + 1, ts =>
    let (condition, rest) := readEither fuel ts
    match rest with
    | .sign "?" :: rest =>
        let (yes, rest) := readWhole fuel rest
        match rest with
        | .sign ":" :: rest =>
            let (no, rest) := readChoice fuel rest
            (.choice condition yes no, rest)
        | _ => (.choice condition yes (.wrong .noAlternative), [])
    | _ => (condition, rest)

def readEither : Nat → List Token → Formula × List Token
  | 0, _ => (.wrong .noOperand, [])
  | fuel + 1, ts =>
    let (left, rest) := readBoth fuel ts
    match rest with
    | .sign "||" :: rest =>
        let (right, rest) := readEither fuel rest
        (.either left right, rest)
    | _ => (left, rest)

def readBoth : Nat → List Token → Formula × List Token
  | 0, _ => (.wrong .noOperand, [])
  | fuel + 1, ts =>
    let (left, rest) := readJoined fuel operatorSigns ts
    match rest with
    | .sign "&&" :: rest =>
        let (right, rest) := readBoth fuel rest
        (.both left right, rest)
    | _ => (left, rest)

def readJoined : Nat → List (List (String × Operator)) → List Token → Formula × List Token
  | 0, _, _ => (.wrong .noOperand, [])
  | fuel + 1, [], ts => readOperand fuel ts
  | fuel + 1, level :: levels, ts =>
    let (left, rest) := readJoined fuel levels ts
    readMore fuel level levels left rest

def readMore : Nat → List (String × Operator) → List (List (String × Operator)) → Formula →
    List Token → Formula × List Token
  | 0, _, _, _, _ => (.wrong .noOperand, [])
  | fuel + 1, level, levels, left, ts =>
    match signOf? level ts with
    | some operator =>
        let (right, rest) := readJoined fuel levels (ts.drop 1)
        readMore fuel level levels (.joined operator left right) rest
    | none => (left, ts)

def readOperand : Nat → List Token → Formula × List Token
  | 0, _ => (.wrong .noOperand, [])
  | fuel + 1, ts =>
    match ts with
    | .number n :: rest => (.number n, rest)
    | .name name :: rest => (.named name, rest)
    | .sign "(" :: rest =>
        match readWhole fuel rest with
        | (f, .sign ")" :: rest) => (f, rest)
        | (f, _) => (.wrongAfter f .notClosed, [])
    | _ =>
        match signOf? frontSigns ts with
        | some sign =>
            let (f, rest) := readOperand fuel (ts.drop 1)
            (.signed sign f, rest)
        | none => (.wrong .noOperand, [])

end

def ofText (cs : Bytes) : Formula :=
  let ts := tokens (cs.length + 1) cs
  let (f, rest) := readWhole (16 * ts.length + 16) ts
  if rest.isEmpty then f else .wrongAfter f .leftOver

end Formula

def evaluate (values : Bytes → Bytes) (cs : Bytes) :
    Except FormulaError (Int × List (Bytes × Int)) :=
  (Formula.ofText cs).value values []

/-! ## Printing

The utilities that write words: plainly on a line, or in a format. -/

/-! ### Lines -/

def printedLetter? (c : Char) : Option Char :=
  if c == 'e' then some '\x1b' else escapedLetter? c

def unescape : Nat → Bytes → Bytes × Bool
  | 0, cs => (cs, false)
  | fuel + 1, cs =>
    match cs with
    | '\\' :: 'c' :: _ => ([], true)
    | '\\' :: c :: rest =>
        let (char, rest) :=
          if isOctal c then
            let digits := if c == '0' && rest.head?.any isOctal then rest else c :: rest
            let (char, rest) := takeOctal 3 digits
            ([char], rest)
          else match printedLetter? c with
            | some char => ([char], rest)
            | none => (['\\', c], rest)
        let (more, ended) := unescape fuel rest
        (char ++ more, ended)
    | c :: rest =>
        let (more, ended) := unescape fuel rest
        (c :: more, ended)
    | [] => ([], false)

def echoEscaped : Utility := fun words input =>
  let (ends, words) := match words with
    | ['-', 'n'] :: rest => (false, rest)
    | _ => (true, words)
  let text := Bytes.unwords words
  let (output, ended) := unescape (text.length + 1) text
  .printed (if ends && !ended then output ++ ['\n'] else output) input

/-! ### Formats -/

structure Layout where
  left : Bool := false
  zeros : Bool := false
  plus : Bool := false
  blank : Bool := false
  alternate : Bool := false
  width : Nat := 0
  precision : Option Nat := none

structure Printing where
  words : List Bytes
  taken : Bool := false
  messages : List Bytes := []

namespace Printing

def word (p : Printing) : Bytes :=
  p.words.headD []

def take (p : Printing) (what : Option String) : Printing :=
  let said := what.toList.map fun what => p.word ++ (": " ++ what).toList
  { words := p.words.tail, taken := true, messages := p.messages ++ said }

end Printing

/-! ### Numbers in words -/

def objection (rest : Bytes) (beyond : Bool) : Option String :=
  if !rest.isEmpty then some "not completely converted"
  else if beyond then some "Numerical result out of range"
  else none

def quotedNumber? : Bytes → Option Nat
  | [c] => if c == '\'' || c == '"' then some 0 else none
  | q :: c :: _ => if q == '\'' || q == '"' then some c.toNat else none
  | [] => none

def printedNumber (signed : Bool) (word : Bytes) : Int × Option String :=
  let (negative, digits) := takeSign word
  let (size, rest) := takeNatural digits
  let value : Int := if negative then -size else size
  match quotedNumber? word with
  | some n => (n, none)
  | none =>
      if word.isEmpty then (0, none)
      else if !digits.head?.any Char.isDigit then (0, some "expected numeric value")
      else if signed then
        let kept := max (-2 ^ 63) (min value (2 ^ 63 - 1))
        (kept, objection rest (kept != value))
      else if 2 ^ 64 ≤ size then (2 ^ 64 - 1, objection rest true)
      else (value % 2 ^ 64, objection rest false)

def printedReal (word : Bytes) : Number.Binary64 × Option String :=
  match quotedNumber? word, Quantity.take? word with
  | some n, _ => (.ofInt n, none)
  | none, some (.finite negative numerator denominator, rest) =>
      let x := Number.Binary64.ofQuotient negative numerator denominator
      let lost := match x.toFraction? with
        | some (_, n, d) => n * 2 ^ 1022 < d && n * denominator != numerator * d
        | none => true
      (x, objection rest lost)
  | none, some (.infinite negative, rest) =>
      let written := (takeSign word).2.head?.any Char.isAlpha
      (.infinite negative, objection rest !written)
  | none, some (.undefined, rest) => (.undefined, objection rest false)
  | none, none => (.ofInt 0, if word.isEmpty then none else some "expected numeric value")

namespace Layout

def readFlags (l : Layout) : Bytes → Layout × Bytes
  | '-' :: rest => readFlags { l with left := true } rest
  | '0' :: rest => readFlags { l with zeros := true } rest
  | '+' :: rest => readFlags { l with plus := true } rest
  | ' ' :: rest => readFlags { l with blank := true } rest
  | '#' :: rest => readFlags { l with alternate := true } rest
  | cs => (l, cs)

def readSize (p : Printing) (cs : Bytes) : Int × Printing × Bytes :=
  match cs with
  | '*' :: rest =>
      let (n, what) := printedNumber true p.word
      (n.bmod (2 ^ 32), p.take what, rest)
  | _ =>
      let digits := cs.takeWhile Char.isDigit
      ((Bytes.natural? digits).getD 0, p, cs.drop digits.length)

def read (p : Printing) (cs : Bytes) : Layout × Printing × Bytes :=
  let (l, rest) := readFlags {} cs
  let (width, p, rest) := readSize p rest
  let l := { l with width := width.natAbs, left := l.left || width < 0 }
  match rest with
  | '.' :: rest =>
      let (precision, p, rest) := readSize p rest
      ({ l with precision := if precision < 0 then none else some precision.natAbs }, p, rest)
  | rest => (l, p, rest)

def fill (l : Layout) (cs : Bytes) : Bytes :=
  let gap := List.replicate (l.width - cs.length) ' '
  if l.left then cs ++ gap else gap ++ cs

def text (l : Layout) (cs : Bytes) : Bytes :=
  l.fill (match l.precision with
    | some most => cs.take most
    | none => cs)

def sign (l : Layout) (negative : Bool) : Bytes :=
  if negative then ['-'] else if l.plus then ['+'] else if l.blank then [' '] else []

def filled (l : Layout) (zeros : Bool) (front size : Bytes) : Bytes :=
  if zeros && !l.left then
    front ++ List.replicate (l.width - front.length - size.length) '0' ++ size
  else l.fill (front ++ size)

def digits (l : Layout) (base n : Nat) : Bytes :=
  let written := if n == 0 && l.precision == some 0 then [] else Nat.toDigits base n
  let size := List.replicate (l.precision.getD 1 - written.length) '0' ++ written
  if l.alternate && base == 8 && size.head? != some '0' then '0' :: size else size

def integer (l : Layout) (n : Int) : Bytes :=
  l.filled (l.zeros && l.precision.isNone) (l.sign (n < 0)) (l.digits 10 n.natAbs)

def natural (l : Layout) (base n : Nat) : Bytes :=
  let front := if l.alternate && base == 16 && n != 0 then "0x".toList else []
  l.filled (l.zeros && l.precision.isNone) front (l.digits base n)

/-! ### Numbers with fractions -/

def pointed (l : Layout) (whole : Nat) (digits : Bytes) : Bytes :=
  let fraction := digits.drop whole
  digits.take whole ++ (if fraction.isEmpty && !l.alternate then [] else '.' :: fraction)

def scientificDigits (numerator denominator count : Nat) : Int × Bytes :=
  let exponent := Number.decimalMagnitude numerator denominator - 1
  let shift := (count : Int) - 1 - exponent
  let size := Number.roundDiv (numerator * 10 ^ shift.toNat) (denominator * 10 ^ (-shift).toNat)
  if numerator == 0 then (0, List.replicate count '0')
  else if 10 ^ count ≤ size then (exponent + 1, Nat.toDigits 10 (size / 10))
  else (exponent, Nat.toDigits 10 size)

def exponentText (letter : Char) (least : Nat) (exponent : Int) : Bytes :=
  let digits := Nat.toDigits 10 exponent.natAbs
  letter :: (if exponent < 0 then '-' else '+') ::
    List.replicate (least - digits.length) '0' ++ digits

def withoutZeros (least : Nat) (digits : Bytes) : Bytes :=
  digits.take (max least (digits.reverse.dropWhile (· == '0')).length)

def realSize (l : Layout) (style : Char) (numerator denominator : Nat) : Bytes :=
  let places := l.precision.getD 6
  let fixed := fun places : Nat =>
    let digits := Nat.toDigits 10 (Number.roundDiv (numerator * 10 ^ places) denominator)
    List.replicate (places + 1 - digits.length) '0' ++ digits
  match style with
  | 'f' =>
      let digits := fixed places
      l.pointed (digits.length - places) digits
  | 'e' =>
      let (exponent, digits) := scientificDigits numerator denominator (places + 1)
      l.pointed 1 digits ++ exponentText 'e' 2 exponent
  | 'g' =>
      let count := max 1 places
      let (exponent, digits) := scientificDigits numerator denominator count
      let kept := fun least digits => if l.alternate then digits else withoutZeros least digits
      if -4 ≤ exponent && exponent < count then
        let all := fixed (count - 1 - exponent).toNat
        let whole := all.length - (count - 1 - exponent).toNat
        l.pointed whole (kept whole all)
      else l.pointed 1 (kept 1 digits) ++ exponentText 'e' 2 exponent
  | _ =>
      let width := max (-1022) ((Number.bitLength numerator : Int) - Number.bitLength denominator)
      let places := l.precision.getD 13
      let shift := 4 * (places : Int) - width
      let size := Number.roundDiv (numerator * 2 ^ shift.toNat) (denominator * 2 ^ (-shift).toNat)
      let digits := List.replicate (places + 1 - (Nat.toDigits 16 size).length) '0' ++
        Nat.toDigits 16 size
      let kept := if l.precision.isSome then digits else withoutZeros 1 digits
      l.pointed 1 kept ++ exponentText 'p' 1 (if numerator == 0 then 0 else width)

def real (l : Layout) (style : Char) (x : Number.Binary64) : Bytes :=
  match x, x.toFraction? with
  | _, some (negative, numerator, denominator) =>
      let front := if style == 'a' then "0x".toList else []
      l.filled l.zeros (l.sign negative ++ front) (l.realSize style numerator denominator)
  | .infinite negative, _ => l.filled false (l.sign negative) "inf".toList
  | _, none => l.filled false (l.sign false) "nan".toList

end Layout

/-! ### The words of a format -/

structure Printed where
  output : Bytes := []
  left : Printing
  ended : Bool := false
  status : Nat := 0

namespace Printed

def prepend (cs : Bytes) (p : Printed) : Printed :=
  { p with output := cs ++ p.output }

def stopped (left : Printing) (message : Bytes) : Printed :=
  { left := { left with messages := left.messages ++ [message] }, ended := true, status := 2 }

end Printed

def printOnce : Nat → Bytes → Printing → Printed
  | 0, _, p => { left := p }
  | fuel + 1, cs, p =>
    match cs with
    | [] => { left := p }
    | '%' :: '%' :: rest => (printOnce fuel rest p).prepend ['%']
    | '%' :: rest =>
        let (layout, q, after) := Layout.read p rest
        let later := fun (what : Option String) shown =>
          (printOnce fuel (after.drop 1) (q.take what)).prepend shown
        let integer := fun (signed : Bool) (text : Int → Bytes) =>
          let (n, what) := printedNumber signed q.word
          later what (text n)
        match after.head? with
        | some 's' => later none (layout.text q.word)
        | some 'c' => later none (layout.fill (if q.word.isEmpty then ['\x00'] else q.word.take 1))
        | some 'b' =>
            let (text, ended) := unescape (q.word.length + 1) q.word
            if ended then { output := layout.text text, left := q.take none, ended }
            else later none (layout.text text)
        | some 'd' | some 'i' => integer true layout.integer
        | some 'u' => integer false fun n => layout.natural 10 n.toNat
        | some 'o' => integer false fun n => layout.natural 8 n.toNat
        | some 'x' => integer false fun n => layout.natural 16 n.toNat
        | some 'X' => integer false fun n => (layout.natural 16 n.toNat).map Char.toUpper
        | some c =>
            if "aefg".toList.contains c.toLower then
              let (x, what) := printedReal q.word
              let shown := layout.real c.toLower x
              later what (if c.isUpper then shown.map Char.toUpper else shown)
            else
              let signs := rest.take (rest.length - after.length)
              .stopped q ('%' :: signs ++ c :: ": invalid directive".toList)
        | none => .stopped q "missing format character".toList
    | '\\' :: c :: rest =>
        if isOctal c then
          let (char, rest) := takeOctal 3 (c :: rest)
          (printOnce fuel rest p).prepend [char]
        else
          match printedLetter? c with
          | some char => (printOnce fuel rest p).prepend [char]
          | none => (printOnce fuel (c :: rest) p).prepend ['\\']
    | c :: rest => (printOnce fuel rest p).prepend [c]

def printAll (format : Bytes) : Nat → Printing → Printed
  | 0, p => { left := p }
  | fuel + 1, p =>
    let once := printOnce (format.length + 1) format p
    if once.ended || !once.left.taken || once.left.words.isEmpty then once
    else (printAll format fuel { once.left with taken := false }).prepend once.output

def printFormatted (label : Bytes) : Utility := fun words input =>
  match words with
  | ('-' :: letter :: rest) :: more =>
      if ['-', letter] ++ rest == ['-', '-'] then formatted more input
      else .failure 2 (label ++ "Illegal option -".toList ++ [letter]) input
  | _ => formatted words input
where
  formatted : Utility
    | [], input => .failure 2 (label ++ "usage: printf format [arg ...]".toList) input
    | format :: words, input =>
        let printed := printAll format (words.length + 1) { words }
        let messages := printed.left.messages.map fun message =>
          Written.message (label ++ message ++ ['\n'])
        { written := messages ++ [.output printed.output]
          status := if printed.status == 0 && !messages.isEmpty then 1 else printed.status
          left := input }

end TenantSql.Shell
