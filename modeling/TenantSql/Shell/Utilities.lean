import TenantSql.Shell.Place

/-!
# Utilities that read files

The utilities that put files together, replace characters, write the first lines
of a file, and test words.
-/

namespace TenantSql.Shell

/-! ## Sets of bytes

How sets of bytes are written: byte by byte, with escapes, as ranges, as classes
and with repetitions. A set keeps the order in which it is written. -/

/-! ### Escapes and classes -/

def escapedLetter? : Char → Option Char
  | 'a' => some '\x07'
  | 'b' => some '\x08'
  | 'f' => some '\x0c'
  | 'n' => some '\n'
  | 'r' => some '\r'
  | 't' => some '\t'
  | 'v' => some '\x0b'
  | '\\' => some '\\'
  | _ => none

def isOctal (c : Char) : Bool :=
  '0' ≤ c && c ≤ '7'

def takeOctal (most : Nat) (cs : Bytes) : Char × Bytes :=
  let digits := (cs.take most).takeWhile isOctal
  (Char.ofNat (naturalInBase 8 digits % 256), cs.drop digits.length)

def allBytes : Bytes :=
  (List.range 256).map Char.ofNat

def isMark (c : Char) : Bool :=
  '!' ≤ c && c ≤ '~' && !c.isAlphanum

def classOf? (name : String) : Option (Char → Bool) :=
  match name with
  | "alpha" => some Char.isAlpha
  | "upper" => some Char.isUpper
  | "lower" => some Char.isLower
  | "digit" => some Char.isDigit
  | "alnum" => some Char.isAlphanum
  | "xdigit" => some isHexDigit
  | "blank" => some fun c => c == ' ' || c == '\t'
  | "space" => some isSpace
  | "cntrl" => some fun c => c < ' ' || c == '\x7f'
  | "punct" => some isMark
  | "print" => some fun c => ' ' ≤ c && c ≤ '~'
  | "graph" => some fun c => '!' ≤ c && c ≤ '~'
  | _ => none

/-! ### Elements -/

inductive Element where
  | byte (c : Char)
  | range (low high : Char)
  | members (name : String) (bytes : Bytes)
  | same (c : Char)
  | repeated (c : Char) (count : Nat)
  deriving DecidableEq, Repr

inductive SetError where
  | noClass
  | noSame
  | unknownClass (name : Bytes)
  | manySame (written : Bytes)
  | badCount (written : Bytes)
  | reversedRange (low high : Char)
  | repetitionInFirst
  | manyRepetitions
  | sameInSecond
  | classInSecond
  | misalignedCase
  | emptySecond
  | endsWithClass
  | manyForComplement
  | repetitionWithoutUse
  deriving DecidableEq, Repr

def shownByte (c : Char) : Bytes :=
  if ' ' ≤ c && c ≤ '~' then [c]
  else
    let digits := Nat.toDigits 8 c.toNat
    '\\' :: List.replicate (3 - digits.length) '0' ++ digits

def shownText (cs : Bytes) : Bytes :=
  (cs.map fun c =>
    if c == '\\' then ['\\', c] else if ' ' ≤ c && c ≤ '~' then [c] else escapedByte c).flatten

def SetError.message : SetError → Bytes
  | noClass => "missing character class name '[::]'".toList
  | noSame => "missing equivalence class character '[==]'".toList
  | unknownClass name => "invalid character class ".toList ++ inMarks (shownText name)
  | manySame written =>
      shownText written ++ ": equivalence class operand must be a single character".toList
  | badCount written =>
      "invalid repeat count ".toList ++ inMarks (shownText written) ++
        " in [c*n] construct".toList
  | reversedRange low high =>
      "range-endpoints of '".toList ++ shownByte low ++ '-' :: shownByte high ++
        "' are in reverse collating sequence order".toList
  | repetitionInFirst => "the [c*] repeat construct may not appear in string1".toList
  | manyRepetitions => "only one [c*] repeat construct may appear in string2".toList
  | sameInSecond => "[=c=] expressions may not appear in string2 when translating".toList
  | classInSecond =>
      ("when translating, the only character classes that may appear in\n" ++
        "string2 are 'upper' and 'lower'").toList
  | misalignedCase => "misaligned [:upper:] and/or [:lower:] construct".toList
  | emptySecond => "when not truncating set1, string2 must be non-empty".toList
  | endsWithClass =>
      ("when translating with string1 longer than string2,\n" ++
        "the latter string must not end with a character class").toList
  | manyForComplement =>
      ("when translating with complemented character classes,\n" ++
        "string2 must map all characters in the domain to one").toList
  | repetitionWithoutUse =>
      "the [c*] construct may appear in string2 only when translating".toList

namespace Element

def maxCount : Nat := 65536

def bytes : Element → Bytes
  | byte c | same c => [c]
  | range low high => allBytes.filter fun c => low ≤ c && c ≤ high
  | members _ bytes => bytes
  | repeated c count => List.replicate (min count maxCount) c

def isOpen : Element → Bool
  | repeated _ 0 => true
  | _ => false

def isClass : Element → Bool
  | members .. => true
  | _ => false

def isSame : Element → Bool
  | same _ => true
  | _ => false

end Element

def bytesOf (set : List Element) : Bytes :=
  (set.map Element.bytes).flatten

/-! ### Reading -/

abbrev SetByte := Char × Bool

def unquote : Nat → Bytes → List SetByte × List Bytes
  | 0, _ => ([], [])
  | fuel + 1, cs =>
    match cs with
    | [] => ([], [])
    | ['\\'] =>
        ([('\\', false)],
          ["warning: an unescaped backslash at end of string is not portable".toList])
    | '\\' :: c :: rest =>
        let digits := ((c :: rest).take 3).takeWhile isOctal
        let large := 255 < naturalInBase 8 digits
        let (char, rest) :=
          if isOctal c then takeOctal (if large then 2 else 3) (c :: rest)
          else ((escapedLetter? c).getD c, rest)
        let (more, warnings) := unquote fuel rest
        let warning :=
          "warning: the ambiguous octal escape \\".toList ++ digits ++
            " is being\n\tinterpreted as the 2-byte sequence \\0".toList ++ digits.take 2 ++
            ", ".toList ++ digits.drop 2
        ((char, true) :: more, if large then warning :: warnings else warnings)
    | c :: rest =>
        let (more, warnings) := unquote fuel rest
        ((c, false) :: more, warnings)

def untilClosing? (sign : Char) : List SetByte → Option (Bytes × List SetByte)
  | a :: b :: rest =>
      if a == (sign, false) && b == (']', false) then some ([], rest)
      else (untilClosing? sign (b :: rest)).map fun (before, rest) => (a.1 :: before, rest)
  | _ => none

def isCounted (cs : List SetByte) : Bool :=
  cs.head? == some ('*', false) && ((cs.drop 1).dropWhile (·.1.isDigit)).head? == some (']', false)

def countOf? (written : Bytes) : Option Nat :=
  if written.isEmpty then some 0
  else if written.head? == some '0' then
    if written.all isOctal then some (naturalInBase 8 written) else none
  else Bytes.natural? written

def repetition? (cs : List SetByte) : Except SetError (Option (Element × List SetByte)) :=
  match cs with
  | (c, _) :: ('*', false) :: rest =>
      let written := (rest.takeWhile fun b => !b.2 && b.1 != ']').map (·.1)
      let rest := rest.drop written.length
      if rest.head? != some (']', false) then .ok none
      else
        match countOf? written with
        | some count => .ok (some (.repeated c count, rest.drop 1))
        | none => .error (.badCount written)
  | _ => .ok none

def bracketed? (cs : List SetByte) : Except SetError (Option (Element × List SetByte)) :=
  match cs with
  | (':', false) :: inner =>
      match untilClosing? ':' inner with
      | none => .ok none
      | some (name, rest) =>
          match classOf? (String.ofList name) with
          | some belongs =>
              .ok (some (.members (String.ofList name) (allBytes.filter belongs), rest))
          | none =>
              if name.isEmpty then .error .noClass
              else if isCounted inner then .ok none
              else .error (.unknownClass name)
  | ('=', false) :: inner =>
      match untilClosing? '=' inner with
      | none => .ok none
      | some ([c], rest) => .ok (some (.same c, rest))
      | some (written, _) =>
          if written.isEmpty then .error .noSame
          else if isCounted inner then .ok none
          else .error (.manySame written)
  | _ => .ok none

def readElements : Nat → List SetByte → Except SetError (List Element)
  | 0, _ => .ok []
  | fuel + 1, cs =>
    match cs with
    | a :: b :: c :: rest => do
        let inBrackets ←
          if a != ('[', false) then pure none
          else
            match ← bracketed? (b :: c :: rest) with
            | some found => pure (some found)
            | none => repetition? (b :: c :: rest)
        match inBrackets with
        | some (element, rest) => return element :: (← readElements fuel rest)
        | none =>
            if b != ('-', false) then return .byte a.1 :: (← readElements fuel (b :: c :: rest))
            else if c.1 < a.1 then throw (.reversedRange a.1 c.1)
            else return .range a.1 c.1 :: (← readElements fuel rest)
    | few => .ok (few.map fun c => .byte c.1)

/-! ## Replacing characters

The utility that reads bytes and replaces, deletes or squeezes those of a set.
Where bytes are replaced, each of a first set stands for the one in its place of
a second set, and classes of letters can stand for each other. -/

/-! ### Pairs -/

inductive LetterCase where
  | upper
  | lower
  deriving DecidableEq, Repr

def Element.case? : Element → Option LetterCase
  | members "upper" _ => some .upper
  | members "lower" _ => some .lower
  | _ => none

structure Piece where
  case? : Option LetterCase
  bytes : Bytes
  fresh : Bool := true

namespace Piece

def of (element : Element) : Piece where
  case? := element.case?
  bytes := element.bytes

def beginsCase (p : Piece) : Bool :=
  p.fresh && p.case?.isSome

def next (p : Piece) : Piece :=
  { p with bytes := p.bytes.drop 1, fresh := false }

end Piece

def casePairs (first second : Piece) : List (Char × Char) :=
  if first.case? == second.case? then [] else first.bytes.zip second.bytes

/-- Every byte of a first set with the one in its place of a second set. A class of letters in the
second must begin where one in the first does, and then they stand for each other. -/
def pairUp : Nat → List Piece → List Piece → Except SetError (List (Char × Char))
  | 0, _, _ => .ok []
  | fuel + 1, first, second =>
    match first.dropWhile (·.bytes.isEmpty), second.dropWhile (·.bytes.isEmpty) with
    | p :: ps, q :: qs =>
        if q.beginsCase then
          if p.beginsCase then (casePairs p q ++ ·) <$> pairUp fuel ps qs
          else .error .misalignedCase
        else (p.bytes.zip (q.bytes.take 1) ++ ·) <$> pairUp fuel (p.next :: ps) (q.next :: qs)
    | [], q :: _ => if q.beginsCase then .error .misalignedCase else .ok []
    | _, [] => .ok []

/-! ### Replacements -/

structure Replacement where
  complement : Bool := false
  delete : Bool := false
  squeeze : Bool := false
  truncate : Bool := false

def squeezed (members : Bytes) : Bytes → Bytes
  | a :: b :: rest =>
      if a == b && members.contains a then squeezed members (b :: rest)
      else a :: squeezed members (b :: rest)
  | cs => cs

def stretched (length : Nat) (set : List Element) : List Element :=
  let missing := length - (bytesOf set).length
  set.map fun element =>
    match element with
    | .repeated c 0 => .repeated c missing
    | other => other

def extended (length : Nat) (set : List Element) : Except SetError (List Element) :=
  let missing := length - (bytesOf set).length
  if missing == 0 then .ok set
  else
    match (bytesOf set).getLast?, set.getLast? with
    | none, _ => .error .emptySecond
    | _, some (.members ..) => .error .endsWithClass
    | some c, _ => .ok (set ++ [.repeated c missing])

namespace Replacement

def chosen (t : Replacement) (first : List Element) : Bytes :=
  let written := bytesOf first
  if t.complement then allBytes.filter fun c => !written.contains c else written

def pairs (t : Replacement) (first second : List Element) :
    Except SetError (List (Char × Char)) := do
  let length := (t.chosen first).length
  let second := stretched length second
  if second.any Element.isSame then throw .sameInSecond
  if second.any fun element => element.isClass && element.case?.isNone then throw .classInSecond
  let size := (bytesOf first).length + (bytesOf second).length + length + 1
  if !t.complement then discard (pairUp size (first.map .of) (second.map .of))
  let whole ← if t.truncate then pure second else extended length second
  let targets := bytesOf whole
  let oneTarget := targets.length == length && targets.all (some · == targets.head?)
  if t.complement && first.any Element.isClass && !oneTarget then throw .manyForComplement
  if t.complement then return (t.chosen first).zip targets
  pairUp size (first.map .of) (whole.map .of)

def apply (t : Replacement) (sets : List (List Element)) (input : Bytes) :
    Except SetError Bytes := do
  let first := sets.headD []
  if first.any Element.isOpen then throw .repetitionInFirst
  match sets.drop 1 with
  | [] =>
      if t.delete then return input.filter fun c => !(t.chosen first).contains c
      return squeezed (t.chosen first) input
  | second :: _ =>
      if 1 < second.countP Element.isOpen then throw .manyRepetitions
      if t.delete then
        if second.any Element.isOpen then throw .repetitionWithoutUse
        let kept := input.filter fun c => !(t.chosen first).contains c
        return if t.squeeze then squeezed (bytesOf second) kept else kept
      else
        let table := (← t.pairs first second).reverse
        let changed := input.map fun c => (table.lookup c).getD c
        let targets := bytesOf (stretched (t.chosen first).length second)
        return if t.squeeze then squeezed targets changed else changed

end Replacement

/-! ### The utility -/

def Replacement.withLetter? (t : Replacement) : Char → Option Replacement
  | 'd' => some { t with delete := true }
  | 's' => some { t with squeeze := true }
  | 'c' | 'C' => some { t with complement := true }
  | 't' => some { t with truncate := true }
  | 'A' => some t
  | _ => none

def Replacement.withLetters (t : Replacement) : Bytes → Except Char Replacement
  | [] => .ok t
  | c :: rest =>
      match t.withLetter? c with
      | some t => withLetters t rest
      | none => .error c

def Replacement.words : List (String × Option Char) :=
  [("complement", some 'c'), ("delete", some 'd'), ("squeeze-repeats", some 's'),
    ("truncate-set1", some 't')] ++ commonOptions

def readReplacement (name : Bytes) (input : Input) (t : Replacement) :
    List Bytes → Except Effect (Replacement × List Bytes)
  | [] => .ok (t, [])
  | word :: rest =>
      match word with
      | ['-', '-'] => .ok (t, rest)
      | '-' :: '-' :: _ =>
          match longOption Replacement.words word with
          | .ok none => .error (.ended 0 input)
          | .ok (some letter) => readReplacement name input ((t.withLetter? letter).getD t) rest
          | .error what => .error (misuse name what input)
      | '-' :: c :: letters =>
          match t.withLetters (c :: letters) with
          | .ok t => readReplacement name input t rest
          | .error letter => .error (unknownLetter name letter input)
      | _ => .ok (t, word :: rest)

def Replacement.misused? (t : Replacement) (sets : List Bytes) : Option Bytes :=
  let least := if t.delete == t.squeeze then 2 else 1
  let most := if t.delete && !t.squeeze then 1 else 2
  if sets.isEmpty then some "missing operand".toList
  else if sets.length < least then
    let why := if t.squeeze then "both deleting and squeezing repeats." else "translating."
    some ("missing operand after ".toList ++ inMarks (sets.getLastD []) ++
      s!"\nTwo strings must be given when {why}".toList)
  else if most < sets.length then
    let why := if sets.length == 2
      then "\nOnly one string may be given when deleting without squeezing repeats." else ""
    some ("extra operand ".toList ++ inMarks (sets.getD most []) ++ why.toList)
  else none

def readSets : List Bytes → List Bytes × Except SetError (List (List Element))
  | [] => ([], .ok [])
  | written :: rest =>
      let (bytes, warnings) := unquote (written.length + 1) written
      match readElements (bytes.length + 1) bytes with
      | .error e => (warnings, .error e)
      | .ok set =>
          let (more, sets) := readSets rest
          (warnings ++ more, (set :: ·) <$> sets)

def replaceBytes (name : Bytes) : Utility := fun words input =>
  match readReplacement name input {} words with
  | .error misused => misused
  | .ok (t, written) =>
    match t.misused? written with
    | some what => misuse name what input
    | none =>
      let (warnings, sets) := readSets written
      let said := fun messages : List Bytes => messages.map fun message =>
        Written.message (name ++ ": ".toList ++ message ++ ['\n'])
      match sets.bind (t.apply · input.bytes), input.refused with
      | .error e, _ => { written := said (warnings ++ [e.message]), status := 1, left := input }
      | .ok _, some cause =>
          let why := ("read error: " ++ cause.wording).toList
          { written := said (warnings ++ [why]), status := 1, left := input }
      | .ok output, none =>
          { written := said warnings ++ [.output output]
            hangs := input.endless
            left := { input with bytes := [] } }

/-! ## Putting files together

The utility that writes its inputs one after another, with lines numbered, left
out or made visible if asked for. -/

structure Listing where
  numbers : Bool := false
  numbersText : Bool := false
  squeezes : Bool := false
  showsEnds : Bool := false
  showsTabs : Bool := false
  showsControls : Bool := false

namespace Listing

def withLetter? (l : Listing) : Char → Option Listing
  | 'A' => some { l with showsControls := true, showsEnds := true, showsTabs := true }
  | 'b' => some { l with numbersText := true }
  | 'e' => some { l with showsControls := true, showsEnds := true }
  | 'E' => some { l with showsEnds := true }
  | 'n' => some { l with numbers := true }
  | 's' => some { l with squeezes := true }
  | 't' => some { l with showsControls := true, showsTabs := true }
  | 'T' => some { l with showsTabs := true }
  | 'u' => some l
  | 'v' => some { l with showsControls := true }
  | _ => none

def words : List (String × Option Char) :=
  [("number-nonblank", some 'b'), ("number", some 'n'), ("squeeze-blank", some 's'),
    ("show-nonprinting", some 'v'), ("show-ends", some 'E'), ("show-tabs", some 'T'),
    ("show-all", some 'A')] ++ commonOptions

def withLetters (l : Listing) : Bytes → Except Char Listing
  | [] => .ok l
  | c :: rest =>
      match l.withLetter? c with
      | some l => l.withLetters rest
      | none => .error c

def shown (l : Listing) (c : Char) : Bytes :=
  let plain := fun c : Char =>
    if c < ' ' then ['^', Char.ofNat (c.toNat + 64)]
    else if c == '\x7f' then "^?".toList
    else [c]
  if c == '\t' then if l.showsTabs then "^I".toList else [c]
  else if !l.showsControls then [c]
  else if c.toNat < 128 then plain c
  else "M-".toList ++ plain (Char.ofNat (c.toNat - 128))

def numberText (n : Nat) : Bytes :=
  let digits := Bytes.ofNat n
  List.replicate (6 - digits.length) ' ' ++ digits ++ ['\t']

def shownLine (l : Listing) (line : Bytes) (ended : Bool) : Bytes :=
  if ended && l.showsEnds && !l.showsControls && line.getLast? == some '\r' then
    (line.dropLast.map l.shown).flatten ++ "^M".toList
  else (line.map l.shown).flatten

structure Progress where
  number : Nat := 1
  afterEmpty : Bool := false
  within : Bool := false

def lines (l : Listing) : Nat → Progress → Bytes → Bytes × Progress
  | 0, p, _ => ([], p)
  | _, p, [] => ([], p)
  | fuel + 1, p, cs =>
    let line := cs.takeWhile (· != '\n')
    let rest := cs.drop (line.length + 1)
    let ended := line.length < cs.length
    let empty := line.isEmpty && !p.within
    if l.squeezes && empty && p.afterEmpty then l.lines fuel p rest
    else
      let numbered := !p.within && if l.numbersText then !empty else l.numbers
      let (more, last) := l.lines fuel
        { number := if numbered then p.number + 1 else p.number
          afterEmpty := empty
          within := !ended } rest
      ((if numbered then numberText p.number else []) ++ l.shownLine line ended ++
        (if ended then if l.showsEnds then "$\n".toList else ['\n'] else []) ++ more, last)

def apply (l : Listing) (p : Progress) (input : Input) : Effect × Progress :=
  let (output, p) := l.lines (input.bytes.length + 1) p input.bytes
  ({ written := [.output output]
     hangs := input.endless
     left := { input with bytes := [] } }, p)

end Listing

def readListing (name : Bytes) (input : Input) (l : Listing) :
    List Bytes → Except Effect (Listing × List Bytes)
  | [] => .ok (l, [])
  | word :: rest =>
      match word with
      | ['-', '-'] => .ok (l, rest)
      | '-' :: '-' :: _ =>
          match longOption Listing.words word with
          | .ok none => .error (.ended 0 input)
          | .ok (some letter) => readListing name input ((l.withLetter? letter).getD l) rest
          | .error what => .error (misuse name what input)
      | '-' :: c :: letters =>
          match l.withLetters (c :: letters) with
          | .ok l => readListing name input l rest
          | .error letter => .error (unknownLetter name letter input)
      | _ => do
          let (l, files) ← readListing name input l rest
          return (l, word :: files)

def listFiles (name : Bytes) (find : Bytes → Place) (l : Listing) :
    Listing.Progress → List Bytes → Input → Effect
  | _, [], input => .ended 0 input
  | p, file :: rest, input =>
      let said := fun cause : Disk.Cause =>
        (.failure 1 (name ++ ": ".toList ++ asName file ++ (": " ++ cause.wording).toList) input, p)
      let (done, p) : Effect × Listing.Progress :=
        match find file with
        | .descriptor 0 =>
            match input.refused with
            | some cause => said cause
            | none => l.apply p input
        | .zeros _ =>
            let (done, p) := l.apply p { endless := true }
            ({ done with left := input }, p)
        | place =>
            match place.cause? with
            | none => (.ended 0 input, p)
            | some cause => said cause
      done.followedBy (listFiles name find l p rest)

def concatenate (name : Bytes) (find : Bytes → Place) : Utility := fun words input =>
  match readListing name input {} words with
  | .error misused => misused
  | .ok (l, files) =>
      let files := if files.isEmpty then [['-']] else files
      let done := listFiles name find l {} files input
      if files.contains ['-'] && input.closed then
        done.followedBy fun input =>
          .failure 1 (name ++ ": closing standard input: Bad file descriptor".toList) input
      else done

/-! ## The first lines of files

The utility that writes the first lines or bytes of its input or of a device. -/

structure Beginning where
  lines : Bool := true
  count : Nat := 10

namespace Beginning

def read (name : Bytes) (input : Input) : List Bytes → Except Effect (Beginning × List Bytes)
  | ['-', letter] :: count :: files =>
      if letter != 'c' && letter != 'n' then .error (unknownLetter name letter input)
      else
        match Bytes.natural? count with
        | some count => .ok ({ lines := letter == 'n', count }, files)
        | none =>
            let counted := if letter == 'n' then "lines" else "bytes"
            .error (.failure 1 (name ++ (": invalid number of " ++ counted ++ ": ").toList ++
              inMarks count) input)
  | words => ({}, ·) <$> operands name input words

def lineBytes : Nat → Bytes → Bytes
  | 0, _ => []
  | _ + 1, [] => []
  | count + 1, c :: rest => c :: lineBytes (if c == '\n' then count else count + 1) rest

def apply (b : Beginning) (input : Input) : Effect :=
  if !b.lines then .printed (input.take b.count) (input.drop b.count)
  else
    let output := lineBytes b.count input.bytes
    { Effect.printed output (input.drop output.length) with hangs := input.endless }

def applyTo (b : Beginning) (name : Bytes) (find : Bytes → Place) (file : Bytes) (input : Input) :
    Effect :=
  let said := fun cause : Disk.Cause =>
    .failure 1 (name ++ ": cannot open ".toList ++ asName file ++
      (" for reading: " ++ cause.wording).toList) input
  match find file with
  | .descriptor 0 => (input.refused.map said).getD (b.apply input)
  | .zeros _ => { b.apply { endless := true } with left := input }
  | place => (place.cause?.map said).getD (.ended 0 input)

end Beginning

def head (name : Bytes) (find : Bytes → Place) : Utility := fun words input =>
  match Beginning.read name input words with
  | .error misused => misused
  | .ok (b, files) => b.applyTo name find (files.headD ['-']) input

/-! ## Testing

The utility whose status says whether words hold: a word that is not empty, a
word or two with an operator, and what `!` and parentheses make of these. -/

inductive TestError where
  | unexpectedOperator (word : Bytes)
  | noArgument (operator : Bytes)
  | notClosed
  | notANumber (word : Bytes)
  deriving DecidableEq, Repr

def TestError.message : TestError → Bytes
  | unexpectedOperator word =>
      (if word.isEmpty then [] else word ++ ": ".toList) ++ "unexpected operator".toList
  | noArgument operator => operator ++ ": argument expected".toList
  | notClosed => "closing paren expected".toList
  | notANumber word => "Illegal number: ".toList ++ word

def testsOfOne : List String :=
  ["-z", "-n", "-e", "-f", "-d", "-r", "-w", "-x"]

def testsOfTwo : List String :=
  ["=", "!=", "<", ">", "-eq", "-ne", "-ge", "-gt", "-le", "-lt"]

def isTestOfTwo (word : Bytes) : Bool :=
  testsOfTwo.contains (String.ofList word)

def beginsTestOfOne : List Bytes → Bool
  | word :: next :: rest =>
      testsOfOne.contains (String.ofList word) && (rest.isEmpty || !isTestOfTwo next)
  | _ => false

def integerOf (word : Bytes) : Except TestError Int :=
  match integer? word with
  | some n => if n.bmod (2 ^ 64) == n then .ok n else .error (.notANumber word)
  | none => .error (.notANumber word)

def testOfOne (find : Bytes → Place) (operator : String) (word : Bytes) : Bool :=
  let place := find word
  match operator with
  | "-z" => word.isEmpty
  | "-n" => !word.isEmpty
  | "-d" => place == .directory
  | "-x" => place == .directory || place.startable.isOk
  | "-f" => place.startable.isOk
  | _ => place.cause?.isNone || place == .directory

def testOfTwo (left operator right : Bytes) : Except TestError Bool :=
  let numbers := fun (holds : Int → Int → Bool) => do
    return holds (← integerOf left) (← integerOf right)
  match String.ofList operator with
  | "=" => .ok (left == right)
  | "!=" => .ok (left != right)
  | "<" => .ok (left < right)
  | ">" => .ok (right < left)
  | "-eq" => numbers fun m n => m == n
  | "-ne" => numbers fun m n => m != n
  | "-lt" => numbers fun m n => m < n
  | "-le" => numbers fun m n => m ≤ n
  | "-gt" => numbers fun m n => n < m
  | _ => numbers fun m n => n ≤ m

mutual

def testNegated (find : Bytes → Place) : Nat → List Bytes → Except TestError (Bool × List Bytes)
  | 0, words => .ok (false, words)
  | fuel + 1, words =>
    match words with
    | ['!'] :: rest => do
        let (holds, rest) ← testNegated find fuel rest
        return (!holds, rest)
    | _ => testPrimary find fuel words

def testPrimary (find : Bytes → Place) : Nat → List Bytes → Except TestError (Bool × List Bytes)
  | 0, words => .ok (false, words)
  | _, [] => .ok (false, [])
  | fuel + 1, word :: rest =>
    if word == ['('] && !rest.isEmpty then
      if rest.head? == some [')'] then .ok (false, rest.drop 1)
      else do
        let (holds, rest) ← testNegated find fuel rest
        if rest.head? == some [')'] then return (holds, rest.drop 1) else throw .notClosed
    else if beginsTestOfOne (word :: rest) then do
      return (testOfOne find (String.ofList word) (rest.headD []), rest.drop 1)
    else
      match rest with
      | operator :: rest =>
          if isTestOfTwo operator then
            match rest with
            | right :: rest => do return (← testOfTwo word operator right, rest)
            | [] => .error (.noArgument operator)
          else .ok (!word.isEmpty, operator :: rest)
      | [] => .ok (!word.isEmpty, [])

end

def testAll (find : Bytes → Place) (words : List Bytes) : Except TestError Bool := do
  let (holds, rest) ← testNegated find (8 * words.length + 8) words
  if rest.isEmpty then return holds
  else throw (.unexpectedOperator (words.getD (words.length - rest.length - 1) []))

def testThree (find : Bytes → Place) (negated : Bool) (left operator right : Bytes) :
    Except TestError Bool :=
  if isTestOfTwo operator then (· != negated) <$> testOfTwo left operator right
  else if left == ['('] && right == [')'] then (· != negated) <$> testAll find [operator]
  else if left == ['!'] then Bool.not <$> testAll find [operator, right]
  else (· != negated) <$> testAll find [left, operator, right]

def test (find : Bytes → Place) : List Bytes → Except TestError Bool
  | [] => .ok false
  | [left, operator, right] => testThree find false left operator right
  | [first, second, third, fourth] =>
      if first == ['('] && fourth == [')'] then testAll find [second, third]
      else if first == ['!'] then testThree find true second third fourth
      else testAll find [first, second, third, fourth]
  | words => testAll find words

def testWords (find : Bytes → Place) (label : Bytes) : Utility := fun words input =>
  match test find words with
  | .ok holds => .ended (if holds then 0 else 1) input
  | .error e => .failure 2 (label ++ e.message) input

def testBracket (find : Bytes → Place) (label bracket : Bytes) : Utility := fun words input =>
  if words.getLast? == some [']'] then testWords find label words.dropLast input
  else .failure 2 (label ++ "missing ".toList ++ bracket) input

end TenantSql.Shell
