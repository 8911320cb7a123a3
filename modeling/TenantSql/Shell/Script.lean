import TenantSql.Number.Standard
import TenantSql.Text.Quoted

/-!
# Scripts of the shell

What a script of the shell consists of: words with what is filled into them, and
commands. The shell knows bytes only. A byte stands here as the character with
its number, so that scripts, inputs and outputs are lists of characters below
256.

Of the shell there is what formatters make use of: scripts run one command at a
time, read the files of the system and write to its devices.
-/

namespace TenantSql.Shell

abbrev Bytes := List Char

namespace Bytes

def ofString (s : String) : Bytes :=
  s.toUTF8.toList.map fun b => Char.ofNat b.toNat

def toByteArray (cs : Bytes) : ByteArray :=
  ByteArray.mk (cs.map fun c => c.toNat.toUInt8).toArray

def ofNat (n : Nat) : Bytes :=
  Nat.toDigits 10 n

def ofInt (n : Int) : Bytes :=
  if n < 0 then '-' :: ofNat n.natAbs else ofNat n.natAbs

def natural? (cs : Bytes) : Option Nat :=
  if cs.isEmpty || !cs.all Char.isDigit then none
  else some (cs.foldl (fun n c => n * 10 + (c.toNat - '0'.toNat)) 0)

def unwords (words : List Bytes) : Bytes :=
  [' '].intercalate words

end Bytes

inductive Direction where
  | input
  | output
  | update
  | descriptor
  | here
  deriving DecidableEq, Repr

inductive Use where
  | value
  | length
  | orWord (emptyToo : Bool)
  | orAssign (emptyToo : Bool)
  | orFail (emptyToo : Bool)
  | wordIfSet (emptyToo : Bool)
  | withoutStart (longest : Bool)
  | withoutEnd (longest : Bool)
  | invalid
  deriving DecidableEq, Repr

mutual

inductive Part where
  | text (cs : Bytes) (quoted : Bool)
  | home (user : Bytes)
  | parameter (name : Bytes) (use : Use) (word : List Part) (quoted : Bool)
  | output (c : Command) (quoted : Bool)
  | formula (text : List Part) (quoted : Bool)

inductive Redirection where
  | mk (descriptor : Nat) (direction : Direction) (target : List Part)

inductive Command where
  | nothing
  | simple (line : Nat) (assignments : List (Bytes × List Part)) (words : List (List Part))
      (redirections : List Redirection)
  | redirected (line : Nat) (c : Command) (redirections : List Redirection)
  | sequence (first second : Command)
  | unless (first : Command) (failed : Bool) (second : Command)
  | pipe (first second : Command)
  | negated (c : Command)
  | subshell (line : Nat) (c : Command) (redirections : List Redirection)
  | choice (condition yes no : Command)
  | loop (failed : Bool) (condition body : Command)
  | each (line : Nat) (name : Bytes) (words : List (List Part)) (body : Command)
  | select (line : Nat) (subject : List Part) (branches : List (List (List Part) × Command))
  | define (name : Bytes) (body : Command)

end

instance : Inhabited Command := ⟨.nothing⟩

def Redirection.descriptor : Redirection → Nat
  | .mk descriptor _ _ => descriptor

def Command.begun (line : Nat) (redirections : List Redirection) : Command → Command
  | .subshell _ c _ => .subshell line c redirections
  | .each _ name words body => wrapped (.each line name words body)
  | .select _ subject branches => wrapped (.select line subject branches)
  | c => wrapped c
where
  wrapped (c : Command) : Command :=
    if redirections.isEmpty then c else .redirected line c redirections

def Command.isNothing : Command → Bool
  | .nothing => true
  | _ => false

/-! ## Quantities

Numbers as words write them for the utilities: decimal or hexadecimal, with a
fraction and an exponent, or one of the values beyond all numbers. -/

inductive Quantity where
  | finite (negative : Bool) (numerator denominator : Nat)
  | infinite (negative : Bool)
  | undefined
  deriving DecidableEq, Repr

def isSpace (c : Char) : Bool :=
  c == ' ' || ('\t' ≤ c && c ≤ '\r')

def isHexDigit (c : Char) : Bool :=
  c.isDigit || ('a' ≤ c.toLower && c.toLower ≤ 'f')

def digitValue (c : Char) : Nat :=
  if c.isDigit then c.toNat - '0'.toNat else c.toLower.toNat - 'a'.toNat + 10

def naturalInBase (base : Nat) (digits : Bytes) : Nat :=
  digits.foldl (fun n c => n * base + digitValue c) 0

def takeSign (cs : Bytes) : Bool × Bytes :=
  match cs.dropWhile isSpace with
  | '-' :: rest => (true, rest)
  | '+' :: rest => (false, rest)
  | rest => (false, rest)

def integer? (word : Bytes) : Option Int :=
  let (negative, digits) := takeSign (word.reverse.dropWhile isSpace).reverse
  (Bytes.natural? digits).map fun n => if negative then -n else n

def count? (word : Bytes) : Option Nat :=
  (integer? word).bind fun n => if 0 ≤ n && n < 2 ^ 31 then some n.toNat else none

namespace Quantity

def takeExponent (letter : Char) (cs : Bytes) : Int × Bytes :=
  match cs with
  | c :: rest =>
      let (negative, digits) := match rest with
        | '-' :: rest => (true, rest)
        | '+' :: rest => (false, rest)
        | rest => (false, rest)
      let number := digits.takeWhile Char.isDigit
      if c.toLower != letter || number.isEmpty then (0, cs)
      else
        let size : Int := naturalInBase 10 number
        (if negative then -size else size, digits.drop number.length)
  | [] => (0, cs)

def maxMagnitude : Int := 5000

def ofDigits (negative : Bool) (size : Nat) (base : Nat) (exponent : Int) : Quantity :=
  let magnitude := exponent + (Nat.toDigits base size).length
  if size == 0 || magnitude < -4 * maxMagnitude then .finite negative 0 1
  else if 4 * maxMagnitude < magnitude then .infinite negative
  else .finite negative (size * base ^ exponent.toNat) (base ^ (-exponent).toNat)

def takeDigits (isDigit : Char → Bool) (cs : Bytes) : Bytes × Nat × Bytes :=
  let whole := cs.takeWhile isDigit
  match cs.drop whole.length with
  | '.' :: rest =>
      let fraction := rest.takeWhile isDigit
      if (whole ++ fraction).isEmpty then ([], 0, cs)
      else (whole ++ fraction, fraction.length, rest.drop fraction.length)
  | rest => (whole, 0, rest)

def takeWord? (word : String) (cs : Bytes) : Option Bytes :=
  if word.toList.isPrefixOf (cs.map Char.toLower) then some (cs.drop word.length) else none

def takeSize? (negative : Bool) (cs : Bytes) : Option (Quantity × Bytes) :=
  let beyond := ((takeWord? "infinity" cs).or (takeWord? "inf" cs)).map (.infinite negative, ·)
  let (hex, places, afterHex) := takeDigits isHexDigit (cs.drop 2)
  let (digits, decimals, rest) := takeDigits Char.isDigit cs
  if beyond.isSome then beyond
  else if (takeWord? "nan" cs).isSome then (takeWord? "nan" cs).map (.undefined, ·)
  else if (takeWord? "0x" cs).isSome && !hex.isEmpty then
    let (exponent, rest) := takeExponent 'p' afterHex
    some (ofDigits negative (naturalInBase 16 hex) 2 (exponent - 4 * places), rest)
  else if digits.isEmpty then none
  else
    let (exponent, rest) := takeExponent 'e' rest
    some (ofDigits negative (naturalInBase 10 digits) 10 (exponent - decimals), rest)

def take? (cs : Bytes) : Option (Quantity × Bytes) :=
  let (negative, rest) := takeSign cs
  takeSize? negative rest

end Quantity

/-! ## Words in messages

How messages show words: between quotation marks, or the way the shell would have
a name written. What cannot be printed is shown by its bytes. -/

/-- The characters of a text with their bytes, and whether they can be printed. Bytes that are no
text stand for themselves. -/
def glyphs (cs : Bytes) : List (Bytes × Bool) :=
  match String.fromUTF8? (Bytes.toByteArray cs) with
  | some text => text.toList.map fun c => (Bytes.ofString c.toString, Text.isPrintable c)
  | none => cs.map fun c => ([c], ' ' ≤ c && c ≤ '~')

def namedControls : List (Char × Char) :=
  "\x07\x08\t\n\x0b\x0c\r".toList.zip "abtnvfr".toList

def escapedByte (c : Char) : Bytes :=
  match namedControls.lookup c with
  | some letter => ['\\', letter]
  | none =>
      let digits := Nat.toDigits 8 c.toNat
      '\\' :: List.replicate (3 - digits.length) '0' ++ digits

def inMarks (word : Bytes) : Bytes :=
  let closing := Bytes.ofString "’"
  let shown := (glyphs word).map fun (bytes, printable) =>
    if !printable then (bytes.map escapedByte).flatten
    else if bytes == ['\\'] || bytes == closing then '\\' :: bytes
    else bytes
  Bytes.ofString "‘" ++ shown.flatten ++ closing

/-! ### Names -/

def strongSigns : Bytes :=
  "!\"$&()*;<=>[^\x60|?\\".toList

def needsQuotes (name : Bytes) : Bool :=
  name.isEmpty || name == ['\x7b'] || name == ['\x7d'] || name.head? == some '~' ||
    name.head? == some '#' || (glyphs name).any (!·.2) ||
    name.any fun c => strongSigns.contains c || c == ' ' || c == ':' || c == '\''

def quotedGlyphs : Bool → List (Bytes × Bool) → Bytes
  | _, [] => ['\'']
  | escaping, (bytes, printable) :: rest =>
      if !printable then
        (if escaping then [] else "'$'".toList) ++ (bytes.map escapedByte).flatten ++
          quotedGlyphs true rest
      else
        (if escaping then "''".toList else []) ++
          (if bytes == ['\''] then "'\\''".toList else bytes) ++ quotedGlyphs false rest

def asName (name : Bytes) : Bytes :=
  let weak := (glyphs name).all fun (bytes, printable) =>
    printable && !bytes.any fun c =>
      strongSigns.contains c || c == '\x7b' || c == '\x7d' || c == '~' || c == '#'
  if !needsQuotes name then name
  else if name.contains '\'' && weak then '"' :: name ++ ['"']
  else '\'' :: quotedGlyphs false (glyphs name)

/-! ## Options of shells

The options that a shell can be started with or can set while it runs, by letters
and by names; how the commands of a shell read options of their own; and what the
words after the name of a shell ask it to run. -/

def optionNames : List (String × Option Char) :=
  [("errexit", some 'e'), ("noglob", some 'f'), ("ignoreeof", some 'I'), ("interactive", some 'i'),
    ("monitor", some 'm'), ("noexec", some 'n'), ("stdin", some 's'), ("xtrace", some 'x'),
    ("verbose", some 'v'), ("vi", some 'V'), ("emacs", some 'E'), ("noclobber", some 'C'),
    ("allexport", some 'a'), ("notify", some 'b'), ("nounset", some 'u'),
    ("privileged", some 'p'), ("nolog", none), ("debug", none)]

def optionLetters : Bytes :=
  (optionNames.filterMap (·.2)).reverse

def changed (on : Bool) (letter : Char) (options : Bytes) : Bytes :=
  if on then letter :: options else options.filter (· != letter)

def withLetters (on : Bool) : Bytes → List Bytes → Bytes → Except Bytes (Bytes × List Bytes)
  | [], words, options => .ok (options, words)
  | 'o' :: more, [], options => withLetters on more [] options
  | 'o' :: more, name :: words, options =>
      match optionNames.lookup (String.ofList name) with
      | some (some letter) => withLetters on more words (changed on letter options)
      | some none => withLetters on more words options
      | none => .error ("-o ".toList ++ name)
  | letter :: more, words, options =>
      if optionLetters.contains letter then
        withLetters on more words (changed on letter options)
      else .error ['-', letter]

def illegal (option : Bytes) : Bytes :=
  "Illegal option ".toList ++ option

def optionReport (asCommands : Bool) (options : Bytes) : Bytes :=
  let isOn := fun letter : Option Char => letter.any options.contains
  let lines := optionNames.map fun (name, letter) =>
    if asCommands then (if isOn letter then "set -o " else "set +o ") ++ name ++ "\n"
    else name ++ String.ofList (List.replicate (16 - name.length) ' ') ++
      (if isOn letter then "on\n" else "off\n")
  ((if asCommands then "" else "Current option settings\n") ++ "".intercalate lines).toList

/-! ### Options of commands -/

def ownOptions (plain taking : Bytes) :
    Nat → List Bytes → Except Bytes (List (Char × Bytes) × List Bytes)
  | 0, words => .ok ([], words)
  | fuel + 1, words =>
    match words with
    | ['-', '-'] :: rest => .ok ([], rest)
    | ('-' :: letter :: more) :: rest => do
        if plain.contains letter then
          let words := if more.isEmpty then rest else ('-' :: more) :: rest
          let (options, operands) ← ownOptions plain taking fuel words
          return ((letter, []) :: options, operands)
        else if !taking.contains letter then throw (illegal ['-', letter])
        else
          match more, rest with
          | [], [] => throw ("No arg for -".toList ++ letter :: " option".toList)
          | [], word :: rest =>
              let (options, operands) ← ownOptions plain taking fuel rest
              return ((letter, word) :: options, operands)
          | word, rest =>
              let (options, operands) ← ownOptions plain taking fuel rest
              return ((letter, word) :: options, operands)
    | _ => .ok ([], words)

def plainOptions (letters : String) (words : List Bytes) : Except Bytes (Bytes × List Bytes) :=
  let most := (words.map (·.length + 1)).sum
  (fun (options, operands) => (options.map (·.1), operands)) <$>
    ownOptions letters.toList [] most words

/-! ### Starting shells -/

structure Invocation where
  script : Option Bytes := none
  arguments : List Bytes := []
  options : Bytes := []
  file : Option Bytes := none

namespace Invocation

def withOperands (name : Bytes) (i : Invocation) (takesScript : Bool) :
    List Bytes → Except Bytes Invocation
  | [] =>
      if takesScript then .error "-c requires an argument".toList
      else .ok { i with arguments := [name], options := changed true 's' i.options }
  | word :: rest =>
      if takesScript then
        .ok { i with script := some word, arguments := if rest.isEmpty then [name] else rest }
      else if i.options.contains 's' then .ok { i with arguments := name :: word :: rest }
      else .ok { i with file := some word, arguments := word :: rest }

def read (name : Bytes) : Nat → Invocation → Bool → List Bytes → Except Bytes Invocation
  | 0, i, takesScript, words => i.withOperands name takesScript words
  | fuel + 1, i, takesScript, words =>
    match words with
    | [] => i.withOperands name takesScript []
    | word :: rest =>
      match word with
      | ['-'] | ['-', '-'] => i.withOperands name takesScript rest
      | sign :: letters =>
          if sign != '-' && sign != '+' then i.withOperands name takesScript words
          else
            match withLetters (sign == '-') (letters.filter (· != 'c')) rest i.options with
            | .error option => .error (illegal option)
            | .ok (options, rest) =>
                read name fuel { i with options } (takesScript || letters.contains 'c') rest
      | [] => i.withOperands name takesScript words

end Invocation

end TenantSql.Shell
