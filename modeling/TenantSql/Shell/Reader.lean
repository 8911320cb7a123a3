import TenantSql.Shell.Script

/-!
# Reading scripts

How the text of a script becomes commands, and what is said of a text that is no
script.
-/

namespace TenantSql.Shell

/-! ## Lexemes

What a script is written with, below the level of commands: blanks, words
without quotes, names, the signs of redirections and of parameters, and texts
between lines. -/

inductive SyntaxError where
  | openQuote
  | openBackquote
  | openBrace
  | openFormula
  | unexpected (found : String) (expected : Option String)
  | badFunctionName
  | badLoopName
  deriving DecidableEq, Repr

abbrev Read (α : Type) := α × Bytes

/-! ### Characters and words -/

def takenLine : Char := '\u0100'

def isNoByte (c : Char) : Bool :=
  256 ≤ c.toNat

def lineEnds (cs : Bytes) : Nat :=
  cs.countP fun c => c == '\n' || c == takenLine

structure Source where
  lineCount : Nat := 0

def Source.lineOf (source : Source) (rest : Bytes) : Nat :=
  1 + source.lineCount - lineEnds rest

structure SyntaxFault where
  source : Source
  rest : Bytes
  error : SyntaxError

def isBlank (c : Char) : Bool :=
  c == ' ' || c == '\t' || isNoByte c

def endsWord (c : Char) : Bool :=
  isBlank c || c == '\n' || c == ';' || c == '&' || c == '|' || c == '<' || c == '>' ||
    c == '(' || c == ')'

def isPlain (quoted braced : Bool) (c : Char) : Bool :=
  !("\"$\x60\\".toList.contains c || (braced && c == '\x7d') || (!quoted && c == '\'') ||
    (!quoted && !braced && endsWord c))

def startsName (c : Char) : Bool :=
  c.isAlpha || c == '_'

def isNameChar (c : Char) : Bool :=
  c.isAlphanum || c == '_'

def isName (cs : Bytes) : Bool :=
  cs.head?.any startsName && cs.all isNameChar

def isSpecial (c : Char) : Bool :=
  c.isDigit || "?#$!-@*".toList.contains c

def blanks : Bytes → Bytes
  | '\\' :: '\n' :: rest => blanks rest
  | '#' :: rest => rest.dropWhile (· != '\n')
  | c :: rest => if isBlank c then blanks rest else c :: rest
  | [] => []

def linesFrom : Bool → Bytes → Bytes
  | _, [] => []
  | _, '\n' :: rest => linesFrom false rest
  | true, _ :: rest => linesFrom true rest
  | false, '\\' :: '\n' :: rest => linesFrom false rest
  | false, '#' :: rest => linesFrom true rest
  | false, c :: rest => if isBlank c then linesFrom false rest else c :: rest

def lines (cs : Bytes) : Bytes :=
  linesFrom false cs

def bareWord (cs : Bytes) : Bytes :=
  let word := cs.takeWhile fun c => !endsWord c
  if word.any fun c => c == '\'' || c == '"' || c == '\\' || c == '$' || c == '\x60' then []
  else word

def closingWords : List String :=
  ["then", "else", "elif", "fi", "do", "done", "esac", "\x7d"]

def openingWords : List String :=
  ["if", "while", "until", "for", "case", "in", "!", "\x7b"]

def grammarWords : List String :=
  openingWords ++ closingWords

def misplacedWords : List String :=
  closingWords ++ ["in", "!"]

def specialCommands : List String :=
  [":", ".", "break", "continue", "eval", "exec", "exit", "export", "local", "readonly", "return",
    "set", "shift", "times", "trap", "unset"]

def endsList (cs : Bytes) : Bool :=
  match cs with
  | [] => true
  | ')' :: _ => true
  | ';' :: ';' :: _ => true
  | _ => closingWords.contains (String.ofList (bareWord cs))

/-! ### What is not expected -/

def inQuotes (s : String) : String :=
  "\"" ++ s ++ "\""

def foundName (withWords : Bool) (cs : Bytes) : String :=
  match cs with
  | [] => "end of file"
  | '\n' :: _ => "newline"
  | '<' :: _ | '>' :: _ => "redirection"
  | ';' :: ';' :: _ => inQuotes ";;"
  | '&' :: '&' :: _ => inQuotes "&&"
  | '|' :: '|' :: _ => inQuotes "||"
  | c :: next =>
      let word := String.ofList (bareWord cs)
      if c.isDigit && (next.head? == some '<' || next.head? == some '>') then "redirection"
      else if endsWord c then inQuotes c.toString
      else if withWords && (closingWords.contains word || openingWords.contains word) then
        inQuotes word
      else "word"

def SyntaxError.message : SyntaxError → Bytes
  | openQuote => wrong "Unterminated quoted string"
  | openBackquote => wrong "EOF in backquote substitution"
  | openBrace => wrong "Missing '\x7d'"
  | openFormula => wrong "Missing '))'"
  | badFunctionName => wrong "Bad function name"
  | badLoopName => wrong "Bad for loop variable"
  | .unexpected found expected =>
      let wanted := match expected with
        | none => ""
        | some "word" => " (expecting word)"
        | some sign => " (expecting " ++ inQuotes sign ++ ")"
      wrong (found ++ " unexpected" ++ wanted)
where
  wrong (what : String) : Bytes := ("Syntax error: " ++ what).toList

namespace SyntaxFault

/-- The script is nested too deeply. -/
def tooDeep : SyntaxFault :=
  ⟨{}, [], .unexpected "word" none⟩

def line (fault : SyntaxFault) : Nat :=
  fault.source.lineOf fault.rest + if fault.rest.head? == some '\n' then 1 else 0

end SyntaxFault

def unexpected {α : Type} (source : Source) (expected : Option String) (cs : Bytes) :
    Except SyntaxFault α :=
  .error ⟨source, cs, .unexpected (foundName true cs) expected⟩

def expectWord (source : Source) (word : String) (cs : Bytes) : Except SyntaxFault Bytes :=
  if bareWord cs == word.toList then .ok (cs.drop word.length) else unexpected source word cs

def expectChar (source : Source) (char : Char) (cs : Bytes) : Except SyntaxFault Bytes :=
  if cs.head? == some char then .ok (cs.drop 1) else unexpected source char.toString cs

def expectClosing (source : Source) (cs : Bytes) : Except SyntaxFault Bytes :=
  if cs.head? == some ')' then .ok (cs.drop 1)
  else .error ⟨source, cs, .unexpected (foundName false cs) ")"⟩

/-! ### Quotes, assignments and redirections -/

def readSingle (source : Source) (cs : Bytes) : Except SyntaxFault (Read Bytes) :=
  match cs.dropWhile (· != '\'') with
  | [] => .error ⟨source, [], .openQuote⟩
  | _ :: rest => .ok ((cs.takeWhile (· != '\'')).filter (!isNoByte ·), rest)

/-- The characters up to the closing backquote, and the rest. A backslash takes away the meaning of
some signs, and within double quotes of those too. -/
def readBackquoted (source : Source) (quoted : Bool) : Bytes → Except SyntaxFault (Read Bytes)
  | [] => .error ⟨source, [], .openBackquote⟩
  | '\x60' :: rest => .ok ([], rest)
  | '\\' :: c :: rest => do
      let (more, rest) ← readBackquoted source quoted rest
      return (if "\x60\\$".toList.contains c || (quoted && c == '"') then (c :: more, rest)
        else ('\\' :: c :: more, rest))
  | c :: rest => do
      let (more, rest) ← readBackquoted source quoted rest
      return (c :: more, rest)

def assignment? (cs : Bytes) : Option (Bytes × Bytes) :=
  let name := cs.takeWhile isNameChar
  match cs.drop name.length with
  | '=' :: rest => if isName name then some (name, rest) else none
  | _ => none

def takeDescriptor (cs : Bytes) : Option Nat × Bytes :=
  match cs with
  | c :: rest => if c.isDigit then (Bytes.natural? [c], rest) else (none, cs)
  | [] => (none, [])

def redirection? (cs : Bytes) : Option (Nat × Direction × Bytes) :=
  let (descriptor, rest) := takeDescriptor cs
  match rest with
  | '>' :: '&' :: rest => some (descriptor.getD 1, .descriptor, rest)
  | '<' :: '&' :: rest => some (descriptor.getD 0, .descriptor, rest)
  | '>' :: '>' :: rest | '>' :: '|' :: rest | '>' :: rest =>
      some (descriptor.getD 1, .output, rest)
  | '<' :: '<' :: rest => some (descriptor.getD 0, .here, rest)
  | '<' :: '>' :: rest => some (descriptor.getD 0, .update, rest)
  | '<' :: rest => some (descriptor.getD 0, .input, rest)
  | _ => none

/-! ### Parameters -/

def afterBreaks : Bytes → Bytes
  | '\\' :: '\n' :: rest => afterBreaks rest
  | cs => cs

def takeName : Bytes → Bytes × Bytes
  | '\\' :: '\n' :: rest => takeName rest
  | c :: rest =>
      if isNameChar c then
        let (name, rest) := takeName rest
        (c :: name, rest)
      else ([], c :: rest)
  | [] => ([], [])

def parameterName (cs : Bytes) : Bytes × Bytes :=
  match cs with
  | c :: rest =>
      if startsName c then takeName cs
      else if c.isDigit then (cs.takeWhile Char.isDigit, cs.dropWhile Char.isDigit)
      else if isSpecial c then ([c], rest)
      else ([], cs)
  | [] => ([], [])

def useOf? : Bytes → Option (Use × Bytes)
  | ':' :: '-' :: rest => some (.orWord true, rest)
  | '-' :: rest => some (.orWord false, rest)
  | ':' :: '=' :: rest => some (.orAssign true, rest)
  | '=' :: rest => some (.orAssign false, rest)
  | ':' :: '?' :: rest => some (.orFail true, rest)
  | '?' :: rest => some (.orFail false, rest)
  | ':' :: '+' :: rest => some (.wordIfSet true, rest)
  | '+' :: rest => some (.wordIfSet false, rest)
  | '#' :: '#' :: rest => some (.withoutStart true, rest)
  | '#' :: rest => some (.withoutStart false, rest)
  | '%' :: '%' :: rest => some (.withoutEnd true, rest)
  | '%' :: rest => some (.withoutEnd false, rest)
  | '\x7d' :: rest => some (.value, '\x7d' :: rest)
  | _ => none

def Use.takesPattern : Use → Bool
  | withoutStart _ | withoutEnd _ => true
  | _ => false

def parameterUse (source : Source) (quoted : Bool) (cs : Bytes) :
    Except SyntaxFault (Bytes × Use × Bytes) :=
  let cs := afterBreaks cs
  let (name, rest) := parameterName cs
  match cs with
  | '#' :: more =>
      let (counted, after) := parameterName more
      if !counted.isEmpty && after.head? == some '\x7d' then .ok (counted, .length, after)
      else if counted.isEmpty && more[1]? == some '\x7d' && more[0]? != some '\x7d' then
        .ok (name, .invalid, behind more)
      else useAfter name rest
  | _ => useAfter name rest
where
  useAfter (name rest : Bytes) : Except SyntaxFault (Bytes × Use × Bytes) :=
    let rest := afterBreaks rest
    if rest.isEmpty then .error ⟨source, [], if quoted then .openQuote else .openBrace⟩
    else if name.isEmpty then
      .ok (name, .invalid, if rest.head? == some '\x7d' then rest else behind rest)
    else
      match useOf? rest with
      | some (use, after) => .ok (name, use, after)
      | none => .ok (name, .invalid, behind (if rest.head? == some ':' then rest.drop 1 else rest))
  behind : Bytes → Bytes
    | '\n' :: rest => rest ++ [takenLine]
    | _ :: rest => rest
    | [] => []

/-! ### Texts between lines -/

def takeDocument (noTabs : Bool) (delimiter : Bytes) : Nat → Bytes → Read Bytes
  | 0, cs => ([], cs)
  | fuel + 1, cs =>
    let whole := cs.takeWhile (· != '\n')
    let line := if noTabs then whole.dropWhile (· == '\t') else whole
    let rest := cs.drop (whole.length + 1)
    if cs.isEmpty || line == delimiter then ([], rest)
    else
      let (more, after) := takeDocument noTabs delimiter fuel rest
      (line ++ (if whole.length < cs.length then ['\n'] else []) ++ more, after)

/-- The script from the end of its first line on. The line goes on in quotes and in what is filled
in, up to the signs that close them, and behind a backslash. -/
def fromLineEnd (closings : List Char) (before : Char) : Bytes → Bytes
  | [] => []
  | c :: rest =>
      if closings.head? == some '\'' then
        fromLineEnd (if c == '\'' then closings.tail else closings) c rest
      else if before == '\\' then fromLineEnd closings ' ' rest
      else if closings.head? == some c then fromLineEnd closings.tail c rest
      else if closings.isEmpty && c == '\n' then c :: rest
      else if closings.isEmpty && c == '#' && endsWord before then rest.dropWhile (· != '\n')
      else fromLineEnd ((closing? c).toList ++ closings) c rest
where
  closing? (c : Char) : Option Char :=
    match c with
    | '\'' => if (closings.takeWhile (· != ')')).contains '"' then none else some c
    | '"' | '\x60' => some c
    | '\x7b' => if before == '$' then some '\x7d' else none
    | '(' => if before == '$' || closings.head? == some ')' then some ')' else none
    | _ => none

def cutDocument (noTabs : Bool) (delimiter cs : Bytes) : Read Bytes :=
  let line := cs.take (cs.length - (fromLineEnd [] ' ' cs).length)
  let below := cs.drop (line.length + 1)
  let earlier := below.takeWhile (· == takenLine)
  let (text, rest) :=
    takeDocument noTabs delimiter (cs.length + 1) (below.drop earlier.length)
  let taken := List.replicate (lineEnds below - earlier.length - lineEnds rest) takenLine
  (text, if line.length < cs.length then line ++ '\n' :: earlier ++ taken ++ rest else line)

/-- A text as it stands between double quotes. Within what is filled in, up to the signs that close
it, quotes keep their meaning. -/
def escapeQuotes (closings : List Char) : Bytes → Bytes
  | '\\' :: '"' :: rest =>
      (if closings.isEmpty then "\\\\\\\"" else "\\\"").toList ++ escapeQuotes closings rest
  | '\\' :: c :: rest => '\\' :: c :: escapeQuotes closings rest
  | '$' :: '\x7b' :: rest => '$' :: '\x7b' :: escapeQuotes ('\x7d' :: closings) rest
  | '$' :: '(' :: rest => '$' :: '(' :: escapeQuotes (')' :: closings) rest
  | c :: rest =>
      if closings.head? == some c then c :: escapeQuotes closings.tail rest
      else if closings.isEmpty && c == '"' then '\\' :: '"' :: escapeQuotes closings rest
      else if c == '\x60' then c :: escapeQuotes (c :: closings) rest
      else if c == '(' && !closings.isEmpty then c :: escapeQuotes (')' :: closings) rest
      else c :: escapeQuotes closings rest
  | [] => []

def Part.isQuoted : Part → Bool
  | .text _ quoted | .parameter _ _ _ quoted | .output _ quoted | .formula _ quoted => quoted
  | .home _ => false

def Part.literal : Part → Bytes
  | .text cs _ => cs
  | _ => []

/-! ## Grammar

The grammar of the shell: words with quotes and what is filled into them, simple
commands with assignments and redirections, and the commands that hold others. A
command behind which `&` stands is read as one that is waited for. -/

mutual

def readDollar (source : Source) (quoted : Bool) :
    Nat → Bytes → Except SyntaxFault (Read (List Part))
  | 0, _ => .error .tooDeep
  | fuel + 1, cs =>
    let cs := afterBreaks cs
    match cs with
    | '(' :: '(' :: rest => do
        let (text, rest) ← readWritten source 0 fuel rest
        return ([.formula text quoted], rest)
    | '(' :: rest => do
        let (c, rest) ← readList source fuel rest
        return ([.output c quoted], ← expectChar source ')' (lines rest))
    | '\x7b' :: rest => do
        let (name, use, rest) ← parameterUse source quoted rest
        let (word, rest) ← readParts source (quoted && !use.takesPattern) true fuel rest
        return ([.parameter name use word quoted], ← expectChar source '\x7d' rest)
    | c :: rest =>
        if startsName c then
          let (name, rest) := takeName cs
          .ok ([.parameter name .value [] quoted], rest)
        else if isSpecial c then .ok ([.parameter [c] .value [] quoted], rest)
        else .ok ([.text ['$'] quoted], cs)
    | [] => .ok ([.text ['$'] quoted], [])

def readWritten (source : Source) (opened : Nat) :
    Nat → Bytes → Except SyntaxFault (Read (List Part))
  | 0, _ => .error .tooDeep
  | fuel + 1, cs =>
    match cs with
    | [] => .error ⟨source, [], .openFormula⟩
    | '$' :: rest => do
        let (filled, rest) ← readDollar source true fuel rest
        let (more, rest) ← readWritten source opened fuel rest
        return (filled ++ more, rest)
    | '\x60' :: rest => do
        let (c, rest) ← readInBackquotes source true fuel rest
        let (more, rest) ← readWritten source opened fuel rest
        return (.output c true :: more, rest)
    | '\\' :: '\n' :: rest => readWritten source opened fuel rest
    | '\\' :: c :: rest => do
        let kept := if "$\x60\\".toList.contains c then [c] else ['\\', c]
        let (more, rest) ← readWritten source opened fuel rest
        return (.text kept true :: more, rest)
    | ')' :: rest =>
        if opened == 0 then
          match rest with
          | ')' :: rest => .ok ([], rest)
          | _ => .error ⟨source, [], .openFormula⟩
        else do
          let (more, rest) ← readWritten source (opened - 1) fuel rest
          return (.text [')'] true :: more, rest)
    | c :: rest => do
        let (more, rest) ← readWritten source (if c == '(' then opened + 1 else opened) fuel rest
        return (.text [c] true :: more, rest)

def readInBackquotes (source : Source) (quoted : Bool) :
    Nat → Bytes → Except SyntaxFault (Read Command)
  | 0, _ => .error .tooDeep
  | fuel + 1, cs => do
    let (script, rest) ← readBackquoted source quoted cs
    let (c, _) ← readList { source with lineCount := lineEnds script } fuel script
    return (c, rest)

/-- The parts of a word from the next one on, and the rest. Within double quotes only a dollar
sign, a backquote and a backslash have a meaning; within braces the closing one ends the word. -/
def readParts (source : Source) (quoted braced : Bool) :
    Nat → Bytes → Except SyntaxFault (Read (List Part))
  | 0, _ => .error .tooDeep
  | fuel + 1, cs =>
    match cs with
    | [] =>
        if quoted then .error ⟨source, [], .openQuote⟩
        else if braced then .error ⟨source, [], .openBrace⟩
        else .ok ([], [])
    | '"' :: rest =>
        if quoted && !braced then .ok ([], cs)
        else do
          let (inner, rest) ← readParts source true false fuel rest
          let (more, rest) ← readParts source quoted braced fuel (← expectChar source '"' rest)
          let marker := match inner with
            | [.parameter ['@'] .value _ _] => []
            | _ => [.text [] true]
          return (marker ++ inner ++ more, rest)
    | '$' :: rest => do
        let (filled, rest) ← readDollar source quoted fuel rest
        let (more, rest) ← readParts source quoted braced fuel rest
        return (filled ++ more, rest)
    | '\x60' :: rest => do
        let (c, rest) ← readInBackquotes source quoted fuel rest
        let (more, rest) ← readParts source quoted braced fuel rest
        return (.output c quoted :: more, rest)
    | '\\' :: '\n' :: rest => readParts source quoted braced fuel rest
    | '\\' :: c :: rest => do
        let escapes := "$\x60\"\\".toList.contains c || (braced && c == '\x7d')
        let kept := if quoted && !escapes then ['\\', c] else [c]
        let (more, rest) ← readParts source quoted braced fuel rest
        return (.text kept true :: more, rest)
    | c :: rest =>
        if c == '\'' && !quoted then do
          let (text, rest) ← readSingle source rest
          let (more, rest) ← readParts source quoted braced fuel rest
          return (.text text true :: more, rest)
        else if braced && c == '\x7d' then .ok ([], cs)
        else if !quoted && !braced && endsWord c then .ok ([], cs)
        else do
          let run := c :: rest.takeWhile (isPlain quoted braced)
          let (more, rest) ← readParts source quoted braced fuel (cs.drop run.length)
          return (.text (run.filter (!isNoByte ·)) quoted :: more, rest)

def readRedirections (source : Source) : Nat → Bytes → Except SyntaxFault (Read (List Redirection))
  | 0, _ => .error .tooDeep
  | fuel + 1, cs =>
    match redirection? (blanks cs) with
    | none => .ok ([], cs)
    | some (descriptor, .here, rest) => do
        if (redirection? (blanks rest)).isSome then unexpected source none (blanks rest)
        let noTabs := rest.head? == some '-'
        let (word, rest) ← readParts source false false fuel
          (blanks (if noTabs then rest.drop 1 else rest))
        if word.isEmpty then unexpected source none rest
        let (text, rest) := cutDocument noTabs (word.map Part.literal).flatten rest
        let target ←
          if word.any Part.isQuoted then pure [.text text true]
          else
            let later := List.replicate (lineEnds rest - lineEnds text - 1) takenLine
            (·.1) <$> readParts source true false fuel (escapeQuotes [] text ++ '"' :: later)
        let (more, rest) ← readRedirections source fuel rest
        return (.mk descriptor .here target :: more, rest)
    | some (descriptor, direction, rest) => do
        if (redirection? (blanks rest)).isSome then unexpected source none (blanks rest)
        let (target, rest) ← readParts source false false fuel (blanks rest)
        if target.isEmpty then unexpected source none rest
        let (more, rest) ← readRedirections source fuel rest
        return (.mk descriptor direction target :: more, rest)

def readArguments (source : Source) :
    Nat → Bytes → Except SyntaxFault (Read (Nat × List (List Part) × List Redirection))
  | 0, _ => .error .tooDeep
  | fuel + 1, cs => do
    let (redirections, rest) ← readRedirections source fuel (blanks cs)
    let (word, rest) ← readParts source false false fuel (blanks rest)
    let line := source.lineOf (if redirections.isEmpty then rest else cs)
    if word.isEmpty then return ((line, [], redirections), rest)
    let ((_, words, more), rest) ← readArguments source fuel rest
    return ((line, word :: words, redirections ++ more), rest)

def readAssignments (source : Source) :
    Nat → Bytes →
      Except SyntaxFault (Read (Option Nat × List (Bytes × List Part) × List Redirection))
  | 0, _ => .error .tooDeep
  | fuel + 1, cs => do
    let (redirections, rest) ← readRedirections source fuel cs
    let line := if redirections.isEmpty then none else some (source.lineOf cs)
    let rest := blanks rest
    match assignment? rest with
    | none => return ((line, [], redirections), rest)
    | some (name, rest) =>
        let (value, rest) ← readParts source false false fuel rest
        let line := line.getD (source.lineOf rest)
        let ((_, assignments, more), rest) ← readAssignments source fuel rest
        return ((some line, (name, value) :: assignments, redirections ++ more), rest)

def readPatterns (source : Source) : Nat → Bytes → Except SyntaxFault (Read (List (List Part)))
  | 0, _ => .error .tooDeep
  | fuel + 1, cs => do
    let (pattern, rest) ← readParts source false false fuel (blanks cs)
    match blanks rest with
    | '|' :: rest => do
        let (more, rest) ← readPatterns source fuel rest
        return (pattern :: more, rest)
    | rest => return ([pattern], ← expectClosing source rest)

def readBranches (source : Source) :
    Nat → Bytes → Except SyntaxFault (Read (List (List (List Part) × Command)))
  | 0, _ => .error .tooDeep
  | fuel + 1, cs =>
    let start := lines cs
    if bareWord start == "esac".toList then .ok ([], start.drop 4)
    else do
      let (patterns, rest) ← readPatterns source fuel
        (if start.head? == some '(' then start.drop 1 else start)
      let (body, rest) ← readList source fuel rest
      let rest := lines rest
      match rest with
      | ';' :: ';' :: rest => do
          let (more, rest) ← readBranches source fuel rest
          return ((patterns, body) :: more, rest)
      | _ =>
          if bareWord rest == "esac".toList then return ([(patterns, body)], rest.drop 4)
          else unexpected source ";;" rest

def readChoice (source : Source) : Nat → Bytes → Except SyntaxFault (Read Command)
  | 0, _ => .error .tooDeep
  | fuel + 1, cs => do
    let (condition, rest) ← readSome source fuel cs
    let (yes, rest) ← readSome source fuel (← expectWord source "then" (lines rest))
    let start := lines rest
    if bareWord start == "elif".toList then
      let (no, rest) ← readChoice source fuel (start.drop 4)
      return (.choice condition yes no, rest)
    else if bareWord start == "else".toList then
      let (no, rest) ← readSome source fuel (start.drop 4)
      return (.choice condition yes no, ← expectWord source "fi" (lines rest))
    else return (.choice condition yes .nothing, ← expectWord source "fi" start)

def readBody (source : Source) : Nat → Bytes → Except SyntaxFault (Read Command)
  | 0, _ => .error .tooDeep
  | fuel + 1, cs => do
    let (body, rest) ← readSome source fuel (← expectWord source "do" (lines cs))
    return (body, ← expectWord source "done" (lines rest))

def readWords (source : Source) : Nat → Bytes → Except SyntaxFault (Read (List (List Part)))
  | 0, _ => .error .tooDeep
  | fuel + 1, cs => do
    if (redirection? (blanks cs)).isSome then unexpected source none (blanks cs)
    let (word, rest) ← readParts source false false fuel (blanks cs)
    if word.isEmpty then return ([], rest)
    let (words, rest) ← readWords source fuel rest
    return (word :: words, rest)

def readEach (source : Source) : Nat → Bytes → Except SyntaxFault (Read Command)
  | 0, _ => .error .tooDeep
  | fuel + 1, cs => do
    let start := blanks cs
    let name := bareWord start
    if !isName name then
      let (_, rest) ← readParts source false false fuel start
      throw ⟨source, rest, .badLoopName⟩
    let rest := lines (start.drop name.length)
    if bareWord rest == "in".toList then
      let (words, rest) ← readWords source fuel (rest.drop 2)
      match blanks rest with
      | ';' :: rest | '\n' :: rest =>
          let (body, rest) ← readBody source fuel rest
          return (.each 0 name words body, rest)
      | rest => unexpected source none rest
    else
      let (body, rest) ← readBody source fuel (if rest.head? == some ';' then rest.drop 1 else rest)
      return (.each 0 name [[.parameter ['@'] .value [] true]] body, rest)

def readCompound? (source : Source) : Nat → Bytes → Except SyntaxFault (Option (Command × Bytes))
  | 0, _ => .error .tooDeep
  | fuel + 1, cs =>
    match cs with
    | '(' :: rest => do
        let (c, rest) ← readSome source fuel rest
        return some (.subshell 0 c [], ← expectChar source ')' (lines rest))
    | _ =>
      let word := bareWord cs
      let rest := cs.drop word.length
      match String.ofList word with
      | "\x7b" => do
          let (c, rest) ← readSome source fuel rest
          return some (c, ← expectWord source "\x7d" (lines rest))
      | "if" => some <$> readChoice source fuel rest
      | "while" => do
          let (condition, rest) ← readSome source fuel rest
          let (body, rest) ← readBody source fuel rest
          return some (.loop false condition body, rest)
      | "until" => do
          let (condition, rest) ← readSome source fuel rest
          let (body, rest) ← readBody source fuel rest
          return some (.loop true condition body, rest)
      | "for" => some <$> readEach source fuel rest
      | "case" => do
          if (redirection? (blanks rest)).isSome then unexpected source "word" (blanks rest)
          let (subject, rest) ← readParts source false false fuel (blanks rest)
          if subject.isEmpty then unexpected source "word" rest
          let (branches, rest) ← readBranches source fuel (← expectWord source "in" (lines rest))
          return some (.select 0 subject branches, rest)
      | _ => return none

def readCommand (source : Source) : Nat → Nat → Bytes → Except SyntaxFault (Read Command)
  | 0, _, _ => .error .tooDeep
  | fuel + 1, line, cs => do
    let start := blanks cs
    if misplacedWords.contains (String.ofList (bareWord start)) then unexpected source none start
    match ← readCompound? source fuel start with
    | some (c, rest) =>
        let (redirections, rest) ← readRedirections source fuel rest
        return (c.begun line redirections, rest)
    | none =>
      let name := bareWord start
      let after := blanks (start.drop name.length)
      if !name.isEmpty && (assignment? start).isNone && after.head? == some '(' then
        let rest ← expectClosing source (blanks (after.drop 1))
        if !isName name || specialCommands.contains (String.ofList name) then
          throw ⟨source, after, .badFunctionName⟩
        let (body, rest) ← readCommand source fuel (source.lineOf rest) (lines rest)
        return (.define name body, rest)
      else
        let ((begun, assignments, first), rest) ← readAssignments source fuel start
        let ((next, words, second), rest) ← readArguments source fuel rest
        if assignments.isEmpty && (first ++ second).isEmpty then
          let after := blanks rest
          if words.isEmpty then unexpected source none after
          if words.length == 1 && after.head? == some '(' then
            let _ ← expectClosing source (blanks (after.drop 1))
            throw ⟨source, after, .badFunctionName⟩
        return (.simple (begun.getD next) assignments words (first ++ second), rest)

def readPipes (source : Source) : Nat → Nat → Bytes → Except SyntaxFault (Read Command)
  | 0, _, _ => .error .tooDeep
  | fuel + 1, line, cs => do
    let (first, rest) ← readCommand source fuel line cs
    match blanks rest with
    | '|' :: '|' :: rest => return (first, '|' :: '|' :: rest)
    | '|' :: rest =>
        let (second, rest) ← readPipes source fuel (source.lineOf rest) (lines rest)
        return (.pipe first second, rest)
    | rest => return (first, rest)

def readPipeline (source : Source) : Nat → Bytes → Except SyntaxFault (Read Command)
  | 0, _ => .error .tooDeep
  | fuel + 1, cs =>
    let start := blanks cs
    if bareWord start == ['!'] then do
      let (c, rest) ← readPipes source fuel (source.lineOf start) (start.drop 1)
      return (.negated c, rest)
    else readPipes source fuel (source.lineOf start) start

def readAlternatives (source : Source) : Nat → Command → Bytes → Except SyntaxFault (Read Command)
  | 0, _, _ => .error .tooDeep
  | fuel + 1, first, cs =>
    match blanks cs with
    | '&' :: '&' :: rest => do
        let (second, rest) ← readPipeline source fuel (lines rest)
        readAlternatives source fuel (.unless first false second) rest
    | '|' :: '|' :: rest => do
        let (second, rest) ← readPipeline source fuel (lines rest)
        readAlternatives source fuel (.unless first true second) rest
    | rest => .ok (first, rest)

def readSome (source : Source) : Nat → Bytes → Except SyntaxFault (Read Command)
  | 0, _ => .error .tooDeep
  | fuel + 1, cs =>
    let start := lines cs
    if endsList start && !start.isEmpty then unexpected source none start
    else readList source fuel start

def readList (source : Source) : Nat → Bytes → Except SyntaxFault (Read Command)
  | 0, _ => .error .tooDeep
  | fuel + 1, cs =>
    let start := lines cs
    if endsList start then .ok (.nothing, start)
    else do
      let (first, rest) ← readPipeline source fuel start
      let (first, rest) ← readAlternatives source fuel first rest
      match rest with
      | ';' :: ';' :: _ => return (first, rest)
      | ';' :: rest | '&' :: rest | '\n' :: rest =>
          let (second, rest) ← readList source fuel rest
          return (.sequence first second, rest)
      | _ => return (first, rest)

end

/-- What is wrong with a script, once a word that is not expected has been read, which can be
wrong itself. -/
def SyntaxFault.behindWord : Nat → SyntaxFault → SyntaxFault
  | 0, fault => fault
  | fuel + 1, fault =>
    match fault.error with
    | .unexpected .. =>
        match readParts fault.source false false (8 * fault.rest.length + 8) fault.rest with
        | .ok (_, rest) => { fault with rest }
        | .error inner => behindWord fuel inner
    | _ => fault

def readCommands (source : Source) : Nat → Bytes → Except SyntaxFault (Read Command)
  | 0, _ => .error .tooDeep
  | fuel + 1, cs =>
    match blanks cs with
    | [] => .ok (.nothing, [])
    | '\n' :: rest => .ok (.nothing, rest)
    | start => do
        let (first, rest) ← readPipeline source fuel start
        let (first, rest) ← readAlternatives source fuel first rest
        match rest with
        | [] => return (first, [])
        | '\n' :: rest => return (first, rest)
        | ';' :: ';' :: _ => unexpected source none rest
        | ';' :: rest | '&' :: rest =>
            let (more, rest) ← readCommands source fuel rest
            return (.sequence first more, rest)
        | _ => unexpected source none rest

end TenantSql.Shell
