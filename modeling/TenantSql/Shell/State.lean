import TenantSql.Shell.Print
import TenantSql.Shell.Reader

/-!
# What a shell keeps

The state that a shell goes through, from the streams that it reads and writes to
the signals that were sent to it.
-/

namespace TenantSql.Shell

/-! ## Patterns

A pattern stands for texts: a star for any characters, a question mark for one,
and brackets for one of several. Characters in quotes stand for themselves. -/

abbrev Pattern := List (Char × Bool)

namespace Pattern

def chars (p : Pattern) : Bytes :=
  p.map (·.1)

def unescaped : Pattern → Pattern
  | ('\\', false) :: (c, _) :: rest => (c, true) :: unescaped rest
  | c :: rest => c :: unescaped rest
  | [] => []

end Pattern

def suffixes : Bytes → List Bytes
  | [] => [[]]
  | c :: rest => (c :: rest) :: suffixes rest

def takeClass? : Pattern → Option ((Char → Bool) × Pattern)
  | (':', false) :: rest =>
      let name := (rest.takeWhile (·.1.isAlpha)).map (·.1)
      match rest.drop name.length with
      | (':', false) :: (']', false) :: rest =>
          (classOf? (String.ofList name)).map (·, rest)
      | _ => none
  | _ => none

def readKinds : Nat → Pattern → Option (List (Char → Bool) × Pattern)
  | 0, _ => none
  | _, [] => none
  | fuel + 1, (low, literal) :: rest =>
    let (kind, rest) : (Char → Bool) × Pattern :=
      match if low == '[' && !literal then takeClass? rest else none with
      | some found => found
      | none =>
          match rest with
          | ('-', false) :: (high, highLiteral) :: others =>
              if high == ']' && !highLiteral then ((· == low), rest)
              else (fun c => low ≤ c && c ≤ high, others)
          | _ => ((· == low), rest)
    match rest with
    | (']', false) :: rest => some ([kind], rest)
    | _ => do
        let (more, rest) ← readKinds fuel rest
        return (kind :: more, rest)

def readBrackets (ps : Pattern) : Option ((Char → Bool) × Pattern) :=
  let (negated, inner) := match ps with
    | ('!', false) :: rest => (true, rest)
    | _ => (false, ps)
  (readKinds (inner.length + 1) inner).map fun (kinds, rest) =>
    (fun c => (kinds.any fun kind => kind c) != negated, rest)

def matchesFrom : Nat → Pattern → Bytes → Bool
  | 0, ps, cs => ps.isEmpty && cs.isEmpty
  | fuel + 1, ps, cs =>
    match ps, cs with
    | [], _ => cs.isEmpty
    | ('*', false) :: rest, _ => (suffixes cs).any (matchesFrom fuel rest)
    | ('?', false) :: rest, _ :: others => matchesFrom fuel rest others
    | ('[', false) :: rest, c :: others =>
        match readBrackets rest with
        | some (kind, rest) => kind c && matchesFrom fuel rest others
        | none => c == '[' && matchesFrom fuel rest others
    | (p, _) :: rest, c :: others => p == c && matchesFrom fuel rest others
    | _ :: _, [] => false

def isMatch (ps : Pattern) (cs : Bytes) : Bool :=
  matchesFrom (ps.length + 1) ps cs

/-- What stands between the arguments of a script where each is a word. No argument holds it. -/
def argumentEnd : Char := '\x00'

def firstArgument (cs : Bytes) : Bytes :=
  cs.takeWhile (· != argumentEnd)

def withoutStart (longest : Bool) (ps : Pattern) (cs : Bytes) : Bytes :=
  let lengths := if longest then (List.range (cs.length + 1)).reverse
    else List.range ((firstArgument cs).length + 1)
  match lengths.find? fun n => isMatch ps (firstArgument (cs.take n)) with
  | some n => cs.drop n
  | none => cs

def withoutEnd (longest : Bool) (ps : Pattern) (cs : Bytes) : Bytes :=
  let lengths := if longest then List.range ((firstArgument cs).length + 1)
    else (List.range (cs.length + 1)).reverse
  match lengths.find? fun n => isMatch ps (firstArgument (cs.drop n)) with
  | some n => cs.take n
  | none => cs

/-! ## The state of a shell

A shell works on numbered streams of bytes: the input, the two outputs, and one
more for every pipe and for every output that is filled in. It keeps variables,
functions and what it does at signals, and counts the time that it waits. -/

structure Stream where
  front : Bytes := []
  added : List Bytes := []
  deriving Inhabited

namespace Stream

def bytes (s : Stream) : Bytes :=
  if s.added.isEmpty then s.front else s.front ++ s.added.reverse.flatten

end Stream

inductive Target where
  | stream (number : Nat)
  | nothing
  | zeros (full : Bool)
  | directory
  deriving DecidableEq, Repr

structure Connection where
  target : Target
  reads : Bool := false
  writes : Bool := false
  deriving DecidableEq, Repr

abbrev Descriptors := List (Nat × Connection)

inductive Flow where
  | next
  | exit
  | returned (given : Bool)
  | leave (loops : Nat)
  | again (loops : Nat)
  | killed (signal : Nat)
  | endless
  deriving DecidableEq, Repr

def Flow.around : Flow → Flow
  | killed signal => killed signal
  | endless => endless
  | _ => next

def Flow.behind : Flow → Flow
  | returned _ => next
  | other => other

def usualDirectories : Bytes :=
  "/usr/local/sbin:/usr/local/bin:/usr/sbin:/usr/bin:/sbin:/bin".toList

def firstProcess : Nat := 4242

def startingVariables (parent : Nat) : List (Bytes × Bytes) :=
  [("IFS", " \t\n"), ("OPTIND", "1"), ("PATH", String.ofList usualDirectories),
    ("PPID", toString parent), ("PS1", "# "), ("PS2", "> "), ("PS4", "+ ")].map
    fun (name, value) => (name.toList, value.toList)

structure State where
  streams : List Stream
  descriptors : Descriptors
  assigned : List (Bytes × Bytes) := startingVariables (firstProcess - 1)
  exported : List Bytes := ["PATH".toList]
  constant : List Bytes := []
  functions : List (Bytes × Command) := []
  aliases : List (Bytes × Bytes) := []
  loops : Nat := 0
  process : Nat := firstProcess
  lastProcess : Nat := firstProcess
  sent : List Nat := []
  outerTraps : Option (List (Nat × Bytes)) := none
  traps : List (Nat × Bytes) := []
  arguments : List Bytes := ["sh".toList]
  interrupted : Option Nat := none
  options : Bytes := []
  nextOption : Nat × Option Nat := (1, none)
  directory : Option Bytes := none
  mask : Nat := 0o22
  line : Nat := 1
  reached : Nat := 1
  running : Option Bytes := none
  status : Nat := 0
  filled : Option Nat := none
  failed : Bool := false
  stuck : Option Flow := none
  lost : Bool := false
  nanoseconds : Nat := 0
  steps : Nat := 0

/-! ### Words that are filled in -/

inductive Filled where
  | quoted (cs : Bytes)
  | bare (cs : Bytes)
  | loose (cs : Bytes)
  | gap

namespace Filled

def chars : Filled → Bytes
  | quoted cs | bare cs | loose cs => cs
  | gap => [' ']

def loosened : Filled → Filled
  | bare cs => loose cs
  | part => part

def signs : Filled → Pattern
  | quoted cs => cs.map (·, true)
  | part => part.chars.map (·, false)

def pattern : Filled → Pattern
  | loose cs => Pattern.unescaped (cs.map (·, false))
  | part => part.signs

end Filled

def joined (parts : List Filled) : Bytes :=
  (parts.map Filled.chars).flatten

def patternOf (parts : List Filled) : Pattern :=
  (parts.map Filled.pattern).flatten

def isWhite (c : Char) : Bool :=
  c == ' ' || c == '\t' || c == '\n'

structure Splitting where
  words : List Pattern := []
  word : Option (List Pattern) := none
  /-- The last word ended at a white separator, so that another one may still belong to its end. -/
  loosely : Bool := false

namespace Splitting

def whole (pieces : List Pattern) : Pattern :=
  pieces.reverse.flatten

def extend (s : Splitting) (cs : Pattern) : Splitting :=
  { s with word := some (cs :: s.word.getD []), loosely := false }

def cut (s : Splitting) : Splitting :=
  { s with words := (s.word.map whole).toList ++ s.words, word := none }

def step (separators : Bytes) (s : Splitting) (c : Char) : Splitting :=
  if !separators.contains c then s.extend [(c, false)]
  else if isWhite c then
    if s.word.isSome then { s.cut with loosely := true } else s
  else if s.loosely then { s with loosely := false }
  else { words := whole (s.word.getD []) :: s.words }

end Splitting

def splitWords (separators : Bytes) (parts : List Filled) : List Pattern :=
  let done : Splitting := parts.foldl (fun s part =>
    match part with
    | .loose cs => cs.foldl (Splitting.step separators) s
    | .quoted _ | .bare _ => s.extend part.signs
    | .gap => s.cut) {}
  done.cut.words.reverse

namespace State

/-! ### Streams -/

def withStatus (s : State) (status : Nat) : State :=
  { s with status }

def connection? (s : State) (descriptor : Nat) : Option Connection :=
  s.descriptors.lookup descriptor

def connected (s : State) (descriptor : Nat) (connection : Option Connection) : State :=
  let others := s.descriptors.filter (·.1 != descriptor)
  { s with descriptors := (connection.map (descriptor, ·)).toList ++ others }

def reconnected (s before : State) (descriptors : List Nat) : State :=
  if descriptors.isEmpty then s
  else descriptors.foldl (fun s number => s.connected number (before.connection? number)) s

def newStream (s : State) (cs : Bytes) : State × Nat :=
  ({ s with streams := s.streams ++ [{ front := cs }] }, s.streams.length)

def withoutStreams (s : State) (number : Nat) : State :=
  { s with streams := s.streams.take number }

/-! ### Files -/

def placeOf (s : State) (descriptor : Nat) : Place :=
  match (s.connection? descriptor).map Connection.target with
  | none => .missing
  | some (.stream _) => .descriptor descriptor
  | some .nothing => .nothing
  | some (.zeros full) => .zeros full
  | some .directory => .directory

def find (s : State) (name : Bytes) : Place :=
  match Place.find s.directory name with
  | .descriptor number => s.placeOf number
  | place => place

def findOperand (s : State) (name : Bytes) : Place :=
  if name == ['-'] then .descriptor 0 else s.find name

/-! ### Reading and writing -/

def inputOf (s : State) (descriptor : Nat) : Input :=
  match s.connection? descriptor with
  | none => { refused := some .badDescriptor, closed := true }
  | some connection =>
    if !connection.reads then { refused := some .badDescriptor }
    else
      match connection.target with
      | .stream number => { bytes := (s.streams.getD number {}).bytes }
      | .nothing => {}
      | .zeros _ => { endless := true }
      | .directory => { refused := some .isADirectory }

def input (s : State) : Input :=
  s.inputOf 0

def leaving (s : State) (rest : Input) : State :=
  match ((s.connection? 0).filter Connection.reads).map Connection.target with
  | some (.stream number) =>
      { s with streams := s.streams.set number { front := rest.bytes } }
  | _ => s

def writeFailure? (s : State) (descriptor : Nat) : Option Disk.Cause :=
  match s.connection? descriptor with
  | none => some .badDescriptor
  | some connection =>
      if !connection.writes then some .badDescriptor
      else if connection.target == .zeros true then some .noSpace
      else none

def write (s : State) (descriptor : Nat) (cs : Bytes) : State :=
  if cs.isEmpty then s
  else if (s.writeFailure? descriptor).isSome then { s with lost := s.lost || descriptor == 1 }
  else
    match (s.connection? descriptor).map Connection.target with
    | some (.stream number) =>
        { s with streams := s.streams.modify number fun stream =>
            { stream with added := cs :: stream.added } }
    | _ => s

/-! ### Options -/

def has (s : State) (option : Char) : Bool :=
  s.options.contains option

/-! ### Parameters -/

def optionCounter : Bytes := "OPTIND".toList

def set (s : State) (name value : Bytes) : State :=
  { s with
    assigned := (name, value) :: s.assigned.filter (·.1 != name)
    exported := if s.has 'a' then name :: s.exported else s.exported
    nextOption := if name == optionCounter
      then (max 1 ((Bytes.natural? value).getD 1), none) else s.nextOption }

def without (s : State) (name : Bytes) : State :=
  { s with assigned := s.assigned.filter (·.1 != name) }

def restore (s : State) (former : List (Bytes × Option Bytes)) : State :=
  former.foldl (fun s entry =>
    match entry.2 with
    | some value => s.set entry.1 value
    | none => s.without entry.1) s

def named? (s : State) (name : Bytes) : Option Bytes :=
  match Bytes.natural? name with
  | some number => s.arguments[number]?
  | none => s.assigned.lookup name

def separators (s : State) : Bytes :=
  (s.assigned.lookup "IFS".toList).getD " \t\n".toList

def argumentText (s : State) : Bytes :=
  (s.separators.take 1).intercalate s.arguments.tail

def parameter? (s : State) (name : Bytes) : Option Bytes :=
  match String.ofList name with
  | "?" => some (Bytes.ofNat s.status)
  | "#" => some (Bytes.ofNat (s.arguments.length - 1))
  | "$" => some (Bytes.ofNat s.process)
  | "@" | "*" => some s.argumentText
  | "-" => some (optionLetters.filter s.options.contains)
  | _ => s.named? name

/-! ### Effects -/

def label (s : State) : Bytes :=
  let running := (s.running.map (· ++ ": ".toList)).getD []
  s.arguments.headD [] ++ ": ".toList ++ Bytes.ofNat s.line ++ ": ".toList ++ running

def complain (s : State) (status : Nat) (message : Bytes) : State :=
  (s.write 2 (s.label ++ message ++ ['\n'])).withStatus status

def fail (s : State) (message : Bytes) : State :=
  { s.complain 2 message with failed := true }

def withOptions (s : State) (letters : String) (words : List Bytes)
    (f : Bytes → List Bytes → State) : State :=
  match plainOptions letters words with
  | .ok (options, operands) => f options operands
  | .error what => s.fail what

def assign (s : State) (name value : Bytes) : State :=
  if s.constant.contains name then s.fail (name ++ ": is read only".toList) else s.set name value

def broken? (s : State) : Option Flow :=
  s.stuck.or (if s.failed then some .exit else none)

def afterEffect (s : State) (done : Effect) : State :=
  let written := done.written.foldl (fun s piece =>
    match piece with
    | .output cs => s.write 1 cs
    | .message cs => s.write 2 cs) (s.leaving done.left)
  written.withStatus done.status

def around (outer inner : State) : State :=
  { outer with
    streams := inner.streams
    status := inner.status
    lastProcess := inner.lastProcess
    sent := inner.sent
    nanoseconds := inner.nanoseconds
    steps := inner.steps }

end State

/-! ## Opening devices

What a descriptor is connected to when a place is opened to read, to write, or
for both. -/

inductive Opening where
  | named (descriptor : Nat) (direction : Direction) (name : Bytes)
  | text (descriptor : Nat) (text : List Part)

def descriptor? : Bytes → Option Nat
  | [c] => Bytes.natural? [c]
  | _ => none

namespace State

def openingFailure (creates : Bool) (name : Bytes) (cause : Disk.Cause) : Bytes :=
  let why := match cause with
    | .notFound | .notADirectory => if creates then "Directory nonexistent" else "No such file"
    | _ => cause.wording
  (if creates then "cannot create " else "cannot open ").toList ++ name ++ (": " ++ why).toList

def deviceConnection? (s : State) (place : Place) (reads writes : Bool) : Option Connection :=
  match place with
  | .nothing => some { target := .nothing, reads, writes }
  | .zeros full => some { target := .zeros full, reads, writes }
  | .descriptor number =>
      (s.connection? number).map fun connection => { connection with reads, writes }
  | _ => none

def openToRead (s : State) (place : Place) : Except Disk.Cause (Option Connection) :=
  match place, place.cause? with
  | .directory, _ => .ok (some { target := .directory, reads := true })
  | _, some cause => .error cause
  | _, none => .ok (s.deviceConnection? place true false)

def openToWrite (s : State) (reads : Bool) (place : Place) :
    Except Disk.Cause (Option Connection) :=
  match place.cause? with
  | some cause => .error cause
  | none => .ok (s.deviceConnection? place reads true)

def opened (s : State) (descriptor : Nat) (direction : Direction) (name : Bytes) : State × Bool :=
  let connecting := fun (creates : Bool) (result : Except Disk.Cause (Option Connection)) =>
    match result with
    | .ok connection => (s.connected descriptor connection, true)
    | .error cause => (s.complain 2 (openingFailure creates name cause), false)
  match direction with
  | .descriptor =>
      match (descriptor? name).map s.connection? with
      | none => (s.connected descriptor none, true)
      | some (some connection) => (s.connected descriptor (some connection), true)
      | some none =>
          let closed := if descriptor == 2 then s.connected 2 none else s
          (closed.complain 2 (name ++ ": Bad file descriptor".toList), false)
  | .input => connecting false (s.openToRead (s.find name))
  | _ => connecting true (s.openToWrite (direction == .update) (s.find name))

end State

/-! ## Permissions

What the user, the group and all others may do with a file: read, write and
execute it. Permissions are numbers of nine bits, and changes of them are written
with letters. -/

namespace Permission

def all : Nat := 0o777

def forAll (bits : Nat) : Nat :=
  bits * 0o111

def ofWhom? : Char → Option Nat
  | 'u' => some 0o700
  | 'g' => some 0o070
  | 'o' => some 0o007
  | 'a' => some all
  | _ => none

def ofLetter? : Char → Option Nat
  | 'r' => some (forAll 4)
  | 'w' => some (forAll 2)
  | 'x' => some (forAll 1)
  | _ => none

def isChange (c : Char) : Bool :=
  c == '+' || c == '-' || c == '='

def changed? (whose : Nat) : Nat → Nat → Bytes → Option Nat
  | 0, _, _ => none
  | _, _, [] => none
  | fuel + 1, mode, sign :: rest => do
    let letters := rest.takeWhile (!isChange ·)
    let bits ← letters.mapM ofLetter?
    let bits := bits.foldl (· ||| ·) 0 &&& whose
    let after ← match sign with
      | '+' => some (mode ||| bits)
      | '-' => some (mode &&& (all ^^^ bits))
      | '=' => some ((mode &&& (all ^^^ whose)) ||| bits)
      | _ => none
    match rest.drop letters.length with
    | [] => some after
    | more => changed? whose fuel after more

def inClause? (mode : Nat) (clause : Bytes) : Option Nat :=
  let whom := clause.takeWhile fun c => (ofWhom? c).isSome
  let whose := (whom.filterMap ofWhom?).foldl (· ||| ·) 0
  let changes := clause.drop whom.length
  changed? (if whom.isEmpty then all else whose) (changes.length + 1) mode changes

def inClauses? : Nat → Nat → Bytes → Option Nat
  | 0, _, _ => none
  | fuel + 1, mode, cs => do
    let clause := cs.takeWhile (· != ',')
    let after ← inClause? mode clause
    match cs.drop (clause.length + 1) with
    | [] => some after
    | rest => inClauses? fuel after rest

def ofDigits? (cs : Bytes) : Option Nat :=
  if cs.all fun c => '0' ≤ c && c ≤ '7' then some (naturalInBase 8 cs % 0o1000) else none

def digits (mode : Nat) : Bytes :=
  let written := Nat.toDigits 8 mode
  List.replicate (4 - written.length) '0' ++ written

def letters (mode : Nat) : Bytes :=
  let shown := fun (name : String) (shift : Nat) =>
    let bits := mode / 8 ^ shift % 8
    name ++ (if bits / 4 == 1 then "r" else "") ++ (if bits / 2 % 2 == 1 then "w" else "") ++
      (if bits % 2 == 1 then "x" else "")
  (",".intercalate [shown "u=" 2, shown "g=" 1, shown "o=" 0]).toList

end Permission

/-! ## Signals

The signals that a shell knows by number and by name, and what is run when they
come. -/

def namedSignals : List (String × Nat) :=
  [("EXIT", 0), ("HUP", 1), ("INT", 2), ("QUIT", 3), ("ILL", 4), ("TRAP", 5), ("ABRT", 6),
    ("BUS", 7), ("FPE", 8), ("KILL", 9), ("USR1", 10), ("SEGV", 11), ("USR2", 12), ("PIPE", 13),
    ("ALRM", 14), ("TERM", 15), ("CHLD", 17), ("CONT", 18), ("STOP", 19), ("TSTP", 20),
    ("TTIN", 21), ("TTOU", 22), ("URG", 23), ("XCPU", 24), ("XFSZ", 25), ("VTALRM", 26),
    ("PROF", 27), ("WINCH", 28), ("IO", 29), ("PWR", 30), ("SYS", 31)]

def maxSignal : Nat := 31

def signalName (signal : Nat) : Bytes :=
  match namedSignals.find? (·.2 == signal) with
  | some (name, _) => name.toList
  | none => Bytes.ofNat signal

def signal? (least : Nat) (word : Bytes) : Option Nat :=
  match Bytes.natural? word with
  | some number => if number ≤ maxSignal then some number else none
  | none => (namedSignals.lookup (String.ofList word).toUpper).filter (least ≤ ·)

def uncaught : List Nat := [9, 19]

def harmless : List Nat := [0, 17, 18, 23, 28]

def stopping : List Nat := [19, 20, 21, 22]

def signalTexts : List (Nat × String) :=
  [(1, "Hangup"), (2, "Interrupt"), (3, "Quit"), (4, "Illegal instruction"),
    (5, "Trace/breakpoint trap"), (6, "Aborted"), (7, "Bus error"),
    (8, "Floating point exception"), (9, "Killed"), (10, "User defined signal 1"),
    (11, "Segmentation fault"), (12, "User defined signal 2"), (13, "Broken pipe"),
    (14, "Alarm clock"), (15, "Terminated"), (16, "Stack fault"),
    (24, "CPU time limit exceeded"), (25, "File size limit exceeded"),
    (26, "Virtual timer expired"), (27, "Profiling timer expired"), (29, "I/O possible"),
    (30, "Power failure"), (31, "Bad system call")]

def signalText (signal : Nat) : Bytes :=
  ((signalTexts.lookup signal).getD "Unknown signal").toList

def untold : List Nat := [2, 13]

def signalEffect (signal : Nat) : Flow :=
  if harmless.contains signal then .next
  else if stopping.contains signal then .endless
  else .killed signal

/-! ### Traps -/

def quotePieces : Nat → Bytes → Bytes
  | 0, _ => []
  | fuel + 1, cs =>
    let plain := cs.takeWhile (· != '\'')
    let rest := cs.drop plain.length
    let quotes := rest.takeWhile (· == '\'')
    let more := rest.drop quotes.length
    '\'' :: plain ++ '\'' :: (if quotes.isEmpty then [] else '"' :: quotes ++ ['"']) ++
      if more.isEmpty then [] else quotePieces fuel more

def inSingleQuotes (cs : Bytes) : Bytes :=
  quotePieces (cs.length + 1) cs

namespace State

def trapReport (s : State) : Bytes :=
  ((List.range (maxSignal + 1)).map fun signal =>
    match s.traps.lookup signal with
    | none => []
    | some action =>
        "trap -- ".toList ++ inSingleQuotes action ++ ' ' :: signalName signal ++ ['\n']).flatten

def trap (s : State) (words : List Bytes) : State :=
  match words with
  | [] => (s.write 1 s.trapReport).withStatus 0
  | action :: rest =>
      let resets := rest.isEmpty || (Bytes.natural? action).isSome
      let named := if resets then words else rest
      let known := named.takeWhile fun word => (signal? 0 word).isSome
      let numbers := known.filterMap (signal? 0)
      let others := s.traps.filter (!numbers.contains ·.1)
      let changed := { s with
        traps := if resets || action == ['-'] then others else numbers.map (·, action) ++ others }
      match named[known.length]? with
      | some word =>
          (changed.write 2 ("trap: ".toList ++ word ++ ": bad trap\n".toList)).withStatus 1
      | none => changed.withStatus 0

def afterDeath (s : State) (signal : Nat) : State :=
  let told := if untold.contains signal then s else s.write 2 (signalText signal ++ ['\n'])
  told.withStatus (128 + signal)

/-- The shell as a copy of it begins: only what is ignored at signals stays so. -/
def copied (s : State) : State :=
  { s with
    traps := s.traps.filter (·.2.isEmpty)
    outerTraps := s.outerTraps.or (some s.traps) }

end State

/-! ### Signals that were sent -/

namespace State

def action? (s : State) (signal : Nat) : Option Bytes :=
  if uncaught.contains signal then none else s.traps.lookup signal

def heeds (s : State) (signal : Nat) : Bool :=
  match s.action? signal with
  | some action => !action.isEmpty
  | none => signalEffect signal != .next

def received (s : State) : List Nat × State :=
  let (caught, others) := ((s.sent.filter s.heeds).eraseDups).partition fun signal =>
    (s.action? signal).isSome
  (others ++ caught.mergeSort (· ≤ ·), { s with sent := [] })

def signaling (signal : Nat) (s : State) (target : Bytes) : State :=
  if s.failed then s
  else
    match count? target with
    | none => s.fail ("Illegal number: ".toList ++ target)
    | some process =>
        if process == s.process then { s with sent := s.sent ++ [signal] }
        else s.complain 1 "No such process\n".toList

def kill (s : State) (words : List Bytes) : State :=
  let begun := s.withStatus 0
  match words with
  | ('-' :: letters) :: targets =>
      match signal? 1 letters with
      | some signal => targets.foldl (signaling signal) begun
      | none => s.fail (illegal ('-' :: letters))
  | targets => targets.foldl (signaling 15) begun

end State

/-! ## Lengths of time

How the utility that waits is told for how long. -/

abbrev Duration := Option Nat

def unitOf? : Bytes → Option Nat
  | [] | ['s'] => some 1000000000
  | ['m'] => some 60000000000
  | ['h'] => some 3600000000000
  | ['d'] => some 86400000000000
  | _ => none

def duration? (cs : Bytes) : Option Duration :=
  match Quantity.take? cs with
  | some (.finite negative numerator denominator, unit) =>
      if negative && numerator != 0 then none
      else (unitOf? unit).map fun size => some (numerator * size / denominator)
  | some (.infinite false, unit) => (unitOf? unit).map fun _ => none
  | _ => none

def totalTime (times : List Duration) : Duration :=
  times.foldl (fun sum time => sum.bind fun m => time.map (m + ·)) (some 0)

def waitingTime (name : Bytes) (words : List Bytes) (input : Input) :
    Except Effect Duration := do
  if words.isEmpty then throw (misuse name "missing operand".toList input)
  let operands ← operands name input words
  let wrong := operands.filter fun word => (duration? word).isNone
  if !wrong.isEmpty then
    let said := wrong.map fun word => "invalid time interval ".toList ++ inMarks word
    throw (misuse name (('\n' :: name ++ ": ".toList).intercalate said) input)
  return totalTime (operands.filterMap duration?)

namespace State

def sleep (s : State) (name : Bytes) (words : List Bytes) : State × Flow :=
  match waitingTime name words s.input with
  | .error said => (s.afterEffect said, .next)
  | .ok none => (s, .endless)
  | .ok (some time) => ({ s with nanoseconds := s.nanoseconds + time, status := 0 }, .next)

end State

end TenantSql.Shell
