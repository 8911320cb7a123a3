import TenantSql.Formatter.Command
import TenantSql.Shell.Builtin

/-!
# Running scripts

How words are filled in, what commands do to the state of the shell, and the
commands that formatters can consist of.
-/

namespace TenantSql.Shell

/-! ## Filling words in

What stands for a parameter, a formula or a home in a word, the words that a word
with all this filled in makes, and the names of files that a pattern stands for. -/

/-! ### Names with wildcards

A word that is a pattern stands for the names of the files that it is a pattern
of, step by step along their paths. Without such a file it stands for itself. -/

namespace Pattern

def closesBracket (p : Pattern) : Bool :=
  let inner := if p.head? == some ('!', false) then p.drop 1 else p
  (inner.drop 1).contains (']', false)

def isWild : Pattern → Bool
  | [] => false
  | ('*', false) :: _ | ('?', false) :: _ => true
  | ('[', false) :: rest => closesBracket rest || isWild rest
  | _ :: rest => isWild rest

def steps : Pattern → List Pattern
  | [] => [[]]
  | c :: rest =>
      if c.1 == '/' then [] :: steps rest
      else
        match steps rest with
        | first :: more => (c :: first) :: more
        | [] => [[c]]

def names (directory : Option Bytes) (start : Bytes) : List Pattern → List Bytes
  | [] => []
  | [step] =>
      if step.isWild then (fitting step).map (start ++ ·)
      else
        let name := start ++ step.chars
        let place := Place.find directory name
        if place.cause?.isNone || place == .directory then [name] else []
  | step :: rest =>
      let found := if step.isWild then fitting step else [step.chars]
      found.flatMap fun name => names directory (start ++ name ++ ['/']) rest
where
  fitting (step : Pattern) : List Bytes :=
    (Place.listed directory (if start.isEmpty then ['.'] else start)).filter fun name =>
      isMatch step name && (name.head? != some '.' || (step.head?.map (·.1)) == some '.')

end Pattern

def namesOfWord (directory : Option Bytes) (word : Pattern) : List Bytes :=
  let steps := word.unescaped.steps
  let isPlain := !word.any fun c => !c.2 && (c.1 == '*' || c.1 == '?' || c.1 == '[')
  if isPlain || !steps.any Pattern.isWild then [word.chars]
  else
    match Pattern.names directory [] steps with
    | [] => [word.chars]
    | names => names.mergeSort fun a b => !decide (b < a)

/-! ### Ways to fill a word in -/

inductive Filling where
  | words
  | single
  | assigned
  | text
  deriving DecidableEq, Repr

/-! ### Homes -/

def homesIn (assigned ends : Bool) : Nat → Bool → Bytes → List Part
  | 0, _, cs => [.text cs false]
  | fuel + 1, start, cs =>
    match start, cs with
    | _, [] => []
    | true, '~' :: more =>
        let user := more.takeWhile fun c => c != '/' && !(assigned && c == ':')
        let after := more.drop user.length
        if after.isEmpty && !ends then [.text cs false]
        else .home user :: homesIn assigned ends fuel false after
    | _, _ =>
        let plain := cs.takeWhile (· != ':')
        match cs.drop plain.length with
        | _ :: more =>
            if assigned then
              .text (plain ++ [':']) false :: homesIn assigned ends fuel true more
            else [.text cs false]
        | [] => [.text cs false]

def withHomes (assigned : Bool) : Bool → List Part → List Part
  | start, .text cs false :: rest =>
      homesIn assigned rest.isEmpty (2 * cs.length + 2) start cs ++ withHomes assigned false rest
  | _, part :: rest => part :: withHomes assigned false rest
  | _, [] => []

namespace Filling

def splits (f : Filling) : Bool :=
  f == words

def parts (f : Filling) (word : List Part) : List Part :=
  match f with
  | text => word
  | assigned => withHomes true true word
  | words | single =>
      match word with
      | .text ('~' :: _) false :: _ => withHomes false true word
      | _ => word

end Filling

def asAssignment? : List Part → Option (Bytes × List Part)
  | .text cs false :: rest =>
      (assignment? cs).map fun (name, value) =>
        (name, if value.isEmpty then rest else .text value false :: rest)
  | _ => none

/-! ### Values -/

def withGaps : List Filled → List Filled
  | a :: b :: rest => a :: .gap :: withGaps (b :: rest)
  | parts => parts

def betweenEnds : Bytes → List Bytes
  | [] => [[]]
  | c :: rest =>
      if c == argumentEnd then [] :: betweenEnds rest
      else
        match betweenEnds rest with
        | first :: more => (c :: first) :: more
        | [] => [[c]]

def Filled.ofText (quoted : Bool) (cs : Bytes) : Filled :=
  if quoted then .quoted cs else .loose cs

def filledText (quoted : Bool) (cs : Bytes) : List Filled :=
  if cs.contains argumentEnd then withGaps ((betweenEnds cs).map (.ofText quoted))
  else [.ofText quoted cs]

def withoutLineEnds (cs : Bytes) : Bytes :=
  (cs.reverse.dropWhile (· == '\n')).reverse.filter (· != '\x00')

namespace State

def fillHome (s : State) (user : Bytes) : List Filled :=
  match if user.isEmpty then s.assigned.lookup "HOME".toList else none with
  | some [] => []
  | some home => [.quoted home]
  | none => [.bare ('~' :: user)]

def shown? (s : State) (splits : Bool) (name : Bytes) (quoted : Bool) : Option Bytes :=
  if splits && (name == ['@'] || (name == ['*'] && !quoted)) then
    some ([argumentEnd].intercalate s.arguments.tail)
  else s.parameter? name

def fillValue (s : State) (splits : Bool) (name : Bytes) (quoted : Bool) : State × List Filled :=
  match s.shown? splits name quoted with
  | some value =>
      let none := splits && name == ['@'] && s.arguments.length ≤ 1
      (s, if none then [] else filledText quoted value)
  | none =>
      if s.has 'u' then (s.fail (name ++ ": parameter not set".toList), [])
      else (s, [.ofText quoted []])

def fillFormula (s : State) (cs : Bytes) (quoted : Bool) : State × List Filled :=
  match evaluate (fun name => (s.named? name).getD []) cs with
  | .error e => (s.fail (e.message cs), [])
  | .ok (n, given) =>
      (given.reverse.foldl (fun s entry => s.assign entry.1 (Bytes.ofInt entry.2)) s,
        [.ofText quoted (Bytes.ofInt n)])

def wordsOf (s : State) (parts : List Filled) : List Bytes :=
  (splitWords s.separators parts).flatMap fun word =>
    if s.has 'f' then [word.chars] else namesOfWord s.directory word

end State

/-! ## Commands

What commands do to the state of the shell and to its streams. Time passes only
where a command waits; a run that takes too many steps does not end. -/

def maxSteps : Nat := 300000

/-! ### Flow -/

def Flow.afterBody : Flow → Option Flow
  | next | again 0 => none
  | leave 0 => some next
  | leave (loops + 1) => some (leave loops)
  | again (loops + 1) => some (again loops)
  | other => some other

def turns {α : Type} (turn : α → α × Option Flow) : Nat → α → α × Flow
  | 0, a => (a, .endless)
  | most + 1, a =>
    match turn a with
    | (a, some flow) => (a, flow)
    | (a, none) => turns turn most a

/-! ### Scripts -/

structure Script where
  text : Bytes
  isRead : Bool := false

namespace Script

def lines (script : Script) (first : Nat) (last : Option Nat) : Bytes :=
  let after := dropLines first script.text
  match last with
  | some last => after.take (after.length - (dropLines (last - first) after).length)
  | none => after
where
  dropLines : Nat → Bytes → Bytes
    | 0, cs => cs
    | _ + 1, [] => []
    | count + 1, c :: rest => dropLines (if c == '\n' then count else count + 1) rest

end Script

namespace State

def inLoop (s : State) : State :=
  { s with loops := s.loops + 1 }

def showLines (s : State) (script : Script) (first : Nat) (last : Option Nat) : State :=
  if script.isRead && s.has 'v' then s.write 2 (script.lines first last) else s

def afterCopy (s inner : State) (flow : Flow) : State × Flow :=
  (s.around inner, flow.around)

/-- The shell around one that it started and that ended. The signals that were sent to that one are
not its own. -/
def afterStarted (s inner : State) : Flow → State × Flow
  | .killed signal => ((s.around { inner with sent := s.sent }).afterDeath signal, .next)
  | flow => s.afterCopy { inner with sent := s.sent } flow

def fresh (s : State) (i : Invocation) : State where
  process := s.lastProcess + 1
  lastProcess := s.lastProcess + 1
  streams := s.streams
  descriptors := s.descriptors
  assigned :=
    let given := s.assigned.filter fun entry =>
      s.exported.contains entry.1 && !unexpected.contains (String.ofList entry.1)
    given ++ (startingVariables s.process).filter fun entry => (given.lookup entry.1).isNone
  exported := s.exported
  arguments := i.arguments
  options := i.options
  directory := s.directory
  mask := s.mask
  nanoseconds := s.nanoseconds
  steps := s.steps
where
  unexpected : List String := ["IFS", "PPID"]

def afterProgram (s : State) (name : Bytes) (done : Effect) : State × Flow :=
  let after := { s.afterEffect done with lost := s.lost }
  match if done.allOutput.isEmpty then none else s.writeFailure? 1 with
  | some cause =>
      let said := name ++ (": write error: " ++ cause.wording ++ "\n").toList
      ((after.write 2 said).withStatus 1, .next)
  | none => (after, if done.hangs then .endless else .next)

def runUtility (s : State) (program : String) (name : Bytes) (words : List Bytes) : State × Flow :=
  match utility? s.findOperand program name with
  | none => (s.withStatus 0, .next)
  | some utility =>
      if program == "cat" && (s.connection? 1).isNone then
        let said := name ++ ": standard output: Bad file descriptor\n".toList
        ((s.write 2 said).withStatus 1, .next)
      else s.afterProgram name (utility words s.input)

end State

def leadingCommand : List Bytes → Bytes
  | word :: rest =>
      if word == "command".toList || word == "-p".toList then leadingCommand rest else word
  | [] => []

mutual

def fillParts (f : Filling) : Nat → List Part → State → State × List Filled
  | 0, _, s => ({ s with stuck := some .endless }, [])
  | _, [], s => (s, [])
  | fuel + 1, part :: rest, s =>
    let (s, first) := fillPart f fuel part s
    if s.broken?.isSome then (s, first)
    else
      let (s, more) := fillParts f fuel rest s
      (s, first ++ more)

def fillPart (f : Filling) : Nat → Part → State → State × List Filled
  | 0, _, s => ({ s with stuck := some .endless }, [])
  | fuel + 1, part, s =>
    match part with
    | .text cs quoted => (s, [if quoted then .quoted cs else .bare cs])
    | .home user => (s, s.fillHome user)
    | .output c quoted =>
        let (opened, number) := s.newStream []
        let writing : Connection := { target := .stream number, writes := true }
        let (inner, flow) := evalInside false fuel c [] (opened.connected 1 (some writing))
        let output := (inner.streams.getD number {}).bytes
        let (after, flow) := s.afterCopy inner flow
        ({ after.withoutStreams number with
            status := s.status
            filled := some after.status
            stuck := if flow == .next then after.stuck else some flow },
          [.ofText quoted (withoutLineEnds output)])
    | .formula text quoted =>
        let (s, filled) := fillParts .text fuel text s
        if s.broken?.isSome then (s, []) else s.fillFormula (joined filled) quoted
    | .parameter name use word quoted =>
        let value := s.shown? f.splits name quoted
        let shown := value.getD []
        let result := filledText quoted
        let present := fun emptyToo => value.isSome && !(emptyToo && shown.isEmpty)
        let inPlace := fun (result : State × List Filled) =>
          (result.1, if quoted then result.2 else result.2.map Filled.loosened)
        match use with
        | .value => s.fillValue f.splits name quoted
        | .invalid => (s.fail "Bad substitution".toList, [])
        | .length =>
            if value.isNone && s.has 'u' then s.fillValue f.splits name quoted
            else (s, result (Bytes.ofNat ((s.parameter? name).getD []).length))
        | .orWord emptyToo =>
            if present emptyToo then (s, result shown)
            else inPlace (fillParts f fuel (f.parts word) s)
        | .wordIfSet emptyToo =>
            if present emptyToo then inPlace (fillParts f fuel (f.parts word) s)
            else (s, result [])
        | .orAssign emptyToo =>
            if present emptyToo then (s, result shown)
            else
              let (s, filled) := fillParts f fuel (f.parts word) s
              if s.broken?.isSome then (s, [])
              else (s.assignNamed name (joined filled), result (joined filled))
        | .orFail emptyToo =>
            if present emptyToo then (s, result shown)
            else
              let (s, filled) := fillParts f fuel (f.parts word) s
              let usual := if emptyToo then "parameter not set or null" else "parameter not set"
              let said := if word.isEmpty then usual.toList else joined filled
              if s.broken?.isSome then (s, [])
              else (s.fail (name ++ ": ".toList ++ said), [])
        | .withoutStart longest =>
            if value.isNone && s.has 'u' then s.fillValue f.splits name quoted
            else
              let (s, filled) := fillParts .single fuel (Filling.single.parts word) s
              (s, result (withoutStart longest (patternOf filled) shown))
        | .withoutEnd longest =>
            if value.isNone && s.has 'u' then s.fillValue f.splits name quoted
            else
              let (s, filled) := fillParts .single fuel (Filling.single.parts word) s
              (s, result (withoutEnd longest (patternOf filled) shown))

def fillWords : Nat → Option (List Bytes) → List (List Part) → State → State × List Bytes
  | 0, _, _, s => ({ s with stuck := some .endless }, [])
  | _, _, [], s => (s, [])
  | fuel + 1, behind, word :: rest, s =>
    let declares := behind.any fun words => s.isDeclaring (leadingCommand words)
    let (s, words) : State × List Bytes :=
      match if declares then asAssignment? word else none with
      | some (name, value) =>
          let (s, parts) := fillParts .assigned fuel (Filling.assigned.parts value) s
          (s, [name ++ '=' :: joined parts])
      | none =>
          let (s, parts) := fillParts .words fuel (Filling.words.parts word) s
          (s, s.wordsOf parts)
    if s.broken?.isSome then (s, words)
    else
      let (s, more) := fillWords fuel (behind.map fun first => (first ++ words).take 3) rest s
      (s, words ++ more)

def assignAll : Nat → List (Bytes × List Part) → State → State × List (Bytes × Bytes)
  | 0, _, s => ({ s with stuck := some .endless }, [])
  | _, [], s => (s, [])
  | fuel + 1, (name, word) :: rest, s =>
    let (s, parts) := fillParts .assigned fuel (Filling.assigned.parts word) s
    let assigned := if s.broken?.isSome then s else s.assign name (joined parts)
    if assigned.broken?.isSome then (assigned, [])
    else
      let (s, more) := assignAll fuel rest assigned
      (s, (name, joined parts) :: more)

def fillOpenings : Nat → List Redirection → State → State × List Opening
  | 0, _, s => ({ s with stuck := some .endless }, [])
  | _, [], s => (s, [])
  | fuel + 1, .mk descriptor .here text :: rest, s =>
    let (s, more) := fillOpenings fuel rest s
    (s, .text descriptor text :: more)
  | fuel + 1, .mk descriptor direction name :: rest, s =>
    let (s, parts) := fillParts .single fuel (Filling.single.parts name) s
    let name := joined parts
    if s.broken?.isSome then (s, [])
    else if direction == .descriptor && name != ['-'] && (descriptor? name).isNone then
      (State.fail { s with line := s.reached } "Syntax error: Bad fd number".toList, [])
    else
      let (s, more) := fillOpenings fuel rest s
      (s, .named descriptor direction name :: more)

def redirect : Nat → List Opening → State → State × Bool
  | 0, _, s => ({ s with stuck := some .endless }, false)
  | _, [], s => (s, true)
  | fuel + 1, .text descriptor text :: rest, s =>
    let (s, parts) := fillParts .text fuel text s
    if s.broken?.isSome then (State.withStatus { s with failed := false } 2, false)
    else
      let (s, number) := s.newStream (joined parts)
      redirect fuel rest (s.connected descriptor (some { target := .stream number, reads := true }))
  | fuel + 1, .named descriptor direction name :: rest, s =>
    match s.opened descriptor direction name with
    | (s, true) => redirect fuel rest s
    | (s, false) => (s, false)

def evalText (tested : Bool) (script : Script) : Nat → Bool → Bytes → State → State × Flow
  | 0, _, _, s => (s, .endless)
  | fuel + 1, ran, cs, s =>
    let source : Source := { lineCount := lineEnds script.text }
    let first := source.lineOf cs - 1
    if (lines cs).isEmpty then
      let s := s.showLines script first none
      (if ran then s else s.withStatus 0, .next)
    else
      match readCommands source (8 * cs.length + 8) cs with
      | .error fault =>
          let fault := fault.behindWord (cs.length + 1)
          let s := s.showLines script first (some fault.line)
          (State.fail { s with line := fault.line } fault.error.message, .exit)
      | .ok (c, rest) =>
          let reached := source.lineOf rest
          let s := s.showLines script first (if rest.isEmpty then none else some (reached - 1))
          let (s, flow) := eval fuel tested c { s with reached }
          if flow == .next then evalText tested script fuel true rest s else (s, flow)

def runText (tested : Bool) (script : Script) : Nat → State → State × Flow
  | 0, s => (s, .endless)
  | fuel + 1, s =>
    let (after, flow) := evalText tested script fuel false script.text s
    ({ after with reached := s.reached }, flow)

def finish : Nat → State × Flow → State × Flow
  | 0, (s, _) => (s, .endless)
  | fuel + 1, (s, flow) =>
    match flow, s.traps.lookup 0 with
    | _, none => (s, flow.around)
    | _, some action =>
        if flow.around != .next then (s, flow.around)
        else
          let (last, flow) := runText false { text := action } fuel
            { s with traps := [], failed := false, interrupted := some s.status }
          (if flow == .exit then last else last.withStatus s.status, flow.around)

def evalInside (tested : Bool) : Nat → Command → List Opening → State → State × Flow
  | 0, _, _, s => (s, .endless)
  | fuel + 1, c, openings, s =>
    let (redirected, connected) := redirect fuel openings s.copied
    finish fuel
      (if connected then eval fuel tested c redirected
      else (redirected, redirected.broken?.getD .exit))

def react : Nat → List Nat → State → State × Flow
  | 0, _, s => (s, .endless)
  | _, [], s => (s, .next)
  | fuel + 1, signal :: rest, s =>
    match s.action? signal with
    | none => (s, signalEffect signal)
    | some action =>
        let begun := { s with interrupted := s.interrupted.or (some s.status) }
        let (after, flow) := runText false { text := action } fuel begun
        let after := { after with interrupted := s.interrupted }
        match flow with
        | .next => react fuel rest (after.withStatus s.status)
        | .returned false => (after.withStatus s.status, flow)
        | _ => (after, flow)

def settle : Nat → State × Flow → State × Flow
  | 0, (s, _) => (s, .endless)
  | fuel + 1, (s, flow) =>
    if s.sent.isEmpty || s.outerTraps.isSome || flow != .next then (s, flow)
    else react fuel s.received.1 s.received.2

def call (tested : Bool) : Nat → List Bytes → State → State × Flow
  | 0, _, s => (s, .endless)
  | _, [], s => (s, .next)
  | fuel + 1, word :: words, s =>
    match s.functions.lookup word with
    | none => run tested fuel word words s
    | some body =>
        let (after, flow) := eval fuel tested body
          { s with
            arguments := s.arguments.take 1 ++ words
            loops := 0
            nextOption := (1, none) }
        ({ after with
            arguments := s.arguments
            loops := s.loops
            nextOption := s.nextOption },
          flow.behind)

def run (tested : Bool) : Nat → Bytes → List Bytes → State → State × Flow
  | 0, _, _, s => (s, .endless)
  | fuel + 1, word, words, s =>
    let name := String.ofList word
    if !isOwn name then runProgram fuel word words s
    else
      let (after, flow) := runOwn tested fuel s.running name words
        { s with running := some word, lost := false }
      let told := if !after.lost then after
        else after.complain (after.status ||| 1) (word ++ ": I/O error".toList)
      let after := { told with running := s.running, lost := s.lost }
      match after.stuck with
      | some flow => ({ after with stuck := none }, flow)
      | none =>
          if !after.failed || flow != .next then (after, flow)
          else if isSpecialCommand name then (after, .exit)
          else ({ after with failed := false }, .next)

def runOwn (tested : Bool) :
    Nat → Option Bytes → String → List Bytes → State → State × Flow
  | 0, _, _, _, s => (s, .endless)
  | fuel + 1, outer, name, words, s =>
    match name with
    | "exec" =>
        match words with
        | [] => (s.withStatus 0, .next)
        | command :: rest =>
            match s.programFor command with
            | .error cause => (s.refused command 126 cause, .exit)
            | .ok _ =>
                let (s, flow) := runProgram fuel command rest { s with traps := [] }
                (s, if flow == .next then .exit else flow)
    | "command" =>
        match plainOptions "pvV" words with
        | .error what => (s.fail what, .next)
        | .ok (_, []) => (s.withStatus 0, .next)
        | .ok (options, command :: rest) =>
            if options.contains 'V' then (s.describe [command], .next)
            else if options.contains 'v' then
              match s.commandFound? command with
              | some found => ((s.write 1 (found ++ ['\n'])).withStatus 0, .next)
              | none => (s.withStatus 127, .next)
            else
              let (after, flow) := run tested fuel command rest { s with running := outer }
              if after.failed then ({ after with failed := false }, .next) else (after, flow)
    | "eval" => runText tested { text := Bytes.unwords words } fuel s
    | _ =>
      match s.change? name words, builtin? s.find s.label name with
      | some result, _ => result
      | none, some utility => (s.afterEffect (utility words s.input), .next)
      | none, none => (s.complain 127 "not found".toList, .next)

def runProgram : Nat → Bytes → List Bytes → State → State × Flow
  | 0, _, _, s => (s, .endless)
  | fuel + 1, word, words, s =>
    match s.programFor word with
    | .error cause => (s.refused word (if word.contains '/' then 126 else 127) cause, .next)
    | .ok (name, _) =>
      if name == "sleep" then s.sleep word words
      else if isShell name then
        let (inner, flow) := start fuel word words s
        s.afterStarted inner flow
      else s.runUtility name word words

def start : Nat → Bytes → List Bytes → State → State × Flow
  | 0, _, _, s => (s, .endless)
  | fuel + 1, name, words, s =>
    let refused := fun message =>
      (State.complain { s with arguments := [name], line := 0, running := none } 2 message, .next)
    match Invocation.read name (words.length + 1) {} false words with
    | .error message => refused message
    | .ok i =>
      match (i.file.map s.find).bind Place.cause? with
      | some .isADirectory => (s.withStatus 0, .next)
      | some cause => refused (State.openingFailure false (i.file.getD []) cause)
      | none =>
        let fromInput := i.script.isNone && i.file.isNone
        let input := s.input
        let read := if fromInput then input.bytes else []
        let script : Script := { text := i.script.getD read, isRead := i.script.isNone }
        let inner := State.fresh (if fromInput then s.leaving { input with bytes := [] } else s) i
        if fromInput && input.endless then (s, .endless)
        else finish fuel (runText false script fuel inner)

def evalBranches (tested : Bool) (subject : Bytes) :
    Nat → List (List (List Part) × Command) → State → State × Flow
  | 0, _, s => (s, .endless)
  | _, [], s => (s.withStatus 0, .next)
  | fuel + 1, (patterns, body) :: rest, s =>
    let (s, found) := matchAny subject fuel patterns s
    match s.broken? with
    | some flow => (s, flow)
    | none =>
        if found && body.isNothing then (s.withStatus 0, .next)
        else if found then eval fuel tested body s
        else evalBranches tested subject fuel rest s

def matchAny (subject : Bytes) : Nat → List (List Part) → State → State × Bool
  | 0, _, s => (s, false)
  | _, [], s => (s, false)
  | fuel + 1, pattern :: rest, s =>
    let (s, parts) := fillParts .single fuel (Filling.single.parts pattern) s
    if isMatch (patternOf parts) subject then (s, true)
    else matchAny subject fuel rest s

def trace : Nat → List (Bytes × Bytes) → List Bytes → State → State
  | 0, _, _, s => s
  | fuel + 1, assigned, words, s =>
    let mark := (s.assigned.lookup "PS4".toList).getD []
    let given := assigned.map fun (name, value) => name ++ '=' :: value
    match readParts {} true false (8 * mark.length + 8) (escapeQuotes [] mark ++ ['"']) with
    | .error _ => s
    | .ok (parts, _) =>
        let (s, filled) := fillParts .text fuel parts s
        s.write 2 (joined filled ++ Bytes.unwords (given ++ words) ++ ['\n'])

def evalSimple (tested : Bool) (assignments : List (Bytes × List Part))
    (words : List (List Part)) (redirections : List Redirection) :
    Nat → State → State × Flow
  | 0, s => (s, .endless)
  | fuel + 1, s =>
    let descriptors := redirections.map Redirection.descriptor
    let (filled, words) := fillWords fuel (some []) words s
    let (filled, openings) := if filled.broken?.isSome then (filled, [])
      else fillOpenings fuel redirections filled
    let (redirected, connected) := if filled.broken?.isSome then (filled, false)
      else redirect fuel openings filled
    let isSpecial := isSpecialCommand (String.ofList (words.headD []))
    let back := fun after : State => after.reconnected s descriptors
    match redirected.broken? with
    | some flow => (back redirected, flow)
    | none =>
    if !connected then (back redirected, if isSpecial then .exit else .next)
    else
      let (assigned, values) := assignAll fuel assignments redirected
      let shown := if !assigned.has 'x' then assigned
        else { trace fuel values words (back assigned) with descriptors := assigned.descriptors }
      match assigned.broken? with
      | some flow => (back assigned, flow)
      | none =>
      if words.isEmpty then (back (shown.withStatus (shown.filled.getD 0)), .next)
      else
        let names := assignments.map (·.1)
        let isExec := leadingCommand words == "exec".toList
        let starts := isExec && 1 < words.length
        let exported := if isSpecial && !starts then shown.exported else names ++ shown.exported
        let (after, flow) := call tested fuel words { shown with exported }
        let kept := if isExec then after else back after
        if assignments.isEmpty || isSpecial then (kept, flow)
        else
          let former := names.map fun name => (name, s.assigned.lookup name)
          let exported := kept.exported.filter fun name =>
            !names.contains name || s.exported.contains name
          ({ kept.restore former with exported }, flow)

def eval : Nat → Bool → Command → State → State × Flow
  | 0, _, _, s => (s, .endless)
  | fuel + 1, tested, c, s =>
    let judged := fun (result : State × Flow) =>
      let (s, flow) := result
      if s.has 'e' && !tested && flow.behind == .next && s.status != 0 then (s, Flow.exit)
      else result
    if s.has 'n' then (s, .next) else
    match c with
    | .nothing => (s, .next)
    | .sequence first second =>
        let (s, flow) := eval fuel tested first s
        if flow == .next then eval fuel tested second s else (s, flow)
    | .unless first failed second =>
        let (s, flow) := eval fuel true first s
        if flow == .next && (s.status != 0) == failed then eval fuel tested second s
        else (s, flow)
    | .negated c =>
        let (s, flow) := eval fuel true c s
        (if flow != .next then s else s.withStatus (if s.status == 0 then 1 else 0), flow)
    | .choice condition yes no =>
        let (s, flow) := eval fuel true condition s
        if flow != .next then (s, flow)
        else if s.status == 0 then eval fuel tested yes s
        else if no.isNothing then (s.withStatus 0, .next)
        else eval fuel tested no s
    | .loop failed condition body =>
        let turn := fun (status, s) =>
          let (s, flow) := eval fuel true condition s
          if flow != .next then
            let isKept := flow.afterBody == some flow && flow != .returned false
            let status := if isKept then s.status else status
            ((status, s.withStatus status), flow.afterBody)
          else if (s.status != 0) != failed then ((status, s.withStatus status), some .next)
          else
            let (s, flow) := eval fuel tested body s
            ((s.status, s), flow.afterBody)
        let ((_, after), flow) := turns turn maxSteps (0, s.inLoop)
        ({ after with loops := s.loops }, flow)
    | .each line name words body =>
        let (s, words) := fillWords fuel none words { s with line }
        match s.broken? with
        | some flow => (s, flow)
        | none =>
            let turn := fun (words, s) =>
              match words with
              | [] => (([], s), some .next)
              | word :: rest =>
                  let named := State.assign s name word
                  if named.failed then ((rest, named), some .exit)
                  else
                    let (s, flow) := eval fuel tested body named
                    ((rest, s), flow.afterBody)
            let begun := if words.isEmpty then s.withStatus 0 else s
            let ((_, after), flow) := turns turn (words.length + 1) (words, begun.inLoop)
            ({ after with loops := s.loops }, flow)
    | .select line subject branches =>
        let (s, parts) := fillParts .single fuel (Filling.single.parts subject) { s with line }
        match s.broken? with
        | some flow => (s, flow)
        | none => evalBranches tested (joined parts) fuel branches s
    | .define name body =>
        ({ s with functions := (name, body) :: s.functions, status := 0 }, .next)
    | .subshell line c redirections =>
        let (s, openings) := fillOpenings fuel redirections { s with line }
        match s.broken? with
        | some flow => (s, flow)
        | none =>
            let (inner, flow) := evalInside tested fuel c openings s
            judged (settle fuel (s.afterCopy inner flow))
    | .pipe first second =>
        let (opened, number) := s.newStream []
        let writing : Connection := { target := .stream number, writes := true }
        let reading : Connection := { target := .stream number, reads := true }
        let (left, flow) := evalInside tested fuel first [] (opened.connected 1 (some writing))
        let (around, flow) : State × Flow := s.afterCopy left flow
        let between := { around with
          status := s.status
          nanoseconds := s.nanoseconds
          steps := if flow == .endless then s.steps else around.steps }
        let (right, later) := evalInside tested fuel second [] (between.connected 0 (some reading))
        let rest := right.streams.getD number {}
        let (after, later) : State × Flow := State.afterCopy between right later
        let isBroken := flow == .endless && maxSteps ≤ left.steps && !rest.bytes.isEmpty
        let nanoseconds := max left.nanoseconds right.nanoseconds
        let ended := { after with nanoseconds }.withoutStreams number
        judged (settle fuel (ended, if flow == .next || isBroken then later else flow))
    | .redirected line c redirections =>
        let back := fun after : State =>
          after.reconnected s (redirections.map Redirection.descriptor)
        let (filled, openings) := fillOpenings fuel redirections { s with line }
        match filled.broken? with
        | some flow => (filled, flow)
        | none =>
          match redirect fuel openings filled with
          | (redirected, true) =>
              let (after, flow) := eval fuel tested c redirected
              (back after, flow)
          | (redirected, false) =>
              match redirected.broken? with
              | some flow => (back redirected, flow)
              | none => judged (back redirected, .next)
    | .simple line assignments words redirections =>
        if maxSteps ≤ s.steps then (s, .endless)
        else
          judged (settle fuel (evalSimple tested assignments words redirections fuel
            { s with line, filled := none, steps := s.steps + 1 }))

end

/-! ## Commands as formatters

The commands that formatters can consist of: the shell with a script, and the
utilities that are commands of their own. -/

def maxNesting : Nat := 20000

def forever : Number.Binary64 := .infinite false

def exitCode (s : State) : Flow → Int
  | .killed signal => -signal
  | _ => s.status

def outcome (s : State) (flow : Flow) : Formatter.Outcome where
  exitCode := exitCode s flow
  output := Bytes.toByteArray (s.streams.getD 1 {}).bytes
  errors := Bytes.toByteArray (s.streams.getD 2 {}).bytes
  seconds := if flow == .endless then forever else .ofQuotient false s.nanoseconds 1000000000

def startDirectly (program : String) (name : Bytes) (words : List Bytes) (input : Bytes) :
    State × Flow :=
  let s : State := {
    streams := [{ front := input }, {}, {}]
    descriptors :=
      [(0, { target := .stream 0, reads := true }), (1, { target := .stream 1, writes := true }),
        (2, { target := .stream 2, writes := true })] }
  if isShell program then start maxNesting name words s
  else if program == "sleep" then s.sleep name words
  else s.runUtility program name words

def program : Formatter.Program := fun command input =>
  match command with
  | [] => .notFound
  | name :: words =>
      if (name :: words).any fun word => word.toList.contains '\x00' then .refused .nullInName
      else
        match programNamed (Bytes.ofString name) with
        | .error .notFound => .notFound
        | .error cause => .refused cause
        | .ok program =>
            let (s, flow) := startDirectly program (Bytes.ofString name)
              (words.map Bytes.ofString) (Bytes.ofString input)
            .ended (outcome s flow)

end TenantSql.Shell
