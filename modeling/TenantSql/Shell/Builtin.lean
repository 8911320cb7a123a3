import TenantSql.Shell.State

/-!
# Commands of the shell itself

What the first word of a command stands for, and what the commands do that change
the state of the shell but run no others. Jobs, limits and local variables are
left out.
-/

namespace TenantSql.Shell

/-! ## What commands are

What the first word of a command stands for: a word of the grammar, a function, a
command of the shell itself, or a program in one of the directories that are
looked through. -/

/-! ### Utilities -/

def builtin? (find : Bytes → Place) (label : Bytes) (name : String) : Option Utility :=
  match name with
  | ":" | "true" => some fun _ => .ended 0
  | "false" => some fun _ => .ended 1
  | "echo" => some echoEscaped
  | "times" => some fun _ =>
      let line := "0m0.000000s 0m0.000000s\n".toList
      .printed (line ++ line)
  | "printf" => some (printFormatted label)
  | "test" => some (testWords find label)
  | "[" => some (testBracket find label [']'])
  | _ => none

def utility? (find : Bytes → Place) (program : String) (name : Bytes) : Option Utility :=
  match program with
  | "cat" => some (concatenate name find)
  | "tr" => some (replaceBytes name)
  | "head" => some (head name find)
  | "true" => some fun _ => .ended 0
  | "false" => some fun _ => .ended 1
  | _ => none

def isShell (name : String) : Bool :=
  name == "sh" || name == "dash"

/-! ### Commands of the shell -/

def plainCommands : List String :=
  ["[", "alias", "cd", "chdir", "command", "echo", "false", "getopts", "kill", "printf", "pwd",
    "read", "test", "true", "type", "umask", "unalias"]

def declaringCommands : List String :=
  ["alias", "export", "readonly"]

def isOwn (name : String) : Bool :=
  specialCommands.contains name || plainCommands.contains name

def isSpecialCommand (name : String) : Bool :=
  specialCommands.contains name

/-! ### Programs -/

def betweenColons : Bytes → List Bytes
  | [] => [[]]
  | c :: rest =>
      if c == ':' then [] :: betweenColons rest
      else match betweenColons rest with
        | first :: more => (c :: first) :: more
        | [] => [[c]]

namespace State

def programFor (s : State) (word : Bytes) : Except Disk.Cause (String × Bytes) :=
  if word.contains '/' then (·, word) <$> (s.find word).startable
  else if word.isEmpty || word == ['.'] || word == Disk.Path.up.toList then .error .notPermitted
  else if Place.maxStep < word.length then .error .nameTooLong
  else
    let directories := betweenColons ((s.assigned.lookup "PATH".toList).getD [])
    let found := directories.findSome? fun directory =>
      let path := directory ++ '/' :: word
      match s.find path with
      | .program name => some (name, path)
      | _ => none
    match found with
    | some found => .ok found
    | none => .error .notFound

def isDeclaring (s : State) (word : Bytes) : Bool :=
  declaringCommands.contains (String.ofList word) && (s.functions.lookup word).isNone

def aliasText (name text : Bytes) : Bytes :=
  name ++ '=' :: inSingleQuotes text

def pathFound? (s : State) (word : Bytes) : Option Bytes :=
  if word.contains '/' then
    match (s.find word).cause? with
    | none => some word
    | some cause => if cause == .isADirectory then some word else none
  else ((s.programFor word).toOption).map (·.2)

def commandFound? (s : State) (word : Bytes) : Option Bytes :=
  let name := String.ofList word
  if grammarWords.contains name then some word
  else
    match s.aliases.lookup word with
    | some text => some ("alias ".toList ++ aliasText word text)
    | none =>
        if (s.functions.lookup word).isSome || isOwn name then some word else s.pathFound? word

def described? (s : State) (word : Bytes) : Option Bytes :=
  let name := String.ofList word
  let kind :=
    if grammarWords.contains name then some "a shell keyword".toList
    else
      match s.aliases.lookup word with
      | some text => some ("an alias for ".toList ++ text)
      | none =>
          if (s.functions.lookup word).isSome then some "a shell function".toList
          else if isSpecialCommand name then some "a special shell builtin".toList
          else if isOwn name then some "a shell builtin".toList
          else s.pathFound? word
  kind.map fun kind => word ++ " is ".toList ++ kind

def describe (s : State) (words : List Bytes) : State :=
  words.foldl (fun s word =>
    match s.described? word with
    | some line => s.write 1 (line ++ ['\n'])
    | none => (s.write 1 (word ++ ": not found\n".toList)).withStatus 127) (s.withStatus 0)

def refused (s : State) (word : Bytes) (permission : Nat) (cause : Disk.Cause) : State :=
  let (status, why) := match cause with
    | .notPermitted => (permission, cause.wording)
    | .notFound | .notADirectory => (127, "not found")
    | _ => (127, cause.wording)
  s.complain status (word ++ (": " ++ why).toList)

end State

/-! ## What the commands of the shell change

One that cannot do what it is told leaves the state failed. -/

/-! ### Reading lines -/

def takeLine (raw : Bool) : Bytes → Bytes × Bool × Bytes
  | [] => ([], false, [])
  | '\n' :: rest => ([], true, rest)
  | '\\' :: c :: rest =>
      if raw then
        let (line, ended, left) := takeLine raw (c :: rest)
        ('\\' :: line, ended, left)
      else
        let (line, ended, left) := takeLine raw rest
        (if c == '\n' then line else '\\' :: c :: line, ended, left)
  | c :: rest =>
      let (line, ended, left) := takeLine raw rest
      (c :: line, ended, left)

def readEscapes (raw : Bool) : Bytes → List (Char × Bool)
  | '\\' :: c :: rest =>
      if raw then ('\\', false) :: readEscapes raw (c :: rest)
      else (c, true) :: readEscapes raw rest
  | c :: rest =>
      if raw || c != '\\' then (c, false) :: readEscapes raw rest else readEscapes raw rest
  | [] => []
termination_by cs => cs.length

def shareLine (isSeparator isBlank : Char × Bool → Bool) :
    List Bytes → List (Char × Bool) → List (Bytes × Bytes)
  | [], _ => []
  | name :: more, cs =>
      let word := cs.takeWhile (!isSeparator ·)
      let after := (cs.drop word.length).dropWhile isBlank
      let rest := match after with
        | c :: others =>
            if isSeparator c && !isBlank c then others.dropWhile isBlank else after
        | [] => []
      let taken := if more.isEmpty && !rest.isEmpty
        then (cs.reverse.dropWhile isBlank).reverse else word
      (name, taken.map (·.1)) :: shareLine isSeparator isBlank more rest

namespace State

def assignNamed (s : State) (name value : Bytes) : State :=
  if s.failed then s
  else if isName name then s.assign name value
  else s.fail (name ++ ": bad variable name".toList)

def readLine (s : State) (words : List Bytes) : State :=
  match ownOptions ['r'] ['p'] ((words.map (·.length + 1)).sum) words with
  | .error what => s.fail what
  | .ok (_, []) => s.fail "arg count".toList
  | .ok (options, names) =>
      let raw := options.any (·.1 == 'r')
      let input := s.input
      let (line, ended, rest) := takeLine raw input.bytes
      let isSeparator := fun c : Char × Bool => !c.2 && s.separators.contains c.1
      let isBlank := fun c : Char × Bool => isSeparator c && isWhite c.1
      let shares := shareLine isSeparator isBlank names ((readEscapes raw line).dropWhile isBlank)
      if !ended && input.endless then { s with stuck := some .endless }
      else
        shares.foldl (fun s share => s.assignNamed share.1 share.2)
          ((s.leaving { input with bytes := rest }).withStatus (if ended then 0 else 1))

/-! ### Variables -/

def nameAndValue (word : Bytes) : Bytes × Option Bytes :=
  let name := word.takeWhile (· != '=')
  (name, if name.length < word.length then some (word.drop (name.length + 1)) else none)

def assignWords (s : State) (words : List Bytes) : State :=
  words.foldl (fun s word =>
    match nameAndValue word with
    | (name, some value) => s.assignNamed name value
    | (name, none) =>
        if s.failed || isName name then s else s.fail (name ++ ": bad variable name".toList))
    (s.withStatus 0)

def namesOf (words : List Bytes) : List Bytes :=
  words.map fun word => (nameAndValue word).1

def variableReport (s : State) (command : Bytes) (names : List Bytes) : Bytes :=
  let sorted := names.eraseDups.mergeSort fun a b => !decide (b < a)
  (sorted.map fun name =>
    command ++ ' ' :: name ++ ((s.assigned.lookup name).map fun value =>
      '=' :: inSingleQuotes value).getD [] ++ ['\n']).flatten

def marking (s : State) (command : String) (marked : List Bytes) (words : List Bytes)
    (mark : State → List Bytes → State) : State :=
  s.withOptions "p" words fun options words =>
    if words.isEmpty || !options.isEmpty then
      (s.write 1 (s.variableReport command.toList marked)).withStatus 0
    else mark (s.assignWords words) (namesOf words)

def markExported (s : State) (words : List Bytes) : State :=
  s.marking "export" s.exported words fun s names => { s with exported := names ++ s.exported }

def markConstant (s : State) (words : List Bytes) : State :=
  s.marking "readonly" s.constant words fun s names => { s with constant := names ++ s.constant }

def unset (s : State) (words : List Bytes) : State :=
  s.withOptions "vf" words fun options names =>
    if options.getLast? == some 'f' then
      { s with functions := s.functions.filter (!names.contains ·.1), status := 0 }
    else
      names.foldl (fun s name =>
        if s.failed then s
        else if !isName name then s.fail (name ++ ": bad variable name".toList)
        else if s.constant.contains name then s.fail (name ++ ": is read only".toList)
        else { s.without name with exported := s.exported.filter (· != name) }) (s.withStatus 0)

/-! ### Options and arguments -/

def withArguments (s : State) (words : List Bytes) : State :=
  { s with arguments := s.arguments.take 1 ++ words, nextOption := (1, none) }

def setOptions : Nat → List Bytes → State → State
  | 0, _, s => s
  | fuel + 1, words, s =>
    match words with
    | [] => s
    | ['-', '-'] :: rest => s.withArguments rest
    | ['-'] :: rest =>
        let quiet := { s with options := changed false 'x' (changed false 'v' s.options) }
        if rest.isEmpty then quiet else quiet.withArguments rest
    | word :: rest =>
        let sign := word.headD ' '
        if sign != '-' && sign != '+' then s.withArguments words
        else if word.drop 1 == ['o'] && rest.isEmpty then
          s.write 1 (optionReport (sign == '+') s.options)
        else
          match Shell.withLetters (sign == '-') (word.drop 1) rest s.options with
          | .error option => s.fail (illegal option)
          | .ok (options, rest) => setOptions fuel rest { s with options }

def withCount (s : State) (words : List Bytes) (usual : Nat) (f : Nat → State × Flow) :
    State × Flow :=
  match words with
  | [] => f usual
  | word :: _ =>
      match count? word with
      | some count => f count
      | none => (s.fail ("Illegal number: ".toList ++ word), .next)

def shift (s : State) (count : Nat) : State :=
  if s.arguments.length ≤ count then s.fail "can't shift that many".toList
  else { s.withArguments (s.arguments.drop (count + 1)) with status := 0 }

def leaving? (s : State) (words : List Bytes) (flow : Nat → Flow) : State × Flow :=
  s.withCount words 1 fun count =>
    if count == 0 then (s.fail ("Illegal number: ".toList ++ words.headD []), .next)
    else
      match min count s.loops with
      | 0 => (s.withStatus 0, .next)
      | loops + 1 => (s.withStatus 0, flow loops)

/-! ### Options of the script -/

inductive OptionKind where
  | plain
  | taking
  | unknown

def optionKind (letter : Char) : Bytes → OptionKind
  | c :: ':' :: rest => if c == letter then .taking else optionKind letter rest
  | c :: rest => if c == letter then .plain else optionKind letter rest
  | [] => .unknown

def optionPlace (arguments : List Bytes) (place : Nat × Option Nat) : Option (Nat × Bytes) :=
  let (next, offset) := place
  let rest := offset.bind fun offset =>
    if next ≤ 1 then none else (arguments[next - 2]?).map (·.drop offset)
  match rest with
  | some (c :: more) => some (next, c :: more)
  | _ =>
      match arguments[next - 1]? with
      | some ('-' :: c :: more) => some (next + 1, c :: more)
      | _ => none

def nextOptionOf (s : State) (letters name : Bytes) (arguments : List Bytes) : State :=
  let place := if arguments.length + 1 < s.nextOption.1 then (1, none) else s.nextOption
  let silent := letters.head? == some ':'
  let taken := "OPTARG".toList
  let finish := fun (s : State) (letter : Char) (next : Nat) (offset : Option Nat) (status : Nat) =>
    let named := (s.assign optionCounter (Bytes.ofNat next)).assignNamed name [letter]
    { named with nextOption := (next, offset), status := if named.failed then 2 else status }
  match optionPlace arguments place with
  | none => finish s '?' place.1 none 1
  | some (_, []) => s
  | some (next, letter :: more) =>
      if (arguments[next - 2]?).any (· == ['-', '-']) then finish s '?' next none 1 else
      let offset := if more.isEmpty then none
        else (arguments[next - 2]?).map fun word => word.length - more.length
      let complain := fun what =>
        if silent then s.set taken [letter]
        else (s.write 2 (what ++ ['\n'])).without taken
      match optionKind letter letters with
      | .unknown =>
          finish (complain ("Illegal option -".toList ++ [letter])) '?' next offset 0
      | .plain => finish (s.set taken []) letter next offset 0
      | .taking =>
          if !more.isEmpty then finish (s.set taken more) letter next none 0
          else
            match arguments[next - 1]? with
            | some word => finish (s.set taken word) letter (next + 1) none 0
            | none =>
                finish (complain ("No arg for -".toList ++ letter :: " option".toList))
                  (if silent then ':' else '?') next none 0

def getOption (s : State) (words : List Bytes) : State :=
  match words with
  | letters :: name :: arguments =>
      s.nextOptionOf letters name (if arguments.isEmpty then s.arguments.tail else arguments)
  | _ => s.fail "Usage: getopts optstring var [arg...]".toList

/-! ### Directories -/

def nameFrom (directory name : Bytes) : Bytes :=
  if name.head? == some '/' then name
  else directory ++ (if directory.getLast? == some '/' then [] else ['/']) ++ name

def pathFrom (directory name : Bytes) : Bytes :=
  let path := nameFrom directory name
  let root := if "//".toList.isPrefixOf path && path[2]? != some '/' then "//" else "/"
  let steps := (Disk.Path.ofText (String.ofList path)).steps
  (root ++ "/".intercalate (Disk.Path.climb steps)).toList

def moved? (s : State) (shows : Bool) (name : Bytes) : Option State :=
  let here := s.directory.getD []
  let seen := if name.head? == some '.' && s.directory.isSome then pathFrom here name else name
  if !name.isEmpty && s.find seen != .directory then none
  else
    let path := pathFrom here name
    let directory := if s.directory.isNone && name.head? != some '/' then none else some path
    let moved := { s with directory }
    let named := (moved.set "OLDPWD".toList here).set "PWD".toList (directory.getD [])
    let told := { named with exported := ["OLDPWD".toList, "PWD".toList] ++ named.exported }
    some (if shows then told.write 1 (path ++ ['\n']) else told)

def enter (s : State) (words : List Bytes) : State :=
  s.withOptions "L" words fun _ words =>
    let back := words.head? == some ['-']
    let target := match words.head? with
      | some name => if back then s.assigned.lookup "OLDPWD".toList else some name
      | none => s.assigned.lookup "HOME".toList
    let name := target.getD []
    match s.moved? back name with
    | some moved => moved.withStatus 0
    | none => s.fail ("can't cd to ".toList ++ name)

def showDirectory (s : State) (words : List Bytes) : State :=
  s.withOptions "L" words fun _ _ =>
    (s.write 1 (s.directory.getD [] ++ ['\n'])).withStatus 0

/-! ### Permissions -/

def permissions (s : State) (words : List Bytes) : State :=
  s.withOptions "S" words fun options words =>
    let mode := Permission.all ^^^ s.mask
    match words with
    | [] =>
        let shown := if options.isEmpty then Permission.digits s.mask else Permission.letters mode
        (s.write 1 (shown ++ ['\n'])).withStatus 0
    | word :: _ =>
        if word.head?.any Char.isDigit then
          match Permission.ofDigits? word with
          | some mask => { s with mask, status := 0 }
          | none => s.fail ("Illegal number: ".toList ++ word)
        else
          let after := if word.isEmpty then some mode
            else Permission.inClauses? (word.length + 1) mode word
          match after with
          | some mode => { s with mask := Permission.all ^^^ mode, status := 0 }
          | none => s.fail ("Illegal mode: ".toList ++ word)

/-! ### Names of commands -/

def withAlias (s : State) (name text : Bytes) : State :=
  { s with aliases :=
      if (s.aliases.lookup name).isSome then
        s.aliases.map fun entry => if entry.1 == name then (name, text) else entry
      else s.aliases ++ [(name, text)] }

def nameCommands (s : State) (words : List Bytes) : State :=
  if words.isEmpty then
    let lines := s.aliases.map fun (name, text) => aliasText name text ++ ['\n']
    (s.write 1 lines.flatten).withStatus 0
  else
    let (s, lines) := words.foldl (fun (s, lines) word =>
      let name := word.take 1 ++ (word.drop 1).takeWhile (· != '=')
      if name.length < word.length then (s.withAlias name (word.drop (name.length + 1)), lines)
      else
        match s.aliases.lookup word with
        | some text => (s, lines ++ aliasText word text ++ ['\n'])
        | none => (unknownAlias s "alias" word, lines)) (s.withStatus 0, [])
    s.write 1 lines
where
  unknownAlias (s : State) (command : String) (word : Bytes) : State :=
    (s.write 2 ((command ++ ": ").toList ++ word ++ " not found\n".toList)).withStatus 1

def unalias (s : State) (words : List Bytes) : State :=
  s.withOptions "a" words fun options words =>
    if !options.isEmpty then { s with aliases := [], status := 0 }
    else
      words.foldl (fun s word =>
        if (s.aliases.lookup word).isSome then
          { s with aliases := s.aliases.filter (·.1 != word) }
        else nameCommands.unknownAlias s "unalias" word) (s.withStatus 0)

def change? (s : State) (name : String) (words : List Bytes) : Option (State × Flow) :=
  let next := fun s : State => some (s, Flow.next)
  match name with
  | "exit" =>
      s.withCount words (s.interrupted.getD s.status) fun status =>
        (s.withStatus (status % 256), .exit)
  | "return" =>
      s.withCount words s.status fun status =>
        (s.withStatus status, .returned !words.isEmpty)
  | "break" => s.leaving? words .leave
  | "continue" => s.leaving? words .again
  | "read" => next (s.readLine words)
  | "shift" => s.withCount words 1 fun count => (s.shift count, .next)
  | "unset" => next (s.unset words)
  | "set" =>
      next (setOptions (words.length + 1) words (s.withStatus 0))
  | "export" => next (s.markExported words)
  | "readonly" => next (s.markConstant words)
  | "trap" => next (s.withOptions "" words fun _ words => s.trap words)
  | "getopts" => next (s.getOption words)
  | "cd" | "chdir" => next (s.enter words)
  | "pwd" => next (s.showDirectory words)
  | "kill" => next (s.kill words)
  | "type" => next (s.describe words)
  | "alias" => next (s.nameCommands words)
  | "unalias" => next (s.unalias words)
  | "umask" => next (s.permissions words)
  | _ => none

end State

end TenantSql.Shell
