import TenantSql.Disk.Failure
import TenantSql.Shell.Script

/-!
# Files and utilities

The files that scripts can name, and what the utilities that read them do to
inputs and outputs.
-/

namespace TenantSql.Shell

/-! ## Places of files

What stands where a name leads: the programs and devices of the system and its
directories. Of the directory in which a command starts nothing is known. -/

def programs : List String :=
  ["cat", "tr", "head", "sleep", "true", "false", "sh", "dash"]

def programDirectory : String := "/usr/bin"

def directories : List String :=
  ["/bin", "/boot", "/dev", "/dev/fd", "/dev/mqueue", "/dev/pts", "/dev/shm", "/etc", "/home",
    "/lib", "/media", "/mnt", "/opt", "/proc", "/proc/self", "/proc/self/fd", "/root", "/run",
    "/sbin", "/srv", "/sys", "/tmp", "/usr", "/usr/bin", "/usr/games", "/usr/include", "/usr/lib",
    "/usr/local", "/usr/local/bin", "/usr/local/lib", "/usr/sbin", "/usr/share", "/usr/src",
    "/var", "/var/cache", "/var/lib", "/var/log", "/var/mail", "/var/tmp"]

def linkedDirectories : List (String × List String) :=
  [("/bin", ["usr", "bin"]), ("/lib", ["usr", "lib"]), ("/sbin", ["usr", "sbin"])]

def descriptorPlaces : List (String × Nat) :=
  [("/dev/stdin", 0), ("/dev/stdout", 1), ("/dev/stderr", 2)]

inductive Place where
  | missing
  | behindFile
  | tooLong
  | directory
  | program (name : String)
  | nothing
  | zeros (full : Bool)
  | descriptor (number : Nat)
  deriving DecidableEq, Repr

def devices : List (String × Place) :=
  [("/dev/null", .nothing), ("/dev/zero", .zeros false), ("/dev/full", .zeros true)]

namespace Place

def maxStep : Nat := 255

def maxName : Nat := 4095

def pathText (absolute : Bool) (steps : List Bytes) : Bytes :=
  (if absolute then ['/'] else []) ++ ['/'].intercalate steps

def programPaths : List (String × Place) :=
  programs.map fun name => (programDirectory ++ "/" ++ name, .program name)

def entry? (path : Bytes) : Option Place :=
  let name := String.ofList path
  if directories.contains name then some .directory
  else
    ((devices ++ programPaths).lookup name).or ((descriptorPlaces.lookup name).map .descriptor)

def followed (absolute : Bool) (steps : List Bytes) : List Bytes :=
  let linked := if absolute then linkedDirectories.lookup (String.ofList (pathText true steps))
    else none
  (linked.map (·.map String.toList)).getD steps

def walk (absolute : Bool) : List Bytes → List Bytes → Place × List Bytes
  | above, [] => (.directory, above)
  | above, step :: rest =>
      if maxStep < step.length then (.tooLong, above)
      else if step.isEmpty || step == ['.'] then walk absolute above rest
      else if step == Disk.Path.up.toList then walk absolute above.dropLast rest
      else
        let steps := followed absolute (above ++ [step])
        match entry? (pathText absolute steps) with
        | some .directory => walk absolute steps rest
        | some place => (if rest.isEmpty then place else .behindFile, steps)
        | none => (.missing, steps)

def locate (directory : Option Bytes) (name : Bytes) : Place × Bool × List Bytes :=
  let absolute := name.head? == some '/'
  if name.isEmpty then (.missing, absolute, [])
  else if maxName < name.length then (.tooLong, absolute, [])
  else
    match if absolute then none else directory with
    | some start => found true (start ++ '/' :: name)
    | none => found absolute name
where
  found (absolute : Bool) (name : Bytes) : Place × Bool × List Bytes :=
    let (place, steps) := walk absolute [] (Disk.Path.pieces name)
    (place, absolute, steps)

def find (directory : Option Bytes) (name : Bytes) : Place :=
  (locate directory name).1

def listed (directory : Option Bytes) (name : Bytes) : List Bytes :=
  match locate directory name with
  | (.directory, true, steps) =>
      let known := directories ++ (devices ++ programPaths).map (·.1) ++ descriptorPlaces.map (·.1)
      let start := pathText true (steps ++ [[]])
      [['.'], Disk.Path.up.toList] ++ (known.filterMap fun path =>
        let step := path.toList.drop start.length
        if start.isPrefixOf path.toList && !step.contains '/' then some step else none).eraseDups
  | _ => []

def cause? : Place → Option Disk.Cause
  | missing => some .notFound
  | behindFile => some .notADirectory
  | tooLong => some .nameTooLong
  | directory => some .isADirectory
  | _ => none

def startable : Place → Except Disk.Cause String
  | program name => .ok name
  | missing => .error .notFound
  | behindFile => .error .notADirectory
  | tooLong => .error .nameTooLong
  | _ => .error .notPermitted

end Place

def programNamed (name : Bytes) : Except Disk.Cause String :=
  if name.contains '/' then (Place.find none name).startable
  else if name.isEmpty || name == ['.'] || name == Disk.Path.up.toList then .error .notPermitted
  else if Place.maxStep < name.length then .error .nameTooLong
  else
    match programs.find? (·.toList == name) with
    | some name => .ok name
    | none => .error .notFound

/-! ## Inputs and effects

What the commands do that only read an input and write outputs, and what all of
them say when they are used wrongly. -/

structure Input where
  bytes : Bytes := []
  endless : Bool := false
  refused : Option Disk.Cause := none
  closed : Bool := false
  deriving DecidableEq, Repr

namespace Input

def take (input : Input) (count : Nat) : Bytes :=
  input.bytes.take count ++
    if input.endless then List.replicate (count - input.bytes.length) '\x00' else []

def drop (input : Input) (count : Nat) : Input :=
  { input with bytes := input.bytes.drop count }

end Input

inductive Written where
  | output (cs : Bytes)
  | message (cs : Bytes)
  deriving DecidableEq, Repr

structure Effect where
  written : List Written := []
  hangs : Bool := false
  status : Nat := 0
  left : Input

abbrev Utility := List Bytes → Input → Effect

namespace Effect

def ended (status : Nat) (left : Input) : Effect :=
  { status, left }

def printed (cs : Bytes) (left : Input) : Effect :=
  { written := [.output cs], left }

def failure (status : Nat) (said : Bytes) (left : Input) : Effect :=
  { written := [.message (said ++ ['\n'])], status, left }

def followedBy (first : Effect) (second : Input → Effect) : Effect :=
  if first.hangs then first
  else
    let later := second first.left
    { later with
      written := first.written ++ later.written
      status := max first.status later.status }

def allOutput (e : Effect) : Bytes :=
  (e.written.map fun piece =>
    match piece with
    | .output cs => cs
    | .message _ => []).flatten

end Effect

/-! ### Misuse -/

def misuse (name what : Bytes) (left : Input) : Effect :=
  .failure 1 (name ++ ": ".toList ++ what ++ "\nTry '".toList ++ name ++
    " --help' for more information.".toList) left

def unknownLetter (name : Bytes) (letter : Char) (left : Input) : Effect :=
  misuse name ("invalid option -- '".toList ++ [letter] ++ ['\'']) left

def asOption (word : Bytes) : Bytes :=
  "'--".toList ++ word ++ ['\'']

def longOption (options : List (String × Option Char)) (word : Bytes) :
    Except Bytes (Option Char) :=
  let written := word.drop 2
  let name := written.takeWhile (· != '=')
  let found := match options.find? (·.1.toList == name) with
    | some option => [option]
    | none => options.filter fun option => name.isPrefixOf option.1.toList
  match found with
  | [] => .error ("unrecognized option ".toList ++ asOption written)
  | [(full, meaning)] =>
      if name.length < written.length then
        .error ("option ".toList ++ asOption full.toList ++ " doesn't allow an argument".toList)
      else .ok meaning
  | several =>
      .error ("option ".toList ++ asOption written ++ " is ambiguous; possibilities:".toList ++
        (several.map fun option => ' ' :: asOption option.1.toList).flatten)

def commonOptions : List (String × Option Char) :=
  [("help", none), ("version", none)]

def operands (name : Bytes) (input : Input) : List Bytes → Except Effect (List Bytes)
  | [] => .ok []
  | word :: rest =>
      match word with
      | ['-', '-'] => .ok rest
      | '-' :: '-' :: _ =>
          match longOption commonOptions word with
          | .ok _ => .error (.ended 0 input)
          | .error what => .error (misuse name what input)
      | '-' :: letter :: _ => .error (unknownLetter name letter input)
      | _ => (word :: ·) <$> operands name input rest

end TenantSql.Shell
