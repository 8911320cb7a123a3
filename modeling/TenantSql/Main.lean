import Std.Time.DateTime
import TenantSql.CommandLine.Command
import TenantSql.Shell.Run

/-!
# The program

The outer layer. A run is done in memory, on the files that the system has where
the run looks for them, and what it changes is then written. Formatters are run
by the shell of this library, so that no other program is started.
-/

namespace TenantSql.Main

def name (place : Disk.Place) : String :=
  "/" ++ "/".intercalate place

def observe (place : Disk.Place) : IO (Option Disk.Node) := do
  try
    return some (.file (← IO.FS.readFile (name place)))
  catch
    | .inappropriateType .. => return some .directory
    | .noFileOrDirectory .. => return none
    | e => throw e

def observeAll (t : Disk.Tree) : List Disk.Place → IO Disk.Tree
  | [] => return t
  | place :: rest => do
      match ← observe place with
      | some node => observeAll (t.plant place node) rest
      | none => observeAll t rest

def startTree (env : Build.Environment) (words : List String) (working : Disk.Place) :
    IO Disk.Tree := do
  let empty : Disk.Tree := { working }
  let start := empty.plant working .directory
  match CommandLine.Arguments.read words with
  | .error _ => return start
  | .ok a =>
      let some (.ok path) := a.definitionPath? working | return start
      let withDefinition ← observeAll start [path.steps]
      let written := (CommandLine.run env words withDefinition).1
      observeAll withDefinition (written.nodes.map (·.1))

def write (before after : Disk.Tree) : IO Unit := do
  let changed := after.nodes.filter fun entry => before.node? entry.1 != some entry.2
  for (place, node) in changed.mergeSort fun a b => a.1.length ≤ b.1.length do
    match node with
    | .directory => IO.FS.createDir (name place)
    | .file content => IO.FS.writeFile (name place) content

def complaint : CommandLine.Ending → Option String × Nat
  | .exit code => (none, code)
  | .misused e => (some e.message, CommandLine.exitGeneration)
  | .fault _ => (some "an option has a value of no use", 1)
  | .unreachable failure | .interrupted (.disk failure) => (some failure.message, 1)
  | .interrupted _ => (some "the build was interrupted", 1)

def now : IO Moment := do
  let stamp ← Std.Time.Timestamp.now
  let today := Std.Time.PlainDateTime.ofWallTime
    (Std.Time.WallTime.ofSeconds stamp.toSecondsSinceUnixEpoch)
  return {
    date := ⟨today.year.toInt.toNat, today.month.val.toNat, today.day.val.toNat⟩
    hour := today.hour.val.toNat
    minute := today.minute.val.toNat
    second := today.second.val.toNat
    microsecond := 0
    offset := some 0 }

def run (words : List String) : IO UInt32 := do
  let timestamp := (← now).display.replace " " "T"
  let env : Build.Environment :=
    { program := Shell.program, available := fun _ => false, timestamp }
  let working := (Disk.Path.ofText (toString (← IO.currentDir))).steps
  let before ← startTree env words working
  let (after, outcome) := CommandLine.run env words before
  write before after
  IO.print outcome.output
  let (message, code) := complaint outcome.ending
  for line in message do
    IO.eprintln (CommandLine.programName ++ ": error: " ++ line)
  return code.toUInt32

end TenantSql.Main

def main (words : List String) : IO UInt32 :=
  TenantSql.Main.run words
