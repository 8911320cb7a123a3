import TenantSql.Diagnostic
import TenantSql.Disk.Failure
import TenantSql.Text.Blank
import TenantSql.Value.Fault
import TenantSql.Model.Settings
import TenantSql.Text.Quoted
import TenantSql.Value.Sequence

/-!
# Formatter commands

A formatter is a command that reads SQL and writes SQL. What commands do is left
open: a program says for every command and every input how it ends.
-/

namespace TenantSql

/-! ## Failures

A formatter fails for one file at a time. The failure keeps what the formatter said, so
that a report can show it. -/

structure FormatError where
  file : String
  reason : String
  exitCode : Option Int := none
  errors : String := ""
  output : String := ""
  code : ErrorCode := .formatError
  deriving DecidableEq, Repr

namespace FormatError

def outputLine (title output : String) : List String :=
  let shown := Text.trim output
  if shown.isEmpty then [] else [title ++ ": " ++ shown]

def message (e : FormatError) : String :=
  "\n".intercalate (s!"Formatting {e.file} failed: {e.reason}" ::
    (outputLine "stderr" e.errors ++ outputLine "stdout" e.output))

def diagnostic (e : FormatError) : Diagnostic where
  code := e.code
  message := e.message
  details := [("filename", .text e.file), ("returncode", (e.exitCode.map Value.int).getD .null)]

end FormatError

inductive Formatter.Failure where
  | reported (e : FormatError)
  | refused (cause : Disk.Cause)
  | noText
  | noLimit (fault : Fault)
  deriving DecidableEq, Repr

end TenantSql

namespace TenantSql.Formatter

/-! ## Commands -/

instance decidableEqByteArray : DecidableEq ByteArray := ByteArray.instDecidableEq

structure Outcome where
  exitCode : Int
  output : ByteArray
  errors : ByteArray
  seconds : Number.Binary64
  deriving DecidableEq

inductive Attempt where
  | ended (outcome : Outcome)
  | notFound
  | refused (cause : Disk.Cause)
  deriving DecidableEq

abbrev Program := List String → String → Attempt

def commandText (command : List String) : String :=
  " ".intercalate command

abbrev Limit := Option Value

def usualLimit : Limit :=
  some (.real (.ofInt 30))

def leastTime : Number.Binary64 := .ofQuotient false 1 1000

def longestTime : Number.Binary64 := .ofQuotient false 2147483647 1000

def statedSeconds : Value → Except Fault Number.Binary64
  | .scalar s =>
      match s.number? with
      | none => .error .wrongKind
      | some .undefined => .error .wrongContent
      | some seconds =>
          if Scalar.numberBelow longestTime seconds then .error .tooLarge else .ok seconds
  | _ => .error .wrongKind

def exceeded (seconds : Number.Binary64) : Limit → Except Fault (Option Value)
  | none => .ok none
  | some bound => do
      let stated ← statedSeconds bound
      let tooLong := Scalar.numberBelow stated seconds || Scalar.numberBelow stated leastTime
      return if tooLong then some bound else none

def outputText? (output : ByteArray) : Option String :=
  (String.fromUTF8? output).map Text.withLineFeeds

def judge (limit : Limit) (command : List String) (file : String) (outcome : Outcome) :
    Except Failure String :=
  let shown := commandText command
  match exceeded outcome.seconds limit with
  | .error fault => .error (.noLimit fault)
  | .ok (some bound) =>
      .error (.reported { file, reason := s!"'{shown}' timed out after {bound.display}s" })
  | .ok none =>
      match outputText? outcome.output, outputText? outcome.errors with
      | some output, some errors =>
          if outcome.exitCode == 0 then .ok output
          else
            let reason := s!"'{shown}' exited with code {outcome.exitCode}"
            .error (.reported { file, reason, exitCode := some outcome.exitCode, errors, output })
      | _, _ => .error .noText

def format (program : Program) (limit : Limit) (command : List String) (file text : String) :
    Except Failure String :=
  match program command text with
  | .ended outcome => judge limit command file outcome
  | .refused cause => .error (.refused cause)
  | .notFound =>
      let reason := "formatter '" ++ command.headD "" ++ "' not found"
      .error (.reported { file, reason, code := .formatNotFound })

def describe (command : List String) : String :=
  "<SqlFormatter " ++ Text.quoted (commandText command) ++ ">"

def known : List (List String) :=
  [["sleek"], ["pg_format"]]

def findKnown (available : String → Bool) : Option (List String) :=
  known.find? fun command => available (command.headD "")

def choose (available : String → Bool) (settings : Settings) : Option (List String) :=
  settings.formatter.or (if settings.detectFormatter then findKnown available else none)

end TenantSql.Formatter
