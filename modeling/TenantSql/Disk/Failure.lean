import TenantSql.Disk.Path

/-!
# Failures of the disk

Why the disk does not do what it is asked for. The system's own failures have a
number, a class and a wording, and name the paths concerned.
-/

namespace TenantSql.Disk

inductive Cause where
  | notFound
  | exists
  | notADirectory
  | isADirectory
  | busy
  | notPermitted
  | nameTooLong
  | other (number : Nat) (wording : String)
  | nullInName
  deriving DecidableEq, Repr

namespace Cause

def className : Cause → String
  | .notFound => "FileNotFoundError"
  | .exists => "FileExistsError"
  | .notADirectory => "NotADirectoryError"
  | .isADirectory => "IsADirectoryError"
  | .notPermitted => "PermissionError"
  | .busy | .nameTooLong | .other .. => "OSError"
  | .nullInName => "ValueError"

def badDescriptor : Cause := .other 9 "Bad file descriptor"

def noSpace : Cause := .other 28 "No space left on device"

def number : Cause → Nat
  | .notFound => 2
  | .exists => 17
  | .notADirectory => 20
  | .isADirectory => 21
  | .busy => 16
  | .notPermitted => 13
  | .nameTooLong => 36
  | .other number _ => number
  | .nullInName => 0

def wording : Cause → String
  | .notFound => "No such file or directory"
  | .exists => "File exists"
  | .notADirectory => "Not a directory"
  | .isADirectory => "Is a directory"
  | .busy => "Device or resource busy"
  | .notPermitted => "Permission denied"
  | .nameTooLong => "File name too long"
  | .other _ wording => wording
  | .nullInName => "embedded null byte"

def isSystems (c : Cause) : Bool :=
  c != .nullInName

end Cause

structure Failure where
  cause : Cause
  path : Path
  target : Option Path := none
  deriving DecidableEq, Repr

/-- The path from the root, as seen from the working directory and without steps that lead up. All
steps must have names that the system knows, also those that are left out. -/
def Path.resolve (p working : Path) : Except Failure Path :=
  if p.isUnnameable then .error { cause := .nullInName, path := p }
  else .ok { absolute := true, steps := climb (working.join p).steps }

def Failure.message (f : Failure) : String :=
  if f.cause.isSystems then
    s!"[Errno {f.cause.number}] {f.cause.wording}: {f.path.quoted}" ++
      match f.target with
      | some target => " -> " ++ target.quoted
      | none => ""
  else f.cause.wording

end TenantSql.Disk
