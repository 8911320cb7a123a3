import TenantSql.CommandLine.Option
import TenantSql.Number.Integer

/-!
# Arguments

What a command line asks for. A name may be cut short as long as one option
alone begins with it; a value may follow its option after an equals sign, or
directly after a short name; and short options without values can share one
hyphen. After a word of two hyphens there are no options, and where two hyphens
stand in place of a value the option has none.
-/

namespace TenantSql.CommandLine

inductive Given (α : Type) where
  | value (a : α)
  | nothing
  deriving DecidableEq, Repr

structure Arguments where
  definition : Option (Given String) := none
  output : Option (Given String) := none
  validateOnly : Bool := false
  dryRun : Bool := false
  projectName : Option (Given String) := none
  projectVersion : Option (Given String) := none
  defaultSchema : Option (Given String) := none
  authSchema : Option (Given String) := none
  operations : Option (List (Given String)) := none
  noMigrations : Bool := false
  formatter : Option (Given String) := none
  autoFormat : Bool := false
  workers : Option (Given Int) := none
  noOverwrite : Bool := false
  failOnWarnings : Bool := false
  verbosity : Nat := 0
  quiet : Bool := false
  deriving DecidableEq, Repr

inductive Stop where
  | help
  | version
  | misused (e : UsageError)
  deriving DecidableEq, Repr

inductive Sorted where
  | plain (word : String)
  | separator
  | unknown (word : String)
  | option (named : NamedFlag) (attached : Option (List Char))
  deriving DecidableEq, Repr

namespace Sorted

def separatorWord : String := "--"

def extra : Sorted → List String
  | plain word | unknown word => [word]
  | separator => [separatorWord]
  | option .. => []

end Sorted

def splitEquals (cs : List Char) : List Char × Option (List Char) :=
  match cs.dropWhile (· != '=') with
  | [] => (cs, none)
  | _ :: value => (cs.takeWhile (· != '='), some value)

def candidates (cs : List Char) : List (NamedFlag × Option (List Char)) :=
  match cs with
  | '-' :: '-' :: _ =>
      let (written, value) := splitEquals cs
      (namedFlags.filter fun n => written.isPrefixOf n.name.toList).map fun n => (n, value)
  | '-' :: c :: rest =>
      (namedFlags.filter fun n => n.name.toList == ['-', c]).map fun n => (n, some rest)
  | _ => []

def isNegativeNumber : List Char → Bool
  | '-' :: cs =>
      let cs := if cs.getLast? == some '\n' then cs.dropLast else cs
      let (whole, rest) := (cs.takeWhile Text.isDecimalDigit, cs.dropWhile Text.isDecimalDigit)
      match rest with
      | [] => !whole.isEmpty
      | '.' :: fraction => !fraction.isEmpty && fraction.all Text.isDecimalDigit
      | _ => false
  | _ => false

def sortWord (word : String) : Except UsageError Sorted :=
  let cs := word.toList
  if cs.head? != some '-' || cs == ['-'] then .ok (.plain word)
  else
    match flag? word with
    | some named => .ok (.option named none)
    | none =>
      let (written, value) := splitEquals cs
      match value, flag? (String.ofList written) with
      | some value, some named => .ok (.option named (some value))
      | _, _ =>
        match candidates cs with
        | [(named, attached)] => .ok (.option named attached)
        | [] => .ok (if isNegativeNumber cs || cs.contains ' ' then .plain word else .unknown word)
        | several => .error (.ambiguous word (several.map (·.1.name)))

def sortWords : List String → Except UsageError (List Sorted)
  | [] => .ok []
  | word :: rest =>
      if word == Sorted.separatorWord then .ok (.separator :: rest.map .plain)
      else do
        let first ← sortWord word
        return first :: (← sortWords rest)

structure WordOptions where
  flags : List NamedFlag
  value : Option String := none

/-- The options that share the hyphen of a first one, with what is written after its name. Each
further character is the short name of another option; only the last can take a value. -/
def spread (named : NamedFlag) (cs : List Char) : Except UsageError WordOptions :=
  let ignored := .error (.valueIgnored named.flag (String.ofList cs))
  if named.flag.takesValue then .ok { flags := [named], value := some (String.ofList cs) }
  else if "--".toList.isPrefixOf named.name.toList then ignored
  else
    match cs with
    | [] => ignored
    | c :: rest =>
        match flag? (String.ofList ['-', c]), rest with
        | none, _ => ignored
        | some next, [] => .ok { flags := [named, next] }
        | some next, d :: more =>
            (spread next (d :: more)).map fun o => { o with flags := named :: o.flags }

def Arguments.set (a : Arguments) : Flag → Except Stop Arguments
  | .help => .error .help
  | .version => .error .version
  | .validateOnly => .ok { a with validateOnly := true }
  | .dryRun => .ok { a with dryRun := true }
  | .noMigrations => .ok { a with noMigrations := true }
  | .autoFormat => .ok { a with autoFormat := true }
  | .noOverwrite => .ok { a with noOverwrite := true }
  | .failOnWarnings => .ok { a with failOnWarnings := true }
  | .verbose => .ok { a with verbosity := a.verbosity + 1 }
  | .quiet => .ok { a with quiet := true }
  | _ => .ok a

def operationNames : List String :=
  OperationKind.all.map (·.name)

def Given.ofWord (word : String) : Given String :=
  if word == Sorted.separatorWord then .nothing else .value word

def readOperation (given : Given String) : Except Stop (Given String) :=
  match given with
  | .nothing => .ok .nothing
  | .value name =>
      if operationNames.contains name then .ok (.value name)
      else .error (.misused (.invalidChoice .operation name operationNames))

def readWorkers (given : Given String) : Except Stop (Given Int) :=
  match given with
  | .nothing => .ok .nothing
  | .value word =>
      match Number.integer? word with
      | some count => .ok (.value count)
      | none => .error (.misused (.invalidInteger .workers word))

def Arguments.setValue (a : Arguments) (flag : Flag) (word : String) : Except Stop Arguments := do
  let given := Given.ofWord word
  match flag with
  | .definition => return { a with definition := some given }
  | .output => return { a with output := some given }
  | .projectName => return { a with projectName := some given }
  | .projectVersion => return { a with projectVersion := some given }
  | .defaultSchema => return { a with defaultSchema := some given }
  | .authSchema => return { a with authSchema := some given }
  | .formatter => return { a with formatter := some given }
  | .operation =>
      return { a with operations := some (a.operations.getD [] ++ [← readOperation given]) }
  | .workers => return { a with workers := some (← readWorkers given) }
  | _ => return a

def Arguments.setAll (a : Arguments) (value : Option String) :
    List NamedFlag → Except Stop Arguments
  | [] => .ok a
  | named :: rest => do
      let set ←
        match named.flag.takesValue, value with
        | true, some value => a.setValue named.flag value
        | _, _ => a.set named.flag
      setAll set value rest

def optionsOf (named : NamedFlag) (attached : Option (List Char)) (rest : List Sorted) :
    Except UsageError (WordOptions × List Sorted) := do
  let options ←
    match attached with
    | none => pure { flags := [named] }
    | some cs => spread named cs
  let last := (options.flags.getLast?.getD named).flag
  if last.takesValue && options.value.isNone then
    match rest with
    | .plain word :: rest => return ({ options with value := some word }, rest)
    | _ => throw (.valueExpected last)
  else return (options, rest)

def readSorted : Nat → Arguments → List Sorted → Except Stop (Arguments × List String)
  | 0, a, _ => .ok (a, [])
  | _, a, [] => .ok (a, [])
  | fuel + 1, a, .option named attached :: rest => do
      let (options, rest) ← (optionsOf named attached rest).mapError .misused
      readSorted fuel (← a.setAll options.value options.flags) rest
  | fuel + 1, a, word :: rest => do
      let (a, extras) ← readSorted fuel a rest
      return (a, word.extra ++ extras)

def Arguments.read (words : List String) : Except Stop Arguments := do
  let sorted ← (sortWords words).mapError .misused
  let (a, extras) ← readSorted (sorted.length + 1) {} sorted
  if a.definition.isNone then throw (.misused (.missing .definition))
  if !extras.isEmpty then throw (.misused (.unrecognized extras))
  return a

end TenantSql.CommandLine
