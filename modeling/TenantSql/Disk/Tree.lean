import TenantSql.Disk.Failure

/-!
# The disk

Files and directories by their places, and what can be done with them. A place
is the list of names from the root. Every operation may also be refused by the
system for reasons of its own.
-/

namespace TenantSql.Disk

abbrev Place := List String

inductive Node where
  | file (content : String)
  | directory
  deriving DecidableEq, Repr

inductive Action where
  | makeDirectory (place : Place)
  | create (place : Place)
  | write (place : Place)
  | rename (source target : Place)
  deriving DecidableEq, Repr

structure Tree where
  nodes : List (Place × Node) := []
  working : Place := []
  asked : Nat := 0
  refuses : Nat → Action → Option Cause := fun _ _ => none

namespace Tree

def node? (t : Tree) (place : Place) : Option Node :=
  if place.isEmpty then some .directory else t.nodes.lookup place

def isDirectory (t : Tree) (place : Place) : Bool :=
  t.node? place == some .directory

def put (t : Tree) (place : Place) (node : Node) : Tree :=
  { t with nodes := (place, node) :: t.nodes.filter (·.1 != place) }

def remove (t : Tree) (place : Place) : Tree :=
  { t with nodes := t.nodes.filter (·.1 != place) }

def ask (t : Tree) (action : Action) : Tree × Option Cause :=
  ({ t with asked := t.asked + 1 }, t.refuses t.asked action)

def ancestors (place : Place) : List Place :=
  (List.range place.length).map place.take

def plant (t : Tree) (place : Place) (node : Node) : Tree :=
  let withParents := (ancestors place).foldl (fun t above =>
    if above.isEmpty || (t.node? above).isSome then t else t.put above .directory) t
  withParents.put place node

def maxNameBytes : Nat := 255

def pathBytesLimit : Nat := 4096

def walk (t : Tree) (place : Place) : List String → Except Cause Place
  | [] => .ok place
  | step :: rest =>
      if maxNameBytes < step.utf8ByteSize then .error .nameTooLong
      else
        let next := if step == Path.up then place.dropLast else place ++ [step]
        if rest.isEmpty then .ok next
        else
          match t.node? next with
          | some .directory => walk t next rest
          | some (.file _) => .error .notADirectory
          | none => .error .notFound

def fromRoot (t : Tree) (p : Path) : Path :=
  (Path.mk true t.working).join p

def locate (t : Tree) (p : Path) : Except Cause Place :=
  let path := t.fromRoot p
  if path.isUnnameable then .error .nullInName
  else if pathBytesLimit ≤ p.text.utf8ByteSize then .error .nameTooLong
  else walk t [] path.steps

/-- What is at the end of a path. Where the way to it is blocked, there is nothing. -/
def look (t : Tree) (p : Path) : Except Failure (Option Node) :=
  match t.locate p with
  | .ok place => .ok (t.node? place)
  | .error .nameTooLong => .error { cause := .nameTooLong, path := p }
  | .error _ => .ok none

def endsWithName (p : Path) : Bool :=
  !p.steps.isEmpty && p.name != Path.up

def makeDirectory (t : Tree) (p : Path) : Tree × Except Failure Unit :=
  match t.locate p with
  | .error cause => (t, .error { cause, path := p })
  | .ok place =>
      if !endsWithName p || (t.node? place).isSome then
        (t, .error { cause := .exists, path := p })
      else
        match t.ask (.makeDirectory place) with
        | (t, some cause) => (t, .error { cause, path := p })
        | (t, none) => (t.put place .directory, .ok ())

def seesDirectory (t : Tree) (p : Path) : Bool :=
  match t.look p with
  | .ok (some .directory) => true
  | _ => false

def unlessPresent (t : Tree) (p : Path) (failure : Failure) : Except Failure Unit :=
  if failure.cause.isSystems && t.seesDirectory p then .ok () else .error failure

def ensureDirectory (t : Tree) (p : Path) : Tree × Except Failure Unit :=
  match t.makeDirectory p with
  | (t, .ok ()) => (t, .ok ())
  | (t, .error failure) => (t, t.unlessPresent p failure)

/-- The same with all directories above it; the number of steps bounds how far up this goes. The
directories made on the way stay even if a later one cannot be made. -/
def makeDirectories (t : Tree) : Nat → Path → Tree × Except Failure Unit
  | 0, p => t.ensureDirectory p
  | height + 1, p =>
      match t.makeDirectory p with
      | (t, .ok ()) => (t, .ok ())
      | (t, .error failure) =>
          if failure.cause != .notFound then (t, t.unlessPresent p failure)
          else if p.steps.isEmpty then (t, .error failure)
          else
            match makeDirectories t height p.parent with
            | (t, .ok ()) => t.ensureDirectory p
            | failed => failed

def createFile (t : Tree) (place : Place) : Tree × Except Cause Unit :=
  if (t.node? place).isSome then (t, .error .exists)
  else
    match t.ask (.create place) with
    | (t, some cause) => (t, .error cause)
    | (t, none) => (t.put place (.file ""), .ok ())

def writeFile (t : Tree) (place : Place) (content : String) : Tree × Except Cause Unit :=
  match t.ask (.write place) with
  | (t, some cause) => (t, .error cause)
  | (t, none) => (t.put place (.file content), .ok ())

def renameFile (t : Tree) (source : Place) (content : String) (target : Path) :
    Tree × Except Cause Unit :=
  match t.locate target with
  | .error cause => (t, .error cause)
  | .ok place =>
      if !endsWithName target then (t, .error .busy)
      else if t.isDirectory place then (t, .error .isADirectory)
      else
        match t.ask (.rename source place) with
        | (t, some cause) => (t, .error cause)
        | (t, none) => ((t.remove source).put place (.file content), .ok ())

def besides (t : Tree) (target : Path) (name : String) : Path :=
  ⟨true, Path.climb (t.fromRoot target).parent.steps ++ [name]⟩

/-- The tree after a file is written under a temporary name and then renamed. If either fails, the
temporary file goes away again and nothing has changed. -/
def replaceFile (t : Tree) (target : Path) (temporaryName content : String) :
    Tree × Except Failure Unit :=
  let temporary := t.besides target temporaryName
  match t.locate temporary with
  | .error cause => (t, .error { cause, path := temporary })
  | .ok source =>
    match t.createFile source with
    | (t, .error cause) => (t, .error { cause, path := temporary })
    | (t, .ok ()) =>
      match t.writeFile source content with
      | (t, .error cause) => (t.remove source, .error { cause, path := temporary })
      | (t, .ok ()) =>
        match t.renameFile source content target with
        | (t, .error cause) =>
            (t.remove source, .error { cause, path := temporary, target := some target })
        | (t, .ok ()) => (t, .ok ())

def filesBelow (t : Tree) (place : Place) : List (String × String) :=
  let files := t.nodes.filterMap fun entry =>
    match entry.2 with
    | .file content =>
        if place.isPrefixOf entry.1 then some ("/".intercalate (entry.1.drop place.length), content)
        else none
    | .directory => none
  files.mergeSort fun a b => !decide (b.1 < a.1)

end Tree

end TenantSql.Disk
