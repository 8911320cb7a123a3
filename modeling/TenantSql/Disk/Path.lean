import TenantSql.Text.Quoted

/-!
# Paths

A path is a list of steps, from the root of the disk or from the working
directory. Empty steps and single points are left out; two points lead up, but
only once the disk is looked at.
-/

namespace TenantSql.Disk

structure Path where
  absolute : Bool
  steps : List String
  deriving DecidableEq, Repr

namespace Path

def up : String := ".."

def pieces : List Char → List (List Char)
  | [] => [[]]
  | '/' :: rest => [] :: pieces rest
  | c :: rest =>
      match pieces rest with
      | first :: more => (c :: first) :: more
      | [] => [[c]]

def ofText (s : String) : Path where
  absolute := s.toList.head? == some '/'
  steps := ((pieces s.toList).map String.ofList).filter fun step => step != "" && step != "."

def text (p : Path) : String :=
  let joined := "/".intercalate p.steps
  if p.absolute then "/" ++ joined else if joined.isEmpty then "." else joined

def join (p q : Path) : Path :=
  if q.absolute then q else { p with steps := p.steps ++ q.steps }

def parent (p : Path) : Path :=
  { p with steps := p.steps.dropLast }

def name (p : Path) : String :=
  p.steps.getLast?.getD ""

def ending (p : Path) : String :=
  let reversed := p.name.toList.reverse
  let tail := reversed.takeWhile (· != '.')
  if tail.isEmpty || reversed.length ≤ tail.length + 1 then ""
  else String.ofList ('.' :: tail.reverse)

def climb (steps : List String) : List String :=
  steps.foldl (fun place step => if step == up then place.dropLast else place ++ [step]) []

def isUnnameable (p : Path) : Bool :=
  p.steps.any (·.toList.contains '\x00')

def quoted (p : Path) : String :=
  Text.quoted p.text

end Path

end TenantSql.Disk
