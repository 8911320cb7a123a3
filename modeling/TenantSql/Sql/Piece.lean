import TenantSql.Sql.Quoting

/-!
# Pieces of SQL text

SQL text is put together from pieces that remember what they are: the words and
punctuation of a template, bare names, quoted constants and labels, and
parameters. What a parameter is known by is left open: a binding's name while a
statement is planned, its placeholder once it is written.
-/

namespace TenantSql.Sql

inductive Piece (π : Type) where
  | fixed (text : String)
  | name (text : String)
  | literal (value : String)
  | label (name : String)
  | param (p : π)
  deriving DecidableEq, Repr

def Piece.write {π : Type} (writeParam : π → String) : Piece π → String
  | .fixed s => s
  | .name s => s
  | .literal s => Sql.literal s
  | .label s => Sql.label s
  | .param p => writeParam p

abbrev Fragment (π : Type) := List (Piece π)

namespace Fragment

variable {π : Type}

def words (text : String) : Fragment π := [.fixed text]

def concat (items : List (Fragment π)) : Fragment π :=
  items.flatten

def separated (separator : String) : List (Fragment π) → Fragment π
  | [] => []
  | [only] => only
  | first :: rest => first ++ .fixed separator :: separated separator rest

def commas (items : List (Fragment π)) : Fragment π :=
  separated ", " items

def params (fragment : Fragment π) : List π :=
  fragment.filterMap fun piece => match piece with
    | .param p => some p
    | _ => none

def write (writeParam : π → String) (fragment : Fragment π) : String :=
  String.join (fragment.map (Piece.write writeParam))

def text (fragment : Fragment String) : String :=
  fragment.write id

theorem params_append (front back : Fragment π) :
    params (front ++ back) = params front ++ params back := by
  simp [params]

end Fragment

end TenantSql.Sql
