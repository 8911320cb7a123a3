import TenantSql.Yaml.Calendar
import TenantSql.Yaml.Number

/-!
# Nodes of YAML

A document is a tree of scalars, sequences and mappings, each with a tag that
says what kind of value it is. A plain scalar without a tag gets one from its
form. A collection may be a part of itself: the anchor of one that is still open
stands at such a place.
-/

namespace TenantSql.Yaml

inductive Tag where
  | null
  | bool
  | integer
  | real
  | stamp
  | text
  | binary
  | sequence
  | mapping
  | set
  | orderedMapping
  | pairs
  | merge
  | principal
  | unknown
  deriving DecidableEq, Repr

namespace Tag

def domain : String := "tag:yaml.org,2002:"

def names : List (String × Tag) :=
  [("null", .null), ("bool", .bool), ("int", .integer), ("float", .real), ("timestamp", .stamp),
    ("str", .text), ("binary", .binary), ("seq", .sequence), ("map", .mapping), ("set", .set),
    ("omap", .orderedMapping), ("pairs", .pairs), ("merge", .merge), ("value", .principal)]

def ofName (name : String) : Tag :=
  ((names.find? fun entry => domain ++ entry.1 == name).map (·.2)).getD .unknown

def truthWords : List String :=
  ["yes", "Yes", "YES", "no", "No", "NO", "true", "True", "TRUE", "false", "False", "FALSE", "on",
    "On", "ON", "off", "Off", "OFF"]

def nullWords : List String :=
  ["", "~", "null", "Null", "NULL"]

/-- The tag of a plain scalar, by its form. One line end after the form does not count. -/
def ofPlain (written : String) : Tag :=
  let cs := if written == "\n" then written.toList else withoutLineEnd written.toList
  let s := String.ofList cs
  if truthWords.contains s then .bool
  else if isReal cs then .real
  else if isInteger cs then .integer
  else if s == "<<" then .merge
  else if nullWords.contains s then .null
  else if isStamp cs then .stamp
  else if s == "=" then .principal
  else if ["!", "&", "*"].contains s then .unknown
  else .text

def isCollection : Tag → Bool
  | sequence | mapping | set | orderedMapping | pairs => true
  | _ => false

end Tag

inductive Node where
  | scalar (mark : Nat) (tag : Tag) (text : String)
  | sequence (mark : Nat) (tag : Tag) (items : List Node)
  | mapping (mark : Nat) (tag : Tag) (entries : List (Node × Node))
  | again (anchor : String)
  deriving Repr

abbrev NodeEntry := Node × Node

namespace Node

def tag : Node → Tag
  | scalar _ t _ | sequence _ t _ | mapping _ t _ => t
  | again _ => .sequence

def mark : Node → Nat
  | scalar m .. | sequence m .. | mapping m .. => m
  | again _ => 0

def withTag (t : Tag) : Node → Node
  | scalar mark _ text => scalar mark t text
  | sequence mark _ items => sequence mark t items
  | mapping mark _ entries => mapping mark t entries
  | again anchor => again anchor

def empty : Node :=
  .scalar 0 .null ""

end Node

end TenantSql.Yaml
