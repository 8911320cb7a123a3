import TenantSql.Sql.Piece
import TenantSql.Text.Blank

/-!
# Drafts of queries

A draft is the text of a query so far with the names bound in it. Every name has
one position, counted from 1; asking for a name again gives the position it has.
A finished draft is a query.
-/

namespace TenantSql.Sql

def placeholder (index : Int) : String :=
  "$" ++ toString index

structure Query where
  name : String
  text : String
  bindings : List String
  fieldBindings : List String
  deriving DecidableEq, Repr, Inhabited

namespace Query

def placeholder? (q : Query) (name : String) : Option String :=
  (q.bindings.idxOf? name).map fun index => placeholder (index + 1)

def unusedMessage (q : Query) (name : String) : String :=
  s!"Binding '{name}' is not used by query '{q.name}'."

def describe (q : Query) : String :=
  s!"<SqlQueryContext {q.name} ({q.bindings.length} bindings)>"

end Query

structure Draft where
  text : String := ""
  bindings : List String := []
  deriving DecidableEq, Repr, Inhabited

namespace Draft

def bind (d : Draft) (name : String) : Draft :=
  if d.bindings.contains name then d else { d with bindings := d.bindings ++ [name] }

def position (d : Draft) (name : String) : Nat :=
  d.bindings.idxOf name + 1

def push (d : Draft) (text : String) : Draft :=
  { d with text := d.text ++ text }

def pushBinding (d : Draft) (name : String) : Draft :=
  let bound := d.bind name
  bound.push (placeholder (bound.position name))

def add (d : Draft) : Piece String → Draft
  | .param name => d.pushBinding name
  | piece => d.push (piece.write id)

def append (d : Draft) (fragment : Fragment String) : Draft :=
  fragment.foldl add d

def reserve (d : Draft) (names : List String) : Draft :=
  names.foldl bind d

def boundAmong (d : Draft) (names : List String) : List String :=
  d.bindings.filter names.contains

def query (d : Draft) (name : String) (fields : List String) : Query where
  name := name
  text := d.text
  bindings := d.bindings
  fieldBindings := d.boundAmong fields

@[simp] theorem text_bind (d : Draft) (name : String) : (d.bind name).text = d.text := by
  unfold bind
  split <;> rfl

@[simp] theorem bindings_push (d : Draft) (text : String) :
    (d.push text).bindings = d.bindings := rfl

theorem bindings_prefix_bind (d : Draft) (name : String) :
    d.bindings <+: (d.bind name).bindings := by
  unfold bind
  split <;> simp

theorem nodup_bind {d : Draft} (distinct : d.bindings.Nodup) (name : String) :
    (d.bind name).bindings.Nodup := by
  unfold bind
  split
  · exact distinct
  · rename_i absent
    simp only [List.contains_eq_mem, decide_eq_true_eq] at absent
    simp only [List.nodup_append, List.mem_singleton]
    exact ⟨distinct, by simp, fun a member b equal => by
      subst equal
      exact fun same => absent (same ▸ member)⟩

end Draft

end TenantSql.Sql
