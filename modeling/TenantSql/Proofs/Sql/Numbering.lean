import TenantSql.Sql.Printer
import TenantSql.Sql.Draft
import TenantSql.Text.Order

/-!
# The numbers of bindings

However a draft grows, a name keeps the position that it was given first. So the
text of a finished draft is the text of its fragment with every parameter
written as the placeholder of its name's final position.
-/

namespace TenantSql.Sql

def numbered (bindings : List String) (name : String) : String :=
  placeholder (bindings.idxOf name + 1)

/-- A name keeps its placeholder when more names are bound. -/
theorem numbered_of_prefix {earlier later : List String} (grown : earlier <+: later) {name : String}
    (bound : name ∈ earlier) : numbered later name = numbered earlier name := by
  obtain ⟨added, rfl⟩ := grown
  rw [numbered, List.idxOf_append, if_pos bound, numbered]

namespace Draft

theorem mem_bindings_bind {d : Draft} {name other : String} :
    other ∈ (d.bind name).bindings ↔ other ∈ d.bindings ∨ other = name := by
  unfold bind
  split
  · rename_i present
    simp only [List.contains_eq_mem, decide_eq_true_eq] at present
    exact ⟨.inl, fun either => either.elim id fun same => same ▸ present⟩
  · simp

theorem mem_bindings_reserve {d : Draft} {names : List String} {name : String} :
    name ∈ (d.reserve names).bindings ↔ name ∈ d.bindings ∨ name ∈ names := by
  induction names generalizing d with
  | nil => simp [reserve]
  | cons first rest induction =>
      have later := induction (d := d.bind first)
      rw [reserve] at later
      rw [reserve, List.foldl_cons, later, mem_bindings_bind, List.mem_cons, or_assoc]

theorem nodup_reserve {d : Draft} (distinct : d.bindings.Nodup) (names : List String) :
    (d.reserve names).bindings.Nodup := by
  induction names generalizing d with
  | nil => exact distinct
  | cons first rest induction => exact induction (nodup_bind distinct first)

@[simp] theorem text_reserve (d : Draft) (names : List String) :
    (d.reserve names).text = d.text := by
  induction names generalizing d with
  | nil => rfl
  | cons first rest induction =>
      have later := induction (d.bind first)
      rwa [text_bind] at later

theorem mem_bindings_add {d : Draft} {piece : Piece String} {name : String} :
    name ∈ (d.add piece).bindings ↔ name ∈ d.bindings ∨ name ∈ Fragment.params [piece] := by
  cases piece with
  | param p =>
      rw [add, pushBinding, bindings_push, mem_bindings_bind]
      simp [Fragment.params]
  | fixed | name | literal | label => simp [add, Fragment.params]

theorem nodup_add {d : Draft} (distinct : d.bindings.Nodup) (piece : Piece String) :
    (d.add piece).bindings.Nodup := by
  cases piece with
  | param p => exact nodup_bind distinct p
  | fixed | name | literal | label => exact distinct

theorem bindings_prefix_add (d : Draft) (piece : Piece String) :
    d.bindings <+: (d.add piece).bindings := by
  cases piece with
  | param p => exact bindings_prefix_bind d p
  | fixed | name | literal | label => exact List.prefix_rfl

theorem text_add (d : Draft) (piece : Piece String) :
    (d.add piece).text = d.text ++ piece.write (numbered (d.add piece).bindings) := by
  cases piece with
  | param p => simp [add, pushBinding, push, position, Piece.write, numbered]
  | fixed | name | literal | label => rfl

theorem append_cons (d : Draft) (piece : Piece String) (rest : Fragment String) :
    d.append (piece :: rest) = (d.add piece).append rest := rfl

theorem mem_bindings_append {d : Draft} {fragment : Fragment String} {name : String} :
    name ∈ (d.append fragment).bindings ↔ name ∈ d.bindings ∨ name ∈ fragment.params := by
  induction fragment generalizing d with
  | nil => simp [append, Fragment.params]
  | cons piece rest induction =>
      have parted : Fragment.params (piece :: rest) = Fragment.params [piece] ++ Fragment.params rest :=
        Fragment.params_append [piece] rest
      rw [append_cons, induction, mem_bindings_add, parted, List.mem_append, or_assoc]

theorem nodup_append {d : Draft} (distinct : d.bindings.Nodup) (fragment : Fragment String) :
    (d.append fragment).bindings.Nodup := by
  induction fragment generalizing d with
  | nil => exact distinct
  | cons piece rest induction => exact induction (nodup_add distinct piece)

theorem bindings_prefix_append (d : Draft) (fragment : Fragment String) :
    d.bindings <+: (d.append fragment).bindings := by
  induction fragment generalizing d with
  | nil => exact List.prefix_rfl
  | cons piece rest induction => exact (bindings_prefix_add d piece).trans (induction (d.add piece))

theorem write_of_prefix {d : Draft} {piece : Piece String} {later : List String}
    (grown : (d.add piece).bindings <+: later) :
    piece.write (numbered later) = piece.write (numbered (d.add piece).bindings) := by
  cases piece with
  | param p =>
      have bound : p ∈ (d.add (.param p)).bindings :=
        mem_bindings_add.mpr (.inr (by simp [Fragment.params]))
      exact numbered_of_prefix grown bound
  | fixed | name | literal | label => rfl

/-- The text of a draft with a fragment added, with the numbers that names have in the end. -/
theorem text_append (d : Draft) (fragment : Fragment String) :
    (d.append fragment).text =
      d.text ++ fragment.write (numbered (d.append fragment).bindings) := by
  induction fragment generalizing d with
  | nil => simp [append, Fragment.write]
  | cons piece rest induction =>
      have grown := bindings_prefix_append (d.add piece) rest
      have parted (writeParam : String → String) : Fragment.write writeParam (piece :: rest) =
          piece.write writeParam ++ Fragment.write writeParam rest := by
        simp [Fragment.write, String.join_cons]
      rw [append_cons, induction, text_add, parted, write_of_prefix grown, String.append_assoc]

theorem bindings_foldl_bind (d : Draft) (names : List String) :
    (names.foldl bind d).bindings =
      names.foldl (fun seen s => if seen.contains s then seen else seen ++ [s]) d.bindings := by
  induction names generalizing d with
  | nil => rfl
  | cons first rest induction =>
      have bound : (d.bind first).bindings =
          if d.bindings.contains first then d.bindings else d.bindings ++ [first] := by
        unfold bind
        split <;> rfl
      rw [List.foldl_cons, List.foldl_cons, induction, bound]

theorem bindings_append (d : Draft) (fragment : Fragment String) :
    (d.append fragment).bindings = (fragment.params.foldl bind d).bindings := by
  have added (d : Draft) (piece : Piece String) :
      (d.add piece).bindings = ((Fragment.params [piece]).foldl bind d).bindings := by
    cases piece with
    | param p => rfl
    | fixed | name | literal | label => rfl
  induction fragment generalizing d with
  | nil => rfl
  | cons piece rest induction =>
      have parted : Fragment.params (piece :: rest) = Fragment.params [piece] ++ Fragment.params rest :=
        Fragment.params_append [piece] rest
      rw [append_cons, induction, parted, List.foldl_append, bindings_foldl_bind, added,
        ← bindings_foldl_bind]

theorem bindings_of_names (names : List String) (fragment : Fragment String) :
    ((reserve {} names).append fragment).bindings = Text.distinct (names ++ fragment.params) := by
  rw [bindings_append, reserve, ← List.foldl_append, bindings_foldl_bind]
  rfl

end Draft

theorem numbered_of_nodup {front names back : List String} (distinct : (front ++ names ++ back).Nodup)
    {i : Nat} {name : String} (here : names[i]? = some name) :
    numbered (front ++ names ++ back) name = placeholder (front.length + i + 1) := by
  have inside : i < names.length := (List.getElem?_eq_some_iff.mp here).1
  have place : (front ++ names ++ back)[front.length + i]? = some name := by
    rw [List.append_assoc, List.getElem?_append_right (Nat.le_add_right _ _),
      Nat.add_sub_cancel_left, List.getElem?_append_left inside, here]
  obtain ⟨bound, found⟩ := List.getElem?_eq_some_iff.mp place
  rw [numbered, ← found, distinct.idxOf_getElem, Int.natCast_add]

def firstPlaceholders (count : Nat) : List String :=
  (List.range count).map fun i : Nat => placeholder (i + 1)

theorem map_numbered_of_nodup {names back : List String} (distinct : (names ++ back).Nodup) :
    names.map (numbered (names ++ back)) = firstPlaceholders names.length := by
  refine List.ext_getElem (by simp [firstPlaceholders]) fun i inside _ => ?_
  rw [List.length_map] at inside
  have place : numbered ([] ++ names ++ back) names[i] = placeholder (([] : List String).length + i + 1) :=
    numbered_of_nodup distinct (List.getElem?_eq_getElem inside)
  rw [List.nil_append] at place
  simp [firstPlaceholders, place]

namespace Query

def parameter (q : Query) (name : String) : String :=
  numbered q.bindings name

/-- The text of the query is that of the statement with every parameter at its position. -/
def Writes (q : Query) (s : Statement String) : Prop :=
  q.text = s.fragment.write q.parameter

end Query

end TenantSql.Sql
