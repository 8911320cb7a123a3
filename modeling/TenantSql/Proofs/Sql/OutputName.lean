import Mathlib.Data.List.Basic
import TenantSql.Proofs.Sql.EachName
import TenantSql.Proofs.Sql.Quoted

/-!
# Output names in SQL text

A query may name what it returns: behind the word `AS` stands a label, a name between
double quotes. Read back, the quotes around it are gone and the doubled quotes inside it
are single again; nothing else is undone, so percent signs stay doubled. In the text of
a query for rows the labels of its items are all that is named in this way.
-/

namespace TenantSql.Sql

variable {π : Type}

/-! ## Names behind a word -/

def Token.label? : Token → Option (List Char)
  | .label name => some name
  | .word _ | .parameter _ | .constant _ | .sign _ => none

def Token.isAs : Token → Bool
  | .word spelling => spelling == ['A', 'S']
  | .parameter _ | .constant _ | .label _ | .sign _ => false

def namesBehindAs (behind : Bool) : List Token → List (List Char)
  | [] => []
  | token :: rest =>
      (if behind then token.label?.toList else []) ++ namesBehindAs token.isAs rest

def outputNames? (text : String) : Option (List String) :=
  (tokens? text.toList).map fun tokens => (namesBehindAs false tokens).map String.ofList

example : outputNames? "SELECT x AS \"so-called \"\"x\"\"\", 'AS', \"y\" FROM z" =
    some ["so-called \"x\""] := by
  decide +kernel

def endsWithAs (s : String) : Bool :=
  ((tokens? s.toList).bind List.getLast?).any Token.isAs

theorem namesBehindAs_append (behind : Bool) (front back : List Token) :
    namesBehindAs behind (front ++ back) = namesBehindAs behind front ++
      namesBehindAs (front.foldl (fun _ token => token.isAs) behind) back := by
  induction front generalizing behind with
  | nil => rfl
  | cons token rest induction =>
      rw [List.cons_append, namesBehindAs, induction, namesBehindAs, List.append_assoc]
      rfl

theorem namesBehindAs_of_unlabelled (behind : Bool) {tokens : List Token}
    (unlabelled : ∀ token ∈ tokens, token.label? = none) : namesBehindAs behind tokens = [] := by
  induction tokens generalizing behind with
  | nil => rfl
  | cons token rest induction =>
      rw [List.forall_mem_cons] at unlabelled
      rw [namesBehindAs, unlabelled.1, induction _ unlabelled.2]
      cases behind <;> rfl

/-! ## Labels of fragments -/

def Quote.label? : Quote → Option String
  | .label name => some name
  | .constant _ => none

namespace Piece

def label? (piece : Piece π) : Option String :=
  piece.quote?.bind Quote.label?

def endsWithAs : Piece π → Bool
  | .fixed s => Sql.endsWithAs s
  | .name _ | .literal _ | .label _ | .param _ => false

end Piece

namespace Fragment

def labels (fragment : Fragment π) : List String :=
  fragment.quotes.filterMap Quote.label?

theorem labels_cons (piece : Piece π) (rest : Fragment π) :
    labels (piece :: rest) = piece.label?.toList ++ labels rest := by
  cases piece <;> rfl

/-- Every label stands behind the word `AS`; the flag says that this word stands before the
fragment. -/
def Aliased : Bool → Fragment π → Prop
  | _, [] => True
  | behind, piece :: rest => (piece.label?.isSome → behind) ∧ Aliased piece.endsWithAs rest

namespace Aliased

variable {behind : Bool} {front back rest : Fragment π}

theorem weaken (aliased : Aliased false rest) : Aliased behind rest := by
  cases rest with
  | nil => trivial
  | cons piece rest =>
      refine ⟨fun label => ?_, aliased.2⟩
      cases aliased.1 label

theorem append (first : Aliased behind front) (second : Aliased false back) :
    Aliased behind (front ++ back) := by
  induction front generalizing behind with
  | nil => exact second.weaken
  | cons piece rest induction => exact ⟨first.1, induction first.2⟩

theorem of_unlabelled (unlabelled : rest.labels = []) : Aliased behind rest := by
  induction rest generalizing behind with
  | nil => trivial
  | cons piece rest induction =>
      rw [labels_cons, List.append_eq_nil_iff] at unlabelled
      refine ⟨fun label => ?_, induction unlabelled.2⟩
      obtain ⟨name, found⟩ := Option.isSome_iff_exists.mp label
      rw [found] at unlabelled
      cases unlabelled.1

theorem separated {separator : String} {items : List (Fragment π)}
    (each : ∀ item ∈ items, Aliased false item) :
    Aliased false (Fragment.separated separator items) := by
  induction items with
  | nil => trivial
  | cons first others induction =>
      rw [List.forall_mem_cons] at each
      cases others with
      | nil => exact each.1
      | cons second others =>
          have later : Aliased false (.fixed separator :: Fragment.separated separator
              (second :: others)) := ⟨nofun, (induction each.2).weaken⟩
          exact each.1.append later

theorem labelled (unlabelled : front.labels = []) {word : String}
    (ends : endsWithAs word) (name : String) :
    Aliased false (front ++ [.fixed word, .label name]) :=
  (of_unlabelled unlabelled).append ⟨nofun, fun _ => ends, trivial⟩

end Aliased

/-! ## Reading labels -/

def Unquoted (s : String) : Prop :=
  ∀ c ∈ s.toList, isUnquoted c

theorem label?_of_isPlain {token : Token} (plain : token.isPlain) : token.label? = none := by
  cases token with
  | word | sign => rfl
  | parameter | constant | label => cases plain

theorem unlabelled_tokens (number : π → Nat) {piece : Piece π} (fits : piece.Fits Unquoted)
    (noLabel : piece.label? = none) : ∀ token ∈ piece.tokens number, token.label? = none := by
  have plain {cs : List Char}
      (read : ∃ tokens, tokens? cs = some tokens ∧ ∀ token ∈ tokens, token.isPlain) :
      ∀ token ∈ (tokens? cs).getD [], token.label? = none := by
    obtain ⟨tokens, read, plain⟩ := read
    rw [read]
    exact fun token member => label?_of_isPlain (plain token member)
  cases piece with
  | fixed s => exact plain (exists_tokens_of_template fits)
  | name s => exact plain (tokens?_of_unquoted fits)
  | literal s => exact List.forall_mem_singleton.mpr rfl
  | label s => cases noLabel
  | param p => exact List.forall_mem_singleton.mpr rfl

theorem foldl_isAs (number : π → Nat) (behind : Bool) {piece : Piece π} (ends : piece.endsWithAs) :
    (piece.tokens number).foldl (fun _ token => token.isAs) behind = true := by
  cases piece with
  | fixed s =>
      obtain ⟨last, found, word⟩ := (Option.any_eq_true _ _).mp ends
      obtain ⟨tokens, read, final⟩ := Option.bind_eq_some_iff.mp found
      obtain ⟨earlier, rfl⟩ := List.getLast?_eq_some_iff.mp final
      rw [Piece.tokens, read, Option.getD_some, List.foldl_append]
      exact word
  | name | literal | label | param => cases ends

/-- The names behind the word `AS` in a fragment whose labels all stand there are its labels, but
for their percent signs. -/
theorem namesBehindAs_tokens {free expected behind : Bool} {fragment : Fragment π}
    (legible : Legible Unquoted free fragment) (aliased : Aliased expected fragment)
    (known : expected → behind) (number : π → Nat) :
    namesBehindAs behind (fragment.flatMap (Piece.tokens number)) =
      fragment.labels.map fun name => doubling (· == '%') name.toList := by
  -- Whether the word was read last is known only where a label may follow.
  induction fragment generalizing free expected behind with
  | nil => rfl
  | cons piece rest induction =>
      obtain ⟨_, fits, _, remaining⟩ := legible
      have later (after : Bool) (ends : piece.endsWithAs → after) :=
        induction remaining aliased.2 ends
      rw [List.flatMap_cons, namesBehindAs_append, labels_cons, List.map_append]
      cases found : piece.label? with
      | none =>
          rw [namesBehindAs_of_unlabelled _ (unlabelled_tokens number fits found),
            later _ (foldl_isAs number behind)]
          rfl
      | some name =>
          have before : behind = true := known (aliased.1 (by rw [found]; rfl))
          cases piece with
          | label s =>
              cases found
              rw [later _ nofun, before]
              rfl
          | fixed | name | literal | param => cases found

theorem outputNames?_write {free : Bool} {fragment : Fragment π}
    (legible : Legible Unquoted free fragment) (aliased : Aliased false fragment)
    (number : π → Nat) :
    outputNames? (fragment.write fun p => placeholder (number p)) =
      some (fragment.labels.map percentDoubled) := by
  have readable (s : String) (unquoted : Unquoted s) : (tokens? s.toList).isSome := by
    obtain ⟨tokens, read, _⟩ := tokens?_of_unquoted unquoted
    exact Option.isSome_iff_exists.mpr ⟨tokens, read⟩
  rw [outputNames?, tokens?_write readable legible, Option.map_some,
    namesBehindAs_tokens legible aliased nofun, List.map_map]
  rfl

end Fragment

/-! ## Queries for rows -/

open Fragment (Aliased labels)

def SelectItem.label? : SelectItem π → Option String
  | .column _ => none
  | .nested _ label | .joined _ _ label => some label

def Select.labels (s : Select π) : List String :=
  s.items.filterMap SelectItem.label?

@[simp] theorem Comparison.labels_quotes (comparison : Comparison π) :
    comparison.quotes.filterMap Quote.label? = [] := by
  cases comparison <;> simp [quotes, Quote.label?]

@[simp] theorem Condition.labels_quotes (condition : Condition π) :
    condition.quotes.filterMap Quote.label? = [] := by
  cases condition <;> simp [quotes, List.filterMap_flatMap]

@[simp] theorem LeftJoin.labels_quotes (join : LeftJoin π) :
    join.quotes.filterMap Quote.label? = [] := by
  simp [quotes, List.filterMap_flatMap]

@[simp] theorem RowValue.labels_quotes (value : RowValue) :
    value.quotes.filterMap Quote.label? = [] := by
  cases value <;> simp [quotes, Quote.label?]

@[simp] theorem Subquery.labels_quotes (q : Subquery π) :
    q.quotes.filterMap Quote.label? = [] := by
  simp [quotes, List.filterMap_flatMap]

theorem SelectItem.labels_quotes (item : SelectItem π) :
    item.quotes.filterMap Quote.label? = item.label?.toList := by
  cases item <;> simp [quotes, label?, Quote.label?]

theorem SelectItem.aliased (item : SelectItem π) : Aliased false item.fragment := by
  cases item with
  | column c => exact .of_unlabelled (by simp [labels, fragment])
  | nested query label => exact .labelled (by simp [labels]) (by decide +kernel) label
  | joined tableAlias entries label => exact .labelled (by simp [labels]) (by decide +kernel) label

theorem Select.labels_source (s : Select π) : Fragment.labels s.source = [] := by
  obtain ⟨items, table, tableAlias, joins, conditions, order, page⟩ := s
  cases order <;> cases page <;>
    simp [Fragment.labels, source, OrderTerm.fragment, List.flatMap_map, List.filterMap_flatMap]

theorem Select.aliased (s : Select π) : Aliased false s.fragment := by
  have items : Aliased false (Fragment.commas (s.items.map SelectItem.fragment)) := by
    refine .separated fun _ mapped => ?_
    obtain ⟨item, _, rfl⟩ := List.mem_map.mp mapped
    exact item.aliased
  have start : Aliased false (Fragment.words "SELECT " : Fragment π) := ⟨nofun, trivial⟩
  exact (start.append items).append (.of_unlabelled s.labels_source)

theorem Select.labels_fragment (s : Select π) : Fragment.labels s.fragment = s.labels := by
  have items : (s.items.flatMap SelectItem.quotes).filterMap Quote.label? = s.labels := by
    rw [List.filterMap_flatMap, labels, List.filterMap_eq_flatMap_toList]
    exact List.flatMap_congr fun item _ => item.labels_quotes
  rw [Fragment.labels, quotes_fragment, quotes, List.filterMap_append, List.filterMap_append, items]
  simp [List.filterMap_flatMap]

/-- The output names that the text of a query for rows states are the labels of its items, but for
their percent signs. -/
theorem Select.outputNames?_write {s : Select π} (names : s.EachName Fragment.Unquoted)
    (number : π → Nat) :
    outputNames? (s.fragment.write fun p => placeholder (number p)) =
      some (s.labels.map percentDoubled) := by
  rw [Fragment.outputNames?_write (Select.fragment_legible names) s.aliased, s.labels_fragment]

end TenantSql.Sql
