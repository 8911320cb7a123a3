import TenantSql.Proofs.Sql.Token

/-!
# Legible fragments

A fragment is legible if its pieces can be told apart in its text: fixed texts
are those of the templates, a piece stands at a boundary wherever it meets
another one, and a dot is followed by a name. The tokens of a legible fragment
are the tokens of its pieces, so its parameters are the ones that the fragment
was made with.
-/

namespace TenantSql.Sql

variable {π : Type}

def templates : List String :=
  [".", " ", " = ", " = ANY(", " <> ALL(", ")", " IN (", ", ", " AND ", "EXISTS (SELECT 1 FROM ",
    " WHERE ", "JSONB_BUILD_OBJECT(", "COALESCE(ARRAY_AGG(", "), ARRAY[]::", "uuid", "jsonb", "[])",
    " JOIN ", " ON ", "(SELECT ", " FROM ", " LIMIT 1)", " AS ", "CASE WHEN ",
    " IS NOT NULL THEN ", " ELSE NULL END AS ", " LEFT JOIN ", " DESC", " ASC", " ORDER BY ",
    " LIMIT ", " OFFSET ", "SELECT ", "EXCLUDED.", "NOW()", " ON CONFLICT (", ") DO NOTHING",
    ") DO UPDATE SET ", "INSERT INTO ", " (", ") VALUES (", " RETURNING ", "permission IN (",
    "permission = ", " WHEN bool_or(", ") THEN ", "SELECT CASE",
    " ELSE NULL END AS _permission FROM ", "UPDATE ", " SET ", "DELETE FROM "]

def isTemplate (s : String) : Bool :=
  templates.contains s

def isTemplateChar (c : Char) : Bool :=
  c.isAlphanum || "_ (),.[]=<>:".toList.contains c

theorem isTemplateChar_of_isTemplate {s : String} (fixed : isTemplate s) :
    ∀ c ∈ s.toList, isTemplateChar c := by
  have each : ∀ s ∈ templates, s.toList.all isTemplateChar := by decide +kernel
  exact List.all_eq_true.mp (each s (List.contains_iff_mem.mp fixed))

def opensWithBoundary (s : String) : Bool :=
  s.toList.head?.any isBoundary

def closesWithBoundary (s : String) : Bool :=
  s.toList.getLast?.any isBoundary

def closesWithDot (s : String) : Bool :=
  s.toList.getLast? == some '.'

def isClosed (s : String) : Bool :=
  isTemplate s && !closesWithDot s

def isEnclosed (s : String) : Bool :=
  isClosed s && opensWithBoundary s && closesWithBoundary s

namespace Piece

def opens : Piece π → Bool
  | .fixed s => opensWithBoundary s
  | _ => false

def closes : Piece π → Bool
  | .fixed s => closesWithBoundary s
  | _ => false

def Fits (P : String → Prop) : Piece π → Prop
  | .fixed s => isTemplate s
  | .name s => P s
  | _ => True

def Leads : Piece π → Fragment π → Prop
  | .fixed s, rest => closesWithDot s → ∃ n others, rest = .name n :: others
  | _, _ => True

theorem leads_of_isClosed {s : String} (closed : isClosed s) (rest : Fragment π) :
    (Piece.fixed s).Leads rest := by
  intro dot
  rw [isClosed, dot, Bool.and_comm] at closed
  cases closed

theorem Leads.append {piece : Piece π} {rest : Fragment π} (leads : piece.Leads rest)
    (more : Fragment π) : piece.Leads (rest ++ more) := by
  cases piece with
  | fixed s =>
      intro dot
      obtain ⟨n, others, rfl⟩ := leads dot
      exact ⟨n, others ++ more, rfl⟩
  | name | literal | label | param => trivial

end Piece

def Piece.tokens (number : π → Nat) : Piece π → List Token
  | .fixed s | .name s => (tokens? s.toList).getD []
  | .literal s => [.constant s.toList]
  | .label s => [.label (doubling (· == '%') s.toList)]
  | .param p => [.parameter (number p)]

namespace Fragment

/-- The pieces can be told apart, and names have the given property; the flag says whether a
boundary stands before the fragment. -/
def Legible (P : String → Prop) : Bool → Fragment π → Prop
  | _, [] => True
  | free, piece :: rest =>
      (free || piece.opens) = true ∧ piece.Fits P ∧ piece.Leads rest ∧ Legible P piece.closes rest

def closing (free : Bool) : Fragment π → Bool
  | [] => free
  | piece :: rest => closing piece.closes rest

namespace Legible

variable {P : String → Prop} {free : Bool} {front back rest : Fragment π} {s : String}

theorem append (first : Legible P free front) (second : Legible P (closing free front) back) :
    Legible P free (front ++ back) := by
  induction front generalizing free with
  | nil => exact second
  | cons piece rest induction =>
      obtain ⟨opens, fits, leads, remaining⟩ := first
      exact ⟨opens, fits, leads.append back, induction remaining second⟩

theorem fits (legible : Legible P free rest) {piece : Piece π} (member : piece ∈ rest) :
    piece.Fits P := by
  induction rest generalizing free with
  | nil => cases member
  | cons first others induction =>
      rcases List.mem_cons.mp member with rfl | later
      · exact legible.2.1
      · exact induction legible.2.2.2 later

theorem weaken (legible : Legible P false rest) : Legible P free rest := by
  cases rest with
  | nil => trivial
  | cons piece rest =>
      obtain ⟨opens, remaining⟩ := legible
      rw [Bool.false_or] at opens
      exact ⟨by rw [opens, Bool.or_true], remaining⟩

theorem follow (first : Legible P free front) (second : Legible P false back) :
    Legible P free (front ++ back) :=
  first.append second.weaken

theorem name (fits : P s) (legible : Legible P false rest) : Legible P true (.name s :: rest) :=
  ⟨rfl, fits, trivial, legible⟩

theorem literal (legible : Legible P false rest) : Legible P true (.literal s :: rest) :=
  ⟨rfl, trivial, trivial, legible⟩

theorem label (legible : Legible P false rest) : Legible P true (.label s :: rest) :=
  ⟨rfl, trivial, trivial, legible⟩

theorem param {p : π} (legible : Legible P false rest) : Legible P true (.param p :: rest) :=
  ⟨rfl, trivial, trivial, legible⟩

theorem enclosed (fits : isEnclosed s) (legible : Legible P true rest) :
    Legible P free (.fixed s :: rest) := by
  simp only [isEnclosed, Bool.and_eq_true] at fits
  obtain ⟨⟨closed, opens⟩, closes⟩ := fits
  refine ⟨by simp [Piece.opens, opens], (Bool.and_eq_true_iff.mp closed).1,
    Piece.leads_of_isClosed closed rest, ?_⟩
  rwa [Piece.closes, closes]

theorem leading (fits : (isClosed s && closesWithBoundary s) = true)
    (legible : Legible P true rest) : Legible P true (.fixed s :: rest) := by
  simp only [Bool.and_eq_true] at fits
  obtain ⟨closed, closes⟩ := fits
  refine ⟨rfl, (Bool.and_eq_true_iff.mp closed).1, Piece.leads_of_isClosed closed rest, ?_⟩
  rwa [Piece.closes, closes]

theorem trailing (fits : (isClosed s && opensWithBoundary s) = true)
    (legible : Legible P false rest) : Legible P free (.fixed s :: rest) := by
  simp only [Bool.and_eq_true] at fits
  obtain ⟨closed, opens⟩ := fits
  exact ⟨by simp [Piece.opens, opens], (Bool.and_eq_true_iff.mp closed).1,
    Piece.leads_of_isClosed closed rest, legible.weaken⟩

theorem inner (fits : isClosed s) (legible : Legible P false rest) :
    Legible P true (.fixed s :: rest) :=
  ⟨rfl, (Bool.and_eq_true_iff.mp fits).1, Piece.leads_of_isClosed fits rest, legible.weaken⟩

theorem dotted {n : String} (fits : (isTemplate s && closesWithDot s) = true)
    (opens : (free || opensWithBoundary s) = true) (named : P n) (legible : Legible P false rest) :
    Legible P free (.fixed s :: .name n :: rest) := by
  obtain ⟨template, dot⟩ := Bool.and_eq_true_iff.mp fits
  have closes : closesWithBoundary s := by
    rw [closesWithBoundary, beq_iff_eq.mp dot]
    decide
  refine ⟨opens, template, fun _ => ⟨n, rest, rfl⟩, ?_⟩
  rw [Piece.closes, closes]
  exact .name named legible

theorem separated {separator : String} (fits : isEnclosed separator) {items : List (Fragment π)}
    (each : ∀ item ∈ items, Legible P true item) :
    Legible P true (Fragment.separated separator items) := by
  induction items with
  | nil => trivial
  | cons first others induction =>
      have here := each first (by simp)
      have later := induction fun item member => each item (by simp [member])
      cases others with
      | nil => exact here
      | cons second others => exact here.follow (.enclosed fits later)

theorem commas {items : List (Fragment π)} (each : ∀ item ∈ items, Legible P true item) :
    Legible P true (Fragment.commas items) :=
  .separated (by decide) each

theorem concat {items : List (Fragment π)} (each : ∀ item ∈ items, Legible P false item) :
    Legible P false (Fragment.concat items) := by
  induction items with
  | nil => trivial
  | cons first others induction =>
      exact (each first (by simp)).follow (induction fun item member => each item (by simp [member]))

end Legible

/-! ## Reading a legible fragment -/

theorem write_cons (writeParam : π → String) (piece : Piece π) (rest : Fragment π) :
    (write writeParam (piece :: rest)).toList =
      (piece.write writeParam).toList ++ (write writeParam rest).toList := by
  simp [write]

theorem Legible.meet {P : String → Prop} {piece : Piece π} {rest : Fragment π}
    (legible : Legible P piece.closes rest) (writeParam : π → String) :
    Meet (piece.write writeParam).toList (write writeParam rest).toList := by
  cases rest with
  | nil => exact .inr (.inl rfl)
  | cons following others =>
      have boundary := legible.1
      rw [Bool.or_eq_true] at boundary
      rcases boundary with closes | opens
      · cases piece with
        | fixed s => exact .inl ((Option.any_eq_true _ _).mp closes)
        | name | literal | label | param => cases closes
      · cases following with
        | fixed s =>
            obtain ⟨c, first, boundary⟩ := (Option.any_eq_true _ _).mp opens
            refine .inr (.inr ⟨c, ?_, boundary⟩)
            rw [write_cons, Piece.write, List.head?_append, first]
            rfl
        | name | literal | label | param => cases opens

theorem isTemplateChar_unquoted {c : Char} (fixed : isTemplateChar c) : isUnquoted c := by
  simp only [isUnquoted, Bool.and_eq_true, bne_iff_ne]
  refine ⟨⟨?_, ?_⟩, ?_⟩ <;> rintro rfl <;> revert fixed <;> decide

variable {P : String → Prop} {free : Bool} {fragment : Fragment π}

theorem exists_tokens_of_template {s : String} (fixed : isTemplate s) :
    ∃ tokens, tokens? s.toList = some tokens ∧ ∀ token ∈ tokens, token.isPlain :=
  tokens?_of_unquoted fun c member =>
    isTemplateChar_unquoted (isTemplateChar_of_isTemplate fixed c member)

theorem tokens?_piece (readable : ∀ s, P s → (tokens? s.toList).isSome) (number : π → Nat)
    {piece : Piece π} (fits : piece.Fits P) :
    tokens? (piece.write fun p => placeholder (number p)).toList = some (piece.tokens number) := by
  cases piece with
  | fixed s =>
      obtain ⟨tokens, read, _⟩ := exists_tokens_of_template fits
      rw [Piece.write, Piece.tokens, read]
      rfl
  | name s =>
      obtain ⟨tokens, read⟩ := Option.isSome_iff_exists.mp (readable s fits)
      rw [Piece.write, Piece.tokens, read]
      rfl
  | literal s => exact tokens?_literal s
  | label s => exact tokens?_label s
  | param p => exact tokens?_placeholder (number p)

/-- A legible fragment is read piece by piece. -/
theorem tokens?_write (readable : ∀ s, P s → (tokens? s.toList).isSome)
    (legible : Legible P free fragment) (number : π → Nat) :
    tokens? (fragment.write fun p => placeholder (number p)).toList =
      some (fragment.flatMap (Piece.tokens number)) := by
  induction fragment generalizing free with
  | nil => rfl
  | cons piece rest induction =>
      obtain ⟨_, fits, _, remaining⟩ := legible
      rw [write_cons, tokens?_append (remaining.meet _) (tokens?_piece readable number fits),
        induction remaining, Option.map_some, List.flatMap_cons]

theorem parameters_piece (number : π → Nat) {piece : Piece π} (fits : piece.Fits HoldsNoParameter) :
    (piece.tokens number).filterMap Token.parameter? = (params [piece]).map number := by
  cases piece with
  | fixed s =>
      obtain ⟨tokens, read, plain⟩ := exists_tokens_of_template fits
      rw [Piece.tokens, read]
      exact parameters_of_isPlain plain
  | name s =>
      obtain ⟨tokens, read, absent⟩ := holdsNoParameter_iff.mp fits
      rw [Piece.tokens, read]
      exact absent
  | literal | label | param => rfl

theorem parameters_tokens (legible : Legible HoldsNoParameter free fragment) (number : π → Nat) :
    (fragment.flatMap (Piece.tokens number)).filterMap Token.parameter? =
      fragment.params.map number := by
  induction fragment generalizing free with
  | nil => rfl
  | cons piece rest induction =>
      obtain ⟨_, fits, _, remaining⟩ := legible
      have parted : params (piece :: rest) = params [piece] ++ params rest :=
        params_append [piece] rest
      rw [List.flatMap_cons, List.filterMap_append, parameters_piece number fits,
        induction remaining, parted, List.map_append]

/-- The parameters in the text of a legible fragment are its own, by their numbers. -/
theorem parameters?_write (legible : Legible HoldsNoParameter free fragment) (number : π → Nat) :
    parameters? (fragment.write fun p => placeholder (number p)) =
      some (fragment.params.map number) := by
  have readable (s : String) (absent : HoldsNoParameter s) : (tokens? s.toList).isSome := by
    obtain ⟨tokens, read, _⟩ := holdsNoParameter_iff.mp absent
    exact Option.isSome_iff_exists.mpr ⟨tokens, read⟩
  rw [parameters?, tokens?_write readable legible, Option.map_some,
    parameters_tokens legible number]

end Fragment

end TenantSql.Sql
