import TenantSql.Proofs.Query.Closure
import TenantSql.Proofs.Query.Quotes
import TenantSql.Proofs.Sql.Split

/-!
# Lexemes of queries

What a definition may bring into the text of a query: bare names, and texts
between quotes. The text falls into the words and signs of the templates, bare
names, placeholders and quoted texts, each of which ends where its piece ends.
Two things can break this. The full name of a field is put together before its
column is checked, so it need not be a bare name; an insertion returns it. And
no quoted text may hold the character zero.
-/

namespace TenantSql

open Sql

/-! ## Ordinary lexemes -/

namespace Sql

def templateWords : List String :=
  ["ALL", "AND", "ANY", "ARRAY", "ARRAY_AGG", "AS", "ASC", "BY", "CASE", "COALESCE", "CONFLICT",
    "DELETE", "DESC", "DO", "ELSE", "END", "EXCLUDED", "EXISTS", "FROM", "IN", "INSERT", "INTO",
    "IS", "JOIN", "JSONB_BUILD_OBJECT", "LEFT", "LIMIT", "NOT", "NOTHING", "NOW", "NULL", "OFFSET",
    "ON", "ORDER", "RETURNING", "SELECT", "SET", "THEN", "UPDATE", "VALUES", "WHEN", "WHERE",
    "_permission", "bool_or", "jsonb", "permission", "uuid"]

def templateSymbols : List String :=
  [".", ",", "(", ")", "[", "]", "=", "<>", "::"]

def Lexeme.isOfTemplate : Lexeme → Bool
  | .blank c => c == ' '
  | .word spelling => templateWords.contains (String.ofList spelling)
  | .number digits => digits == ['1']
  | .symbol spelling => templateSymbols.contains (String.ofList spelling)
  | .parameter _ | .constant _ | .label _ => false

def Lexeme.IsOrdinary (mayQuote : Quote → Prop) (placeholders : Nat) : Lexeme → Prop
  | .blank c => c = ' ' ∨ c = '\n'
  | .word spelling => String.ofList spelling ∈ templateWords ∨ isIdentifierWord spelling
  | .number digits => digits = ['1']
  | .parameter digits => ∃ k, 1 ≤ k ∧ k ≤ placeholders ∧ digits = Nat.toDigits 10 k
  | .constant value => ∃ s, mayQuote (.constant s) ∧ value = s.toList
  | .label name => ∃ s, mayQuote (.label s) ∧ name = doubling (· == '%') s.toList
  | .symbol spelling => String.ofList spelling ∈ templateSymbols

def Piece.IsSafe {π : Type} (mayQuote : Quote → Prop) : Piece π → Prop
  | .fixed s => isTemplate s
  | .name s => IsBareName s
  | .literal s => mayQuote (.constant s)
  | .label s => mayQuote (.label s)
  | .param _ => True

variable {mayQuote : Quote → Prop} {placeholders : Nat}

theorem isOrdinary_of_template {s : String} (fixed : isTemplate s) :
    ∀ lexeme ∈ (lexemes? s.toList).getD [], lexeme.IsOrdinary mayQuote placeholders := by
  have each : ∀ s ∈ templates, ∀ lexeme ∈ (lexemes? s.toList).getD [], lexeme.isOfTemplate := by
    decide +kernel
  intro lexeme member
  have found := each s (List.contains_iff_mem.mp fixed) lexeme member
  cases lexeme with
  | blank c => exact .inl (beq_iff_eq.mp found)
  | word spelling => exact .inl (List.contains_iff_mem.mp found)
  | number digits => exact beq_iff_eq.mp found
  | symbol spelling => exact List.contains_iff_mem.mp found
  | parameter | constant | label => cases found

theorem isOrdinary_of_bareName {s : String} (bare : IsBareName s) :
    ∀ lexeme ∈ (lexemes? s.toList).getD [], lexeme.IsOrdinary mayQuote placeholders := by
  obtain ⟨lexemes, named, reads⟩ := Scan.reads_bareName bare
  have alone : lexemes? s.toList = some lexemes := (reads .between (.inl rfl)).1 [] rfl
  rw [alone]
  intro lexeme member
  have ofName := named lexeme member
  cases lexeme with
  | blank c => exact .inr (beq_iff_eq.mp ofName)
  | word spelling => exact .inr ofName
  | symbol spelling =>
      have dot : String.ofList ['.'] ∈ templateSymbols := by decide
      exact (beq_iff_eq.mp ofName).symm ▸ dot
  | number | parameter | constant | label => cases ofName

theorem Piece.IsSafe.isOrdinary {π : Type} {piece : Piece π} (safe : piece.IsSafe mayQuote)
    {number : π → Nat}
    (bound : ∀ p ∈ Fragment.params [piece], 1 ≤ number p ∧ number p ≤ placeholders) :
    ∀ lexeme ∈ piece.lexemes number, lexeme.IsOrdinary mayQuote placeholders := by
  cases piece with
  | fixed s => exact isOrdinary_of_template safe
  | name s => exact isOrdinary_of_bareName safe
  | literal s =>
      intro lexeme member
      rw [List.mem_singleton.mp member]
      exact ⟨s, safe, rfl⟩
  | label s =>
      intro lexeme member
      rw [List.mem_singleton.mp member]
      exact ⟨s, safe, rfl⟩
  | param p =>
      intro lexeme member
      rw [List.mem_singleton.mp member]
      obtain ⟨positive, inside⟩ := bound p (by simp [Fragment.params])
      exact ⟨number p, positive, inside, rfl⟩

/-! ## Queries that are split safely -/

def Query.position (q : Query) (name : String) : Nat :=
  q.bindings.idxOf name + 1

/-- The text of the query is that of the pieces of the statement. It is split into the lexemes of
these pieces: each piece is spelled by its own, which are ordinary. -/
structure Query.SplitsSafely (q : Query) (mayQuote : Quote → Prop) (s : Statement String) :
    Prop where
  writes : q.Writes s
  lexemes : lexemes? q.text.toList = some (s.fragment.flatMap (Piece.lexemes q.position))
  spells : ∀ piece ∈ s.fragment,
    spelled (piece.lexemes q.position) = (piece.write q.parameter).toList
  safe : ∀ piece ∈ s.fragment, piece.IsSafe mayQuote
  ordinary : ∀ piece ∈ s.fragment, ∀ lexeme ∈ piece.lexemes q.position,
    lexeme.IsOrdinary mayQuote q.bindings.length

/-! ## Pieces of a statement -/

namespace Fragment

variable {π : Type}

theorem mem_quotes {fragment : Fragment π} {quote : Quote} :
    quote ∈ quotes fragment ↔ ∃ piece ∈ fragment, piece.quote? = some quote :=
  List.mem_filterMap

theorem mem_separated {separator : String} {items : List (Fragment π)} {item : Fragment π}
    (member : item ∈ items) {piece : Piece π} (among : piece ∈ item) :
    piece ∈ separated separator items := by
  induction items with
  | nil => cases member
  | cons first others induction =>
      cases others with
      | nil =>
          rw [List.mem_singleton.mp member] at among
          exact among
      | cons second others =>
          show piece ∈ first ++ .fixed separator :: separated separator (second :: others)
          rcases List.mem_cons.mp member with rfl | later
          · exact List.mem_append_left _ among
          · exact List.mem_append_right _ (List.mem_cons_of_mem _ (induction later))

theorem mem_write {fragment : Fragment π} {writeParam : π → String} {piece : Piece π}
    (member : piece ∈ fragment) {c : Char} (among : c ∈ (piece.write writeParam).toList) :
    c ∈ (fragment.write writeParam).toList := by
  rw [write, String.toList_join, List.mem_flatMap]
  exact ⟨_, List.mem_map_of_mem member, among⟩

end Fragment

theorem mem_doubling {twice : Char → Bool} {c : Char} {cs : List Char} (member : c ∈ cs) :
    c ∈ doubling twice cs := by
  induction cs with
  | nil => cases member
  | cons d rest induction =>
      rw [doubling]
      rcases List.mem_cons.mp member with rfl | later
      · split <;> exact List.mem_cons_self
      · split
        · exact List.mem_cons_of_mem _ (List.mem_cons_of_mem _ (induction later))
        · exact List.mem_cons_of_mem _ (induction later)

theorem mem_of_quote? {π : Type} {piece : Piece π} {quote : Quote}
    (quoted : piece.quote? = some quote) {writeParam : π → String} {c : Char}
    (member : c ∈ quote.text.toList) : c ∈ (piece.write writeParam).toList := by
  cases piece with
  | literal s =>
      cases quoted
      rw [Piece.write, Sql.literal, String.toList_ofList]
      exact List.mem_append_left _ (List.mem_cons_of_mem _ (mem_doubling member))
  | label s =>
      cases quoted
      rw [Piece.write, Sql.label, String.toList_ofList]
      exact List.mem_append_left _ (List.mem_cons_of_mem _ (mem_doubling member))
  | fixed | name | param => cases quoted

theorem Statement.name_mem_of_returned {π : Type} {s : Statement π} {name : String}
    (returned : name ∈ s.returned) : .name name ∈ s.fragment := by
  cases s with
  | insert s =>
      have listed : .name name ∈ (nameList s.returning : Fragment π) :=
        Fragment.mem_separated (List.mem_map_of_mem returned) List.mem_cons_self
      rw [fragment, Insert.fragment]
      exact List.mem_append_right _ listed
  | update | delete | select | lookup => cases returned

theorem Query.SplitsSafely.noZero {q : Query} {mayQuote : Quote → Prop} {s : Statement String}
    (splits : q.SplitsSafely mayQuote s) {quote : Quote} (quoted : quote ∈ s.quotes) :
    '\x00' ∉ quote.text.toList := by
  intro zero
  rw [← Statement.quotes_fragment] at quoted
  obtain ⟨piece, listed, same⟩ := Fragment.mem_quotes.mp quoted
  have text : q.text = s.fragment.write q.parameter := splits.writes
  have among : '\x00' ∈ q.text.toList := text ▸ Fragment.mem_write listed (mem_of_quote? same zero)
  have refused := splits.lexemes
  rw [lexemes?_zero among] at refused
  cases refused

end Sql

/-! ## The queries of a loaded definition -/

/-- The query of a plan is split safely if its names are bare and what it quotes may be quoted. -/
theorem Plan.splitsSafely {p : Plan} {mayQuote : Quote → Prop}
    (names : p.statement.EachName IsBareName)
    (quotes : ∀ quote ∈ p.statement.quotes, mayQuote quote)
    (labels : ∀ name, .label name ∈ p.statement.quotes → name ≠ "")
    (noZero : ∀ quote ∈ p.statement.quotes, '\x00' ∉ quote.text.toList) :
    p.query.SplitsSafely mayQuote p.statement := by
  have legible := Statement.fragment_legible names
  have quoted {piece : Piece String} (listed : piece ∈ p.statement.fragment) {quote : Quote}
      (same : piece.quote? = some quote) : quote ∈ p.statement.quotes := by
    rw [← Statement.quotes_fragment]
    exact Fragment.mem_quotes.mpr ⟨piece, listed, same⟩
  have quotable : ∀ piece ∈ p.statement.fragment, piece.IsQuotable := by
    intro piece listed
    cases piece with
    | literal s => exact noZero _ (quoted listed rfl)
    | label s => exact ⟨labels s (quoted listed rfl), noZero _ (quoted listed rfl)⟩
    | fixed | name | param => trivial
  have safe : ∀ piece ∈ p.statement.fragment, piece.IsSafe mayQuote := by
    intro piece listed
    cases piece with
    | fixed s => exact legible.fits listed
    | name s => exact legible.fits listed
    | literal s => exact quotes _ (quoted listed rfl)
    | label s => exact quotes _ (quoted listed rfl)
    | param => trivial
  obtain ⟨reads, spells⟩ := legible.reads quotable p.query.position (r := .between) (.inl rfl)
  refine ⟨p.writes_query, ?_, spells, safe, fun piece listed => (safe piece listed).isOrdinary ?_⟩
  · have text : p.query.text = p.statement.fragment.write p.query.parameter := p.writes_query
    rw [text]
    exact reads [] rfl
  · intro name used
    have among : name ∈ p.query.bindings := by
      refine Plan.mem_bindings.mpr (.inr ?_)
      cases piece with
      | param other =>
          rw [List.mem_singleton.mp used]
          exact List.mem_filterMap.mpr ⟨_, listed, rfl⟩
      | fixed | name | literal | label => cases used
    exact ⟨Nat.le_add_left _ _, List.idxOf_lt_length_of_mem among⟩

theorem Model.HasPlan.splitsSafely {models : List Model} {m : Model}
    (all : ∀ m ∈ models, m.Loaded models) (member : m ∈ models)
    {p : Plan} (plan : m.HasPlan p) (bare : ∀ name ∈ p.statement.returned, IsBareName name)
    (noZero : ∀ quote ∈ p.statement.quotes, '\x00' ∉ quote.text.toList) :
    p.query.SplitsSafely (m.MayQuote models) p.statement :=
  Plan.splitsSafely (plan.eachName (fun _ => .inl) (Loaded.isNamed all member) bare)
    (plan.mayQuote all member)
    (fun _ among => (plan.mayQuote all member _ among).label_ne_empty all member) noZero

/-- Whatever definition is loaded, its queries are split safely, but for an insertion that returns a
full name that is not bare, and for quotes around the character zero. A list that is asked for in
some order has the name and the direction of a field in its text, not the request. -/
theorem loadModels_splitsSafely_iff {raw : Entries} {settings : Settings} {source : Option String}
    {models : List Model} (loaded : loadModels raw settings source = .ok models) {m : Model}
    (member : m ∈ models) :
    (∀ q, m.HasQuery q → ∃ s, m.Generates q s) ∧
      (∀ q s, m.Generates q s → (q.SplitsSafely (m.MayQuote models) s ↔
        (∀ f ∈ m.readableFields, f.fullName ∈ s.returned → IsBareName f.fullName) ∧
          ∀ quote ∈ s.quotes, '\x00' ∉ quote.text.toList)) ∧
      ∀ populated request q, m.listQuery populated (some request) = .ok (some q) →
        ∃ f ∈ m.sortableFields, ∃ descending,
          q = (m.listPlan populated (some ⟨f.name, f.column, descending⟩)).query := by
  have all : ∀ m ∈ models, m.Loaded models := fun _ listed => loadModels_loaded loaded listed
  refine ⟨fun q query => ?_, ?_, fun populated request q listed => ?_⟩
  · obtain ⟨p, plan, rfl⟩ := Model.hasQuery_iff.mp query
    exact ⟨_, p, plan, rfl, rfl⟩
  · rintro q s ⟨p, plan, rfl, rfl⟩
    refine ⟨fun splits => ⟨fun f _ returned => ?_, fun quote quoted => ?_⟩, fun ⟨bare, noZero⟩ => ?_⟩
    · exact splits.safe _ (Statement.name_mem_of_returned returned)
    · exact splits.noZero quoted
    · refine plan.splitsSafely all member (fun name returned => ?_) noZero
      obtain ⟨f, held, rfl⟩ := plan.returned name returned
      exact bare f held returned
  · obtain ⟨p, found, rfl⟩ := Model.listQuery_eq_ok.mp listed
    obtain ⟨_, order, admitted, rfl⟩ := Model.list?_eq_some.mp found
    obtain ⟨o, _, rfl⟩ := Result.map_eq_ok.mp admitted
    obtain ⟨f, sortable, descending, rfl⟩ := Model.sortable_of_listOrder admitted
    exact ⟨f, sortable, descending, rfl⟩

theorem blog_splitsSafely : ∃ models m, loadModels (blog "data") .default none = .ok models ∧
    m ∈ models ∧ m.insertPlan.query.SplitsSafely (m.MayQuote models) m.insertPlan.statement ∧
    m.insertPlan.statement.returned = ["posts.id", "posts.organization_id", "posts.updated_at",
      "posts.created_at", "posts.title"] ∧
    (m.selectOnePlan true).query.SplitsSafely (m.MayQuote models) (m.selectOnePlan true).statement ∧
    (m.selectOnePlan true).statement.quotes = [.constant "id", .constant "organization_id",
      .constant "updated_at", .constant "created_at", .constant "label", .label "tags"] := by
  have loaded := loadModels_blog .data
  have member := blogPost_mem .data
  have known := loadModels_loaded loaded member
  obtain ⟨_, splits, _⟩ := loadModels_splitsSafely_iff loaded member
  have full : ∀ f ∈ (blogPost .data).readableFields,
      f.fullName = (blogPost .data).table ++ "." ++ f.column := by
    decide +kernel
  have noQuotes : (blogPost .data).insertPlan.statement.quotes = [] := rfl
  have inserts := (splits _ _ ⟨_, .insert, rfl, rfl⟩).mpr
    ⟨fun f held _ => .inr ⟨_, _, known.table, known.columns f (List.mem_filter.mp held).1,
      full f held⟩, by rw [noQuotes]; exact nofun⟩
  have quotes : ((blogPost .data).selectOnePlan true).statement.quotes = [.constant "id",
      .constant "organization_id", .constant "updated_at", .constant "created_at",
      .constant "label", .label "tags"] := by
    decide +kernel
  have noNames : ((blogPost .data).selectOnePlan true).statement.returned = [] := rfl
  have populated : (blogPost .data).HasPlan ((blogPost .data).selectOnePlan true) :=
    .selectOne fun _ => blogPost_children .data
  have reads := (splits _ _ ⟨_, populated, rfl, rfl⟩).mpr
    ⟨by simp only [noNames, List.not_mem_nil, false_implies, implies_true],
      by rw [quotes]; decide +kernel⟩
  exact ⟨_, _, loaded, member, inserts, by decide +kernel, reads, quotes⟩

theorem Plan.toList_text (p : Plan) : p.query.text.toList =
    p.statement.fragment.flatMap fun piece => (piece.write p.query.parameter).toList := by
  have text : p.query.text = p.statement.fragment.write p.query.parameter := p.writes_query
  rw [text, Fragment.write, String.toList_join, List.flatMap_map]

def untitledBlog : Entries := .ofFields [("models", .list [
  .ofFields [("name", .text "Post"), ("fields", .list [
    .ofFields [("name", .text "title"), ("column", .scalar .null)]])]])]

/-- An insertion may return a word that is neither fixed nor an identifier. -/
theorem untitledBlog_splitsUnsafely : ∃ models m q lexemes,
    loadModels untitledBlog .default none = .ok models ∧ m ∈ models ∧ m.HasQuery q ∧
    lexemes? q.text.toList = some lexemes ∧
    ∃ lexeme ∈ lexemes, ¬ lexeme.IsOrdinary (m.MayQuote models) q.bindings.length := by
  obtain ⟨models, m, loaded, member, checked⟩ := exists_loaded untitledBlog
    (fun m _ => (lexemes? (m.insertPlan.statement.fragment.flatMap fun piece =>
      (piece.write m.insertPlan.query.parameter).toList)).any
        (·.contains (.word ['N', 'o', 'n', 'e']))) (by decide +kernel)
  rw [← Plan.toList_text] at checked
  obtain ⟨lexemes, split, found⟩ := (Option.any_eq_true _ _).mp checked
  have query : m.HasQuery m.insertPlan.query := Model.hasQuery_iff.mpr ⟨_, .insert, rfl⟩
  refine ⟨models, m, _, lexemes, loaded, member, query, split, _,
    List.contains_iff_mem.mp found, ?_⟩
  rintro (word | identifier)
  · revert word
    decide
  · revert identifier
    decide

end TenantSql
