/-!
# Quoting and reserved words

Constants and labels in quotes, and the words that stand in quotes or must not be
names.
-/

namespace TenantSql.Sql

/-! ## Quoting

Constants stand between single quotes and labels between double quotes; the
enclosing quote is doubled inside. A label's percent signs are doubled too. -/

def doubling (twice : Char → Bool) : List Char → List Char
  | [] => []
  | c :: rest => if twice c then c :: c :: doubling twice rest else c :: doubling twice rest

def literal (s : String) : String :=
  String.ofList ('\'' :: doubling (· == '\'') s.toList ++ ['\''])

def label (s : String) : String :=
  String.ofList ('"' :: doubling (fun c => c == '"' || c == '%') s.toList ++ ['"'])

def percentDoubled (s : String) : String :=
  String.ofList (doubling (· == '%') s.toList)

theorem doubling_append (twice : Char → Bool) (front back : List Char) :
    doubling twice (front ++ back) = doubling twice front ++ doubling twice back := by
  induction front with
  | nil => rfl
  | cons c rest induction => by_cases hit : twice c <;> simp [doubling, hit, induction]

theorem doubling_eq_self {twice : Char → Bool} {cs : List Char}
    (none : ∀ c ∈ cs, twice c = false) : doubling twice cs = cs := by
  induction cs with
  | nil => rfl
  | cons c rest induction =>
      simp [doubling, none c (by simp), induction fun d member => none d (by simp [member])]

theorem length_doubling (twice : Char → Bool) (cs : List Char) :
    (doubling twice cs).length = cs.length + cs.countP twice := by
  induction cs with
  | nil => rfl
  | cons c rest induction =>
      rw [doubling, List.countP_cons]
      split <;> simp [induction] <;> omega

theorem doubling_eq_self_iff {twice : Char → Bool} {cs : List Char} :
    doubling twice cs = cs ↔ ∀ c ∈ cs, twice c = false := by
  refine ⟨fun same => ?_, doubling_eq_self⟩
  have lengths := length_doubling twice cs
  rw [same] at lengths
  have none : cs.countP twice = 0 := by omega
  simpa [List.countP_eq_zero] using none

theorem doubling_inj {twice : Char → Bool} {cs others : List Char} :
    doubling twice cs = doubling twice others ↔ cs = others := by
  refine ⟨fun same => ?_, congrArg _⟩
  induction cs generalizing others with
  | nil =>
      cases others with
      | nil => rfl
      | cons d rest =>
          rw [doubling, doubling] at same
          split at same <;> cases same
  | cons c rest induction =>
      cases others with
      | nil =>
          rw [doubling, doubling] at same
          split at same <;> cases same
      | cons d others =>
          rw [doubling, doubling] at same
          obtain rfl : c = d := by
            split at same <;> split at same <;> exact (List.cons.inj same).1
          by_cases doubled : twice c
          · rw [if_pos doubled, if_pos doubled] at same
            rw [induction (List.cons.inj (List.cons.inj same).2).2]
          · rw [if_neg doubled, if_neg doubled] at same
            rw [induction (List.cons.inj same).2]

theorem percentDoubled_eq_self_iff {s : String} : percentDoubled s = s ↔ '%' ∉ s.toList := by
  rw [← String.toList_inj, percentDoubled, String.toList_ofList, doubling_eq_self_iff]
  exact ⟨fun each member => by simpa using each _ member,
    fun absent c member => beq_eq_false_iff_ne.mpr fun same => absent (same ▸ member)⟩

theorem percentDoubled_inj {s other : String} :
    percentDoubled s = percentDoubled other ↔ s = other := by
  rw [percentDoubled, percentDoubled, String.ofList_inj, doubling_inj, String.toList_inj]

theorem map_percentDoubled_eq_self_iff {names : List String} :
    names.map percentDoubled = names ↔ ∀ name ∈ names, '%' ∉ name.toList := by
  induction names with
  | nil => simp
  | cons name rest induction =>
      rw [List.map_cons, List.cons.injEq, percentDoubled_eq_self_iff, induction,
        List.forall_mem_cons]

/-! ## Reserved words

Names that equal a word of SQL. A small set is kept out of tables and columns,
since statements write names bare; a larger set is put in quotes where tables
are created. -/

def forbiddenWords : List String :=
  ["all", "and", "any", "array", "as", "asc", "both", "case", "cast", "check", "collate",
    "column", "constraint", "create", "default", "desc", "distinct", "do", "else", "end",
    "except", "false", "fetch", "for", "foreign", "from", "grant", "group", "having", "in",
    "intersect", "into", "leading", "limit", "not", "null", "offset", "on", "only", "or",
    "order", "primary", "references", "returning", "select", "some", "table", "then", "to",
    "trailing", "true", "union", "unique", "user", "using", "when", "where", "window", "with"]

def isForbidden (name : String) : Bool :=
  forbiddenWords.contains name

def quotedWords : List String :=
  ["all", "analyse", "analyze", "and", "any", "array", "as", "asc", "asymmetric",
    "authorization", "between", "binary", "both", "case", "cast", "check", "collate", "column",
    "constraint", "create", "cross", "current_catalog", "current_date", "current_role",
    "current_schema", "current_time", "current_timestamp", "current_user", "default",
    "deferrable", "desc", "distinct", "do", "else", "end", "except", "false", "fetch", "for",
    "foreign", "freeze", "from", "full", "grant", "group", "having", "ilike", "in", "initially",
    "inner", "intersect", "into", "is", "isnull", "join", "leading", "left", "like", "limit",
    "localtime", "localtimestamp", "natural", "new", "not", "notnull", "null", "of", "off",
    "offset", "old", "on", "only", "or", "order", "outer", "over", "overlaps", "placing",
    "primary", "references", "returning", "right", "select", "session_user", "similar", "some",
    "symmetric", "table", "then", "to", "trailing", "true", "union", "unique", "user", "using",
    "variadic", "verbose", "when", "where", "window", "with"]

def isQuotedWord (name : String) : Bool :=
  quotedWords.contains name

theorem isQuotedWord_of_isForbidden {name : String} (forbidden : isForbidden name) :
    isQuotedWord name := by
  have covered : forbiddenWords.Sublist quotedWords := by decide +kernel
  exact List.contains_iff_mem.mpr (covered.subset (List.contains_iff_mem.mp forbidden))

end TenantSql.Sql
