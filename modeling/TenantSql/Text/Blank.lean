/-!
# Blanks, line ends and layout

Blank characters and what trimming makes of them, the ends of lines in texts from
outside, and columns of a fixed width.
-/

namespace TenantSql.Text

/-! ## Blank characters

The blanks that trimming removes: every character with Unicode's white space
property, and the four information separators `U+001C` to `U+001F`. -/

def isWhiteSpace (c : Char) : Bool :=
  let n := c.toNat
  (0x09 ≤ n && n ≤ 0x0D) || n == 0x20 || n == 0x85 || n == 0xA0 ||
    n == 0x1680 || (0x2000 ≤ n && n ≤ 0x200A) || n == 0x2028 || n == 0x2029 ||
    n == 0x202F || n == 0x205F || n == 0x3000

def isBlank (c : Char) : Bool :=
  isWhiteSpace c || (0x1C ≤ c.toNat && c.toNat ≤ 0x1F)

def trimRightChars (cs : List Char) : List Char :=
  (cs.reverse.dropWhile isBlank).reverse

def trimRight (s : String) : String :=
  String.ofList (trimRightChars s.toList)

def trim (s : String) : String :=
  String.ofList (trimRightChars (s.toList.dropWhile isBlank))

def isAllBlank (s : String) : Bool :=
  s.toList.all isBlank

theorem isBlank_of_isWhitespace {c : Char} (space : c.isWhitespace) : isBlank c := by
  simp only [Char.isWhitespace, Bool.or_eq_true, decide_eq_true_eq] at space
  rcases space with ((rfl | rfl) | rfl) | rfl <;> decide

/-! ## Line ends

Texts from outside end their lines with a line feed, a carriage return or both.
Inside, a line ends with a line feed. -/

def lineFeeds : List Char → List Char
  | '\r' :: '\n' :: rest => '\n' :: lineFeeds rest
  | '\r' :: rest => '\n' :: lineFeeds rest
  | c :: rest => c :: lineFeeds rest
  | [] => []

def withLineFeeds (s : String) : String :=
  String.ofList (lineFeeds s.toList)

def endsLine (c : Char) : Bool :=
  (0x0A ≤ c.toNat && c.toNat ≤ 0x0D) || (0x1C ≤ c.toNat && c.toNat ≤ 0x1E) ||
    c == '\u0085' || c == '\u2028' || c == '\u2029'

def lastLine (s : String) : String :=
  String.ofList ((trim s).toList.reverse.takeWhile (!endsLine ·)).reverse

theorem not_mem_lineFeeds (cs : List Char) : '\r' ∉ lineFeeds cs := by
  fun_induction lineFeeds cs <;> simp_all [eq_comm]

/-! ## Laying out text

Columns of a fixed width, numbers with thousands separators, and the counts by
which a file is described. -/

def padRight (width : Nat) (s : String) : String :=
  s ++ String.ofList (List.replicate (width - s.length) ' ')

def padLeft (width : Nat) (fill : Char) (s : String) : String :=
  String.ofList (List.replicate (width - s.length) fill) ++ s

def rule (length : Nat) (c : Char) : String :=
  String.ofList (List.replicate length c)

def groupReversed : List Char → List Char
  | a :: b :: c :: d :: rest => a :: b :: c :: ',' :: groupReversed (d :: rest)
  | short => short

def grouped (n : Int) : String :=
  (if n < 0 then "-" else "") ++
    String.ofList (groupReversed (toString n.natAbs).toList.reverse).reverse

def countLines (s : String) : Nat :=
  let breaks := s.toList.count '\n'
  match s.toList.getLast? with
  | none => 0
  | some last => if last == '\n' then breaks else breaks + 1

end TenantSql.Text
