/-!
# Names of modules and tables

A model's name gives its module a name in snake case, and its table the plural of
that.
-/

namespace TenantSql.Text

/-! ## Snake case

A name of any spelling becomes lower-case ASCII words joined by single
underscores. Words start at a capital after a small letter or a digit, at the
last capital of a run that small letters follow (`HTTPLog` is `http_log`), and
after anything that is neither an ASCII letter nor a digit. -/

def breakCapitalRuns : List Char → List Char
  | a :: b :: c :: rest =>
      if a.isUpper && b.isUpper && c.isLower then
        a :: '_' :: breakCapitalRuns (b :: c :: rest)
      else a :: breakCapitalRuns (b :: c :: rest)
  | short => short

def breakBeforeCapitals : List Char → List Char
  | a :: b :: rest =>
      if (a.isLower || a.isDigit) && b.isUpper then
        a :: '_' :: breakBeforeCapitals (b :: rest)
      else a :: breakBeforeCapitals (b :: rest)
  | short => short

def separatorsToUnderscores (cs : List Char) : List Char :=
  cs.map fun c => if c.isAlphanum then c else '_'

def squeezeUnderscores : List Char → List Char
  | a :: b :: rest =>
      if a == '_' && b == '_' then squeezeUnderscores (b :: rest)
      else a :: squeezeUnderscores (b :: rest)
  | short => short

def trimUnderscores (cs : List Char) : List Char :=
  ((cs.dropWhile (· == '_')).reverse.dropWhile (· == '_')).reverse

def snakeCaseChars (cs : List Char) : List Char :=
  (trimUnderscores <| squeezeUnderscores <| separatorsToUnderscores <|
    breakBeforeCapitals <| breakCapitalRuns cs).map Char.toLower

def snakeCase (name : String) : String :=
  String.ofList (snakeCaseChars name.toList)

example : snakeCaseChars "PostTag".toList = "post_tag".toList := by decide

example : snakeCaseChars "HTTPLog".toList = "http_log".toList := by decide

/-! ## English plurals

The plural of a snake-case name, regular but for a short list of nouns. Only
the word after the last underscore counts. Endings are compared without regard
to the case of ASCII letters. -/

def irregularPlurals : List (String × String) :=
  [("person", "people"), ("child", "children"), ("man", "men"), ("woman", "women"),
    ("datum", "data"), ("index", "indices"), ("status", "statuses"), ("address", "addresses")]

def splitLastWord (name : List Char) : List Char × List Char :=
  let word := (name.reverse.takeWhile (· != '_')).reverse
  (name.take (name.length - word.length), word)

def capitalized : List Char → List Char
  | [] => []
  | c :: rest => c.toUpper :: rest

def endsIn (cs ending : List Char) : Bool :=
  ending.reverse.isPrefixOf cs.reverse

def endsInConsonantY (word : List Char) : Bool :=
  match word.reverse with
  | 'y' :: before :: _ => !"aeiou".toList.contains before
  | _ => false

def plural (name : String) : String :=
  let chars := name.toList
  let (before, word) := splitLastWord chars
  let small := word.map Char.toLower
  let ends := fun ending : String => endsIn small ending.toList
  if chars.isEmpty then ""
  else
    match irregularPlurals.lookup (String.ofList small) with
    | some irregular =>
        let letters := irregular.toList
        let sameCase := if word.head?.any Char.isUpper then capitalized letters else letters
        String.ofList (before ++ sameCase)
    | none =>
        if ends "s" && !ends "ss" then name
        else if ends "sh" || ends "ch" || ends "x" || ends "z" || ends "ss" then name ++ "es"
        else if endsInConsonantY small then String.ofList chars.dropLast ++ "ies"
        else name ++ "s"

end TenantSql.Text
