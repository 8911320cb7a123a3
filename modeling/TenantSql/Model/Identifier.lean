import TenantSql.Check.Read

/-!
# Plain identifiers

The names that stand unquoted in SQL: small ASCII letters, digits and
underscores, with no digit in front. One line end after the name is let through.
-/

namespace TenantSql

def isIdentifierStart (c : Char) : Bool :=
  c.isLower || c == '_'

def isIdentifierChar (c : Char) : Bool :=
  c.isLower || c == '_' || c.isDigit

def isIdentifierWord : List Char → Bool
  | [] => false
  | c :: rest => isIdentifierStart c && rest.all isIdentifierChar

def withoutLastBreak (cs : List Char) : List Char :=
  if cs.getLast? == some '\n' then cs.dropLast else cs

def isIdentifier (s : String) : Bool :=
  isIdentifierWord (withoutLastBreak s.toList)

namespace Value

def readIdentifier (what : String) (v : Value) : Checked String :=
  v.readText.ensure isIdentifier (.notIdentifier what)

end Value

end TenantSql
