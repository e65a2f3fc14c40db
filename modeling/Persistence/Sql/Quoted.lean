/-!
# Quoted text in SQL

String literals stand between single quotes, with a backslash before each quote, backslash and
control character that has an escape.  Identifiers stand between backticks, with a backtick inside
written twice.
-/

namespace Persistence.Sql

/-- The letter that stands behind a backslash for a character, if the character is escaped. -/
def escapeLetter? (c : Char) : Option Char :=
  if c = '\x00' then some '0'
  else if c = '\x08' then some 'b'
  else if c = '\t' then some 't'
  else if c = '\n' then some 'n'
  else if c = '\x0d' then some 'r'
  else if c = '\x1a' then some 'Z'
  else if c = '"' then some '"'
  else if c = '\'' then some '\''
  else if c = '\\' then some '\\'
  else none

/-- A character inside a string literal. -/
def escapeChar (c : Char) : List Char :=
  match escapeLetter? c with
  | some letter => ['\\', letter]
  | none => [c]

/-- The string literal for a text. -/
def stringLiteral (s : String) : String :=
  String.ofList ('\'' :: s.toList.flatMap escapeChar ++ ['\''])

/-- A character inside a quoted identifier. -/
def identifierChar (c : Char) : List Char :=
  if c = '\x60' then ['\x60', '\x60'] else [c]

/-- The quoted identifier for a name. -/
def identifier (name : String) : String :=
  String.ofList ('\x60' :: name.toList.flatMap identifierChar ++ ['\x60'])

end Persistence.Sql
