/-!
# Statement templates

A template is SQL text with a placeholder `?` for each argument.  Filling a template replaces the
placeholders outside quoted regions from left to right; what is put in is not looked at again.

A quoted region starts with `'`, `"` or a backtick and ends with the same character.  In the first
two a backslash takes the next character out of the count.
-/

namespace Persistence.Sql

/-- Where a scanner stands in a template. -/
inductive Region
  | outside
  | inside (quote : Char)
  | escaped (quote : Char)
deriving DecidableEq

/-- The characters that open a quoted region. -/
def isQuote (c : Char) : Bool := c = '\'' || c = '"' || c = '\x60'

/-- Where the scanner stands behind a character. -/
def Region.next (c : Char) : Region → Region
  | outside => if isQuote c then inside c else outside
  | inside quote =>
      if c = '\\' && quote ≠ '\x60' then escaped quote
      else if c = quote then outside
      else inside quote
  | escaped quote => inside quote

/-- Fill the placeholders of a template, from a place in `region` on, with the given texts.
Placeholders beyond the texts stay, texts beyond the placeholders are left out. -/
def fillFrom (region : Region) (texts : List (List Char)) : List Char → List Char
  | [] => []
  | c :: rest =>
      if region = .outside && c = '?' then
        match texts with
        | [] => c :: fillFrom region [] rest
        | text :: texts => text ++ fillFrom region texts rest
      else c :: fillFrom (region.next c) texts rest

/-- Fill the placeholders of a template with the given texts. -/
def fill (template : String) (texts : List String) : String :=
  String.ofList (fillFrom .outside (texts.map String.toList) template.toList)

end Persistence.Sql
