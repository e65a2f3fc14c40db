import Persistence.Url.HostAddress

/-!
# URLs

`Url.parse?` splits a URL into its parts.  The parts keep their percent escapes, except that a host
address is brought into its shortest form and the dot segments of a path are resolved.  A URL whose
scheme is not followed by a slash has nothing but a path and a query.
-/

namespace Persistence

/-- The parts of a URL. -/
structure Url where
  scheme : List Char
  username : List Char
  password : List Char
  host : Option (List Char)
  port : Option Nat
  path : List Char
  query : List Char

namespace Url

open Persistence.Text

/-! ## Scheme -/

/-- Characters that vanish at both ends of a URL: blanks and control characters. -/
def isEdge (c : Char) : Bool := c.toNat ≤ 0x20

/-- The text of a URL without what vanishes: blanks and control characters at the ends, tabs and
line ends everywhere. -/
def cleaned (s : String) : List Char :=
  let text := ((s.toList.dropWhile isEdge).reverse.dropWhile isEdge).reverse
  text.filter fun c => c ∉ ['\t', '\n', '\r']

/-- A character of a scheme. -/
def isSchemeChar (c : Char) : Bool := c.isAlphanum || c ∈ ['+', '-', '.']

/-- The scheme in lower case and the text behind its colon. -/
def takeScheme? (text : List Char) : Option (List Char × List Char) :=
  if text.head?.any Char.isAlpha then
    match text.dropWhile isSchemeChar with
    | ':' :: rest => some ((text.takeWhile isSchemeChar).map Char.toLower, rest)
    | _ => none
  else none

/-! ## Authority -/

/-- The parts of an authority; `rest` is what belongs to the path. -/
structure Authority where
  username : List Char
  password : List Char
  host : Option (List Char)
  port : Option Nat
  rest : List Char

/-- The text before and behind the last sign `@`. -/
def splitCredentials? (text : List Char) : Option (List Char × List Char) :=
  let tail := text.reverse.takeWhile (· ≠ '@')
  if tail.length = text.length then none
  else some (text.take (text.length - tail.length - 1), tail.reverse)

/-- The text of a host, which ends at a colon outside brackets. -/
def hostText (inside : Bool) : List Char → List Char
  | [] => []
  | c :: text =>
      if c = ':' && !inside then []
      else c :: hostText (if c = '[' then true else if c = ']' then false else inside) text

/-- A port and what follows it: digits of a number of 16 bits, or nothing. -/
def takePort? (text : List Char) : Option (Option Nat × List Char) :=
  let digits := text.takeWhile Char.isDigit
  let rest := text.dropWhile Char.isDigit
  if rest.head?.any (· ≠ '\\') || UInt16.size ≤ digitsValue digits then none
  else some (if digits.isEmpty then none else some (digitsValue digits), rest)

/-- An authority; `last` says that nothing follows it.  Credentials and a port need a host. -/
def readAuthority? (last : Bool) (text : List Char) : Option Authority := do
  let (credentials, address) := (splitCredentials? text).getD ([], text)
  let username := credentials.takeWhile (· ≠ ':')
  let password := (credentials.dropWhile (· ≠ ':')).drop 1
  let hasSign := text.contains '@'
  if hasSign && credentials.isEmpty && address.isEmpty && !last then none
  else
    let name := hostText false address
    let host ← readHost? name
    let rest := address.drop name.length
    if name.isEmpty then
      if !rest.isEmpty || !username.isEmpty || !password.isEmpty then none
      else some ⟨username, password, none, none, []⟩
    else
      let (port, rest) ← takePort? (rest.drop 1)
      some ⟨username, password, some host, port, rest⟩

/-! ## Path -/

/-- A segment with its escaped points written out. -/
def withPoints : List Char → List Char
  | '%' :: '2' :: e :: text =>
      if e = 'e' || e = 'E' then '.' :: withPoints text else '%' :: '2' :: e :: withPoints text
  | c :: text => c :: withPoints text
  | [] => []

/-- The segments behind `kept` with dot segments resolved: one point stands for nothing, two take
the segment in front of them away. -/
def resolveDots (kept : List (List Char)) : List (List Char) → List (List Char)
  | [] => kept
  | segment :: segments =>
      let last := segments.isEmpty
      let points := withPoints segment
      if points = ['.', '.'] then
        resolveDots (kept.dropLast ++ if last then [[]] else []) segments
      else if points = ['.'] then resolveDots (kept ++ if last then [[]] else []) segments
      else resolveDots (kept ++ [segment]) segments

/-- A path that starts with a slash, with dot segments resolved. -/
def resolvedPath (text : List Char) : List Char :=
  match text with
  | [] => []
  | '/' :: rest => '/' :: List.intercalate ['/'] (resolveDots [] (splitAtChar '/' rest))
  | _ => '/' :: List.intercalate ['/'] (resolveDots [] (splitAtChar '/' text))

/-! ## Whole URLs -/

/-- The parts of a URL, if it is one. -/
def parse? (s : String) : Option Url := do
  let (scheme, text) ← takeScheme? (cleaned s)
  let body := text.takeWhile (· ≠ '#')
  let hierarchy := body.takeWhile (· ≠ '?')
  let query := (body.dropWhile (· ≠ '?')).drop 1
  match hierarchy with
  | '/' :: '/' :: rest =>
      let authority := rest.takeWhile (· ≠ '/')
      let path := rest.dropWhile (· ≠ '/')
      let last := authority.length + 2 = text.length
      let a ← readAuthority? last authority
      some ⟨scheme, a.username, a.password, a.host, a.port, resolvedPath (a.rest ++ path), query⟩
  | '/' :: _ => some ⟨scheme, [], [], none, none, resolvedPath hierarchy, query⟩
  | _ => some ⟨scheme, [], [], none, none, hierarchy, query⟩

/-! ## Queries -/

/-- A text of a query as it is meant: a plus sign is a blank, escapes are bytes, and bytes that are
no text are replaced. -/
def queryText (text : List Char) : String :=
  utf8Lenient (percentBytes (text.map fun c => if c = '+' then ' ' else c))

/-- The names and values of the query. -/
def queryPairs (u : Url) : List (String × String) :=
  ((splitAtChar '&' u.query).filter fun pair => !pair.isEmpty).map fun pair =>
    (queryText (pair.takeWhile (· ≠ '=')), queryText ((pair.dropWhile (· ≠ '=')).drop 1))

end Url

end Persistence
