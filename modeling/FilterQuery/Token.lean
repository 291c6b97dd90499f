import FilterQuery.Text.Blank

/-!
# Tokens of a filter

A filter is cut into tokens in one pass. A single quote turns literal mode on or off and stays part of its
token. Outside literal mode separators end a token, and `(`, `)` and `,` are tokens of their own. Nothing
fails: a quote that is never closed takes the rest of the text into its token.

A token carries no kind. Whether `eq` is a name, an operator or a value depends on where it is read, so a
token is its text and the byte offset it starts at.
-/

namespace FilterQuery

/-- A piece of a filter and the UTF-8 byte offset of its first character. -/
structure Token where
  text : String
  offset : Nat
deriving DecidableEq, Repr, Inhabited

namespace Token

/-- Keywords and grouping characters are compared without regard to ASCII case. -/
def is (t : Token) (keyword : String) : Bool :=
  t.text.toList.map Char.toLower == keyword.toList.map Char.toLower

/-- White space that binds: the no-break spaces and the next-line control are content of a token. -/
def isBinding (c : Char) : Bool :=
  c == '\u0085' || c == '\u00A0' || c == '\u2007' || c == '\u202F'

/-- Separators are the white space that does not bind, and the four information separators. -/
def isSeparator (c : Char) : Bool :=
  (0x1C ≤ c.toNat && c.toNat ≤ 0x1F) || (Text.isWhiteSpace c && !isBinding c)

def isPunctuation (c : Char) : Bool := c == '(' || c == ')' || c == ','

/-- The pending word as a token: none if there is no pending character. -/
def ofWord (word : List Char) (start : Nat) : List Token :=
  if word.isEmpty then [] else [⟨String.ofList word.reverse, start⟩]

/-- Tokens from `pos` on. `word` holds the characters of the token under way, latest first, and `start` the
offset of its first one. The quote flag changes before the character is judged, so both quotes of a literal
belong to it. -/
def scan (quoted : Bool) (pos : Nat) (word : List Char) (start : Nat) : List Char → List Token
  | [] => ofWord word start
  | c :: rest =>
    let quoted := if c = '\'' then !quoted else quoted
    let next := pos + c.utf8Size
    if !quoted && isSeparator c then
      ofWord word start ++ scan quoted next [] next rest
    else if !quoted && isPunctuation c then
      ofWord word start ++ ⟨String.singleton c, pos⟩ :: scan quoted next [] next rest
    else
      scan quoted next (c :: word) start rest

end Token

/-- The tokens of a filter, in the order they are written. -/
def tokenize (input : String) : List Token :=
  Token.scan false 0 [] 0 input.toList

end FilterQuery
