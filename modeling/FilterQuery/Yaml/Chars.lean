/-!
# Characters and lines of a YAML text

Which characters a text may hold, which of them break lines or separate words, and how a position moves over
them. Before anything else the line breaks are made uniform: a carriage return, with or without a line feed,
and a next-line control count as a line feed. The line and paragraph separators break lines too, and keep
their identity where a break is content.
-/

namespace FilterQuery.Yaml

/-- Control characters other than tabs and line breaks, and the two highest codes of the basic plane, may not
occur anywhere. -/
def isPermitted (c : Char) : Bool :=
  let n := c.toNat
  n == 0x9 || n == 0xA || n == 0xD || (0x20 ≤ n && n ≤ 0x7E) || n == 0x85 || (0xA0 ≤ n && n ≤ 0xFFFD) ||
    0x10000 ≤ n

/-- The text with uniform line breaks. -/
def uniformBreaks : List Char → List Char
  | '\r' :: '\n' :: cs => '\n' :: uniformBreaks cs
  | '\r' :: cs => '\n' :: uniformBreaks cs
  | '\u0085' :: cs => '\n' :: uniformBreaks cs
  | c :: cs => c :: uniformBreaks cs
  | [] => []

/-- A line break of a text with uniform breaks. -/
def isBreak (c : Char) : Bool := c == '\n' || c == '\u2028' || c == '\u2029'

def isBlank (c : Char) : Bool := c == ' ' || c == '\t'

/-- A character of a directive's name, a tag handle or an anchor. -/
def isNameChar (c : Char) : Bool := c.isAlphanum || c == '_' || c == '-'

def byteOrderMark : Char := '\uFEFF'

/-- Whether a word cannot go on here: the text ends, or a blank or a break follows. -/
def endsWord : List Char → Bool
  | [] => true
  | c :: _ => isBlank c || isBreak c

/-- Where a character stands: its line and column, from zero, and the number of bytes of UTF-8 before it in its
line. -/
structure Position where
  line : Nat
  column : Nat
  offset : Nat
deriving DecidableEq, Repr, Inhabited

/-- The position after a character. -/
def Position.after (p : Position) (c : Char) : Position :=
  if isBreak c then ⟨p.line + 1, 0, 0⟩ else ⟨p.line, p.column + 1, p.offset + c.utf8Size⟩

/-- A place in a text: the position of the next character, and what is left of the text. -/
structure Cursor extends Position where
  rest : List Char
deriving Inhabited

namespace Cursor

def start (cs : List Char) : Cursor := ⟨⟨0, 0, 0⟩, cs⟩

/-- The place after the next `n` characters. -/
def skip (p : Cursor) (n : Nat) : Cursor :=
  ⟨(p.rest.take n).foldl Position.after p.toPosition, p.rest.drop n⟩

/-- The leading characters of a class, and the place after them. -/
def span (p : Cursor) (inClass : Char → Bool) : List Char × Cursor :=
  let run := p.rest.takeWhile inClass
  (run, p.skip run.length)

def skipBlanks (p : Cursor) : Cursor := (p.span isBlank).2

/-- The rest of a line that may only hold blanks and a comment, up to and with its break. -/
def endLine? (p : Cursor) : Option Cursor :=
  let p := p.skipBlanks
  let p := if p.rest.head? = some '#' then (p.span fun c => !isBreak c).2 else p
  match p.rest with
  | [] => some p
  | c :: _ => if isBreak c then some (p.skip 1) else none

/-- Whether a line starts here with three of the given characters and nothing joined to them. -/
def startsMark (p : Cursor) (c : Char) : Bool :=
  p.column == 0 &&
    match p.rest with
    | x :: y :: z :: cs => x == c && y == c && z == c && endsWord cs
    | _ => false

/-- Whether a line starts here that begins or ends a document. -/
def atDocumentMark (p : Cursor) : Bool := p.startsMark '-' || p.startsMark '.'

end Cursor

end FilterQuery.Yaml
