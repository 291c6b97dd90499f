import FilterQuery.Json.Basic
import FilterQuery.Number.Shortest

/-!
# Writing JSON

A value is written compactly or indented by two blanks for each level. The two layouts differ only in white
space between tokens: strings and numbers are written alike.

`write` takes the text that follows the value and puts the value's text before it, so a value is written in
one pass.
-/

namespace FilterQuery.Json

/-- Numbers with a first digit between `10 ^ (-5)` and `10 ^ 15` have no power of ten, and positive exponents
have a sign. -/
def floatLayout : Binary64.Layout := ⟨-5, 16, true⟩

/-- Infinities and NaN have no JSON number. -/
def floatText (x : Binary64) : List Char :=
  if x.isFinite then x.text floatLayout else "null".toList

/-- Four hexadecimal digits, lower-case. -/
def hex4 (n : Nat) : List Char :=
  let ds := Nat.toDigits 16 n
  List.replicate (4 - ds.length) '0' ++ ds

/-- Quotes, backslashes and characters below the blank are escaped, all others stand for themselves. -/
def escape (c : Char) : List Char :=
  if c = '"' then ['\\', '"']
  else if c = '\\' then ['\\', '\\']
  else if c = '\x08' then ['\\', 'b']
  else if c = '\x0c' then ['\\', 'f']
  else if c = '\n' then ['\\', 'n']
  else if c = '\r' then ['\\', 'r']
  else if c = '\t' then ['\\', 't']
  else if c.toNat < 0x20 then '\\' :: 'u' :: hex4 c.toNat
  else [c]

def stringText (s : String) : List Char := '"' :: s.toList.flatMap escape ++ ['"']

inductive Layout where
  | compact
  | indented
deriving DecidableEq, Repr

namespace Layout

/-- The start of a line at a depth of nesting. -/
def newLine : Layout → Nat → List Char
  | compact, _ => []
  | indented, depth => '\n' :: List.replicate (2 * depth) ' '

def colon : Layout → List Char
  | compact => [':']
  | indented => [':', ' ']

end Layout

mutual

/-- The text of a value, followed by `k`. -/
def write (layout : Layout) (depth : Nat) : Json → List Char → List Char
  | null, k => "null".toList ++ k
  | bool true, k => "true".toList ++ k
  | bool false, k => "false".toList ++ k
  | int n, k => (toString n).toList ++ k
  | float x, k => floatText x ++ k
  | string s, k => stringText s ++ k
  | array [], k => '[' :: ']' :: k
  | array (x :: xs), k =>
    '[' :: layout.newLine (depth + 1) ++ write layout (depth + 1) x
      (writeItems layout (depth + 1) xs (layout.newLine depth ++ ']' :: k))
  | object [], k => '\x7b' :: '\x7d' :: k
  | object (m :: ms), k =>
    '\x7b' :: layout.newLine (depth + 1) ++ writeMember layout (depth + 1) m
      (writeMembers layout (depth + 1) ms (layout.newLine depth ++ '\x7d' :: k))

/-- Items after the first one, each after a comma. -/
def writeItems (layout : Layout) (depth : Nat) : List Json → List Char → List Char
  | [], k => k
  | x :: xs, k => ',' :: layout.newLine depth ++ write layout depth x (writeItems layout depth xs k)

def writeMember (layout : Layout) (depth : Nat) : String × Json → List Char → List Char
  | (key, x), k => stringText key ++ (layout.colon ++ write layout depth x k)

/-- Members after the first one, each after a comma. -/
def writeMembers (layout : Layout) (depth : Nat) : List (String × Json) → List Char → List Char
  | [], k => k
  | m :: ms, k =>
    ',' :: layout.newLine depth ++ writeMember layout depth m (writeMembers layout depth ms k)

end

def render (layout : Layout) (j : Json) : String := String.ofList (write layout 0 j [])

/-- The text without white space between tokens. -/
def compact (j : Json) : String := render .compact j

/-- The text with one member or item to a line. -/
def pretty (j : Json) : String := render .indented j

end FilterQuery.Json
