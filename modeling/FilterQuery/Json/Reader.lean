import FilterQuery.Json.Basic
import FilterQuery.Number.Scaled

/-!
# Reading JSON

A reader for the whole format. It takes a number apart, and what the parts stand for is left to a function that it
is given. The texts of requests are read with `NumberText.wordValue?`. A number with a point or an exponent is a
double then. One without is a whole number if it lies between the smallest signed and the largest unsigned word
of 64 bits and is not minus zero, else a double too. Doubles are read the short way, `Binary64.ofDigits`, which
may be off by a unit in the last place. A number beyond the doubles, and half of a surrogate pair, are not JSON
values.

Each function returns what it read and the text after it. Nesting is bounded by the fuel, which for a whole
text is its length: every level takes a character.
-/

namespace FilterQuery.Json

def isBlank (c : Char) : Bool := c == ' ' || c == '\n' || c == '\r' || c == '\t'

def skipBlanks (cs : List Char) : List Char := cs.dropWhile isBlank

/-! ## Strings -/

def hexDigit? (c : Char) : Option Nat :=
  if '0' ≤ c ∧ c ≤ '9' then some (c.toNat - '0'.toNat)
  else if 'a' ≤ c ∧ c ≤ 'f' then some (c.toNat - 'a'.toNat + 10)
  else if 'A' ≤ c ∧ c ≤ 'F' then some (c.toNat - 'A'.toNat + 10)
  else none

def readHex4 : List Char → Option (Nat × List Char)
  | a :: b :: c :: d :: rest => do
    let a ← hexDigit? a
    let b ← hexDigit? b
    let c ← hexDigit? c
    let d ← hexDigit? d
    return (((a * 16 + b) * 16 + c) * 16 + d, rest)
  | _ => none

/-- The character of one code unit, or of a pair of surrogates. -/
def readCodePoint (cs : List Char) : Option (Char × List Char) := do
  let (high, rest) ← readHex4 cs
  if 0xD800 ≤ high && high < 0xDC00 then
    match rest with
    | '\\' :: 'u' :: rest =>
      let (low, rest) ← readHex4 rest
      if 0xDC00 ≤ low && low < 0xE000 then
        return (Char.ofNat (0x10000 + (high - 0xD800) * 0x400 + (low - 0xDC00)), rest)
      else none
    | _ => none
  else if 0xDC00 ≤ high && high < 0xE000 then none
  else return (Char.ofNat high, rest)

/-- The character that an escape stands for; the backslash has been read. -/
def readEscape : List Char → Option (Char × List Char)
  | '"' :: rest => some ('"', rest)
  | '\\' :: rest => some ('\\', rest)
  | '/' :: rest => some ('/', rest)
  | 'b' :: rest => some ('\x08', rest)
  | 'f' :: rest => some ('\x0c', rest)
  | 'n' :: rest => some ('\n', rest)
  | 'r' :: rest => some ('\r', rest)
  | 't' :: rest => some ('\t', rest)
  | 'u' :: rest => readCodePoint rest
  | _ => none

/-- The rest of a string whose opening quote has been read. The characters so far are in `text`, latest
first. -/
def readString (fuel : Nat) (text : List Char) (cs : List Char) : Option (String × List Char) :=
  match fuel, cs with
  | 0, _ => none
  | _, [] => none
  | fuel + 1, c :: rest =>
    if c = '"' then some (String.ofList text.reverse, rest)
    else if c = '\\' then
      match readEscape rest with
      | some (c, rest) => readString fuel (c :: text) rest
      | none => none
    else if c.toNat < 0x20 then none
    else readString fuel (c :: text) rest

/-! ## Numbers -/

def isNumberChar (c : Char) : Bool :=
  c.isDigit || c == '-' || c == '+' || c == '.' || c == 'e' || c == 'E'

/-- Digits without a leading zero. -/
def isWhole (ds : List Char) : Bool :=
  !ds.isEmpty && ds.all Char.isDigit && (ds.head? != some '0' || ds.length == 1)

/-- The digits after a point, of which there is at least one, and what follows them. -/
def readFraction : List Char → Option (List Char × List Char)
  | '.' :: cs =>
    let (ds, rest) := Decimal.spanDigits cs
    if ds.isEmpty then none else some (ds, rest)
  | cs => some ([], cs)

/-- The parts of a number. -/
structure NumberText where
  negative : Bool
  whole : List Char
  fraction : List Char
  exponent : Int
  /-- There is neither a point nor an exponent. -/
  plain : Bool
deriving DecidableEq, Repr

namespace NumberText

/-- The parts of the number that a text writes, if JSON allows the form. -/
def read? (cs : List Char) : Option NumberText := do
  let negative := cs.head? = some '-'
  let (whole, rest) := Decimal.spanDigits (if negative then cs.drop 1 else cs)
  if !isWhole whole then none
  else
    let (fraction, ending) ← readFraction rest
    let e ← Decimal.readExponent? ending
    return ⟨negative, whole, fraction, e, rest.isEmpty⟩

/-- A whole number if there is neither point nor exponent and a word of 64 bits holds it, else a double. -/
def wordValue? (t : NumberText) : Option Json :=
  let n := Decimal.ofDigits t.whole
  if t.plain && t.negative && 0 < n && n ≤ Nat.pow 2 63 then some (int (-(n : Int)))
  else if t.plain && !t.negative && n < Nat.pow 2 64 then some (int n)
  else
    let x := Binary64.ofDigits t.negative t.whole t.fraction t.exponent
    if x.isFinite then some (float x) else none

end NumberText

/-! ## Values -/

variable (value? : NumberText → Option Json)

def readNumber (cs : List Char) : Option (Json × List Char) := do
  let (text, rest) := cs.span isNumberChar
  let parts ← NumberText.read? text
  let n ← value? parts
  return (n, rest)

/-- Drops an expected word. -/
def readWord (word : List Char) (cs : List Char) : Option (List Char) :=
  match word, cs with
  | [], cs => some cs
  | w :: word, c :: cs => if w = c then readWord word cs else none
  | _ :: _, [] => none

mutual

def read (fuel : Nat) (cs : List Char) : Option (Json × List Char) :=
  match fuel with
  | 0 => none
  | fuel + 1 =>
    match skipBlanks cs with
    | [] => none
    | 'n' :: rest => (readWord "ull".toList rest).map fun rest => (null, rest)
    | 't' :: rest => (readWord "rue".toList rest).map fun rest => (bool true, rest)
    | 'f' :: rest => (readWord "alse".toList rest).map fun rest => (bool false, rest)
    | '"' :: rest => (readString (rest.length + 1) [] rest).map fun (s, rest) => (string s, rest)
    | '[' :: rest =>
      match skipBlanks rest with
      | ']' :: rest => some (array [], rest)
      | rest => (readItems fuel rest).map fun (items, rest) => (array items, rest)
    | '\x7b' :: rest =>
      match skipBlanks rest with
      | '\x7d' :: rest => some (object [], rest)
      | rest => (readMembers fuel rest).map fun (members, rest) => (object members, rest)
    | c :: rest => readNumber value? (c :: rest)

/-- One or more items and the bracket that closes the array. -/
def readItems (fuel : Nat) (cs : List Char) : Option (List Json × List Char) :=
  match fuel with
  | 0 => none
  | fuel + 1 => do
    let (item, rest) ← read fuel cs
    match skipBlanks rest with
    | ',' :: rest =>
      let (items, rest) ← readItems fuel rest
      return (item :: items, rest)
    | ']' :: rest => return ([item], rest)
    | _ => none

/-- One or more members and the brace that closes the object. -/
def readMembers (fuel : Nat) (cs : List Char) : Option (List (String × Json) × List Char) :=
  match fuel with
  | 0 => none
  | fuel + 1 =>
    match skipBlanks cs with
    | '"' :: rest => do
      let (key, rest) ← readString (rest.length + 1) [] rest
      match skipBlanks rest with
      | ':' :: rest =>
        let (value, rest) ← read fuel rest
        match skipBlanks rest with
        | ',' :: rest =>
          let (members, rest) ← readMembers fuel rest
          return ((key, value) :: members, rest)
        | '\x7d' :: rest => return ([(key, value)], rest)
        | _ => none
      | _ => none
    | _ => none

end

/-- The value that a whole text writes. -/
def decode? (s : String) : Option Json := do
  let cs := s.toList
  let (j, rest) ← read value? (2 * cs.length + 1) cs
  if (skipBlanks rest).isEmpty then return j else none

/-- The value of a text whose numbers are words of 64 bits and doubles. -/
def ofText? (s : String) : Option Json := decode? NumberText.wordValue? s

end FilterQuery.Json
