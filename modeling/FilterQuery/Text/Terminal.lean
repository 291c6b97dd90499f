/-!
# Texts without terminal sequences

A message for a terminal is styled with escape sequences, and they are taken out where no terminal reads it.
What a user wrote goes the same way: the sequences in it are dropped, and so are the control characters, but
for tabs and the like that move on in a text.

A `Mode` says what kind of sequence is under way. An escape character starts a new one wherever it stands, and
two controls cancel the one under way. A tab or line break within an escape or control sequence is shown, and
so is what follows it, up to the next character that is never shown: there the sequence goes on.
-/

namespace FilterQuery.Text

/-- What a terminal is in the middle of. -/
inductive Mode where
  | ground
  /-- After the escape character. -/
  | escape
  /-- In an escape sequence of more than one character. -/
  | escapeRest
  /-- In a control sequence, which an opening bracket starts. -/
  | control
  /-- At the start of a device control string. -/
  | deviceStart
  /-- After a parameter of a device control string. -/
  | deviceParameter
  /-- After the parameters of a device control string. -/
  | deviceMark
  /-- In a string that nobody reads. -/
  | ignored
  /-- In a command to the system, which a bell ends. -/
  | command
deriving DecidableEq, Repr, Inhabited

def isBetween (first last c : Char) : Bool := first ≤ c && c ≤ last

/-- A string that nobody reads ends at a character that has the byte 9C, the string terminator, in it. -/
def endsString (c : Char) : Bool := (String.utf8EncodeChar c).contains 0x9C

namespace Mode

/-- The mode after an escape character and `c`. -/
def ofEscaped (c : Char) : Mode :=
  if isBetween ' ' '/' c then escapeRest
  else if c = '[' then control
  else if c = ']' then command
  else if c = 'P' then deviceStart
  else if c = 'X' ∨ c = '^' ∨ c = '_' then ignored
  else if isBetween '0' '~' c then ground
  else escape

/-- The mode after one more character of a device control string that has not got to its text. -/
def ofDevice (mode : Mode) (c : Char) : Mode :=
  if isBetween ' ' '/' c then deviceMark
  else if isBetween '@' '~' c then ignored
  else if isBetween '0' '?' c then
    if mode = deviceStart || (mode = deviceParameter && c ≤ ';') then deviceParameter else ignored
  else mode

def next (mode : Mode) (c : Char) : Mode :=
  if c = '\x1b' then escape
  else if c = '\x18' ∨ c = '\x1a' then ground
  else
    match mode with
    | ground => ground
    | escape => ofEscaped c
    | escapeRest => if isBetween '0' '~' c then ground else escapeRest
    | control => if isBetween '@' '~' c then ground else control
    | deviceStart | deviceParameter | deviceMark => ofDevice mode c
    | ignored => if endsString c then ground else ignored
    | command => if c = '\x07' then ground else command

/-- White space that is shown even within an escape or control sequence. -/
def isPlainSpace (c : Char) : Bool := c == '\t' || c == '\n' || c == '\x0c' || c == '\r'

/-- Whether a character is shown. -/
def shows (mode : Mode) (c : Char) : Bool :=
  match mode with
  | ground => isPlainSpace c || (' ' ≤ c && c != '\x7f')
  | escape | escapeRest | control => isPlainSpace c
  | _ => false

end Mode

/-- The characters that are shown, from a mode on. While one after the other is shown, which `isShowing` says,
the sequence of the mode rests, and a character beyond ASCII ends it. -/
def shownFrom (mode : Mode) (isShowing : Bool) : List Char → List Char
  | [] => []
  | c :: cs =>
    if isShowing && Mode.ground.shows c then
      c :: shownFrom (if c.toNat < 0x80 then mode else .ground) true cs
    else if mode.shows c then c :: shownFrom (mode.next c) true cs
    else shownFrom (mode.next c) false cs

/-- The text without its terminal sequences. -/
def shown (s : String) : String := String.ofList (shownFrom .ground false s.toList)

end FilterQuery.Text
