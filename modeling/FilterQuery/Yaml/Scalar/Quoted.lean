import FilterQuery.Yaml.Scalar.Plain
import FilterQuery.Yaml.Tag

/-!
# Quoted scalars

In single quotes a quote is written twice and nothing else is special. In double quotes a backslash starts an
escape, and an escaped line break joins the lines without a space. In both, gaps are folded, and a line that
would begin or end a document cannot occur.
-/

namespace FilterQuery.Yaml

namespace Quoted

/-- What the next character is part of. -/
inductive State where
  | text
  /-- An escape whose backslash has been read. -/
  | escape
  /-- A code point, with `left` hexadecimal digits to come. -/
  | code (left : Nat) (value : Nat)

/-- The character of an escape that is a single letter. -/
def escaped? : Char → Option Char
  | '0' => some '\x00'
  | 'a' => some '\x07'
  | 'b' => some '\x08'
  | 't' => some '\t'
  | '\t' => some '\t'
  | 'n' => some '\n'
  | 'v' => some '\x0b'
  | 'f' => some '\x0c'
  | 'r' => some '\r'
  | 'e' => some '\x1b'
  | ' ' => some ' '
  | '"' => some '"'
  | '/' => some '/'
  | '\\' => some '\\'
  | 'N' => some '\u0085'
  | '_' => some '\u00A0'
  | 'L' => some '\u2028'
  | 'P' => some '\u2029'
  | _ => none

/-- How many digits a code point has after this letter. -/
def codeLength? : Char → Option Nat
  | 'x' => some 2
  | 'u' => some 4
  | 'U' => some 8
  | _ => none

/-- A code point that is a character: not half of a surrogate pair, and not beyond the last plane. -/
def codePoint? (n : Nat) : Option Char :=
  if (0xD800 ≤ n && n ≤ 0xDFFF) || 0x10FFFF < n then none else some (Char.ofNat n)

def scan (single : Bool) (reversed : List Char) (gap : Gap) (state : State) (here : Position) :
    List Char → Option Scanned
  | [] => none
  | c :: rest =>
    let next := here.after c
    match state with
    | .escape =>
      if isBreak c then scan single reversed (.breaks none []) .text next rest
      else
        match escaped? c, codeLength? c with
        | some e, _ => scan single (e :: reversed) .none .text next rest
        | none, some n => scan single reversed .none (.code n 0) next rest
        | none, none => none
    | .code left value =>
      match hexDigit? c with
      | none => none
      | some d =>
        let value := 16 * value + d
        if 1 < left then scan single reversed .none (.code (left - 1) value) next rest
        else
          match codePoint? value with
          | some e => scan single (e :: reversed) .none .text next rest
          | none => none
    | .text =>
      if Cursor.atDocumentMark ⟨here, c :: rest⟩ then none
      else if isBlank c then scan single reversed (gap.addBlank c) .text next rest
      else if isBreak c then scan single reversed (gap.addBreak c) .text next rest
      else
        let reversed := gap.appendTo reversed
        if single && c == '\'' then
          match rest with
          | '\'' :: rest => scan single ('\'' :: reversed) .none .text (next.after '\'') rest
          | _ => some ⟨String.ofList reversed.reverse, ⟨next, rest⟩, false⟩
        else if !single && c == '"' then some ⟨String.ofList reversed.reverse, ⟨next, rest⟩, false⟩
        else if !single && c == '\\' then scan single reversed .none .escape next rest
        else scan single (c :: reversed) .none .text next rest

end Quoted

/-- Reads a quoted scalar from its opening quote on. -/
def scanQuoted (single : Bool) (p : Cursor) : Option Scanned :=
  let p := p.skip 1
  Quoted.scan single [] .none .text p.toPosition p.rest

end FilterQuery.Yaml
