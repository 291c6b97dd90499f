import FilterQuery.Yaml.Scalar.Gap

/-!
# Plain scalars

A plain scalar runs until a mark that cannot be part of it: a colon before a blank, a comment after a gap, in a
flow collection a comma or bracket, in a block collection a line that is not indented enough, or the mark of a
document. A gap before its end is not part of it, but has been passed.
-/

namespace FilterQuery.Yaml

/-- A scalar read from a text. -/
structure Scanned where
  text : String
  after : Cursor
  /-- Whether a line break was passed after the last word. -/
  brokeLine : Bool
deriving Inhabited

namespace Plain

/-- Marks that end a word of a flow collection. -/
def isFlowMark (c : Char) : Bool := c == ',' || c == '[' || c == ']' || c == '\x7b' || c == '\x7d'

/-- Whether the scalar ends before the visible character `c`, which `rest` follows. -/
def ends (inFlow : Bool) (c : Char) (rest : List Char) : Bool :=
  (c == ':' && endsWord rest) || (inFlow && isFlowMark c)

/-- Whether a word cannot start here after a gap. -/
def endsAfterGap (inFlow : Bool) (indent : Nat) (p : Cursor) : Bool :=
  (!inFlow && p.column < indent) || p.atDocumentMark || p.rest.head? == some '#'

/-- In a flow collection a colon joined to a mark is neither content nor a value indicator. -/
def isMisplacedColon (inFlow : Bool) (c : Char) (rest : List Char) : Bool :=
  inFlow && c == ':' &&
    match rest with
    | d :: _ => isFlowMark d || d == '?'
    | [] => false

/-- Reads on after the characters in `reversed` and a gap. `indent` is the least column of a word in a block
collection. -/
def scan (inFlow : Bool) (indent : Nat) (reversed : List Char) (gap : Gap) (here : Position) :
    List Char → Option Scanned
  | [] => some ⟨String.ofList reversed.reverse, ⟨here, []⟩, gap.hasBreak⟩
  | c :: rest =>
    let place : Cursor := ⟨here, c :: rest⟩
    if isBlank c then
      if gap.hasBreak && here.column < indent && c == '\t' then none
      else scan inFlow indent reversed (gap.addBlank c) (here.after c) rest
    else if isBreak c then scan inFlow indent reversed (gap.addBreak c) (here.after c) rest
    else if !gap.isNone && endsAfterGap inFlow indent place then
      some ⟨String.ofList reversed.reverse, place, gap.hasBreak⟩
    else if isMisplacedColon inFlow c rest then none
    else if ends inFlow c rest then some ⟨String.ofList reversed.reverse, place, gap.hasBreak⟩
    else scan inFlow indent (c :: gap.appendTo reversed) .none (here.after c) rest

end Plain

/-- Reads a plain scalar from its first character on. -/
def scanPlain (inFlow : Bool) (indent : Nat) (p : Cursor) : Option Scanned :=
  Plain.scan inFlow indent [] .none p.toPosition p.rest

end FilterQuery.Yaml
