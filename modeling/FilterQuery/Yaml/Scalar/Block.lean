import FilterQuery.Yaml.Scalar.Plain

/-!
# Block scalars

A block scalar is a header line and the indented lines after it. A literal one keeps its line breaks, a folded
one joins lines of text by a space. The header says what becomes of the breaks at the end: the last one is
kept, or none, or all. It may also give the indentation; else the first line that is not empty does, and an
empty line before it that is indented further makes the scalar end there.
-/

namespace FilterQuery.Yaml

namespace Block

/-- What becomes of the line breaks at the end. -/
inductive Chomping where
  | clip
  | strip
  | keep
deriving DecidableEq, Repr

structure Header where
  chomping : Chomping
  /-- The indentation given, relative to what holds the scalar. -/
  increment? : Option Nat

def chomping? : Char → Option Chomping
  | '+' => some .keep
  | '-' => some .strip
  | _ => none

/-- A digit other than zero. -/
def increment? (c : Char) : Option Nat :=
  if c.isDigit && c != '0' then some (c.toNat - '0'.toNat) else none

/-- The indicators after the mark of a block scalar, in either order, and the end of the header line. -/
def scanHeader (p : Cursor) : Option (Header × Cursor) := do
  let first := p.rest.head?
  let second := (p.rest.drop 1).head?
  let (header, p) ←
    match first.bind chomping?, first.bind increment? with
    | some c, _ =>
      match second.bind increment? with
      | some n => some ((⟨c, some n⟩ : Header), p.skip 2)
      | none => some (⟨c, none⟩, p.skip 1)
    | none, some n =>
      match second.bind chomping? with
      | some c => some (⟨c, some n⟩, p.skip 2)
      | none => some (⟨.clip, some n⟩, p.skip 1)
    | none, none => some (⟨.clip, none⟩, p)
  let p ← p.endLine?
  return (header, p)

/-- What has been read of the lines. Texts are kept latest character first. -/
structure Lines where
  reversed : List Char
  /-- The break that ended the last line of text. -/
  lastBreak : Option Char
  /-- The breaks of the empty lines after it. -/
  emptyLines : List Char
  /-- Whether the last line of text starts with a blank. -/
  wasIndented : Bool

/-- The lines before a new one that starts with a blank or not: in a folded scalar, the break between two
lines of text becomes a space, or nothing if empty lines stand between them. -/
def Lines.startLine (literal : Bool) (s : Lines) (isIndented : Bool) : Lines :=
  let joined :=
    if !literal && s.lastBreak == some '\n' && !s.wasIndented && !isIndented then
      if s.emptyLines.isEmpty then ' ' :: s.reversed else s.reversed
    else s.lastBreak.toList ++ s.reversed
  ⟨s.emptyLines ++ joined, none, [], isIndented⟩

def Lines.addChar (s : Lines) (c : Char) : Lines := { s with reversed := c :: s.reversed }

/-- The text with the breaks that the header asks for at its end. -/
def Lines.finish (s : Lines) (chomping : Chomping) : String :=
  let ended := if chomping = .strip then s.reversed else s.lastBreak.toList ++ s.reversed
  let ended := if chomping = .keep then s.emptyLines ++ ended else ended
  String.ofList ended.reverse

/-- Reads the lines. `indent` is the indentation, once it is known, `least` the least one there can be, and
`widest` the widest seen among the empty lines before it is known; `inLine` says whether a line of text is
under way. -/
def scanLines (literal : Bool) (chomping : Chomping) (least : Nat) (indent : Option Nat) (widest : Nat)
    (inLine : Bool) (s : Lines) (here : Position) : List Char → Option Scanned
  | [] => some ⟨s.finish chomping, ⟨here, []⟩, true⟩
  | c :: rest =>
    let next := here.after c
    if inLine then
      if isBreak c then
        scanLines literal chomping least indent widest false { s with lastBreak := some c } next rest
      else
        scanLines literal chomping least indent widest true (s.addChar c) next rest
    else
      let inMargin := match indent with
        | none => true
        | some n => here.column < n
      if c == ' ' && inMargin then scanLines literal chomping least indent widest false s next rest
      else if c == '\t' && inMargin then none
      else
        let widest := max widest here.column
        if isBreak c then
          let s := { s with emptyLines := c :: s.emptyLines }
          scanLines literal chomping least indent widest false s next rest
        else
          let known := indent.getD (max widest least)
          if here.column = known then
            let s := (s.startLine literal (isBlank c)).addChar c
            scanLines literal chomping least (some known) widest true s next rest
          else some ⟨s.finish chomping, ⟨here, c :: rest⟩, true⟩

end Block

/-- Reads a block scalar from its mark on. `parent` is the column of the block collection that holds it, if
one does. -/
def scanBlock (literal : Bool) (parent : Option Nat) (p : Cursor) : Option Scanned := do
  let (header, p) ← Block.scanHeader (p.skip 1)
  let base := parent.getD 0
  let indent := header.increment?.map (base + ·)
  let least := match parent with
    | none => 1
    | some n => n + 1
  Block.scanLines literal header.chomping least indent 0 false ⟨[], none, [], false⟩ p.toPosition p.rest

end FilterQuery.Yaml
