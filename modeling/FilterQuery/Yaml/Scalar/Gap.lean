import FilterQuery.Yaml.Chars

/-!
# Gaps between words of a scalar

Within a plain or quoted scalar, blanks and line breaks between two words form a gap. Blanks alone are
content. A gap with line breaks is folded: its blanks are dropped, a single break becomes a space, and of
several breaks the first is dropped. A line or paragraph separator is never dropped.

Texts under way are kept latest character first.
-/

namespace FilterQuery.Yaml

inductive Gap where
  | none
  | blanks (reversed : List Char)
  /-- The first break, unless it was escaped, and the later ones, latest first. -/
  | breaks (first : Option Char) (later : List Char)
deriving Inhabited

namespace Gap

def isNone : Gap → Bool
  | none => true
  | _ => false

def hasBreak : Gap → Bool
  | breaks _ _ => true
  | _ => false

/-- The gap with one more blank; after a break blanks are indentation. -/
def addBlank (c : Char) : Gap → Gap
  | none => blanks [c]
  | blanks reversed => blanks (c :: reversed)
  | breaks first later => breaks first later

/-- The gap with one more break; blanks before a break are dropped. -/
def addBreak (c : Char) : Gap → Gap
  | none => breaks (some c) []
  | blanks _ => breaks (some c) []
  | breaks first later => breaks first (c :: later)

/-- The text with the content of a gap after it. -/
def appendTo (reversed : List Char) : Gap → List Char
  | none => reversed
  | blanks bs => bs ++ reversed
  | breaks (some '\n') [] => ' ' :: reversed
  | breaks (some '\n') later => later ++ reversed
  | breaks (some c) later => later ++ c :: reversed
  | breaks Option.none later => later ++ reversed

end Gap

end FilterQuery.Yaml
