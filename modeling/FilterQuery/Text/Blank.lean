/-!
# White space

The Unicode property `White_Space`, as a table, and texts made of nothing else. The class is wider than
`Char.isWhitespace`, which knows four ASCII characters only.
-/

namespace FilterQuery.Text

/-- The code points of the property `White_Space`, as closed ranges in ascending order. -/
def whiteSpaceRanges : List (Nat × Nat) :=
  [(0x9, 0xD), (0x20, 0x20), (0x85, 0x85), (0xA0, 0xA0), (0x1680, 0x1680), (0x2000, 0x200A),
   (0x2028, 0x2029), (0x202F, 0x202F), (0x205F, 0x205F), (0x3000, 0x3000)]

/-- Membership of a character in a list of closed ranges. -/
def inRanges (ranges : List (Nat × Nat)) (c : Char) : Bool :=
  ranges.any fun r => r.1 ≤ c.toNat && c.toNat ≤ r.2

def isWhiteSpace (c : Char) : Bool := inRanges whiteSpaceRanges c

/-- A text is blank when trimming white space leaves nothing of it. -/
def isBlank (s : String) : Bool := s.toList.all isWhiteSpace

end FilterQuery.Text
