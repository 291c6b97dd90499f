import FilterQuery.Number.Binary64

/-!
# Shortest decimal texts of doubles

A finite double has an exact decimal expansion. Cut to fewer and fewer digits, it has two neighbours on each
decimal grid, and the coarsest grid with a neighbour that still reads back as the same double gives the digits
that are written: the neighbour that reads back, of two the nearer one, of two at the same distance the even
one. The full expansion always reads back, so the search cannot fail.

Where the point stands, how an exponent is written and when it is used is a `Layout`.
-/

namespace FilterQuery.Binary64

/-- The exact value `coefficient · 10 ^ exponent` of `m · 2 ^ q`: a negative power of two is a power of five
over a power of ten. -/
def exactDecimal (m : Nat) (q : Int) : Nat × Int :=
  if 0 ≤ q then (m * Nat.pow 2 q.toNat, 0) else (m * Nat.pow 5 (-q).toNat, q)

/-- The neighbours of `c · 10 ^ e` on the grid `10 ^ (e + cut)` that `keeps` accepts, the better one first
where both are accepted. -/
def gridNeighbour? (keeps : Nat → Int → Bool) (c : Nat) (e : Int) (cut : Nat) : Option (Nat × Int) :=
  let unit := Nat.pow 10 cut
  let below := c / unit
  let rest := c % unit
  let exponent := e + cut
  let nearerAbove := unit < 2 * rest || (2 * rest == unit && below % 2 == 1)
  let first := if nearerAbove then below + 1 else below
  let second := if nearerAbove then below else below + 1
  if keeps first exponent then some (first, exponent)
  else if keeps second exponent then some (second, exponent)
  else none

/-- The coarsest grid, starting with `cut` digits dropped, that has an accepted neighbour. -/
def searchGrid (keeps : Nat → Int → Bool) (c : Nat) (e : Int) : Nat → Nat × Int
  | 0 => (c, e)
  | cut + 1 =>
    match gridNeighbour? keeps c e (cut + 1) with
    | some found => found
    | none => searchGrid keeps c e cut

/-- The digits to write for the finite value `m · 2 ^ q` with the given magnitude bits, most significant
first and without a trailing zero, and the exponent of the last one. -/
def shortestDigits (magnitude m : Nat) (q : Int) : List Char × Int :=
  let (c, e) := exactDecimal m q
  let keeps := fun c e => roundDecimal c e == magnitude
  let (c, e) := searchGrid keeps c e ((Nat.toDigits 10 c).length - 1)
  let digits := Nat.toDigits 10 c
  let kept := (digits.reverse.dropWhile (· == '0')).reverse
  (kept, e + (digits.length - kept.length : Nat))

/-- How digits become a text. -/
structure Layout where
  /-- The least exponent of the first digit that is written without a power of ten. -/
  plainFrom : Int
  /-- The first exponent beyond those. -/
  plainBelow : Int
  /-- Whether a positive exponent has a plus sign. -/
  signedExponent : Bool

/-- The text of `d₁d₂…dₙ · 10 ^ e`, where a whole number in plain notation ends in `.0`. -/
def Layout.write (layout : Layout) (digits : List Char) (e : Int) : List Char :=
  let lead : Int := e + digits.length - 1
  if lead < layout.plainFrom || layout.plainBelow ≤ lead then
    let exponent := (Nat.toDigits 10 lead.natAbs)
    let sign := if lead < 0 then ['-'] else if layout.signedExponent then ['+'] else []
    let fraction := if digits.length ≤ 1 then [] else '.' :: digits.drop 1
    digits.take 1 ++ fraction ++ 'e' :: sign ++ exponent
  else if lead < 0 then
    '0' :: '.' :: List.replicate (-lead - 1).toNat '0' ++ digits
  else if 0 ≤ e then
    digits ++ List.replicate e.toNat '0' ++ ['.', '0']
  else
    digits.take (lead.toNat + 1) ++ '.' :: digits.drop (lead.toNat + 1)

/-- The text of a finite double. Callers have their own texts for the others. -/
def text (layout : Layout) (x : Binary64) : List Char :=
  match x.value with
  | .finite negative m q =>
    let unsigned :=
      if m = 0 then ['0', '.', '0']
      else
        let (digits, e) := shortestDigits x.magnitudeBits m q
        layout.write digits e
    if negative then '-' :: unsigned else unsigned
  | _ => []

end FilterQuery.Binary64
