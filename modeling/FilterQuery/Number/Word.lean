import FilterQuery.Number.Binary64

/-!
# Doubles and words of 64 bits

A signed word of 64 bits becomes the double nearest to it. A double becomes a word by losing its fraction; what lies
beyond the words becomes the last word on its side, and NaN becomes zero.

Doubles are compared by their exact values, so the two zeros are equal. NaN has no order with anything: whatever is
asked of it does not hold.
-/

namespace FilterQuery.Binary64

/-- The double nearest to a whole number. -/
def ofInt (n : Int) : Binary64 := ofDecimal ⟨decide (n < 0), n.natAbs, 0⟩

namespace Value

def zero : Value := finite false 0 0

def signed (negative : Bool) (n : Nat) : Int := if negative then -(n : Int) else n

/-- The order of two whole numbers. -/
def order (a b : Int) : Ordering := if a < b then .lt else if a = b then .eq else .gt

/-- The order of two values. Finite ones are counted in units of the lesser of their powers of two. -/
def order? : Value → Value → Option Ordering
  | finite a m p, finite b n q =>
    some (order (signed a (m * Nat.pow 2 (p - q).toNat)) (signed b (n * Nat.pow 2 (q - p).toNat)))
  | finite _ _ _, infinite b => some (if b then .gt else .lt)
  | infinite a, finite _ _ _ => some (if a then .lt else .gt)
  | infinite a, infinite b => some (if a = b then .eq else if a then .lt else .gt)
  | notANumber, _ => none
  | _, notANumber => none

def equals (v w : Value) : Bool := v.order? w == some .eq

def below (v w : Value) : Bool := v.order? w == some .lt

def atLeast (v w : Value) : Bool := v.order? w == some .gt || v.order? w == some .eq

/-- What is left of a value without its whole part. It has the sign of the value and no more digits, so it is a double
itself and nothing is rounded. An infinity without its whole part is not a number. -/
def fraction : Value → Value
  | finite negative m q => finite negative (if 0 ≤ q then 0 else m % Nat.pow 2 (-q).toNat) q
  | _ => notANumber

/-- The signed word of 64 bits that a value becomes. -/
def toWord : Value → Int64
  | finite negative m q =>
    .ofIntClamp (signed negative (if 0 ≤ q then m * Nat.pow 2 q.toNat else m / Nat.pow 2 (-q).toNat))
  | infinite negative => if negative then .minValue else .maxValue
  | notANumber => 0

/-- Whether a value is a signed word of 64 bits, by comparisons of doubles: it has no fraction, the least word is not
above it, and it is below the double nearest to the greatest word. That is `2 ^ 63`, which is no word itself. -/
def isWord (v : Value) : Bool :=
  v.fraction.equals zero && v.atLeast (ofInt Int64.minValue.toInt).value &&
    v.below (ofInt Int64.maxValue.toInt).value

end Value

end FilterQuery.Binary64
