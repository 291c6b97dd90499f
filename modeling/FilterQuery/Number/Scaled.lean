import FilterQuery.Number.Binary64

/-!
# Doubles from digits and a power of ten

The short way to read a decimal: a word of 64 bits takes the leading digits, a digit that does not fit is
dropped with all that follow it, and the word, rounded to a double, is multiplied or divided by a power of ten
that is rounded itself. Each step gives the double nearest to its exact result, so the outcome is near the
decimal, but it may be the neighbour of the nearest double.

All of this is on magnitude bits; the sign is put on at the end.
-/

namespace FilterQuery.Binary64

/-- The magnitude bits of the double nearest to `n / d · 2 ^ q`, for positive `d`. -/
def roundScaled (n d : Nat) (q : Int) : Nat :=
  if n = 0 then 0 else roundRatio (n * Nat.pow 2 q.toNat) (d * Nat.pow 2 (-q).toNat)

/-- The rounded product of two finite magnitudes. -/
def multiply (a b : Nat) : Nat :=
  let (m, p) := split a
  let (n, q) := split b
  roundScaled (m * n) 1 (p + q)

/-- The rounded quotient of two finite magnitudes, of which the second is positive. -/
def divide (a b : Nat) : Nat :=
  let (m, p) := split a
  let (n, q) := split b
  roundScaled m n (p - q)

/-- The greatest exponent of a power of ten that is finite. -/
def maxPower : Nat := 308

/-- The magnitude bits of a power of ten. -/
def powerOfTen (k : Nat) : Nat := roundDecimal 1 k

/-- A magnitude divided by a power of ten, in as many steps as the greatest finite power calls for. -/
def lower (a k : Nat) : Nat :=
  if a = 0 then 0
  else if k ≤ maxPower then divide a (powerOfTen k)
  else lower (divide a (powerOfTen maxPower)) (k - maxPower)
termination_by k
decreasing_by simp only [maxPower] at *; omega

/-- A magnitude times a power of ten, which is infinite if the power is. -/
def raise (a k : Nat) : Nat :=
  if a = 0 then 0 else if k ≤ maxPower then multiply a (powerOfTen k) else infinityBits

def scale (a : Nat) (e : Int) : Nat := if 0 ≤ e then raise a e.toNat else lower a (-e).toNat

/-- Adds leading digits to `n` as long as a word of 64 bits holds the number, and counts them. -/
def takeDigits (n : Nat) : List Char → Nat × Nat
  | [] => (n, 0)
  | d :: ds =>
    let next := 10 * n + Decimal.digitValue d
    if Nat.pow 2 64 ≤ next then (n, 0)
    else
      let (m, count) := takeDigits next ds
      (m, count + 1)

/-- The double that digits before and after a point and a power of ten are read as. A dropped digit before the
point still counts as a place. -/
def ofDigits (negative : Bool) (whole fraction : List Char) (e : Int) : Binary64 :=
  let (n, before) := takeDigits 0 whole
  let (n, after) := takeDigits n fraction
  ofMagnitude negative (scale (roundScaled n 1 0) (e + (whole.length - before : Nat) - after))

end FilterQuery.Binary64
