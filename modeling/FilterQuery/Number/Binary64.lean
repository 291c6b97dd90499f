import FilterQuery.Number.Decimal

/-!
# Binary64 numbers

A double is its 64 bits. A finite one is `± m · 2 ^ q` with natural `m`, so every question about its value is
exact arithmetic on `m` and `q`, and no floating-point operation is used. `ofDecimal` gives the double nearest
to a decimal, ties to the even neighbour.
-/

namespace FilterQuery

/-- A double, as its IEEE 754 bits. -/
structure Binary64 where
  bits : UInt64
deriving DecidableEq, Repr, Inhabited

namespace Binary64

/-- What the bits stand for. A finite value is `± m · 2 ^ q`. -/
inductive Value where
  | notANumber
  | infinite (negative : Bool)
  | finite (negative : Bool) (m : Nat) (q : Int)
deriving DecidableEq, Repr

/-- The bits below the sign. -/
def magnitudeBits (x : Binary64) : Nat := x.bits.toNat % Nat.pow 2 63

def isNegative (x : Binary64) : Bool := Nat.pow 2 63 ≤ x.bits.toNat

/-- The magnitude bits of the infinities; what lies above is not a number. -/
def infinityBits : Nat := 2047 * Nat.pow 2 52

/-- The `m` and `q` of finite magnitude bits. Below the normal doubles the exponent stays the same. -/
def split (b : Nat) : Nat × Int :=
  if b < Nat.pow 2 52 then (b, -1074)
  else (Nat.pow 2 52 + b % Nat.pow 2 52, (b / Nat.pow 2 52 : Nat) - 1075)

def value (x : Binary64) : Value :=
  let b := x.magnitudeBits
  if infinityBits < b then .notANumber
  else if b = infinityBits then .infinite x.isNegative
  else .finite x.isNegative (split b).1 (split b).2

def isFinite (x : Binary64) : Bool := x.magnitudeBits < infinityBits

def isNaN (x : Binary64) : Bool := infinityBits < x.magnitudeBits

def ofMagnitude (negative : Bool) (magnitude : Nat) : Binary64 :=
  ⟨UInt64.ofNat (if negative then Nat.pow 2 63 + magnitude else magnitude)⟩

def infinity (negative : Bool) : Binary64 := ofMagnitude negative infinityBits

/-- The quiet NaN without a payload. -/
def nan : Binary64 := ofMagnitude false (infinityBits + Nat.pow 2 51)

/-- Equality as numbers: the two zeros are equal, and so are any two NaNs. -/
def sameNumber (x y : Binary64) : Bool :=
  x.bits == y.bits || (x.magnitudeBits == 0 && y.magnitudeBits == 0) || (x.isNaN && y.isNaN)

/-- The exact value, if it is a whole number. -/
def integer? (x : Binary64) : Option Int :=
  match x.value with
  | .finite negative m q =>
    let scaled? : Option Nat :=
      if 0 ≤ q then some (m * Nat.pow 2 q.toNat)
      else if m % Nat.pow 2 (-q).toNat = 0 then some (m / Nat.pow 2 (-q).toNat)
      else none
    scaled?.map fun n => if negative then -(n : Int) else n
  | _ => none

/-! ## Rounding -/

/-- The whole number nearest to `n / d`, a tie going to the even one. -/
def roundQuotient (n d : Nat) : Nat :=
  let q := n / d
  let r := n % d
  if d < 2 * r ∨ (2 * r = d ∧ q % 2 = 1) then q + 1 else q

/-- `⌊log₂ (n / d)⌋` for positive `n` and `d`. -/
def floorLogRatio (n d : Nat) : Int :=
  let e : Int := n.log2 - d.log2
  if d * Nat.pow 2 e.toNat ≤ n * Nat.pow 2 (-e).toNat then e else e - 1

/-- The magnitude bits of the double nearest to `n / d`, for positive `n` and `d`. The value is rounded to a
multiple of `2 ^ q`, where `q` leaves 53 binary digits but never falls below the exponent of the smallest
double. A carry out of the 53 digits runs into the exponent bits, which is the next power of two, and what
lies beyond the largest double is infinite. -/
def roundRatio (n d : Nat) : Nat :=
  let q := max (floorLogRatio n d - 52) (-1074)
  let m := roundQuotient (n * Nat.pow 2 (-q).toNat) (d * Nat.pow 2 q.toNat)
  min ((q + 1074).toNat * Nat.pow 2 52 + m) infinityBits

/-- The magnitude bits of the double nearest to `c · 10 ^ e`. An exponent beyond 310 is infinite whatever the
positive coefficient is; a number below `2 ^ (-1075)` is zero, and a power of eight bounds the power of ten
that shows it. -/
def roundDecimal (c : Nat) (e : Int) : Nat :=
  if c = 0 then 0
  else if 310 ≤ e then infinityBits
  else if (c.log2 : Int) + 1 + 3 * e ≤ -1076 then 0
  else roundRatio (c * Nat.pow 10 e.toNat) (Nat.pow 10 (-e).toNat)

/-- The double nearest to a decimal; beyond the largest one, an infinity. -/
def ofDecimal (d : Decimal) : Binary64 :=
  ofMagnitude d.negative (roundDecimal d.coefficient d.exponent)

/-- Reads a whole text as a double, which is infinite if the number is too large. -/
def read? (s : String) : Option Binary64 := (Decimal.read? s.toList).map ofDecimal

/-- Reads a whole text as a finite double. -/
def readFinite? (s : String) : Option Binary64 := (read? s).filter isFinite

end Binary64

end FilterQuery
