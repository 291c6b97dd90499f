import FilterQuery.Number.Binary64
import Mathlib.Algebra.Order.Field.Power
import Mathlib.Algebra.Order.Floor.Semifield
import Mathlib.Data.Int.Log
import Mathlib.Data.Rat.Floor
import Mathlib.Tactic.FieldSimp
import Mathlib.Tactic.Linarith
import Mathlib.Tactic.NormNum
import Mathlib.Tactic.Positivity
import Mathlib.Tactic.Ring

/-!
# Rounding as it is defined

The double nearest to a positive rational is told by exact arithmetic: the rational is measured in units of the
last binary digit that a double near it has, and the number of units is rounded, a tie going to the even one
(`nearest`). The functions that round work on whole numbers only, with a logarithm that is guessed and corrected
and with shortcuts for exponents that are far out. They give the same double (`roundRatio_eq`,
`roundDecimal_eq`).

The value of the nearest double is the rational, rounded to the units (`magnitudeValue_nearest`). A finite double is
nearest to its own value (`nearest_magnitudeValue`), so any decimal that writes this value exactly is read back as
the double.
-/

namespace FilterQuery.Binary64

/-! ## The nearest double -/

/-- The whole number nearest to a rational that is not negative, a tie going to the even one. -/
def roundHalfEven (r : ℚ) : Nat :=
  if 1 / 2 < r - ⌊r⌋₊ ∨ (r - ⌊r⌋₊ = 1 / 2 ∧ ⌊r⌋₊ % 2 = 1) then ⌊r⌋₊ + 1 else ⌊r⌋₊

/-- The exponent of the last binary digit that a double near `r` has. -/
def unitExponent (r : ℚ) : Int := max (Int.log 2 r - 52) (-1074)

/-- The magnitude bits of the double nearest to a positive rational. -/
def nearest (r : ℚ) : Nat :=
  min ((unitExponent r + 1074).toNat * 2 ^ 52 + roundHalfEven (r / 2 ^ unitExponent r)) infinityBits

theorem roundQuotient_eq (n : Nat) {d : Nat} (hd : 0 < d) : roundQuotient n d = roundHalfEven (n / d) := by
  have hdq : (0 : ℚ) < d := by exact_mod_cast hd
  have hfloor : ⌊(n : ℚ) / d⌋₊ = n / d := Nat.floor_div_eq_div n d
  have hrest : (n : ℚ) / d - ((n / d : Nat) : ℚ) = ((n % d : Nat) : ℚ) / d := by
    have hn : (n : ℚ) = d * ((n / d : Nat) : ℚ) + ((n % d : Nat) : ℚ) := by
      exact_mod_cast (Nat.div_add_mod n d).symm
    rw [eq_div_iff hdq.ne', sub_mul, div_mul_cancel₀ _ hdq.ne', hn]
    ring
  have hlt : (1 : ℚ) / 2 < ((n % d : Nat) : ℚ) / d ↔ d < 2 * (n % d) := by
    rw [div_lt_div_iff₀ two_pos hdq, one_mul, mul_comm]
    exact_mod_cast Iff.rfl
  have heq : ((n % d : Nat) : ℚ) / d = 1 / 2 ↔ 2 * (n % d) = d := by
    rw [div_eq_div_iff hdq.ne' two_ne_zero, one_mul, mul_comm]
    exact_mod_cast Iff.rfl
  simp only [roundQuotient, roundHalfEven, hfloor, hrest, hlt, heq]

theorem pow_toNat_div (b : ℚ) (q : Int) : b ^ q.toNat / b ^ (-q).toNat = b ^ q := by
  rcases le_total 0 q with hq | hq
  · rw [Int.toNat_of_nonpos (by omega : -q ≤ 0), pow_zero, div_one, ← zpow_natCast, Int.toNat_of_nonneg hq]
  · rw [Int.toNat_of_nonpos hq, pow_zero, one_div, ← zpow_natCast, Int.toNat_of_nonneg (by omega : 0 ≤ -q),
      zpow_neg, inv_inv]

theorem log_eq {r : ℚ} {t : Int} (h1 : (2 : ℚ) ^ t ≤ r) (h2 : r < 2 ^ (t + 1)) : Int.log 2 r = t := by
  have hr : 0 < r := lt_of_lt_of_le (zpow_pos two_pos t) h1
  have hle : t ≤ Int.log 2 r := (Int.zpow_le_iff_le_log (by norm_num) hr).1 (by exact_mod_cast h1)
  have hlt : Int.log 2 r < t + 1 := (Int.lt_zpow_iff_log_lt (by norm_num) hr).1 (by exact_mod_cast h2)
  omega

/-- The two logarithms of a quotient's parts tell its own one up to one. -/
theorem ratio_bounds {n d : Nat} (hn : 0 < n) (hd : 0 < d) :
    (2 : ℚ) ^ ((n.log2 : Int) - d.log2 - 1) ≤ n / d ∧ (n : ℚ) / d < 2 ^ ((n.log2 : Int) - d.log2 + 1) := by
  have hdq : (0 : ℚ) < d := by exact_mod_cast hd
  have hn1 : (2 : ℚ) ^ n.log2 ≤ n := by exact_mod_cast Nat.log2_self_le hn.ne'
  have hn2 : (n : ℚ) < 2 ^ (n.log2 + 1) := by exact_mod_cast Nat.lt_log2_self
  have hd1 : (2 : ℚ) ^ d.log2 ≤ d := by exact_mod_cast Nat.log2_self_le hd.ne'
  have hd2 : (d : ℚ) < 2 ^ (d.log2 + 1) := by exact_mod_cast Nat.lt_log2_self
  constructor
  · calc (2 : ℚ) ^ ((n.log2 : Int) - d.log2 - 1) = 2 ^ n.log2 / 2 ^ (d.log2 + 1) := by
          rw [sub_sub, zpow_sub₀ two_ne_zero, ← Nat.cast_succ, zpow_natCast, zpow_natCast]
      _ ≤ n / d := by gcongr
  · calc (n : ℚ) / d < 2 ^ (n.log2 + 1) / 2 ^ d.log2 := by gcongr
      _ = 2 ^ ((n.log2 : Int) - d.log2 + 1) := by
          rw [sub_add_eq_add_sub, zpow_sub₀ two_ne_zero, ← Nat.cast_succ, zpow_natCast, zpow_natCast]

theorem floorLogRatio_eq {n d : Nat} (hn : 0 < n) (hd : 0 < d) : floorLogRatio n d = Int.log 2 ((n : ℚ) / d) := by
  have hdq : (0 : ℚ) < d := by exact_mod_cast hd
  obtain ⟨hlo, hhi⟩ := ratio_bounds hn hd
  unfold floorLogRatio
  simp only [Nat.pow_eq]
  generalize (n.log2 : Int) - d.log2 = e at hlo hhi
  have htest : d * 2 ^ e.toNat ≤ n * 2 ^ (-e).toNat ↔ (2 : ℚ) ^ e ≤ n / d := by
    rw [← pow_toNat_div, div_le_div_iff₀ (by positivity) hdq, mul_comm]
    exact_mod_cast Iff.rfl
  split
  · next h => exact (log_eq (htest.1 h) hhi).symm
  · next h =>
    refine (log_eq hlo ?_).symm
    rw [sub_add_cancel]
    exact not_le.1 (mt htest.2 h)

theorem roundRatio_eq {n d : Nat} (hn : 0 < n) (hd : 0 < d) : roundRatio n d = nearest (n / d) := by
  unfold roundRatio nearest unitExponent
  rw [floorLogRatio_eq hn hd]
  simp only [Nat.pow_eq]
  generalize max (Int.log 2 ((n : ℚ) / d) - 52) (-1074) = q
  have hscale : ((n * 2 ^ (-q).toNat : Nat) : ℚ) / ((d * 2 ^ q.toNat : Nat) : ℚ) = n / d / 2 ^ q := by
    rw [← pow_toNat_div 2 q]
    push_cast
    field_simp
  rw [roundQuotient_eq _ (by positivity), hscale]

/-! ## Values out of range -/

@[simp] theorem roundHalfEven_natCast (n : Nat) : roundHalfEven n = n := by
  simp [roundHalfEven]

theorem le_roundHalfEven {r : ℚ} {m : Nat} (h1 : (m : ℚ) ≤ r) : m ≤ roundHalfEven r := by
  have hf : m ≤ ⌊r⌋₊ := Nat.le_floor h1
  unfold roundHalfEven
  split <;> omega

theorem roundHalfEven_le {r : ℚ} {m : Nat} (h0 : 0 ≤ r) (h1 : r < m) : roundHalfEven r ≤ m := by
  have hf : ⌊r⌋₊ < m := (Nat.floor_lt h0).2 h1
  unfold roundHalfEven
  split <;> omega

theorem roundHalfEven_of_small {r : ℚ} (h : r < 1 / 2) : roundHalfEven r = 0 := by
  have hf : ⌊r⌋₊ = 0 := Nat.floor_eq_zero.2 (by linarith)
  rw [roundHalfEven, hf, if_neg]
  rintro (h | ⟨-, h⟩)
  · simp at h
    linarith
  · simp at h

/-- In units of the last of 53 binary digits a rational has at least 52 digits before the point. -/
theorem le_scaled {r : ℚ} (hr : 0 < r) : (2 : ℚ) ^ 52 ≤ r / 2 ^ (Int.log 2 r - 52) := by
  have hlog : (2 : ℚ) ^ Int.log 2 r ≤ r := by exact_mod_cast Int.zpow_log_le_self (by norm_num) hr
  rw [le_div_iff₀ (zpow_pos two_pos _)]
  calc (2 : ℚ) ^ 52 * 2 ^ (Int.log 2 r - 52) = 2 ^ Int.log 2 r := by
        rw [← zpow_natCast, ← zpow_add₀ two_ne_zero]
        congr 1
        push_cast
        ring
    _ ≤ r := hlog

/-- In units of the last digit no rational has more than 53 digits before the point. -/
theorem scaled_lt (r : ℚ) : r / 2 ^ unitExponent r < (2 : ℚ) ^ 53 := by
  have hlog : r < (2 : ℚ) ^ (Int.log 2 r + 1) := by exact_mod_cast Int.lt_zpow_succ_log_self (by norm_num) r
  have hexp : Int.log 2 r + 1 ≤ 53 + unitExponent r := by
    have hunit : Int.log 2 r - 52 ≤ unitExponent r := le_max_left _ _
    omega
  rw [div_lt_iff₀ (zpow_pos two_pos _)]
  calc r < (2 : ℚ) ^ (Int.log 2 r + 1) := hlog
    _ ≤ 2 ^ (53 + unitExponent r) := zpow_le_zpow_right₀ (by norm_num) hexp
    _ = 2 ^ 53 * 2 ^ unitExponent r := by
      rw [zpow_add₀ two_ne_zero]
      rfl

theorem nearest_of_large {r : ℚ} (h : (2 : ℚ) ^ (1024 : Int) ≤ r) : nearest r = infinityBits := by
  have hr : 0 < r := lt_of_lt_of_le (zpow_pos two_pos _) h
  have hlog : 1024 ≤ Int.log 2 r := (Int.zpow_le_iff_le_log (by norm_num) hr).1 (by exact_mod_cast h)
  have hq : unitExponent r = Int.log 2 r - 52 := max_eq_left (by omega)
  have hm : 2 ^ 52 ≤ roundHalfEven (r / 2 ^ (Int.log 2 r - 52)) :=
    le_roundHalfEven (by exact_mod_cast le_scaled hr)
  unfold nearest
  rw [hq, min_eq_right]
  have hexp : 2046 ≤ (Int.log 2 r - 52 + 1074).toNat := by omega
  have hprod : 2046 * 2 ^ 52 ≤ (Int.log 2 r - 52 + 1074).toNat * 2 ^ 52 := Nat.mul_le_mul_right _ hexp
  simp only [infinityBits, Nat.pow_eq]
  omega

theorem nearest_lt_infinityBits {r : ℚ} (hr : 0 < r) (h : Int.log 2 r < 1023) : nearest r < infinityBits := by
  have hm : roundHalfEven (r / 2 ^ unitExponent r) ≤ 2 ^ 53 :=
    roundHalfEven_le (by positivity) (by exact_mod_cast scaled_lt r)
  have hq : unitExponent r ≤ 970 := max_le (by omega) (by norm_num)
  have hexp : (unitExponent r + 1074).toNat * 2 ^ 52 ≤ 2044 * 2 ^ 52 := Nat.mul_le_mul_right _ (by omega)
  unfold nearest
  refine lt_of_le_of_lt (min_le_left _ _) ?_
  simp only [infinityBits, Nat.pow_eq]
  omega

theorem nearest_of_small {r : ℚ} (hr : 0 < r) (h : r < (2 : ℚ) ^ (-1075 : Int)) : nearest r = 0 := by
  have hlog : Int.log 2 r < -1075 := (Int.lt_zpow_iff_log_lt (by norm_num) hr).1 (by exact_mod_cast h)
  have hq : unitExponent r = -1074 := max_eq_right (by omega)
  have hhalf : r / 2 ^ (-1074 : Int) < 1 / 2 := by
    rw [div_lt_iff₀ (zpow_pos two_pos _)]
    calc r < (2 : ℚ) ^ (-1075 : Int) := h
      _ = 2 ^ (-1 : Int) * 2 ^ (-1074 : Int) := by rw [← zpow_add₀ two_ne_zero]; rfl
      _ = 1 / 2 * 2 ^ (-1074 : Int) := by norm_num only [zpow_neg_one, one_div]
  unfold nearest
  rw [hq, roundHalfEven_of_small hhalf]
  rfl

/-! ## Decimals -/

/-- The shortcuts for powers of ten that are out of range do not show: a decimal is read as the double nearest to
its exact value. -/
theorem roundDecimal_eq {c : Nat} (hc : 0 < c) (e : Int) : roundDecimal c e = nearest (c * 10 ^ e) := by
  have hcq : (1 : ℚ) ≤ c := by exact_mod_cast hc
  have hpos : (0 : ℚ) < c * 10 ^ e := by positivity
  unfold roundDecimal
  rw [if_neg hc.ne']
  split
  · next hlarge =>
    symm
    apply nearest_of_large
    have hpow : 2 ^ 1024 ≤ 10 ^ 310 := by decide +kernel
    calc (2 : ℚ) ^ (1024 : Int) ≤ 10 ^ (310 : Int) := by exact_mod_cast hpow
      _ ≤ 10 ^ e := zpow_le_zpow_right₀ (by norm_num) hlarge
      _ ≤ c * 10 ^ e := le_mul_of_one_le_left (by positivity) hcq
  · split
    · next hsmall =>
      -- ten to a negative power is at most eight to it
      symm
      apply nearest_of_small hpos
      have hc2 : (c : ℚ) < 2 ^ (c.log2 + 1) := by exact_mod_cast Nat.lt_log2_self
      have h8 : (10 : ℚ) ^ e ≤ 2 ^ (3 * e) := by
        obtain ⟨k, rfl⟩ : ∃ k : Nat, e = -k := ⟨(-e).toNat, by omega⟩
        rw [zpow_mul, zpow_neg, zpow_neg, zpow_natCast, zpow_natCast]
        gcongr
        norm_num
      calc (c : ℚ) * 10 ^ e ≤ c * 2 ^ (3 * e) := by gcongr
        _ < 2 ^ (c.log2 + 1) * 2 ^ (3 * e) := by gcongr
        _ = 2 ^ ((c.log2 : Int) + 1 + 3 * e) := by
          rw [← zpow_natCast, ← zpow_add₀ two_ne_zero]
          push_cast
          rfl
        _ ≤ 2 ^ (-1076 : Int) := zpow_le_zpow_right₀ (by norm_num) hsmall
        _ < 2 ^ (-1075 : Int) := zpow_lt_zpow_right₀ (by norm_num) (by norm_num)
    · simp only [Nat.pow_eq]
      rw [roundRatio_eq (by positivity) (by positivity), ← pow_toNat_div 10 e]
      push_cast
      rw [mul_div_assoc]

/-! ## The exact value of a double -/

theorem magnitudeBits_ofMagnitude (negative : Bool) {b : Nat} (hb : b < 2 ^ 63) :
    (ofMagnitude negative b).magnitudeBits = b ∧ (ofMagnitude negative b).isNegative = negative := by
  simp only [ofMagnitude, magnitudeBits, isNegative, UInt64.toNat_ofNat', Nat.pow_eq]
  cases negative with
  | true =>
    simp
    omega
  | false =>
    simp
    omega

theorem ofMagnitude_self (x : Binary64) : ofMagnitude x.isNegative x.magnitudeBits = x := by
  obtain ⟨bits⟩ := x
  have hbits := bits.toNat_lt
  simp only [ofMagnitude, isNegative, magnitudeBits, decide_eq_true_eq, Nat.pow_eq]
  congr 1
  rw [← UInt64.toNat_inj, UInt64.toNat_ofNat']
  split <;> omega

theorem value_of_isFinite {x : Binary64} (h : x.isFinite = true) :
    x.value = .finite x.isNegative (split x.magnitudeBits).1 (split x.magnitudeBits).2 := by
  have hfinite : x.magnitudeBits < infinityBits := by simpa [isFinite] using h
  unfold value
  rw [if_neg (by omega), if_neg (by omega)]

theorem isFinite_of_value {x : Binary64} {negative : Bool} {m : Nat} {q : Int}
    (h : x.value = .finite negative m q) : x.isFinite = true := by
  unfold value at h
  extract_lets b at h
  split at h
  · cases h
  · split at h
    · cases h
    · simp only [isFinite, decide_eq_true_eq]
      omega

/-- The exact value of magnitude bits. -/
def magnitudeValue (b : Nat) : ℚ := (split b).1 * 2 ^ (split b).2

theorem split_of_lt {b : Nat} (h : b < 2 ^ 52) : split b = (b, -1074) := by
  unfold split
  rw [if_pos (by simpa using h)]

/-- A normal double: its last digit is that of the power of two that the exponent bits tell. -/
theorem split_of_le {m : Nat} (k : Nat) (h1 : 2 ^ 52 ≤ m) (h2 : m < 2 ^ 53) :
    split (k * 2 ^ 52 + m) = (m, (k : Int) - 1074) := by
  unfold split
  simp only [Nat.pow_eq]
  have hdiv : (k * 2 ^ 52 + m) / 2 ^ 52 = k + 1 := by omega
  have hmod : (k * 2 ^ 52 + m) % 2 ^ 52 = m - 2 ^ 52 := by omega
  rw [if_neg (by omega), hdiv, hmod]
  ext
  · simp only
    omega
  · push_cast
    ring

/-- Bits at or above the first normal double are `k * 2 ^ 52 + m` in one way. -/
theorem exists_normal {b : Nat} (h : 2 ^ 52 ≤ b) : ∃ k m : Nat, 2 ^ 52 ≤ m ∧ m < 2 ^ 53 ∧ b = k * 2 ^ 52 + m :=
  ⟨b / 2 ^ 52 - 1, 2 ^ 52 + b % 2 ^ 52, by omega, by omega, by omega⟩

theorem magnitudeValue_pos {b : Nat} (hb : 0 < b) : 0 < magnitudeValue b := by
  unfold magnitudeValue
  have hm : 0 < (split b).1 := by
    rcases Nat.lt_or_ge b (2 ^ 52) with h | h
    · rwa [split_of_lt h]
    · obtain ⟨k, m, h1, h2, rfl⟩ := exists_normal h
      rw [split_of_le k h1 h2]
      simp only
      omega
  positivity

theorem split_eq_zero_iff {b : Nat} : (split b).1 = 0 ↔ b = 0 := by
  constructor
  · intro h
    by_contra hb
    have hpos := magnitudeValue_pos (Nat.pos_of_ne_zero hb)
    simp [magnitudeValue, h] at hpos
  · rintro rfl
    decide

/-- The value of a double, if it is whole. -/
theorem integer?_eq {x : Binary64} (hx : x.isFinite = true) {n : Nat}
    (h : magnitudeValue x.magnitudeBits = n) :
    x.integer? = some (if x.isNegative then -(n : Int) else n) := by
  unfold integer?
  rw [value_of_isFinite hx]
  unfold magnitudeValue at h
  generalize split x.magnitudeBits = parts at h
  obtain ⟨m, q⟩ := parts
  have hscaled : (if 0 ≤ q then some (m * Nat.pow 2 q.toNat)
      else if m % Nat.pow 2 (-q).toNat = 0 then some (m / Nat.pow 2 (-q).toNat) else none) = some n := by
    simp only [Nat.pow_eq] at h ⊢
    rcases le_or_gt 0 q with hq | hq
    · obtain ⟨k, rfl⟩ := Int.eq_ofNat_of_zero_le hq
      rw [zpow_natCast] at h
      rw [if_pos hq, Int.toNat_natCast]
      exact congrArg some (by exact_mod_cast h)
    · obtain ⟨k, rfl⟩ : ∃ k : Nat, q = -k := ⟨(-q).toNat, by omega⟩
      have hm : m = n * 2 ^ k := by
        rw [zpow_neg, zpow_natCast, ← div_eq_mul_inv, div_eq_iff (by positivity)] at h
        exact_mod_cast h
      rw [if_neg (by omega), neg_neg, Int.toNat_natCast, hm, Nat.mul_mod_left, if_pos rfl]
      rw [Nat.mul_div_cancel _ (by positivity)]
  simp only [hscaled]
  rfl

theorem isFinite_of_integer? {x : Binary64} {n : Int} (h : x.integer? = some n) : x.isFinite = true := by
  unfold integer? at h
  split at h
  · next hv => exact isFinite_of_value hv
  · cases h

/-- A double has a whole number only if its exact value is whole. -/
theorem exists_of_integer? {x : Binary64} {n : Int} (h : x.integer? = some n) :
    ∃ k : Nat, magnitudeValue x.magnitudeBits = k ∧ n = if x.isNegative then -(k : Int) else k := by
  have hfinite := isFinite_of_integer? h
  obtain ⟨k, hk⟩ : ∃ k : Nat, magnitudeValue x.magnitudeBits = k := by
    unfold integer? at h
    rw [value_of_isFinite hfinite] at h
    unfold magnitudeValue
    generalize split x.magnitudeBits = parts at h
    obtain ⟨m, q⟩ := parts
    simp only [Nat.pow_eq] at h ⊢
    rcases le_or_gt 0 q with hq | hq
    · obtain ⟨j, rfl⟩ := Int.eq_ofNat_of_zero_le hq
      exact ⟨m * 2 ^ j, by push_cast; rfl⟩
    · obtain ⟨j, rfl⟩ : ∃ j : Nat, q = -j := ⟨(-q).toNat, by omega⟩
      rw [if_neg (by omega), neg_neg, Int.toNat_natCast] at h
      have hdvd : m % 2 ^ j = 0 := by
        by_contra hne
        simp [hne] at h
      have hm : m = m / 2 ^ j * 2 ^ j := (Nat.div_mul_cancel (Nat.dvd_of_mod_eq_zero hdvd)).symm
      refine ⟨m / 2 ^ j, ?_⟩
      rw [zpow_neg, zpow_natCast, ← div_eq_mul_inv, div_eq_iff (by positivity)]
      exact_mod_cast hm
  refine ⟨k, hk, ?_⟩
  rw [integer?_eq hfinite hk, Option.some_inj] at h
  exact h.symm

/-! ## Doubles and what is nearest to them -/

/-- Bits made of an exponent and of digits have the value that the two tell, also if the digits carry into the
exponent. -/
theorem magnitudeValue_pack {k m : Nat} (h1 : 2 ^ 52 ≤ m ∨ k = 0) (h2 : m ≤ 2 ^ 53) :
    magnitudeValue (k * 2 ^ 52 + m) = m * 2 ^ ((k : Int) - 1074) := by
  unfold magnitudeValue
  rcases Nat.lt_or_ge m (2 ^ 52) with hm | hm
  · obtain rfl : k = 0 := by omega
    rw [Nat.zero_mul, Nat.zero_add, split_of_lt hm]
    simp
  · rcases Nat.lt_or_ge m (2 ^ 53) with hlt | hge
    · rw [split_of_le k hm hlt]
    · -- the carry makes it the first double with the next exponent
      obtain rfl : m = 2 ^ 53 := by omega
      have hcarry : k * 2 ^ 52 + 2 ^ 53 = (k + 1) * 2 ^ 52 + 2 ^ 52 := by ring
      rw [hcarry, split_of_le (k + 1) le_rfl (by norm_num)]
      have hexp : ((k + 1 : Nat) : Int) - 1074 = 1 + ((k : Int) - 1074) := by
        push_cast
        ring
      rw [hexp, zpow_add₀ two_ne_zero]
      push_cast
      ring

/-- A finite nearest double is the rational, rounded to units of its last digit. -/
theorem magnitudeValue_nearest {r : ℚ} (hr : 0 < r) (h : nearest r < infinityBits) :
    magnitudeValue (nearest r) = roundHalfEven (r / 2 ^ unitExponent r) * 2 ^ unitExponent r := by
  have hbits : nearest r = (unitExponent r + 1074).toNat * 2 ^ 52 + roundHalfEven (r / 2 ^ unitExponent r) := by
    unfold nearest at h ⊢
    omega
  obtain ⟨k, hk⟩ : ∃ k : Nat, unitExponent r = k - 1074 := by
    have hleast : -1074 ≤ unitExponent r := le_max_right _ _
    exact ⟨(unitExponent r + 1074).toNat, by omega⟩
  have hdigits : 2 ^ 52 ≤ roundHalfEven (r / 2 ^ unitExponent r) ∨ k = 0 := by
    rcases max_choice (Int.log 2 r - 52) (-1074) with hlog | hleast
    · left
      rw [unitExponent, hlog]
      exact le_roundHalfEven (by exact_mod_cast le_scaled hr)
    · right
      rw [unitExponent, hleast] at hk
      omega
  have hmost : roundHalfEven (r / 2 ^ unitExponent r) ≤ 2 ^ 53 :=
    roundHalfEven_le (by positivity) (by exact_mod_cast scaled_lt r)
  have hexp : (unitExponent r + 1074).toNat = k := by omega
  rw [hbits, hexp, magnitudeValue_pack hdigits hmost, ← hk]

theorem nearest_magnitudeValue {b : Nat} (h0 : 0 < b) (hb : b < infinityBits) : nearest (magnitudeValue b) = b := by
  unfold nearest magnitudeValue
  rcases Nat.lt_or_ge b (2 ^ 52) with h | h
  · -- the unit of the smallest doubles is the least there is
    rw [split_of_lt h]
    have hlog : Int.log 2 ((b : ℚ) * 2 ^ (-1074 : Int)) < -1022 := by
      rw [← Int.lt_zpow_iff_log_lt (by norm_num) (by positivity)]
      have hbq : (b : ℚ) < 2 ^ 52 := by exact_mod_cast h
      calc (b : ℚ) * 2 ^ (-1074 : Int) < 2 ^ 52 * 2 ^ (-1074 : Int) := by gcongr
        _ = ((2 : Nat) : ℚ) ^ (-1022 : Int) := by
          rw [← zpow_natCast, ← zpow_add₀ two_ne_zero]
          rfl
    have hq : unitExponent ((b : ℚ) * 2 ^ (-1074 : Int)) = -1074 := max_eq_right (by omega)
    simp only [hq]
    rw [mul_div_cancel_right₀ _ (by positivity), roundHalfEven_natCast, min_eq_left]
    · simp
    · simp
      omega
  · obtain ⟨k, m, h1, h2, rfl⟩ := exists_normal h
    rw [split_of_le k h1 h2]
    have hm1 : (2 : ℚ) ^ 52 ≤ m := by exact_mod_cast h1
    have hm2 : (m : ℚ) < 2 ^ 53 := by exact_mod_cast h2
    have hlog : Int.log 2 ((m : ℚ) * 2 ^ ((k : Int) - 1074)) = k - 1074 + 52 := by
      apply log_eq
      · rw [add_comm, zpow_add₀ two_ne_zero]
        gcongr
        exact_mod_cast hm1
      · rw [add_assoc, add_comm, zpow_add₀ two_ne_zero]
        gcongr
        exact_mod_cast hm2
    have hq : unitExponent ((m : ℚ) * 2 ^ ((k : Int) - 1074)) = k - 1074 := by
      unfold unitExponent
      rw [hlog]
      omega
    simp only [hq]
    rw [mul_div_cancel_right₀ _ (by positivity), roundHalfEven_natCast, min_eq_left]
    · simp
    · simp
      omega

end FilterQuery.Binary64
