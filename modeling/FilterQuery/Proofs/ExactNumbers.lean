import FilterQuery.Query
import FilterQuery.Proofs.Rounding

/-!
# Doubles as JSON numbers

Which doubles are written as whole numbers is decided by comparing doubles, and the double nearest to the greatest
word is not this word but the next whole number. The decision is exact all the same (`toJson_exact`): a double is
written as a whole number just when its value is one and a signed word of 64 bits holds it, and the number is the
value. The conversion to a word never has to drop a fraction or stop at the last word.

All of this is told by the exact value of a double, which is a rational number if the double is finite (`rational?`).
-/

namespace FilterQuery.Binary64

/-! ## Exact values -/

/-- The exact value, if it is finite. -/
def Value.rational? : Value → Option ℚ
  | finite negative m q => some (signed negative m * 2 ^ q)
  | _ => none

/-- The exact value of a finite double. -/
def rational? (x : Binary64) : Option ℚ := x.value.rational?

namespace Value

variable {v w : Value} {r s : ℚ}

theorem exists_of_rational? (h : v.rational? = some r) :
    ∃ negative m q, v = finite negative m q ∧ r = signed negative m * 2 ^ q := by
  cases v with
  | finite negative m q => exact ⟨negative, m, q, rfl, (Option.some.inj h).symm⟩
  | infinite | notANumber => cases h

theorem rational?_eq_none_iff : v.rational? = none ↔ v = notANumber ∨ ∃ negative, v = infinite negative := by
  cases v <;> simp [rational?]

theorem signed_mul (negative : Bool) (m n : Nat) : signed negative (m * n) = signed negative m * n := by
  cases negative <;> simp [signed]

/-- In units of the lesser power of two both values are whole. -/
theorem signed_scaled (negative : Bool) (m : Nat) (p q : Int) :
    (signed negative (m * Nat.pow 2 (p - q).toNat) : ℚ) * 2 ^ min p q = signed negative m * 2 ^ p := by
  have hunits : ((p - q).toNat : Int) + min p q = p := by omega
  rw [signed_mul, Nat.pow_eq]
  push_cast
  rw [mul_assoc, ← zpow_natCast, ← zpow_add₀ two_ne_zero, hunits]

theorem order?_of_rational? (hv : v.rational? = some r) (hw : w.rational? = some s) :
    v.order? w = some (if r < s then .lt else if r = s then .eq else .gt) := by
  obtain ⟨a, m, p, rfl, rfl⟩ := exists_of_rational? hv
  obtain ⟨b, n, q, rfl, rfl⟩ := exists_of_rational? hw
  have hpos : (0 : ℚ) < 2 ^ min p q := zpow_pos two_pos _
  rw [← signed_scaled a m p q, ← signed_scaled b n q p, min_comm q p]
  simp only [order?, order, mul_lt_mul_iff_left₀ hpos, mul_left_inj' hpos.ne', Int.cast_lt, Int.cast_inj]

theorem equals_iff (hv : v.rational? = some r) (hw : w.rational? = some s) : v.equals w = true ↔ r = s := by
  rw [equals, order?_of_rational? hv hw]
  split_ifs with hlt heq
  · simpa using hlt.ne
  · simpa using heq
  · simpa using heq

theorem below_iff (hv : v.rational? = some r) (hw : w.rational? = some s) : v.below w = true ↔ r < s := by
  rw [below, order?_of_rational? hv hw]
  split_ifs with hlt heq <;> simp [hlt]

theorem atLeast_iff (hv : v.rational? = some r) (hw : w.rational? = some s) : v.atLeast w = true ↔ s ≤ r := by
  rw [atLeast, order?_of_rational? hv hw, ← not_lt]
  split_ifs with hlt heq <;> simp [hlt]

/-! ## Fractions and words -/

/-- A value without a fraction is its whole part. -/
theorem signed_whole (negative : Bool) {m : Nat} {q : Int}
    (h : (if 0 ≤ q then 0 else m % Nat.pow 2 (-q).toNat) = 0) :
    (signed negative m : ℚ) * 2 ^ q =
      signed negative (if 0 ≤ q then m * Nat.pow 2 q.toNat else m / Nat.pow 2 (-q).toNat) := by
  simp only [Nat.pow_eq] at h ⊢
  rcases le_or_gt 0 q with hq | hq
  · obtain ⟨k, rfl⟩ := Int.eq_ofNat_of_zero_le hq
    rw [if_pos hq, Int.toNat_natCast, signed_mul, zpow_natCast]
    push_cast
    rfl
  · obtain ⟨k, rfl⟩ : ∃ k : Nat, q = -k := ⟨(-q).toNat, by omega⟩
    rw [if_neg (by omega), neg_neg, Int.toNat_natCast] at h ⊢
    have hm : signed negative m = signed negative (m / 2 ^ k) * (2 ^ k : Nat) := by
      rw [← signed_mul, Nat.div_mul_cancel (Nat.dvd_of_mod_eq_zero h)]
    rw [hm, zpow_neg, zpow_natCast]
    push_cast
    field_simp

/-- A value is a whole number exactly if it has no fraction. -/
theorem exists_whole_iff (negative : Bool) (m : Nat) (q : Int) :
    (∃ n : Int, (signed negative m : ℚ) * 2 ^ q = n) ↔ (if 0 ≤ q then 0 else m % Nat.pow 2 (-q).toNat) = 0 := by
  refine ⟨fun ⟨n, hn⟩ => ?_, fun h => ⟨_, signed_whole negative h⟩⟩
  rcases le_or_gt 0 q with hq | hq
  · rw [if_pos hq]
  · obtain ⟨k, rfl⟩ : ∃ k : Nat, q = -k := ⟨(-q).toNat, by omega⟩
    rw [if_neg (by omega), neg_neg, Int.toNat_natCast, Nat.pow_eq]
    rw [zpow_neg, zpow_natCast, ← div_eq_mul_inv, div_eq_iff (by positivity)] at hn
    have hmul : signed negative m = n * (2 ^ k : Nat) := by exact_mod_cast hn
    have habs : (signed negative m).natAbs = m := by cases negative <;> simp [signed]
    rw [← habs, hmul, Int.natAbs_mul, Int.natAbs_natCast, Nat.mul_mod_left]

theorem equals_fraction_iff (hv : v.rational? = some r) : v.fraction.equals zero = true ↔ ∃ n : Int, r = n := by
  obtain ⟨negative, m, q, rfl, rfl⟩ := exists_of_rational? hv
  rw [fraction, equals_iff rfl rfl, exists_whole_iff negative m q]
  generalize (if 0 ≤ q then 0 else m % Nat.pow 2 (-q).toNat) = rest
  have hpow : (2 : ℚ) ^ q ≠ 0 := (zpow_pos two_pos q).ne'
  cases negative <;> simp [signed, hpow]

/-- The conversion to a word is exact wherever a word holds the value. -/
theorem toInt_toWord {n : Int} (hv : v.rational? = some (n : ℚ)) (hlo : -2 ^ 63 ≤ n) (hhi : n < 2 ^ 63) :
    v.toWord.toInt = n := by
  obtain ⟨negative, m, q, rfl, hn⟩ := exists_of_rational? hv
  have hrest := (exists_whole_iff negative m q).1 ⟨n, hn.symm⟩
  have hpart := signed_whole negative hrest
  rw [← hn, Int.cast_inj] at hpart
  have hmin : Int64.minValue.toInt = -2 ^ 63 := by decide
  have hmax : Int64.maxValue.toInt = 2 ^ 63 - 1 := by decide
  rw [toWord, ← hpart, Int64.toInt_ofIntClamp (by omega) (by omega)]

/-- The least word is a double, and the double nearest to the greatest word is the whole number behind it. -/
theorem rational?_bounds :
    (ofInt Int64.minValue.toInt).value.rational? = some (-2 ^ 63) ∧
      (ofInt Int64.maxValue.toInt).value.rational? = some (2 ^ 63) := by
  have hmin : (ofInt Int64.minValue.toInt).value = .finite true (2 ^ 52) 11 := by decide
  have hmax : (ofInt Int64.maxValue.toInt).value = .finite false (2 ^ 52) 11 := by decide
  rw [hmin, hmax]
  norm_num [rational?, signed]

/-- Comparing doubles tells the words from all other values. -/
theorem isWord_iff (hv : v.rational? = some r) : v.isWord = true ↔ ∃ n : Int, r = n ∧ -2 ^ 63 ≤ n ∧ n < 2 ^ 63 := by
  simp only [isWord, Bool.and_eq_true, equals_fraction_iff hv, atLeast_iff hv rational?_bounds.1,
    below_iff hv rational?_bounds.2]
  constructor
  · rintro ⟨⟨⟨n, rfl⟩, hlo⟩, hhi⟩
    exact ⟨n, rfl, by exact_mod_cast hlo, by exact_mod_cast hhi⟩
  · rintro ⟨n, rfl, hlo, hhi⟩
    exact ⟨⟨⟨n, rfl⟩, by exact_mod_cast hlo⟩, by exact_mod_cast hhi⟩

theorem isWord_of_rational?_eq_none (hv : v.rational? = none) : v.isWord = false := by
  rcases rational?_eq_none_iff.1 hv with rfl | ⟨negative, rfl⟩ <;> rfl

end Value

/-! ## The number that is written -/

variable {x y : Binary64} {r : ℚ}

theorem rational?_of_isFinite (h : x.isFinite = true) :
    x.rational? = some (if x.isNegative then -magnitudeValue x.magnitudeBits else magnitudeValue x.magnitudeBits) := by
  rw [rational?, value_of_isFinite h, Value.rational?, magnitudeValue]
  cases x.isNegative <;> simp [Value.signed]

theorem isFinite_iff : x.isFinite = true ↔ ∃ r, x.rational? = some r := by
  constructor
  · intro h
    exact ⟨_, rational?_of_isFinite h⟩
  · rintro ⟨r, h⟩
    obtain ⟨negative, m, q, hvalue, -⟩ := Value.exists_of_rational? h
    exact isFinite_of_value hvalue

theorem toJson_of_word {n : Int} (h : x.rational? = some (n : ℚ)) (hlo : -2 ^ 63 ≤ n) (hhi : n < 2 ^ 63) :
    x.toJson = .int n := by
  rw [toJson, if_pos ((Value.isWord_iff h).2 ⟨n, rfl, hlo, hhi⟩), Value.toInt_toWord h hlo hhi]

theorem toJson_of_not_word (h : x.rational? = some r) (hr : ¬ ∃ n : Int, r = n ∧ -2 ^ 63 ≤ n ∧ n < 2 ^ 63) :
    x.toJson = .float x := by
  rw [toJson, if_neg (mt (Value.isWord_iff h).1 hr), if_pos (isFinite_iff.2 ⟨r, h⟩)]

theorem toJson_of_rational?_eq_none (h : x.rational? = none) : x.toJson = .null := by
  have hinfinite : ¬ x.isFinite = true := by simp [isFinite_iff, h]
  rw [toJson, Value.isWord_of_rational?_eq_none h, if_neg (by simp), if_neg hinfinite]

/-- The distance of a finite double from zero. -/
theorem magnitudeValue_eq_abs (h : x.rational? = some r) : magnitudeValue x.magnitudeBits = |r| := by
  have hnonneg : 0 ≤ magnitudeValue x.magnitudeBits := by
    unfold magnitudeValue
    positivity
  rw [rational?_of_isFinite (isFinite_iff.2 ⟨r, h⟩), Option.some_inj] at h
  subst h
  cases x.isNegative <;> simp [abs_of_nonneg hnonneg]

/-- A double that is not zero has the sign of its value. -/
theorem isNegative_eq (h : x.rational? = some r) (hr : r ≠ 0) : x.isNegative = decide (r < 0) := by
  have habs := magnitudeValue_eq_abs h
  rw [rational?_of_isFinite (isFinite_iff.2 ⟨r, h⟩), habs, Option.some_inj] at h
  have hpos : 0 < |r| := abs_pos.2 hr
  cases hs : x.isNegative <;> simp only [hs] at h
  · have hnonneg : ¬ r < 0 := by simpa using abs_eq_self.1 h
    simp [hnonneg]
  · have hneg : r < 0 := by
      rw [← h]
      simpa using hr
    simp [hneg]

theorem integer?_eq_some_iff {n : Int} : x.integer? = some n ↔ x.rational? = some (n : ℚ) := by
  constructor
  · intro h
    obtain ⟨k, hk, rfl⟩ := exists_of_integer? h
    rw [rational?_of_isFinite (isFinite_of_integer? h), hk]
    cases x.isNegative <;> simp
  · intro h
    have habs : magnitudeValue x.magnitudeBits = n.natAbs := by
      rw [magnitudeValue_eq_abs h, Nat.cast_natAbs, Int.cast_abs]
    rw [integer?_eq (isFinite_iff.2 ⟨_, h⟩) habs, Option.some_inj]
    rcases eq_or_ne n 0 with rfl | hn
    · simp
    · simp only [isNegative_eq h (by exact_mod_cast hn), Int.cast_lt_zero, decide_eq_true_eq]
      split <;> omega

/-- Doubles with the same value that is not zero are one. -/
theorem eq_of_rational?_eq (hr : r ≠ 0) (hx : x.rational? = some r) (hy : y.rational? = some r) : x = y := by
  have hbits {z : Binary64} (hz : z.rational? = some r) : z.magnitudeBits = nearest |r| := by
    have habs := magnitudeValue_eq_abs hz
    have hfinite : z.magnitudeBits < infinityBits := by simpa [isFinite] using isFinite_iff.2 ⟨r, hz⟩
    have hpos : 0 < z.magnitudeBits := by
      refine Nat.pos_of_ne_zero fun hzero => abs_pos.2 hr |>.ne ?_
      rw [← habs, hzero, magnitudeValue, split_eq_zero_iff.2 rfl, Nat.cast_zero, zero_mul]
    rw [← habs, nearest_magnitudeValue hpos hfinite]
  rw [← ofMagnitude_self x, ← ofMagnitude_self y, hbits hx, hbits hy, isNegative_eq hx hr, isNegative_eq hy hr]

/-- What is written for a double, with the cases that there are. -/
theorem toJson_cases (x : Binary64) :
    (x.rational? = none ∧ x.toJson = .null) ∨
    (∃ n : Int, x.rational? = some (n : ℚ) ∧ (-2 ^ 63 ≤ n ∧ n < 2 ^ 63) ∧ x.toJson = .int n) ∨
    ∃ r, x.rational? = some r ∧ (¬ ∃ n : Int, r = n ∧ -2 ^ 63 ≤ n ∧ n < 2 ^ 63) ∧ x.toJson = .float x := by
  cases h : x.rational? with
  | none => exact .inl ⟨rfl, toJson_of_rational?_eq_none h⟩
  | some r =>
    by_cases hword : ∃ n : Int, r = n ∧ -2 ^ 63 ≤ n ∧ n < 2 ^ 63
    · obtain ⟨n, rfl, hlo, hhi⟩ := hword
      exact .inr (.inl ⟨n, rfl, ⟨hlo, hhi⟩, toJson_of_word h hlo hhi⟩)
    · exact .inr (.inr ⟨r, rfl, hword, toJson_of_not_word h hword⟩)

theorem toJson_eq_int_iff {n : Int} :
    x.toJson = .int n ↔ x.rational? = some (n : ℚ) ∧ -2 ^ 63 ≤ n ∧ n < 2 ^ 63 := by
  rcases toJson_cases x with ⟨hx, hj⟩ | ⟨k, hx, hk, hj⟩ | ⟨r, hx, hr, hj⟩
  · simp [hx, hj]
  · simp only [hx, hj, Json.int.injEq, Option.some_inj, Int.cast_inj]
    constructor
    · rintro rfl
      exact ⟨rfl, hk⟩
    · exact And.left
  · simp only [hx, hj, Option.some_inj, reduceCtorEq, false_iff]
    exact fun h => hr ⟨n, h⟩

theorem toJson_eq_null_iff : x.toJson = .null ↔ x.rational? = none := by
  rcases toJson_cases x with ⟨hx, hj⟩ | ⟨k, hx, -, hj⟩ | ⟨r, hx, -, hj⟩ <;> simp [hx, hj]

theorem toJson_eq_float_iff : x.toJson = .float y ↔
    y = x ∧ ∃ r, x.rational? = some r ∧ ¬ ∃ n : Int, r = n ∧ -2 ^ 63 ≤ n ∧ n < 2 ^ 63 := by
  rcases toJson_cases x with ⟨hx, hj⟩ | ⟨k, hx, hk, hj⟩ | ⟨r, hx, hr, hj⟩
  · simp [hx, hj]
  · simp only [hx, hj, reduceCtorEq, false_iff]
    rintro ⟨-, r, hr, hnot⟩
    exact hnot ⟨k, (Option.some.inj hr).symm, hk⟩
  · rw [hj, Json.float.injEq, eq_comm]
    exact (and_iff_left ⟨r, hx, hr⟩).symm

/-- The two zeros have one number, and any other two doubles with different values have two. -/
theorem toJson_eq_toJson_iff : x.toJson = y.toJson ↔ x.rational? = y.rational? := by
  rcases toJson_cases x with ⟨hx, hj⟩ | ⟨n, hx, hn, hj⟩ | ⟨r, hx, hr, hj⟩
  · rw [hx, hj, eq_comm, toJson_eq_null_iff, eq_comm]
  · rw [hx, hj, eq_comm, toJson_eq_int_iff, and_iff_left hn, eq_comm]
  · rw [hx, hj]
    constructor
    · intro h
      obtain ⟨rfl, -⟩ := toJson_eq_float_iff.1 h.symm
      exact hx.symm
    · intro h
      have hne : r ≠ 0 := by
        rintro rfl
        exact hr ⟨0, by simp, by norm_num⟩
      rw [← eq_of_rational?_eq hne hx h.symm, hj]

/-- **Doubles are written exactly.** A double becomes the whole number `n` just when its exact value is `n` and a signed
word of 64 bits holds `n`; it becomes null just when it is NaN or an infinity; and any other double stays what it is.
So two doubles have the same number just when they have the same value. -/
theorem toJson_exact (x : Binary64) :
    (∀ n : Int, x.toJson = .int n ↔ x.rational? = some (n : ℚ) ∧ -2 ^ 63 ≤ n ∧ n < 2 ^ 63) ∧
    (x.toJson = .null ↔ x.value = .notANumber ∨ ∃ negative, x.value = .infinite negative) ∧
    (∀ y, x.toJson = .float y ↔
      y = x ∧ ∃ r, x.rational? = some r ∧ ¬ ∃ n : Int, r = n ∧ -2 ^ 63 ≤ n ∧ n < 2 ^ 63) ∧
    ∀ y : Binary64, x.toJson = y.toJson ↔ x.rational? = y.rational? := by
  refine ⟨fun _ => toJson_eq_int_iff, ?_, fun _ => toJson_eq_float_iff, fun _ => toJson_eq_toJson_iff⟩
  rw [← Value.rational?_eq_none_iff]
  exact toJson_eq_null_iff

/-- The greatest double below `2 ^ 63` is a word, and `2 ^ 63` is none. -/
example : (Binary64.mk 0x43DFFFFFFFFFFFFF).toJson = .int (2 ^ 63 - 1024) ∧
    (Binary64.mk 0x43E0000000000000).toJson = .float ⟨0x43E0000000000000⟩ := ⟨rfl, rfl⟩

end FilterQuery.Binary64
