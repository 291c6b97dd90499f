import FilterQuery.Number.Shortest
import FilterQuery.Proofs.Rounding

/-!
# The shortest digits

The digits that are written for a double are found by a search over coarser and coarser grids. Each step accepts a
number only if it is read back as the double, and the search starts with the exact expansion, which is. So it
ends with such a number wherever it stops, and dropping zeros at its end moves the point and not the value
(`shortestDigits_spec`).
-/

namespace FilterQuery.Binary64

/-! ## The search -/

theorem exactDecimal_value (m : Nat) (q : Int) :
    ((exactDecimal m q).1 : ℚ) * 10 ^ (exactDecimal m q).2 = m * 2 ^ q := by
  unfold exactDecimal
  split
  · next hq =>
    obtain ⟨k, rfl⟩ := Int.eq_ofNat_of_zero_le hq
    simp
  · next hq =>
    obtain ⟨k, rfl⟩ : ∃ k : Nat, q = -k := ⟨(-q).toNat, by omega⟩
    simp only [neg_neg, Int.toNat_natCast, Nat.pow_eq, zpow_neg, zpow_natCast]
    have h10 : (10 : ℚ) ^ k = 5 ^ k * 2 ^ k := by rw [← mul_pow]; norm_num
    push_cast
    rw [h10]
    field_simp

section

variable {keeps : Nat → Int → Bool} {c cut : Nat} {e : Int}

theorem keeps_of_gridNeighbour? {found : Nat × Int} (h : gridNeighbour? keeps c e cut = some found) :
    keeps found.1 found.2 = true := by
  unfold gridNeighbour? at h
  extract_lets unit below rest exponent nearerAbove first second at h
  split at h
  · next hk =>
    cases h
    exact hk
  · split at h
    · next hk =>
      cases h
      exact hk
    · cases h

/-- The search ends with the digits it starts with, if no coarser grid has an accepted neighbour. -/
theorem keeps_searchGrid (h : keeps c e = true) (cut : Nat) :
    keeps (searchGrid keeps c e cut).1 (searchGrid keeps c e cut).2 = true := by
  induction cut with
  | zero => exact h
  | succ cut ih =>
    unfold searchGrid
    split
    · next found hf => exact keeps_of_gridNeighbour? hf
    · exact ih

end

/-! ## Digits and zeros at their end -/

theorem isDigit_of_mem_toDigits {n : Nat} {c : Char} (h : c ∈ Nat.toDigits 10 n) : c.isDigit = true :=
  Nat.isDigit_of_mem_toDigits (by norm_num) (by norm_num) h

theorem head?_toDigits {n : Nat} (hn : 0 < n) : (Nat.toDigits 10 n).head? ≠ some '0' := by
  induction n using Nat.strongRecOn with
  | _ n ih =>
    rw [Nat.toDigits_eq_if (by norm_num)]
    split
    · simpa using hn.ne'
    · next hlarge =>
      have hdiv : 0 < n / 10 := by omega
      rw [List.head?_append_of_ne_nil _ Nat.toDigits_ne_nil]
      exact ih (n / 10) (by omega) hdiv

theorem roundDecimal_mul_pow (c k : Nat) (e : Int) : roundDecimal (c * 10 ^ k) e = roundDecimal c (e + k) := by
  rcases Nat.eq_zero_or_pos c with rfl | hc
  · simp [roundDecimal]
  · have hval : ((c * 10 ^ k : Nat) : ℚ) * 10 ^ e = c * 10 ^ (e + k) := by
      rw [zpow_add₀ (by norm_num), zpow_natCast]
      push_cast
      ring
    rw [roundDecimal_eq (by positivity), roundDecimal_eq hc, hval]

theorem ofDigits_append_zeros (ds : List Char) (k : Nat) :
    Decimal.ofDigits (ds ++ List.replicate k '0') = Decimal.ofDigits ds * 10 ^ k := by
  change Nat.ofDigitChars 10 (ds ++ List.replicate k '0') 0 = Nat.ofDigitChars 10 ds 0 * 10 ^ k
  rw [Nat.ofDigitChars_append, Nat.ofDigitChars_replicate_zero, mul_comm]

theorem ofDigits_toDigits (n : Nat) : Decimal.ofDigits (Nat.toDigits 10 n) = n :=
  Nat.ofDigitChars_ten_toDigits

/-- Digits of a positive number without leading zeros. -/
structure Significant (ds : List Char) : Prop where
  ne_nil : ds ≠ []
  isDigit : ∀ c ∈ ds, c.isDigit = true
  head : ds.head? ≠ some '0'

theorem significant_toDigits {n : Nat} (hn : 0 < n) : Significant (Nat.toDigits 10 n) where
  ne_nil := Nat.toDigits_ne_nil
  isDigit _ hc := isDigit_of_mem_toDigits hc
  head := head?_toDigits hn

/-- Digits without the zeros at their end. -/
def trimZeros (ds : List Char) : List Char := (ds.reverse.dropWhile (· == '0')).reverse

theorem trimZeros_append (ds : List Char) :
    trimZeros ds ++ List.replicate (ds.length - (trimZeros ds).length) '0' = ds := by
  have hsplit : trimZeros ds ++ (ds.reverse.takeWhile (· == '0')).reverse = ds := by
    rw [trimZeros, ← List.reverse_append, List.takeWhile_append_dropWhile, List.reverse_reverse]
  have hzeros : (ds.reverse.takeWhile (· == '0')).reverse =
      List.replicate (ds.length - (trimZeros ds).length) '0' := by
    rw [List.eq_replicate_iff]
    constructor
    · have hlen := congrArg List.length hsplit
      rw [List.length_append] at hlen
      omega
    · intro c hc
      simpa using List.all_eq_true.1 List.all_takeWhile c (List.mem_reverse.1 hc)
  rw [← hzeros, hsplit]

theorem significant_trimZeros {ds : List Char} (h : Significant ds) (hpos : 0 < Decimal.ofDigits ds) :
    Significant (trimZeros ds) := by
  have hsplit := trimZeros_append ds
  have hne : trimZeros ds ≠ [] := by
    intro hnil
    have hzero := ofDigits_append_zeros (trimZeros ds) (ds.length - (trimZeros ds).length)
    rw [hsplit, hnil] at hzero
    simp [Decimal.ofDigits] at hzero
    simp [Decimal.ofDigits, hzero] at hpos
  refine ⟨hne, fun c hc => h.isDigit c ?_, fun hhead => h.head ?_⟩
  · rw [← hsplit]
    exact List.mem_append_left _ hc
  · rw [← hsplit, List.head?_append_of_ne_nil _ hne, hhead]

/-! ## The digits that are written -/

/-- **The shortest digits read back**: they write a number whose nearest double is the one they were made of. -/
theorem shortestDigits_spec {b : Nat} (h0 : 0 < b) (hb : b < infinityBits) :
    Significant (shortestDigits b (split b).1 (split b).2).1 ∧
      roundDecimal (Decimal.ofDigits (shortestDigits b (split b).1 (split b).2).1)
        (shortestDigits b (split b).1 (split b).2).2 = b := by
  have hvalue := exactDecimal_value (split b).1 (split b).2
  have hvpos : (0 : ℚ) < (split b).1 * 2 ^ (split b).2 := magnitudeValue_pos h0
  unfold shortestDigits
  generalize exactDecimal (split b).1 (split b).2 = exact at hvalue
  obtain ⟨c, e⟩ := exact
  simp only at hvalue ⊢
  have hc : 0 < c := by
    rcases Nat.eq_zero_or_pos c with rfl | hc
    · rw [Nat.cast_zero, zero_mul] at hvalue
      rw [← hvalue] at hvpos
      exact absurd hvpos (lt_irrefl _)
    · exact hc
  have hexact : roundDecimal c e = b := by
    rw [roundDecimal_eq hc, hvalue]
    exact nearest_magnitudeValue h0 hb
  have hfound := @keeps_searchGrid (fun c e => roundDecimal c e == b) c e (by simpa using hexact)
    ((Nat.toDigits 10 c).length - 1)
  generalize searchGrid (fun c e => roundDecimal c e == b) c e ((Nat.toDigits 10 c).length - 1) = found at hfound
  obtain ⟨c', e'⟩ := found
  simp only [beq_iff_eq] at hfound ⊢
  have hc' : 0 < c' := by
    rcases Nat.eq_zero_or_pos c' with rfl | hc'
    · simp [roundDecimal] at hfound
      omega
    · exact hc'
  change Significant (trimZeros (Nat.toDigits 10 c')) ∧
    roundDecimal (Decimal.ofDigits (trimZeros (Nat.toDigits 10 c')))
      (e' + ((Nat.toDigits 10 c').length - (trimZeros (Nat.toDigits 10 c')).length : Nat)) = b
  constructor
  · exact significant_trimZeros (significant_toDigits hc') (by rwa [ofDigits_toDigits])
  · rw [← roundDecimal_mul_pow, ← ofDigits_append_zeros, trimZeros_append, ofDigits_toDigits]
    exact hfound

end FilterQuery.Binary64
