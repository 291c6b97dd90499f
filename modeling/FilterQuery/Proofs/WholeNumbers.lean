import FilterQuery.Proofs.Comparisons
import FilterQuery.Proofs.ExactNumbers
import FilterQuery.Proofs.Leaves
import FilterQuery.Proofs.Numerals

/-!
# Whole numbers in a filter

A whole number that a filter compares with goes through a double on its way into the document. What arrives is the
whole number of the nearest double (`roundInt`): 53 binary digits are kept, and a tie goes to the even last one. No
whole number that a double holds is nearer (`roundInt_nearest`), so a number arrives unchanged exactly if a
double holds it, as all do up to `2 ^ 53`.

The document has this whole number as such, in plain notation, unless it is `2 ^ 63`, which a signed word of 64 bits
does not hold (`transform_whole_number`).
-/

namespace FilterQuery

namespace Binary64

/-! ## Whole numbers that a double holds -/

/-- The whole number that is left of `n` when 53 binary digits are kept, a tie going to the even last digit. -/
def roundWhole (n : Nat) : Nat := roundQuotient n (2 ^ (n.log2 - 52)) * 2 ^ (n.log2 - 52)

/-- The whole number of the double nearest to `n`. -/
def roundInt (n : Int) : Int := if n < 0 then -(roundWhole n.natAbs : Int) else roundWhole n.natAbs

/-- The number has at most 53 binary digits between its first and its last one that is not zero, so a double has its
value, if it is not too large. -/
def Held (n : Nat) : Prop := ∃ m k : Nat, m < 2 ^ 53 ∧ n = m * 2 ^ k

theorem held_of_le {n : Nat} (h : n ≤ 2 ^ 53) : Held n := by
  rcases Nat.lt_or_ge n (2 ^ 53) with hlt | hge
  · exact ⟨n, 0, hlt, by simp⟩
  · exact ⟨2 ^ 52, 1, by norm_num, by omega⟩

theorem held_mul_pow {m : Nat} (h : m ≤ 2 ^ 53) (k : Nat) : Held (m * 2 ^ k) := by
  obtain ⟨m', j, hm, rfl⟩ := held_of_le h
  exact ⟨m', j + k, hm, by rw [pow_add, mul_assoc]⟩

/-- The digits that are kept. -/
theorem quotient_lt (n : Nat) : n / 2 ^ (n.log2 - 52) < 2 ^ 53 := by
  have hn : n < 2 ^ (n.log2 + 1) := Nat.lt_log2_self
  rw [Nat.div_lt_iff_lt_mul (by positivity), ← pow_add]
  exact lt_of_lt_of_le hn (Nat.pow_le_pow_right (by norm_num) (by omega))

theorem roundQuotient_one (n : Nat) : roundQuotient n 1 = n := by
  simp [roundQuotient, Nat.mod_one]

theorem held_roundWhole (n : Nat) : Held (roundWhole n) := by
  have hq := quotient_lt n
  refine held_mul_pow ?_ _
  unfold roundQuotient
  extract_lets q r
  split <;> omega

/-- No multiple of the divisor is nearer than the rounded quotient. -/
theorem roundQuotient_nearest (n c : Nat) {d : Nat} (hd : 0 < d) :
    |(n : Int) - (roundQuotient n d * d : Nat)| ≤ |(n : Int) - (c * d : Nat)| := by
  have hn : d * (n / d) + n % d = n := Nat.div_add_mod n d
  have hr : n % d < d := Nat.mod_lt n hd
  have hbelow : c ≤ n / d → c * d ≤ n / d * d := fun h => Nat.mul_le_mul_right d h
  have habove : n / d + 1 ≤ c → (n / d + 1) * d ≤ c * d := fun h => Nat.mul_le_mul_right d h
  have hnext : (n / d + 1) * d = n / d * d + d := Nat.succ_mul _ _
  rw [mul_comm] at hn
  unfold roundQuotient
  simp only [Int.abs_eq_natAbs]
  rcases Nat.lt_or_ge (n / d) c with hc | hc
  · have habove := habove hc
    split <;> omega
  · have hbelow := hbelow hc
    split <;> omega

/-- No whole number that a double holds is nearer. -/
theorem roundWhole_nearest (n : Nat) {w : Nat} (hw : Held w) : |(n : Int) - roundWhole n| ≤ |(n : Int) - w| := by
  obtain ⟨m, j, hm, rfl⟩ := hw
  have hunit : 0 < 2 ^ (n.log2 - 52) := by positivity
  unfold roundWhole
  rcases le_or_gt (n.log2 - 52) j with hj | hj
  · -- it is a multiple of the unit
    have hmul : m * 2 ^ j = m * 2 ^ (j - (n.log2 - 52)) * 2 ^ (n.log2 - 52) := by
      rw [mul_assoc, ← pow_add, Nat.sub_add_cancel hj]
    rw [hmul]
    exact roundQuotient_nearest n _ hunit
  · -- it is below the greatest power of two, which is a multiple of the unit
    have hpow : 2 ^ 52 * 2 ^ (n.log2 - 52) ≤ n := by
      rw [← pow_add, Nat.add_sub_cancel' (by omega : 52 ≤ n.log2)]
      exact Nat.log2_self_le (by rintro rfl; simp at hj)
    have hless : m * 2 ^ j ≤ 2 ^ 52 * 2 ^ (n.log2 - 52) := by
      calc m * 2 ^ j ≤ 2 ^ 53 * 2 ^ j := Nat.mul_le_mul_right _ hm.le
        _ = 2 ^ 52 * 2 ^ (j + 1) := by rw [← pow_add, ← pow_add]; congr 1; omega
        _ ≤ 2 ^ 52 * 2 ^ (n.log2 - 52) := Nat.mul_le_mul_left _ (Nat.pow_le_pow_right (by norm_num) hj)
    have hnear := roundQuotient_nearest n (2 ^ 52) hunit
    simp only [Int.abs_eq_natAbs] at hnear ⊢
    omega

theorem roundWhole_eq_iff (n : Nat) : roundWhole n = n ↔ Held n := by
  constructor
  · intro h
    rw [← h]
    exact held_roundWhole n
  · intro h
    have hnear := roundWhole_nearest n h
    simp only [sub_self, abs_zero, abs_nonpos_iff] at hnear
    omega

/-! ## Their doubles -/

theorem unitExponent_natCast (n : Nat) : unitExponent n = (n.log2 : Int) - 52 := by
  unfold unitExponent
  rw [Int.log_natCast, ← Nat.log2_eq_log_two]
  omega

theorem magnitudeValue_nearest_natCast {n : Nat} (hn : 0 < n) (hb : n.log2 < 1023) :
    nearest n < infinityBits ∧ magnitudeValue (nearest n) = roundWhole n := by
  have hnq : (0 : ℚ) < n := by exact_mod_cast hn
  have hfinite : nearest n < infinityBits := nearest_lt_infinityBits hnq (by
    rw [Int.log_natCast, ← Nat.log2_eq_log_two]
    exact_mod_cast hb)
  refine ⟨hfinite, ?_⟩
  rw [magnitudeValue_nearest hnq hfinite, unitExponent_natCast]
  unfold roundWhole
  rcases le_or_gt 52 n.log2 with hlarge | hsmall
  · have hexp : (n.log2 : Int) - 52 = (n.log2 - 52 : Nat) := by omega
    rw [hexp, zpow_natCast, roundQuotient_eq n (by positivity)]
    push_cast
    rfl
  · -- nothing is dropped
    obtain ⟨k, hk⟩ : ∃ k : Nat, (n.log2 : Int) - 52 = -k := ⟨52 - n.log2, by omega⟩
    have hzero : n.log2 - 52 = 0 := by omega
    have hscaled : (n : ℚ) / 2 ^ (-(k : Int)) = (n * 2 ^ k : Nat) := by
      rw [zpow_neg, zpow_natCast, div_inv_eq_mul]
      push_cast
      rfl
    rw [hk, hscaled, roundHalfEven_natCast, hzero, pow_zero, roundQuotient_one, zpow_neg, zpow_natCast]
    push_cast
    field_simp

/-! ## Signed numbers -/

theorem roundInt_nearest (n : Int) {w : Int} (hw : Held w.natAbs) : |n - roundInt n| ≤ |n - w| := by
  have hnear := roundWhole_nearest n.natAbs hw
  unfold roundInt
  simp only [Int.abs_eq_natAbs] at hnear ⊢
  split <;> omega

theorem natAbs_roundInt (n : Int) : (roundInt n).natAbs = roundWhole n.natAbs := by
  unfold roundInt
  split <;> omega

theorem held_roundInt (n : Int) : Held (roundInt n).natAbs := by
  rw [natAbs_roundInt]
  exact held_roundWhole n.natAbs

theorem roundInt_eq_iff (n : Int) : roundInt n = n ↔ Held n.natAbs := by
  rw [← roundWhole_eq_iff, ← natAbs_roundInt]
  unfold roundInt
  split <;> omega

/-- From a signed word of 64 bits the nearest double goes up to `2 ^ 63` at most. -/
theorem roundInt_bounds {n : Int} (hlo : -2 ^ 63 ≤ n) (hhi : n < 2 ^ 63) :
    -2 ^ 63 ≤ roundInt n ∧ roundInt n ≤ 2 ^ 63 := by
  have hheld : Held (2 ^ 63) := ⟨1, 63, by norm_num, by norm_num⟩
  have habove := roundInt_nearest n (by simpa using hheld : Held ((2 : Int) ^ 63).natAbs)
  have hbelow := roundInt_nearest n (by simpa using hheld : Held (-(2 : Int) ^ 63).natAbs)
  simp only [Int.abs_eq_natAbs] at habove hbelow
  constructor <;> omega

/-- It is `2 ^ 63` from half a unit below on. -/
theorem roundInt_lt_iff {n : Int} (hhi : n < 2 ^ 63) : roundInt n < 2 ^ 63 ↔ n < 2 ^ 63 - 512 := by
  constructor
  · intro h
    by_contra hn
    have hlog : n.natAbs.log2 = 62 := (Nat.log2_eq_iff (by omega)).2 ⟨by omega, by omega⟩
    have hquotient : n.natAbs / 2 ^ 10 = 2 ^ 53 - 1 := by omega
    have hround : roundWhole n.natAbs = 2 ^ 63 := by
      unfold roundWhole roundQuotient
      simp only [hlog, Nat.reduceSub, hquotient]
      rw [if_pos (by omega)]
      norm_num
    rw [roundInt, if_neg (by omega), hround] at h
    norm_num at h
  · intro h
    have hheld : Held ((2 : Int) ^ 63 - 1024).natAbs := ⟨2 ^ 53 - 1, 10, by norm_num, by norm_num⟩
    have hnear := roundInt_nearest n hheld
    simp only [Int.abs_eq_natAbs] at hnear
    omega

end Binary64

/-! ## The value of a comparison -/

theorem Binary64.roundDecimal_natCast {n : Nat} (hn : n.log2 < 1023) :
    roundDecimal n 0 < infinityBits ∧ magnitudeValue (roundDecimal n 0) = roundWhole n := by
  rcases Nat.eq_zero_or_pos n with rfl | hpos
  · simp [roundDecimal, magnitudeValue, split, infinityBits, roundWhole, roundQuotient]
  · rw [roundDecimal_eq hpos, zpow_zero, mul_one]
    exact magnitudeValue_nearest_natCast hpos hn

theorem Literal.unquote?_spelled {t : Json.NumberText} {ending : List Char} (h : t.Spelled ending) :
    unquote? (t.spelled ending) = none := by
  have hchars := Json.NumberText.isNumberChar_of_mem_spelled h
  cases hcs : t.spelled ending with
  | nil => rfl
  | cons c cs =>
    have hc : Json.isNumberChar c = true := hchars c (by rw [hcs]; exact List.mem_cons_self)
    have hquote : c ≠ '\'' := by
      rintro rfl
      revert hc
      decide
    simp [unquote?, hquote]

/-- A token that spells a number is this number, if it is finite as a double. -/
theorem Literal.ofToken_spelled {raw : String} {t : Json.NumberText} {ending : List Char} (h : t.Spelled ending)
    (htext : raw.toList = t.spelled ending) (hfinite : (Binary64.ofDecimal t.decimal).isFinite = true) :
    ofToken raw = .number (.ofDecimal t.decimal) := by
  have hread : Binary64.readFinite? raw = some (.ofDecimal t.decimal) := by
    unfold Binary64.readFinite? Binary64.read?
    rw [htext, Json.NumberText.decimal_read?_spelled h]
    exact Option.filter_eq_some_iff.2 ⟨rfl, hfinite⟩
  unfold ofToken
  rw [htext, unquote?_spelled h, hread]

section

variable {n : Int} (hlo : -2 ^ 63 ≤ n) (hhi : n < 2 ^ 63)

include hlo hhi

theorem Binary64.integer?_ofInt : (ofInt n).isFinite = true ∧ (ofInt n).integer? = some (roundInt n) := by
  have hlog : n.natAbs.log2 < 64 := by
    rcases Nat.eq_zero_or_pos n.natAbs with hzero | hpos
    · rw [hzero]
      decide
    · rw [Nat.log2_lt hpos.ne']
      omega
  obtain ⟨hbits, hvalue⟩ := roundDecimal_natCast (by omega : n.natAbs.log2 < 1023)
  obtain ⟨hmagnitude, hnegative⟩ :=
    magnitudeBits_ofMagnitude (decide (n < 0)) (lt_trans hbits (by decide : infinityBits < 2 ^ 63))
  have hfinite : (ofInt n).isFinite = true := by
    simpa [isFinite, ofInt, ofDecimal, hmagnitude] using hbits
  have hwhole : magnitudeValue (ofInt n).magnitudeBits = roundWhole n.natAbs := by
    rw [← hvalue]
    exact congrArg magnitudeValue hmagnitude
  have hsign : (ofInt n).isNegative = decide (n < 0) := hnegative
  refine ⟨hfinite, ?_⟩
  rw [integer?_eq hfinite hwhole, hsign, roundInt]
  simp only [decide_eq_true_eq]

theorem Literal.ofToken_toString : ofToken (toString n) = .number (.ofInt n) := by
  have hdecimal : (Json.NumberText.ofInt n).decimal = ⟨decide (n < 0), n.natAbs, 0⟩ := by
    simp [Json.NumberText.decimal, Json.NumberText.ofInt, Binary64.ofDigits_toDigits]
  have hfinite : (Binary64.ofDecimal (Json.NumberText.ofInt n).decimal).isFinite = true := by
    rw [hdecimal]
    exact (Binary64.integer?_ofInt hlo hhi).1
  rw [ofToken_spelled (Json.NumberText.spelled_ofInt n) (Json.NumberText.toList_toString n) hfinite, hdecimal]
  rfl

/-- The number that arrives: a whole number, unless it is beyond the signed words of 64 bits. -/
theorem Literal.toJson_ofToken_toString :
    (n < 2 ^ 63 - 512 → (ofToken (toString n)).toJson = .int (Binary64.roundInt n)) ∧
      (2 ^ 63 - 512 ≤ n → ∃ x, (ofToken (toString n)).toJson = .float x ∧ x.integer? = some (2 ^ 63)) := by
  obtain ⟨hfinite, hwhole⟩ := Binary64.integer?_ofInt hlo hhi
  obtain ⟨hleast, hmost⟩ := Binary64.roundInt_bounds hlo hhi
  have hlt := Binary64.roundInt_lt_iff hhi
  have hexact := Binary64.integer?_eq_some_iff.1 hwhole
  rw [ofToken_toString hlo hhi]
  constructor
  · intro h
    exact Binary64.toJson_of_word hexact hleast (by omega)
  · intro h
    have htop : Binary64.roundInt n = 2 ^ 63 := by omega
    refine ⟨.ofInt n, Binary64.toJson_of_not_word hexact ?_, by rw [hwhole, htop]⟩
    rintro ⟨k, hk, -, hlt⟩
    have hsame : Binary64.roundInt n = k := by exact_mod_cast hk
    omega

end

/-! ## The document -/

theorem Token.isPlain_of_isNumberChar {c : Char} (h : Json.isNumberChar c = true) : isPlain c = true := by
  have hall : ∀ i : Fin 128, Json.isNumberChar (Char.ofNat i) = true → isPlain (Char.ofNat i) = true := by decide
  have hlt : c.toNat < 128 := by
    simp only [Json.isNumberChar, Bool.or_eq_true, beq_iff_eq] at h
    rcases h with ((((hd | rfl) | rfl) | rfl) | rfl) | rfl
    · have hle : c.toNat ≤ 57 := (Char.isDigit_iff_toNat.1 hd).2
      omega
    all_goals decide
  have hc := hall ⟨c.toNat, hlt⟩
  simp only [Char.ofNat_toNat] at hc
  exact hc h

theorem Token.whole_toString (n : Int) : Whole (toString n) := by
  have hspelled := Json.NumberText.spelled_ofInt n
  have hchars := Json.NumberText.isNumberChar_of_mem_spelled hspelled
  have hne := hspelled.spelled_ne_nil
  rw [← Json.NumberText.toList_toString] at hchars hne
  refine whole_of_plain (by simpa using hne) (List.all_eq_true.2 fun c hc => ?_)
  exact isPlain_of_isNumberChar (hchars c hc)

/-- The least whole number that no double holds is halfway between two that are held, and goes to the even one. A name
with a blank is two tokens, so its comparison is none, even with a small number. -/
theorem whole_number_changed :
    (∃ env, buildQuery (fun _ name => some name) "s" "a eq 9007199254740993" {} = .ok env ∧
      env.query = Query.matchPhrase "a" (.int 9007199254740992) ∧
      env.query ≠ Query.matchPhrase "a" (.int 9007199254740993)) ∧
    ∀ env, buildQuery (fun _ name => some name) "s" "a b eq 1" {} ≠ .ok env := by
  constructor
  · have hname : IsName "a" := Word.isName ⟨"a", by decide, by decide⟩
    have hbuild := @buildQuery_comparison (fun _ name => some name) "s" "a" "a" (toString (9007199254740993 : Int))
      hname rfl (Token.whole_toString _) .eq {}
    rw [(Literal.toJson_ofToken_toString (by norm_num) (by norm_num)).1 (by norm_num)] at hbuild
    have hround : Binary64.roundInt 9007199254740993 = 9007199254740992 := by decide
    rw [hround] at hbuild
    exact ⟨_, hbuild, rfl, by simp [CompareOp.clause, Query.matchPhrase, Json.single]⟩
  · intro env h
    have ht : tokenize "a b eq 1" = [⟨"a", 0⟩, ⟨"b", 2⟩, ⟨"eq", 4⟩, ⟨"1", 7⟩] := by decide
    obtain ⟨e, includes, hp, -, -⟩ := exists_of_buildQuery h
    unfold Expr.parse at hp
    rw [ht] at hp
    simp [Expr.Reading.filter, Expr.Reading.disjunction, Expr.Reading.conjunction, Expr.Reading.term,
      Expr.Reading.comparison, Token.is, CompareOp.ofKeyword?] at hp

open Binary64 (roundInt Held)

/-- **A whole number arrives as the nearest one that a double holds.** The document of a comparison has the clause of
the operator, with one number. It is the number that was written if a double holds it, as every number up to
`2 ^ 53` is held; in general it is the whole number nearest to it among those that are held. The document has it as a
whole number in plain notation, but for the last 512 numbers below `2 ^ 63`, for which it is the double `2 ^ 63`. -/
theorem transform_whole_number {resolver : Resolver} {scope name field : String} (hn : IsName name)
    (hf : resolver scope name = some field) {n : Int} (hlo : -2 ^ 63 ≤ n) (hhi : n < 2 ^ 63) (op : CompareOp)
    (layout : Json.Layout) (options : QueryOptions) :
    (∃ value,
      transform layout resolver scope (name ++ " " ++ op.keyword ++ " " ++ toString n) options =
        (projection resolver scope options.select).map (fun includes =>
          (Envelope.toJson ⟨op.clause field value, options.top, options.offset, includes⟩).render layout) ∧
      (Held n.natAbs → value = .int n ∧ value.render layout = toString n) ∧
      (n < 2 ^ 63 - 512 → value = .int (roundInt n) ∧ value.render layout = toString (roundInt n)) ∧
      (2 ^ 63 - 512 ≤ n → ∃ x, value = .float x ∧ x.integer? = some (2 ^ 63))) ∧
    (|n| ≤ 2 ^ 53 → Held n.natAbs) ∧
    Held (roundInt n).natAbs ∧
    ∀ w : Int, Held w.natAbs → |n - roundInt n| ≤ |n - w| := by
  obtain ⟨hbelow, habove⟩ := Literal.toJson_ofToken_toString hlo hhi
  have hrender : ∀ m : Int, (Json.int m).render layout = toString m := by
    intro m
    calc (Json.int m).render layout = String.ofList ((toString m).toList ++ []) := rfl
      _ = toString m := by rw [List.append_nil, String.ofList_toList]
  refine ⟨⟨(Literal.ofToken (toString n)).toJson, ?_, ?_, ?_, habove⟩, ?_, Binary64.held_roundInt n, ?_⟩
  · rw [transform, buildQuery_comparison hn hf (Token.whole_toString n) op options]
    cases projection resolver scope options.select <;> rfl
  · intro hheld
    have hround := (Binary64.roundInt_eq_iff n).2 hheld
    have hlt := (Binary64.roundInt_lt_iff hhi).1 (by omega)
    rw [hbelow hlt, hround]
    exact ⟨rfl, hrender n⟩
  · intro hlt
    rw [hbelow hlt]
    exact ⟨rfl, hrender _⟩
  · intro h
    rw [Int.abs_eq_natAbs] at h
    exact Binary64.held_of_le (by omega)
  · exact fun w hw => Binary64.roundInt_nearest n hw

/-- Halfway between two numbers that are held, the even one arrives, with the sign that was written. -/
theorem transform_whole_number_halfway :
    ∃ value,
      transform .compact (fun _ name => some name) "s" "a lt -9007199254740995" {} =
        .ok ((Envelope.toJson ⟨Query.range "a" "lt" value, 500, 0, ["*"]⟩).render .compact) ∧
      value = .int (-9007199254740996) := by
  have hname : IsName "a" := Word.isName ⟨"a", by decide, by decide⟩
  obtain ⟨⟨value, htransform, -, hvalue, -⟩, -⟩ := @transform_whole_number (fun _ name => some name) "s" "a" "a"
    hname rfl (-9007199254740995) (by norm_num) (by norm_num) .lt .compact {}
  have hround : roundInt (-9007199254740995) = -9007199254740996 := by decide
  refine ⟨value, htransform, ?_⟩
  rw [(hvalue (by norm_num)).1, hround]

end FilterQuery
