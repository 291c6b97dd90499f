import FilterQuery.Json.Reader
import FilterQuery.Proofs.ShortestDigits

/-!
# The texts of numbers

A number in JSON is a sign, digits, a point with digits, and an exponent, of which the last three may be missing.
`NumberText.Spelled` tells which parts and endings go together. A text put together from them is read back as
these parts (`read?_spelled`), and as the decimal they stand for when it is the token of a filter
(`decimal_read?_spelled`).

Every number that is written has this form: whole numbers have neither point nor exponent
(`spelled_ofInt`), and the finite doubles have one of them, whatever the layout is. The decimal that the text of a
double stands for is nearest to this double (`exists_writes_text`).
-/

namespace FilterQuery

open Binary64 (Significant)
open Decimal (ofDigits spanDigits)

/-! ## Parts of a number -/

namespace Json.NumberText

/-- A minus sign, if the number has one. -/
def signText (negative : Bool) : List Char := if negative then ['-'] else []

/-- A point and the digits after it, if there are any. -/
def pointText (fraction : List Char) : List Char := if fraction.isEmpty then [] else '.' :: fraction

/-- The text with the parts of a number and an ending that writes its exponent. -/
def spelled (t : NumberText) (ending : List Char) : List Char :=
  signText t.negative ++ (t.whole ++ (pointText t.fraction ++ ending))

/-- The parts belong to a number, and the ending writes its exponent. -/
structure Spelled (t : NumberText) (ending : List Char) : Prop where
  whole : isWhole t.whole = true
  fraction : ∀ c ∈ t.fraction, c.isDigit = true
  exponent : Decimal.readExponent? ending = some t.exponent
  plain : t.plain = (pointText t.fraction ++ ending).isEmpty

/-- The decimal that a number stands for. -/
def decimal (t : NumberText) : Decimal :=
  ⟨t.negative, ofDigits (t.whole ++ t.fraction), t.exponent - t.fraction.length⟩

/-! ## Reading the parts back -/

theorem span_append {p : Char → Bool} {cs rest : List Char} (hc : ∀ c ∈ cs, p c = true)
    (hr : ∀ c ∈ rest.head?, p c = false) : (cs ++ rest).span p = (cs, rest) := by
  have hrest : rest.takeWhile p = [] ∧ rest.dropWhile p = rest := by
    cases rest with
    | nil => exact ⟨rfl, rfl⟩
    | cons c rest => simp [hr c rfl]
  rw [List.span_eq_takeWhile_dropWhile, List.takeWhile_append_of_pos hc, List.dropWhile_append_of_pos hc]
  rw [hrest.1, hrest.2, List.append_nil]

theorem spanDigits_append {ds rest : List Char} (hd : ∀ c ∈ ds, c.isDigit = true)
    (hr : ∀ c ∈ rest.head?, c.isDigit = false) : spanDigits (ds ++ rest) = (ds, rest) := span_append hd hr

/-- What writes an exponent begins with its mark, or is empty. -/
theorem head?_of_readExponent? {ending : List Char} {e : Int} (h : Decimal.readExponent? ending = some e) :
    ∀ c ∈ ending.head?, c = 'e' ∨ c = 'E' := by
  intro c hc
  cases ending with
  | nil => cases hc
  | cons d ending =>
    cases hc
    simp only [Decimal.readExponent?] at h
    split at h
    · assumption
    · cases h

/-- Digits have no sign. -/
theorem readSign_of_digits {cs : List Char} (h : ∀ c ∈ cs.head?, c.isDigit = true) :
    Decimal.readSign cs = (false, cs) := by
  unfold Decimal.readSign
  split
  · exact absurd (h '-' rfl) (by decide)
  · exact absurd (h '+' rfl) (by decide)
  · rfl

section

variable {t : NumberText} {ending : List Char}

theorem Spelled.isDigit_whole (h : Spelled t ending) : ∀ c ∈ t.whole, c.isDigit = true := by
  have hw := h.whole
  simp only [isWhole, Bool.and_eq_true, List.all_eq_true] at hw
  exact hw.1.2

theorem Spelled.whole_ne_nil (h : Spelled t ending) : t.whole ≠ [] := by
  have hw := h.whole
  simp only [isWhole, Bool.and_eq_true, Bool.not_eq_true', List.isEmpty_eq_false_iff] at hw
  exact hw.1.1

theorem Spelled.not_digit_ending (h : Spelled t ending) : ∀ c ∈ ending.head?, c.isDigit = false := by
  intro c hc
  rcases head?_of_readExponent? h.exponent c hc with rfl | rfl <;> decide

theorem Spelled.not_digit_point (h : Spelled t ending) :
    ∀ c ∈ (pointText t.fraction ++ ending).head?, c.isDigit = false := by
  unfold pointText
  split
  · exact h.not_digit_ending
  · intro c hc
    cases hc
    decide

theorem Spelled.spanDigits_whole (h : Spelled t ending) :
    spanDigits (t.whole ++ (pointText t.fraction ++ ending)) = (t.whole, pointText t.fraction ++ ending) :=
  spanDigits_append h.isDigit_whole h.not_digit_point

theorem Spelled.readFraction_point (h : Spelled t ending) :
    readFraction (pointText t.fraction ++ ending) = some (t.fraction, ending) := by
  unfold pointText
  split
  · next hf =>
    rw [List.isEmpty_iff.1 hf, List.nil_append]
    cases ending with
    | nil => rfl
    | cons c ending =>
      rcases head?_of_readExponent? h.exponent c rfl with rfl | rfl <;> rfl
  · next hf =>
    rw [List.cons_append, readFraction, spanDigits_append h.fraction h.not_digit_ending]
    simp [hf]

/-- After the sign comes a digit. -/
theorem Spelled.isDigit_head (h : Spelled t ending) :
    ∀ c ∈ (t.whole ++ (pointText t.fraction ++ ending)).head?, c.isDigit = true := by
  intro c hc
  rw [List.head?_append_of_ne_nil _ h.whole_ne_nil] at hc
  exact h.isDigit_whole c (List.mem_of_mem_head? hc)

/-- The text begins with a minus sign exactly if the number has one. -/
theorem Spelled.head?_eq_iff (h : Spelled t ending) :
    (t.spelled ending).head? = some '-' ↔ t.negative = true := by
  unfold spelled signText
  cases t.negative with
  | true => exact iff_of_true rfl rfl
  | false =>
    exact iff_of_false (fun hc => absurd (h.isDigit_head '-' hc) (by decide)) (by simp)

/-- A text that has the form of a number is read as its parts. -/
theorem read?_spelled (h : Spelled t ending) : read? (t.spelled ending) = some t := by
  have hrest : (if t.negative then (t.spelled ending).drop 1 else t.spelled ending) =
      t.whole ++ (pointText t.fraction ++ ending) := by
    unfold spelled signText
    cases t.negative <;> rfl
  unfold read?
  simp only [h.head?_eq_iff, hrest, h.spanDigits_whole, h.whole, h.readFraction_point]
  simp [h.exponent, ← h.plain]

theorem Spelled.readSign_eq (h : Spelled t ending) :
    Decimal.readSign (t.spelled ending) = (t.negative, t.whole ++ (pointText t.fraction ++ ending)) := by
  unfold spelled signText
  cases t.negative with
  | true => rfl
  | false =>
    rw [if_neg (by simp), List.nil_append]
    exact readSign_of_digits h.isDigit_head

/-- As the token of a filter, the text is the decimal that the parts stand for. -/
theorem decimal_read?_spelled (h : Spelled t ending) : Decimal.read? (t.spelled ending) = some t.decimal := by
  unfold Decimal.read?
  simp only [h.readSign_eq, h.spanDigits_whole]
  by_cases hf : t.fraction = []
  · have hpoint : ∀ cs, ending ≠ '.' :: cs := by
      rintro cs rfl
      have hmark := head?_of_readExponent? h.exponent '.' rfl
      revert hmark
      decide
    simp [pointText, hf, h.whole_ne_nil, h.exponent, decimal]
  · have hspan := spanDigits_append h.fraction h.not_digit_ending
    simp [pointText, hf, hspan, h.exponent, decimal]

theorem Spelled.spelled_ne_nil (h : Spelled t ending) : t.spelled ending ≠ [] := by
  simp [spelled, h.whole_ne_nil]

theorem isNumberChar_of_isDigit {c : Char} (h : c.isDigit = true) : isNumberChar c = true := by
  simp [isNumberChar, h]

theorem isNumberChar_of_readSign {cs : List Char} (h : ∀ c ∈ (Decimal.readSign cs).2, isNumberChar c = true) :
    ∀ c ∈ cs, isNumberChar c = true := by
  unfold Decimal.readSign at h
  split at h
  · simpa [isNumberChar] using h
  · simpa [isNumberChar] using h
  · exact h

theorem isNumberChar_of_readExponent? {e : Int} (h : Decimal.readExponent? ending = some e) :
    ∀ c ∈ ending, isNumberChar c = true := by
  cases ending with
  | nil => simp
  | cons mark ending =>
    have hmark := head?_of_readExponent? h mark rfl
    simp only [Decimal.readExponent?, hmark, if_true] at h
    split at h
    · cases h
    · next hd =>
      simp only [Bool.or_eq_true, not_or, Bool.not_eq_true, Bool.not_eq_false', List.all_eq_true] at hd
      refine List.forall_mem_cons.2 ⟨?_, isNumberChar_of_readSign fun c hc => isNumberChar_of_isDigit (hd.2 c hc)⟩
      rcases hmark with rfl | rfl <;> decide

/-- The text consists of characters of numbers. -/
theorem isNumberChar_of_mem_spelled (h : Spelled t ending) : ∀ c ∈ t.spelled ending, isNumberChar c = true := by
  intro c hc
  simp only [spelled, List.mem_append] at hc
  rcases hc with hc | hc | hc | hc
  · unfold signText at hc
    split at hc
    · rw [List.mem_singleton.1 hc]
      decide
    · cases hc
  · exact isNumberChar_of_isDigit (h.isDigit_whole c hc)
  · unfold pointText at hc
    split at hc
    · cases hc
    · rcases List.mem_cons.1 hc with rfl | hc
      · decide
      · exact isNumberChar_of_isDigit (h.fraction c hc)
  · exact isNumberChar_of_readExponent? h.exponent c hc

end

/-! ## Whole numbers -/

/-- The parts of a whole number in plain notation. -/
def ofInt (n : Int) : NumberText := ⟨decide (n < 0), Nat.toDigits 10 n.natAbs, [], 0, true⟩

theorem isWhole_of_significant {ds : List Char} (h : Significant ds) : isWhole ds = true := by
  simp only [isWhole, Bool.and_eq_true, List.all_eq_true]
  refine ⟨⟨by simp [h.ne_nil], h.isDigit⟩, ?_⟩
  simp [h.head]

theorem isWhole_toDigits (n : Nat) : isWhole (Nat.toDigits 10 n) = true := by
  rcases Nat.eq_zero_or_pos n with rfl | hn
  · rfl
  · exact isWhole_of_significant (Binary64.significant_toDigits hn)

theorem spelled_ofInt (n : Int) : Spelled (ofInt n) [] where
  whole := isWhole_toDigits n.natAbs
  fraction := by simp [ofInt]
  exponent := rfl
  plain := rfl

theorem toList_toString (n : Int) : (toString n).toList = (ofInt n).spelled [] := by
  cases n with
  | ofNat n =>
    have hneg : ¬ (n : Int) < 0 := by omega
    simp [ofInt, spelled, signText, pointText, Int.toString_eq_repr, Int.repr, hneg]
  | negSucc n =>
    have hneg : Int.negSucc n < 0 := by omega
    simp [ofInt, spelled, signText, pointText, Int.toString_eq_repr, Int.repr, hneg]

/-! ## Doubles -/

theorem significant_take {ds : List Char} (h : Significant ds) (k : Nat) : Significant (ds.take (k + 1)) where
  ne_nil := by simp [h.ne_nil]
  isDigit c hc := h.isDigit c (List.mem_of_mem_take hc)
  head := by simpa [List.head?_take] using h.head

theorem significant_append {ds es : List Char} (h : Significant ds) (he : ∀ c ∈ es, c.isDigit = true) :
    Significant (ds ++ es) where
  ne_nil := by simp [h.ne_nil]
  isDigit c hc := (List.mem_append.1 hc).elim (h.isDigit c) (he c)
  head := by simpa [List.head?_append_of_ne_nil _ h.ne_nil] using h.head

theorem ofDigits_zeros_append (k : Nat) (ds : List Char) : ofDigits (List.replicate k '0' ++ ds) = ofDigits ds := by
  change Nat.ofDigitChars 10 (List.replicate k '0' ++ ds) 0 = Nat.ofDigitChars 10 ds 0
  rw [Nat.ofDigitChars_append, Nat.ofDigitChars_replicate_zero, mul_zero]

theorem isDigit_of_mem_zeros {k : Nat} : ∀ c ∈ List.replicate k '0', c.isDigit = true := by
  intro c hc
  rw [List.eq_of_mem_replicate hc]
  decide

/-- The characters are a number with a point or an exponent. Its sign is the given one, and the decimal it stands for
is `c · 10 ^ e`, but perhaps with zeros at the end of the coefficient. -/
structure Writes (cs : List Char) (negative : Bool) (c : Nat) (e : Int) (t : NumberText) (ending : List Char) :
    Prop where
  spelled : Spelled t ending
  text : cs = t.spelled ending
  not_plain : t.plain = false
  sign : t.negative = negative
  value : ∃ k : Nat, t.decimal.coefficient = c * 10 ^ k ∧ t.decimal.exponent + k = e

/-- The ending that writes an exponent. -/
def exponentText (signed : Bool) (e : Int) : List Char :=
  'e' :: (if e < 0 then ['-'] else if signed then ['+'] else []) ++ Nat.toDigits 10 e.natAbs

theorem readExponent?_exponentText (signed : Bool) (e : Int) :
    Decimal.readExponent? (exponentText signed e) = some e := by
  have hdigits : ∀ c ∈ Nat.toDigits 10 e.natAbs, c.isDigit = true := fun _ => Binary64.isDigit_of_mem_toDigits
  have hsign : Decimal.readSign ((if e < 0 then ['-'] else if signed then ['+'] else []) ++
      Nat.toDigits 10 e.natAbs) = (decide (e < 0), Nat.toDigits 10 e.natAbs) := by
    by_cases he : e < 0
    · simp [he, Decimal.readSign]
    · cases signed with
      | true => simp [he, Decimal.readSign]
      | false => simp [he, readSign_of_digits fun c hc => hdigits c (List.mem_of_mem_head? hc)]
  unfold exponentText Decimal.readExponent?
  simp only [List.cons_append, hsign, Binary64.ofDigits_toDigits]
  have hall : (Nat.toDigits 10 e.natAbs).all Char.isDigit = true := List.all_eq_true.2 hdigits
  by_cases he : e < 0
  · simp [he, hall, abs_of_neg]
  · simp [he, hall, abs_of_nonneg (not_lt.1 he)]

section

variable (negative : Bool) {ds : List Char} (h : Significant ds) (e : Int)

include h

/-- One digit before the point, and an exponent. -/
theorem writes_exponent (signed : Bool) {lead : Int} (hl : lead = e + ds.length - 1) :
    Writes (signText negative ++ (ds.take 1 ++ (pointText (ds.drop 1) ++ exponentText signed lead))) negative
      (ofDigits ds) e ⟨negative, ds.take 1, ds.drop 1, lead, false⟩ (exponentText signed lead) where
  spelled := {
    whole := isWhole_of_significant (significant_take h 0)
    fraction := fun c hc => h.isDigit c (List.mem_of_mem_drop hc)
    exponent := readExponent?_exponentText signed lead
    plain := by simp [exponentText] }
  text := rfl
  not_plain := rfl
  sign := rfl
  value := by
    have hlen := List.length_pos_iff.2 h.ne_nil
    refine ⟨0, by simp [decimal, List.take_append_drop, -List.drop_one], ?_⟩
    simp only [decimal, List.length_drop]
    omega

/-- A zero before the point, and zeros after it. -/
theorem writes_zeros {zeros : Nat} (he : (zeros + ds.length : Nat) = -e) :
    Writes (signText negative ++ (['0'] ++ (pointText (List.replicate zeros '0' ++ ds) ++ []))) negative
      (ofDigits ds) e ⟨negative, ['0'], List.replicate zeros '0' ++ ds, 0, false⟩ [] where
  spelled := {
    whole := rfl
    fraction := fun c hc => (List.mem_append.1 hc).elim (isDigit_of_mem_zeros c) (h.isDigit c)
    exponent := rfl
    plain := by simp [pointText, h.ne_nil] }
  text := rfl
  not_plain := rfl
  sign := rfl
  value := by
    refine ⟨0, ?_, ?_⟩
    · rw [pow_zero, mul_one]
      exact ofDigits_zeros_append (zeros + 1) ds
    · simp only [decimal, List.length_append, List.length_replicate]
      omega

/-- Zeros and a point after the digits. -/
theorem writes_whole {zeros : Nat} (he : e = zeros) :
    Writes (signText negative ++ (ds ++ List.replicate zeros '0' ++ (pointText ['0'] ++ []))) negative
      (ofDigits ds) e ⟨negative, ds ++ List.replicate zeros '0', ['0'], 0, false⟩ [] where
  spelled := {
    whole := isWhole_of_significant (significant_append h isDigit_of_mem_zeros)
    fraction := by simp
    exponent := rfl
    plain := rfl }
  text := rfl
  not_plain := rfl
  sign := rfl
  value := by
    refine ⟨zeros + 1, ?_, ?_⟩
    · have happend := Binary64.ofDigits_append_zeros ds (zeros + 1)
      rw [List.replicate_succ', ← List.append_assoc] at happend
      exact happend
    · simp [decimal, he]

/-- A point among the digits. -/
theorem writes_point {before : Nat} (hb : before + 1 < ds.length) (he : e = before + 1 - ds.length) :
    Writes (signText negative ++ (ds.take (before + 1) ++ (pointText (ds.drop (before + 1)) ++ []))) negative
      (ofDigits ds) e ⟨negative, ds.take (before + 1), ds.drop (before + 1), 0, false⟩ [] where
  spelled := {
    whole := isWhole_of_significant (significant_take h before)
    fraction := fun c hc => h.isDigit c (List.mem_of_mem_drop hc)
    exponent := rfl
    plain := by simp [pointText, hb] }
  text := rfl
  not_plain := rfl
  sign := rfl
  value := by
    refine ⟨0, by simp [decimal], ?_⟩
    simp only [decimal, List.length_drop]
    omega

/-- Digits are written as a number in every layout. -/
theorem exists_writes (layout : Binary64.Layout) :
    ∃ t ending, Writes (signText negative ++ layout.write ds e) negative (ofDigits ds) e t ending := by
  have hlen := List.length_pos_iff.2 h.ne_nil
  unfold Binary64.Layout.write
  extract_lets lead exponent sign fraction
  have hlead : lead = e + ds.length - 1 := rfl
  clear_value lead
  split
  · have htext : ds.take 1 ++ fraction ++ 'e' :: sign ++ exponent =
        ds.take 1 ++ (pointText (ds.drop 1) ++ exponentText layout.signedExponent lead) := by
      have hfraction : fraction = pointText (ds.drop 1) := by
        simp [fraction, pointText, -List.drop_one]
      simp [hfraction, exponentText, sign, exponent]
    rw [htext]
    exact ⟨_, _, writes_exponent negative h e layout.signedExponent hlead⟩
  · split
    · have htext : '0' :: '.' :: List.replicate (-lead - 1).toNat '0' ++ ds =
          ['0'] ++ (pointText (List.replicate (-lead - 1).toNat '0' ++ ds) ++ []) := by
        simp [pointText, h.ne_nil]
      rw [htext]
      exact ⟨_, _, writes_zeros negative h e (by omega)⟩
    · split
      · have htext : ds ++ List.replicate e.toNat '0' ++ ['.', '0'] =
            ds ++ List.replicate e.toNat '0' ++ (pointText ['0'] ++ []) := rfl
        rw [htext]
        exact ⟨_, _, writes_whole negative h e (by omega)⟩
      · have hbefore : lead.toNat + 1 < ds.length := by omega
        have htext : ds.take (lead.toNat + 1) ++ '.' :: ds.drop (lead.toNat + 1) =
            ds.take (lead.toNat + 1) ++ (pointText (ds.drop (lead.toNat + 1)) ++ []) := by
          simp [pointText, hbefore]
        rw [htext]
        exact ⟨_, _, writes_point negative h e hbefore (by omega)⟩

end

theorem writes_zero (negative : Bool) :
    Writes (signText negative ++ ['0', '.', '0']) negative 0 (-1) ⟨negative, ['0'], ['0'], 0, false⟩ [] where
  spelled := { whole := rfl, fraction := by simp, exponent := rfl, plain := rfl }
  text := rfl
  not_plain := rfl
  sign := rfl
  value := ⟨0, rfl, rfl⟩

/-- Zeros at the end of the coefficient do not change the double. -/
theorem Writes.ofDecimal_eq {cs : List Char} {negative : Bool} {c : Nat} {e : Int} {t : NumberText}
    {ending : List Char} (h : Writes cs negative c e t ending) :
    Binary64.ofDecimal t.decimal = .ofMagnitude negative (Binary64.roundDecimal c e) := by
  obtain ⟨k, hc, he⟩ := h.value
  have hsign : t.decimal.negative = negative := h.sign
  unfold Binary64.ofDecimal
  rw [hc, Binary64.roundDecimal_mul_pow, he, hsign]

end Json.NumberText

namespace Binary64

open Json.NumberText (Writes signText)

/-- **Doubles are written without loss.** In every layout the text of a finite double is a number, with a point or an
exponent, and the double nearest to it is the one that was written. -/
theorem exists_writes_text (layout : Layout) {x : Binary64} (hx : x.isFinite = true) :
    ∃ c e t ending, Writes (x.text layout) x.isNegative c e t ending ∧ ofDecimal t.decimal = x := by
  have hfinite : x.magnitudeBits < infinityBits := by simpa [isFinite] using hx
  have htext : x.text layout = signText x.isNegative ++
      if (split x.magnitudeBits).1 = 0 then ['0', '.', '0']
      else layout.write (shortestDigits x.magnitudeBits (split x.magnitudeBits).1 (split x.magnitudeBits).2).1
        (shortestDigits x.magnitudeBits (split x.magnitudeBits).1 (split x.magnitudeBits).2).2 := by
    unfold text signText
    rw [value_of_isFinite hx]
    cases x.isNegative <;> rfl
  rw [htext]
  by_cases hzero : x.magnitudeBits = 0
  · rw [if_pos (split_eq_zero_iff.2 hzero)]
    have hw := Json.NumberText.writes_zero x.isNegative
    refine ⟨0, -1, _, _, hw, ?_⟩
    calc ofDecimal _ = ofMagnitude x.isNegative (roundDecimal 0 (-1)) := hw.ofDecimal_eq
      _ = ofMagnitude x.isNegative x.magnitudeBits := by rw [hzero]; rfl
      _ = x := ofMagnitude_self x
  · rw [if_neg (mt split_eq_zero_iff.1 hzero)]
    obtain ⟨hdigits, hround⟩ := shortestDigits_spec (Nat.pos_of_ne_zero hzero) hfinite
    obtain ⟨t, ending, hw⟩ := Json.NumberText.exists_writes x.isNegative hdigits _ layout
    refine ⟨_, _, t, ending, hw, ?_⟩
    rw [hw.ofDecimal_eq, hround, ofMagnitude_self]

end Binary64

end FilterQuery
