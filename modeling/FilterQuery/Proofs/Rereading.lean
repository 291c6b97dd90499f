import FilterQuery.Proofs.Recovery

/-!
# Numbers that are read again

The number of a comparison is written into the document as a whole number, or as a double in plain notation or with an
exponent. Each of these texts is a number to a filter as well, and as a token of one it is read as the same double:
the shortest digits read back, and a whole number that is written is the value of the double. Only the sign of a zero
is lost, which is no part of its value (`ofToken_written`).
-/

namespace FilterQuery

namespace Json

theorem render_int (layout : Layout) (n : Int) : (int n).render layout = toString n := by
  show String.ofList ((toString n).toList ++ []) = toString n
  rw [List.append_nil, String.ofList_toList]

theorem render_float (layout : Layout) (x : Binary64) :
    (float x).render layout = String.ofList (floatText x) := by
  show String.ofList (floatText x ++ []) = String.ofList (floatText x)
  rw [List.append_nil]

end Json

/-- Taking the sign from a zero keeps its value. -/
theorem Binary64.rational?_unsignedZero (x : Binary64) : x.unsignedZero.rational? = x.rational? :=
  toJson_eq_toJson_iff.1 x.toJson_unsignedZero

namespace Literal

/-- The text of a double, as a token. -/
theorem ofToken_floatText {x : Binary64} (hx : x.isFinite = true) :
    ofToken (String.ofList (Json.floatText x)) = .number x := by
  obtain ⟨c, e, t, ending, hw, hdecimal⟩ := Binary64.exists_writes_text Json.floatLayout hx
  have htext : (String.ofList (Json.floatText x)).toList = t.spelled ending := by
    rw [String.toList_ofList, Json.floatText, if_pos hx, hw.text]
  rw [ofToken_spelled hw.spelled htext (by rwa [hdecimal]), hdecimal]

/-- What is written for a finite double is read as it, without the sign of a zero. -/
theorem ofToken_render {x : Binary64} (hx : x.isFinite = true) (layout : Json.Layout) :
    ofToken (x.toJson.render layout) = .number x.unsignedZero := by
  rcases x.toJson_cases with ⟨hnone, -⟩ | ⟨n, hn, ⟨hlo, hhi⟩, hj⟩ | ⟨r, hr, hnot, hj⟩
  · obtain ⟨r, hr⟩ := Binary64.isFinite_iff.1 hx
    rw [hnone] at hr
    cases hr
  · rw [hj, Json.render_int, ofToken_toString hlo hhi]
    rw [Binary64.ofInt_of_integer? (Binary64.integer?_eq_some_iff.2 hn)]
  · rw [hj, Json.render_float, ofToken_floatText hx, Binary64.unsignedZero_of_not_word hr hnot]

/-- **A number that is written is read again as the same double**, bit for bit, but for the zero with a minus sign,
which is read as the zero without it. So writing a number and reading it never changes its value. -/
theorem ofToken_written {raw : String} {x : Binary64} (h : ofToken raw = .number x) (layout : Json.Layout) :
    ∃ y, ofToken ((number x).toJson.render layout) = .number y ∧
      (x ≠ .ofMagnitude true 0 → y = x) ∧
      (x = .ofMagnitude true 0 → y = .ofMagnitude false 0) ∧
      y.rational? = x.rational? := by
  have hfinite : (number x).IsFinite := by
    rw [← h]
    exact isFinite_ofToken raw
  refine ⟨x.unsignedZero, ofToken_render hfinite layout, fun hx => ?_, fun hx => ?_, x.rational?_unsignedZero⟩
  · rw [Binary64.unsignedZero, if_neg hx]
  · rw [Binary64.unsignedZero, if_pos hx]

/-- The greatest word of 64 bits is read as `2 ^ 63`, which is no word and is written with an exponent. -/
theorem ofToken_written_exponent :
    ofToken "9223372036854775807" = .number ⟨0x43E0000000000000⟩ ∧
      (number ⟨0x43E0000000000000⟩).toJson.compact = "9.223372036854776e+18" ∧
      ofToken "9.223372036854776e+18" = .number ⟨0x43E0000000000000⟩ := by
  have hread : ofToken "9223372036854775807" = .number ⟨0x43E0000000000000⟩ := by decide +kernel
  have htext : (number ⟨0x43E0000000000000⟩).toJson.compact = "9.223372036854776e+18" := by decide +kernel
  obtain ⟨y, hy, hsame, -, -⟩ := ofToken_written hread .compact
  have hx : y = ⟨0x43E0000000000000⟩ := hsame (by decide)
  rw [hx, ← Json.compact, htext] at hy
  exact ⟨hread, htext, hy⟩

end Literal

end FilterQuery
