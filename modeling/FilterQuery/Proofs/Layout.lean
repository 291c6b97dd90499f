import FilterQuery.Proofs.Scan

/-!
# Layouts of a filter

The texts of tokens can be written one after another in many ways. Between two of them stand separators, as
many as one likes, and none are needed next to a parenthesis. The scanner finds the same texts in every layout
(`map_text_tokenize_of_laid`), provided each is a parenthesis or holds together (`Solid`).
-/

namespace FilterQuery.Token

open String (utf8Len)

def IsParenthesis (text : String) : Prop := text = "(" ∨ text = ")"

instance (text : String) : Decidable (IsParenthesis text) := inferInstanceAs (Decidable (_ ∨ _))

/-- The characters write the texts with separators before, between and after them. `after` tells whether a
text that is no parenthesis stands right before the characters; at least one separator stands between two such
texts. -/
inductive Laid : Bool → List String → List Char → Prop
  | nil {after : Bool} {gap : List Char} (hg : Gap gap) : Laid after [] gap
  | cons {after : Bool} {gap cs : List Char} {text : String} {texts : List String} (hg : Gap gap)
      (hn : after = true → ¬ IsParenthesis text → gap ≠ [])
      (h : Laid (!decide (IsParenthesis text)) texts cs) :
      Laid after (text :: texts) (gap ++ text.toList ++ cs)

/-- A text that the scanner takes for one token. -/
def Whole (text : String) : Prop := IsParenthesis text ∨ (text ≠ "" ∧ Solid false text.toList)

theorem bounded_of_gap {gap : List Char} (hg : Gap gap) (hne : gap ≠ []) (cs : List Char) :
    Bounded (gap ++ cs) := by
  obtain ⟨c, gap, rfl⟩ := List.exists_cons_of_ne_nil hne
  intro d hd
  cases hd
  exact .inl (hg c (by simp))

theorem isPunctuation_of_isParenthesis {text : String} (h : IsParenthesis text) :
    ∃ c, text = String.singleton c ∧ isPunctuation c = true := by
  rcases h with rfl | rfl
  · exact ⟨'(', rfl, by decide⟩
  · exact ⟨')', rfl, by decide⟩

theorem bounded_of_laid {texts : List String} {cs : List Char} (h : Laid true texts cs) : Bounded cs := by
  cases h with
  | nil hg => exact fun c hc => .inl (hg c (List.mem_of_mem_head? hc))
  | @cons _ gap cs text texts hg hn h =>
    rw [List.append_assoc]
    by_cases hgap : gap = []
    · subst hgap
      have hp : IsParenthesis text := Decidable.byContradiction fun hp => hn rfl hp rfl
      obtain ⟨c, rfl, hc⟩ := isPunctuation_of_isParenthesis hp
      intro d hd
      rw [String.toList_singleton] at hd
      cases hd
      exact .inr hc
    · exact bounded_of_gap hg hgap _

theorem ofWord_reverse {text : String} (hne : text ≠ "") (start : Nat) :
    ofWord text.toList.reverse start = [⟨text, start⟩] := by
  have h : text.toList ≠ [] := by simpa using hne
  simp [ofWord, h]

theorem map_text_scan_of_laid {after : Bool} {texts : List String} {cs : List Char} (h : Laid after texts cs)
    (hw : ∀ text ∈ texts, Whole text) (pos : Nat) : (scan false pos [] pos cs).map Token.text = texts := by
  induction h generalizing pos with
  | @nil _ gap hg =>
    rw [← List.append_nil gap, scan_gap hg]
    rfl
  | @cons _ gap cs text texts hg hn h ih =>
    have ih := ih fun t ht => hw t (by simp [ht])
    rw [List.append_assoc, scan_gap hg]
    generalize pos + utf8Len gap = pos
    by_cases hp : IsParenthesis text
    · obtain ⟨c, rfl, hc⟩ := isPunctuation_of_isParenthesis hp
      rw [String.toList_singleton, List.singleton_append, scan_punctuation pos [] pos cs hc]
      simp [ofWord, ih]
    · -- the word ends with the text, because a separator or a parenthesis comes next
      obtain ⟨hne, hs⟩ := (hw text (by simp)).resolve_left hp
      have hb : Bounded cs := bounded_of_laid (by simpa [hp] using h)
      rw [scan_solid hs, List.append_nil, scan_bounded hb, ofWord_reverse hne]
      simp [ih]

theorem map_text_tokenize_of_laid {texts : List String} {input : String} (h : Laid false texts input.toList)
    (hw : ∀ text ∈ texts, Whole text) : (tokenize input).map Token.text = texts :=
  map_text_scan_of_laid h hw 0

end FilterQuery.Token
