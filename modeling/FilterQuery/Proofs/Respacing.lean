import FilterQuery.Proofs.Layout
import FilterQuery.Proofs.Positions

/-!
# Filters that differ in their separators

A filter can be written anew with one space between the texts of its tokens. The scanner finds the same texts in it
(`map_text_tokenize_respaced`), so it is read to the same tree or fails at the same token (`parse_respaced`).

What makes this so is the shape of the texts (`Lexemes`): each is a mark or a word that holds together, so a space
behind it ends it and joins nothing. Only the last one can be a quotation that never ends, and no space comes after it.
-/

namespace FilterQuery

namespace Token

open String (utf8Len)

/-- The texts of the tokens of some filter: the last one may go on, the others are marks or hold together. -/
inductive Lexemes : List String → Prop
  | nil : Lexemes []
  | last {text : String} {ds : List Char} (hne : text ≠ "") (hs : Solid false (text.toList ++ ds)) : Lexemes [text]
  | mark {c : Char} {texts : List String} (hc : isPunctuation c = true) (h : Lexemes texts) :
      Lexemes (String.singleton c :: texts)
  | word {text : String} {texts : List String} (hne : text ≠ "") (hs : Solid false text.toList) (h : Lexemes texts) :
      Lexemes (text :: texts)

/-! ## What the scanner finds -/

/-- Every state of the scanner can be gone on with to a solid text. -/
theorem exists_solid (quoted : Bool) : ∃ ds, Solid quoted ds := by
  cases quoted with
  | false => exact ⟨[], rfl⟩
  | true => exact ⟨['\''], fun _ => by decide, rfl⟩

theorem Lexemes.ofWord {word : List Char} {texts : List String} (h : Lexemes texts) (hs : Solid false word.reverse)
    (start : Nat) : Lexemes ((ofWord word start).map Token.text ++ texts) := by
  unfold Token.ofWord
  split
  · exact h
  · next hne =>
    refine .word ?_ (by simpa using hs) h
    simpa using hne

/-- `hword` says of the word under way that it is solid with whatever is solid from here. -/
theorem lexemes_scan : ∀ (cs : List Char) (quoted : Bool) (pos : Nat) (word : List Char) (start : Nat),
    (∀ ds, Solid quoted ds → Solid false (word.reverse ++ ds)) →
      Lexemes ((scan quoted pos word start cs).map Token.text)
  | [], quoted, pos, word, start, hword => by
    obtain ⟨ds, hds⟩ := exists_solid quoted
    have hsolid := hword ds hds
    unfold scan Token.ofWord
    split
    · exact .nil
    · next hne => exact .last (by simpa using hne) (by simpa using hsolid)
  | c :: cs, quoted, pos, word, start, hword => by
    have hrest (pos : Nat) : Lexemes ((scan false pos [] pos cs).map Token.text) :=
      lexemes_scan cs false pos [] pos fun ds hds => hds
    have hgoing (ds : List Char) : Solid quoted (c :: ds) → Solid false (word.reverse ++ c :: ds) := hword (c :: ds)
    simp only [Solid] at hgoing
    -- a separator or a mark is no quote, so a word before it is solid
    have hended (hq : (if c = '\'' then !quoted else quoted) = false) (hc : c ≠ '\'') : Solid false word.reverse := by
      rw [if_neg hc] at hq
      simpa using hword [] hq
    simp only [scan]
    generalize (if c = '\'' then !quoted else quoted) = after at hgoing hended
    split
    · next h =>
      simp only [Bool.and_eq_true, Bool.not_eq_true'] at h
      obtain ⟨rfl, hc⟩ := h
      rw [List.map_append]
      exact (hrest _).ofWord (hended rfl (ne_quote_of_isSeparator hc)) start
    · split
      · next h =>
        simp only [Bool.and_eq_true, Bool.not_eq_true'] at h
        obtain ⟨rfl, hc⟩ := h
        rw [List.map_append, List.map_cons]
        exact (Lexemes.mark hc (hrest _)).ofWord (hended rfl (ne_quote_of_isPunctuation hc)) start
      · next hs hm =>
        refine lexemes_scan cs after _ (c :: word) start fun ds hds => ?_
        have hplain : after = false → isSeparator c = false ∧ isPunctuation c = false := by
          rintro rfl
          exact ⟨by simpa using hs, by simpa using hm⟩
        simpa using hgoing ds ⟨hplain, hds⟩

theorem lexemes_tokenize (input : String) : Lexemes ((tokenize input).map Token.text) :=
  lexemes_scan input.toList false 0 [] 0 fun _ hds => hds

/-! ## One space between the texts -/

/-- The characters of the texts with a space before each. -/
def behind (texts : List String) : List Char := texts.flatMap fun text => ' ' :: text.toList

theorem toList_intercalate (text : String) (texts : List String) :
    (String.intercalate " " (text :: texts)).toList = text.toList ++ behind texts := by
  induction texts generalizing text with
  | nil => simp [behind]
  | cons next texts ih =>
    rw [String.intercalate_cons_cons, String.toList_append, String.toList_append, ih]
    simp [behind]

theorem bounded_behind (texts : List String) : Bounded (behind texts) := by
  cases texts with
  | nil => simp [Bounded, behind]
  | cons text texts =>
    intro c hc
    cases hc
    exact .inl (by decide)

/-- Texts are found again behind spaces if they are found again as they stand. -/
theorem map_text_scan_behind {texts : List String}
    (h : ∀ pos, (scan false pos [] pos (String.intercalate " " texts).toList).map Token.text = texts) (pos : Nat) :
    (scan false pos [] pos (behind texts)).map Token.text = texts := by
  cases texts with
  | nil => rfl
  | cons text texts =>
    have hspace : behind (text :: texts) = ' ' :: (String.intercalate " " (text :: texts)).toList := by
      rw [toList_intercalate]
      rfl
    rw [hspace, scan_separator pos [] pos _ (by decide)]
    exact h _

theorem Lexemes.map_text_scan {texts : List String} (h : Lexemes texts) (pos : Nat) :
    (scan false pos [] pos (String.intercalate " " texts).toList).map Token.text = texts := by
  induction h generalizing pos with
  | nil => rfl
  | @last text ds hne hs =>
    rw [toList_intercalate]
    simp [behind, scan_open hs, ofWord_reverse hne]
  | @mark c texts hc _ ih =>
    rw [toList_intercalate, String.toList_singleton, List.singleton_append, scan_punctuation pos [] pos _ hc]
    simp [Token.ofWord, map_text_scan_behind ih]
  | @word text texts hne hs _ ih =>
    rw [toList_intercalate, scan_solid hs, List.append_nil, scan_bounded (bounded_behind texts), ofWord_reverse hne]
    simp [map_text_scan_behind ih]

end Token

/-- The filter with the same tokens and one space between two of them. -/
def respaced (input : String) : String := String.intercalate " " ((tokenize input).map Token.text)

theorem map_text_tokenize_respaced (input : String) :
    (tokenize (respaced input)).map Token.text = (tokenize input).map Token.text :=
  (Token.lexemes_tokenize input).map_text_scan 0

/-- A quotation that never ends stays as it is. -/
example : respaced "(a  eq 1)or b eq 'x  y" = "( a eq 1 ) or b eq 'x  y" := by decide

/-- **The spaces in a filter do not matter.** With one space between two tokens it has the same texts, and both
filters are read as these texts are: to the same tree, or to the same error, whose positions are the places of the same
tokens in either filter, or its end. -/
theorem Expr.parse_respaced (input : String) :
    (tokenize (respaced input)).map Token.text = (tokenize input).map Token.text ∧
      ∀ (mode : ParseMode) (resolver : Resolver) (scope : String),
        parse mode resolver scope input =
            (readTexts mode (resolver scope) ((tokenize input).map Token.text)).mapError
              (ParseError.move (place input)) ∧
          parse mode resolver scope (respaced input) =
            (readTexts mode (resolver scope) ((tokenize input).map Token.text)).mapError
              (ParseError.move (place (respaced input))) := by
  have htexts := map_text_tokenize_respaced input
  refine ⟨htexts, fun mode resolver scope => ⟨parse_eq_readTexts mode resolver scope input, ?_⟩⟩
  rw [← htexts]
  exact parse_eq_readTexts mode resolver scope (respaced input)

end FilterQuery
