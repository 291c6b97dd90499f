import FilterQuery.Token
import Mathlib.Data.String.Basic

/-!
# Scanning a filter

How the scanner of tokens goes over a text: one equation for each class of characters, and from them one for
each run of characters of a class.

The offsets of the tokens ascend and stay below the length of the filter (`ascending_tokenize`). So an offset
names a token, and the length of the filter, which is the position of its end, names none.
-/

namespace FilterQuery.Token

open String (utf8Len)

/-! ## One character -/

/-- A character that neither ends a word nor begins or ends a quotation. -/
def isPlain (c : Char) : Bool := c != '\'' && !isSeparator c && !isPunctuation c

variable {c : Char} (pos : Nat) (word : List Char) (start : Nat) (rest : List Char)

theorem ne_quote_of_isSeparator (hc : isSeparator c = true) : c ≠ '\'' := by
  rintro rfl
  revert hc
  decide

theorem ne_quote_of_isPunctuation (hc : isPunctuation c = true) : c ≠ '\'' := by
  rintro rfl
  revert hc
  decide

theorem not_isSeparator_of_isPunctuation (hc : isPunctuation c = true) : isSeparator c = false := by
  simp only [isPunctuation, Bool.or_eq_true, beq_iff_eq] at hc
  rcases hc with (rfl | rfl) | rfl <;> decide

theorem scan_separator (hc : isSeparator c = true) :
    scan false pos word start (c :: rest) =
      ofWord word start ++ scan false (pos + c.utf8Size) [] (pos + c.utf8Size) rest := by
  simp [scan, ne_quote_of_isSeparator hc, hc]

theorem scan_punctuation (hc : isPunctuation c = true) :
    scan false pos word start (c :: rest) =
      ofWord word start ++
        ⟨String.singleton c, pos⟩ :: scan false (pos + c.utf8Size) [] (pos + c.utf8Size) rest := by
  simp [scan, ne_quote_of_isPunctuation hc, not_isSeparator_of_isPunctuation hc, hc]

/-! ## Runs of characters -/

/-- Every character is a separator. -/
def Gap (cs : List Char) : Prop := ∀ c ∈ cs, isSeparator c = true

theorem scan_gap {cs rest : List Char} {pos : Nat} (h : Gap cs) :
    scan false pos [] pos (cs ++ rest) =
      scan false (pos + utf8Len cs) [] (pos + utf8Len cs) rest := by
  induction cs generalizing pos with
  | nil => rfl
  | cons c cs ih =>
    rw [List.cons_append, scan_separator pos [] pos _ (h c (by simp)), ih fun d hd => h d (by simp [hd])]
    rw [String.utf8Len_cons, Nat.add_assoc, Nat.add_comm c.utf8Size]
    rfl

/-- The characters stay in one word: none of them outside a quotation separates or is a mark, and every
quotation that they begin ends. -/
def Solid : Bool → List Char → Prop
  | quoted, [] => quoted = false
  | quoted, c :: cs =>
    let quoted := if c = '\'' then !quoted else quoted
    (quoted = false → isSeparator c = false ∧ isPunctuation c = false) ∧ Solid quoted cs

/-- Characters that begin a solid text are scanned into one word, and the rest of the text is solid from there. -/
theorem exists_scan_append {cs ds : List Char} {quoted : Bool} (h : Solid quoted (cs ++ ds)) :
    ∃ after, Solid after ds ∧ ∀ (pos : Nat) (word : List Char) (start : Nat) (rest : List Char),
      scan quoted pos word start (cs ++ rest) = scan after (pos + utf8Len cs) (cs.reverse ++ word) start rest := by
  induction cs generalizing quoted with
  | nil => exact ⟨quoted, h, fun _ _ _ _ => rfl⟩
  | cons c cs ih =>
    obtain ⟨hc, hs⟩ := h
    obtain ⟨after, hafter, hscan⟩ := ih hs
    refine ⟨after, hafter, fun pos word start rest => ?_⟩
    rw [List.cons_append]
    simp only [scan]
    generalize (if c = '\'' then !quoted else quoted) = quoted at hc hscan
    -- in a quotation neither test applies, outside it the character passes both
    have hsep : (!quoted && isSeparator c) = false := by
      cases quoted with
      | false => simp [(hc rfl).1]
      | true => rfl
    have hmark : (!quoted && isPunctuation c) = false := by
      cases quoted with
      | false => simp [(hc rfl).2]
      | true => rfl
    rw [hsep, hmark, if_neg (by simp), if_neg (by simp), hscan]
    rw [String.utf8Len_cons, Nat.add_assoc, Nat.add_comm c.utf8Size]
    simp

theorem scan_solid {cs rest : List Char} {quoted : Bool} {pos start : Nat} {word : List Char}
    (h : Solid quoted cs) :
    scan quoted pos word start (cs ++ rest) =
      scan false (pos + utf8Len cs) (cs.reverse ++ word) start rest := by
  rw [← List.append_nil cs] at h
  obtain ⟨after, hafter, hscan⟩ := exists_scan_append h
  rw [hscan, show after = false from hafter]

/-- Without what makes it solid the text is still one word, if the filter ends with it. -/
theorem scan_open {cs ds : List Char} {quoted : Bool} {pos start : Nat} {word : List Char}
    (h : Solid quoted (cs ++ ds)) : scan quoted pos word start cs = ofWord (cs.reverse ++ word) start := by
  obtain ⟨after, -, hscan⟩ := exists_scan_append h
  have hend := hscan pos word start []
  rwa [List.append_nil] at hend

theorem solid_of_plain {cs : List Char} (h : ∀ c ∈ cs, isPlain c = true) : Solid false cs := by
  induction cs with
  | nil => rfl
  | cons c cs ih =>
    have hc := h c (by simp)
    simp only [isPlain, Bool.and_eq_true, bne_iff_ne, Bool.not_eq_true'] at hc
    rw [Solid, if_neg hc.1.1]
    exact ⟨fun _ => ⟨hc.1.2, hc.2⟩, ih fun d hd => h d (by simp [hd])⟩

/-- What stands between two quotes does not matter, as long as it is no quote. -/
theorem solid_quotation {cs : List Char} (h : '\'' ∉ cs) : Solid false ('\'' :: cs ++ ['\'']) := by
  have hrest : Solid true (cs ++ ['\'']) := by
    induction cs with
    | nil => exact ⟨fun _ => by decide, rfl⟩
    | cons c cs ih =>
      rw [List.mem_cons, not_or] at h
      rw [List.cons_append, Solid, if_neg (Ne.symm h.1)]
      exact ⟨fun h => by simp at h, ih h.2⟩
  rw [List.cons_append, Solid, if_pos rfl]
  exact ⟨fun h => by simp at h, hrest⟩

/-- A word that ends where these characters begin: there are none, or the first one separates or is a mark. -/
def Bounded (cs : List Char) : Prop := ∀ c ∈ cs.head?, isSeparator c = true ∨ isPunctuation c = true

theorem scan_bounded {cs : List Char} (h : Bounded cs) (pos : Nat) (word : List Char) (start : Nat) :
    scan false pos word start cs = ofWord word start ++ scan false pos [] pos cs := by
  cases cs with
  | nil => simp [scan, ofWord]
  | cons c cs =>
    rcases h c rfl with hc | hc
    · rw [scan_separator pos word start cs hc, scan_separator pos [] pos cs hc]
      rfl
    · rw [scan_punctuation pos word start cs hc, scan_punctuation pos [] pos cs hc]
      rfl

/-! ## Offsets -/

/-- The offsets of the tokens ascend, from `lo` on and below `hi`. -/
structure Ascending (lo hi : Nat) (ts : List Token) : Prop where
  pairwise : ts.Pairwise fun a b => a.offset < b.offset
  bounds : ∀ t ∈ ts, lo ≤ t.offset ∧ t.offset < hi

theorem Ascending.append {lo mid hi : Nat} {ts us : List Token} (ht : Ascending lo mid ts)
    (hu : Ascending mid hi us) (hlo : lo ≤ mid) (hhi : mid ≤ hi) : Ascending lo hi (ts ++ us) where
  pairwise := by
    refine List.pairwise_append.2 ⟨ht.pairwise, hu.pairwise, fun t h u h' => ?_⟩
    exact Nat.lt_of_lt_of_le (ht.bounds t h).2 (hu.bounds u h').1
  bounds t h := by
    rcases List.mem_append.1 h with h | h
    · exact ⟨(ht.bounds t h).1, Nat.lt_of_lt_of_le (ht.bounds t h).2 hhi⟩
    · exact ⟨Nat.le_trans hlo (hu.bounds t h).1, (hu.bounds t h).2⟩

theorem ascending_singleton {lo hi : Nat} {t : Token} (hlo : lo ≤ t.offset) (hhi : t.offset < hi) :
    Ascending lo hi [t] :=
  ⟨by simp, by simpa using ⟨hlo, hhi⟩⟩

theorem ascending_ofWord {pos start : Nat} {word : List Char} (hw : word ≠ [] → start < pos) :
    Ascending start pos (ofWord word start) := by
  unfold ofWord
  split
  · exact ⟨.nil, by simp⟩
  · rename_i h
    exact ascending_singleton (Nat.le_refl _) (hw (by simpa using h))

/-- A word under way started before the place reached, so what is still to come lies behind it. -/
theorem ascending_scan : ∀ (cs : List Char) (quoted : Bool) (pos : Nat) (word : List Char) (start : Nat),
    start ≤ pos → (word ≠ [] → start < pos) →
      Ascending start (pos + utf8Len cs) (scan quoted pos word start cs)
  | [], _, _, _, _, _, hw => ascending_ofWord hw
  | c :: cs, quoted, pos, word, start, hs, hw => by
    have hc : 0 < c.utf8Size := c.utf8Size_pos
    have hlen : pos + utf8Len (c :: cs) = pos + c.utf8Size + utf8Len cs := by
      rw [String.utf8Len_cons]
      omega
    rw [hlen]
    simp only [scan]
    generalize (if c = '\'' then !quoted else quoted) = quoted
    have hnext := ascending_scan cs quoted (pos + c.utf8Size) [] (pos + c.utf8Size) (Nat.le_refl _) (by simp)
    split
    · have hword : Ascending start (pos + c.utf8Size) (ofWord word start) := ascending_ofWord (by omega)
      exact hword.append hnext (by omega) (by omega)
    · split
      · have hmark : Ascending pos (pos + c.utf8Size) [⟨String.singleton c, pos⟩] :=
          ascending_singleton (Nat.le_refl _) (by simp only; omega)
        exact (ascending_ofWord hw).append (hmark.append hnext (by omega) (by omega)) hs (by omega)
      · exact ascending_scan cs quoted (pos + c.utf8Size) (c :: word) start (by omega) (by omega)

theorem ascending_tokenize (input : String) : Ascending 0 input.utf8ByteSize (tokenize input) := by
  have h := ascending_scan input.toList false 0 [] 0 (Nat.le_refl _) (by simp)
  rwa [Nat.zero_add, String.utf8Len_toList] at h

/-- The index of the token at a position; the number of tokens if none is there. -/
def index (position : Nat) (ts : List Token) : Nat := ts.findIdx fun t => t.offset == position

end FilterQuery.Token
