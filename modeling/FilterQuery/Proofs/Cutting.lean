import FilterQuery.Proofs.Scan
import Mathlib.Data.List.Pairwise
import Mathlib.Data.List.Sort

/-!
# How a filter is cut into tokens

Which characters belong together is told by the filter alone. A character stands in a quotation if the quotes up to it,
itself included, are odd in number. Outside a quotation a separator is in no token and a mark is a token by itself, and
wherever neither stands between two characters they are in one token (`Cut`).

The scanner cuts every filter in this way, and there is no other way to cut it (`cut_iff`). The first half goes along
the scanner: a text that breaks between two parts is cut where its parts are (`Cut.append`). The second half looks at
the ends of a token. They are breaks, and no break is between them, so two tokens that share a character have the same
ends (`Piece.eq`).

The definitions speak of a text behind another one, since quotes before it tell how it is cut. A place in a text is
given by what stands before it.
-/

namespace FilterQuery.Token

open String (utf8Len)

/-! ## The characters of a filter -/

/-- The quotes before the character, and the character if it is one, are odd in number. -/
def Quoted (before : List Char) (c : Char) : Prop := (before ++ [c]).count '\'' % 2 = 1

def Separates (before : List Char) (c : Char) : Prop := isSeparator c = true ∧ ¬ Quoted before c

def Marks (before : List Char) (c : Char) : Prop := isPunctuation c = true ∧ ¬ Quoted before c

/-- The byte at the position is one of the token. -/
def Covers (t : Token) (position : Nat) : Prop :=
  t.offset ≤ position ∧ position < t.offset + t.text.utf8ByteSize

def InToken (ts : List Token) (position : Nat) : Prop := ∃ t ∈ ts, t.Covers position

def InOneToken (ts : List Token) (p q : Nat) : Prop := ∃ t ∈ ts, t.Covers p ∧ t.Covers q

/-- The tokens are what the characters `cs`, which stand behind `before`, are cut into. -/
structure Cut (before cs : List Char) (ts : List Token) : Prop where
  ascending : ts.Pairwise fun t u => t.offset < u.offset
  disjoint : ts.Pairwise fun t u => ∀ position, ¬ (t.Covers position ∧ u.Covers position)
  /-- A token is what stands at its offset. -/
  slice : ∀ t ∈ ts, t.text ≠ "" ∧
    ∃ l r, cs = l ++ t.text.toList ++ r ∧ t.offset = utf8Len (before ++ l)
  outside : ∀ l c r, cs = l ++ c :: r →
    (¬ InToken ts (utf8Len (before ++ l)) ↔ Separates (before ++ l) c)
  mark : ∀ l c r, cs = l ++ c :: r → Marks (before ++ l) c →
    ⟨String.singleton c, utf8Len (before ++ l)⟩ ∈ ts
  /-- Of two characters next to one another. -/
  joined : ∀ l c d r, cs = l ++ c :: d :: r →
    InToken ts (utf8Len (before ++ l)) → InToken ts (utf8Len (before ++ l ++ [c])) →
    (InOneToken ts (utf8Len (before ++ l)) (utf8Len (before ++ l ++ [c])) ↔
      ¬ Marks (before ++ l) c ∧ ¬ Marks (before ++ l ++ [c]) d)

/-- A word ends between the two characters, because one of them separates or is a mark. -/
def Apart (before : List Char) (c d : Char) : Prop :=
  (Separates before c ∨ Marks before c) ∨ Separates (before ++ [c]) d ∨ Marks (before ++ [c]) d

/-- No word goes on from the first text into the second. -/
def Breaks (before l r : List Char) : Prop :=
  ∀ l' c d r', l = l' ++ [c] → r = d :: r' → Apart (before ++ l') c d

variable {before cs ds : List Char} {ts us : List Token} {t u : Token} {p q : Nat}

theorem Marks.not_separates {c : Char} (h : Marks before c) : ¬ Separates before c := by
  intro hs
  have hseparator := hs.1
  rw [not_isSeparator_of_isPunctuation h.1] at hseparator
  cases hseparator

theorem apart_iff {c d : Char} : Apart before c d ↔
    Separates before c ∨ Separates (before ++ [c]) d ∨ ¬ (¬ Marks before c ∧ ¬ Marks (before ++ [c]) d) := by
  unfold Apart
  tauto

theorem inToken_append : InToken (ts ++ us) p ↔ InToken ts p ∨ InToken us p := by
  simp [InToken, or_and_right, exists_or]

theorem inOneToken_append : InOneToken (ts ++ us) p q ↔ InOneToken ts p q ∨ InOneToken us p q := by
  simp [InOneToken, or_and_right, exists_or]

theorem InOneToken.left (h : InOneToken ts p q) : InToken ts p := by
  obtain ⟨t, ht, hp, -⟩ := h
  exact ⟨t, ht, hp⟩

theorem InOneToken.right (h : InOneToken ts p q) : InToken ts q := by
  obtain ⟨t, ht, -, hq⟩ := h
  exact ⟨t, ht, hq⟩

theorem covers_offset (h : t.text ≠ "") : t.Covers t.offset := by
  have hsize : t.text.utf8ByteSize ≠ 0 := by simpa [String.utf8ByteSize_eq_zero_iff] using h
  exact ⟨Nat.le_refl _, by omega⟩

/-- A token covers the places of its characters. -/
theorem covers_place {x y : List Char} {c : Char} (hoffset : t.offset = utf8Len before)
    (htext : t.text.toList = x ++ c :: y) : t.Covers (utf8Len (before ++ x)) := by
  have hc : 0 < c.utf8Size := c.utf8Size_pos
  have hsize := congrArg utf8Len htext
  simp only [String.utf8Len_append, String.utf8Len_cons, String.utf8Len_toList] at hsize
  rw [Covers, String.utf8Len_append, hoffset]
  omega

/-! ## Texts next to one another -/

/-- A character of two texts is one of the first or of the second. -/
theorem place_append {l r : List Char} {c : Char} (h : cs ++ ds = l ++ c :: r) :
    (∃ r', cs = l ++ c :: r' ∧ r = r' ++ ds) ∨ ∃ l', l = cs ++ l' ∧ ds = l' ++ c :: r := by
  rcases List.append_eq_append_iff.1 h with ⟨l', rfl, hds⟩ | ⟨r', rfl, hr⟩
  · exact .inr ⟨l', rfl, hds⟩
  · cases r' with
    | nil => exact .inr ⟨[], by simp, by simpa using hr.symm⟩
    | cons d r' =>
      obtain ⟨rfl, rfl⟩ := List.cons.inj hr
      exact .inl ⟨r', rfl, rfl⟩

theorem Cut.bounds (h : Cut before cs ts) (ht : t ∈ ts) :
    utf8Len before ≤ t.offset ∧ t.offset + t.text.utf8ByteSize ≤ utf8Len (before ++ cs) := by
  obtain ⟨-, l, r, rfl, hoffset⟩ := h.slice t ht
  simp only [String.utf8Len_append, String.utf8Len_toList] at hoffset ⊢
  omega

/-- A place before a text is in none of its tokens. -/
theorem Cut.not_inToken_before {l r : List Char} {c : Char} (h : Cut (before ++ l ++ c :: r) cs ts) :
    ¬ InToken ts (utf8Len (before ++ l)) := by
  rintro ⟨t, ht, hle, -⟩
  have hc : 0 < c.utf8Size := c.utf8Size_pos
  have hlo := (h.bounds ht).1
  rw [String.utf8Len_append (before ++ l), String.utf8Len_cons] at hlo
  omega

/-- A place behind a text is in none of its tokens. -/
theorem Cut.not_inToken_behind (h : Cut before cs ts) (l : List Char) :
    ¬ InToken ts (utf8Len (before ++ cs ++ l)) := by
  rintro ⟨t, ht, -, hlt⟩
  have hhi := (h.bounds ht).2
  rw [String.utf8Len_append (before ++ cs)] at hlt
  omega

/-- Where two texts meet at a break, both characters are in tokens only if one of them is a mark. -/
theorem Cut.marks_of_apart {l r : List Char} {c d : Char} (h : Cut before (l ++ [c]) ts)
    (hd : Cut (before ++ l ++ [c]) (d :: r) us) (hapart : Apart (before ++ l) c d)
    (hp : InToken ts (utf8Len (before ++ l))) (hq : InToken us (utf8Len (before ++ l ++ [c]))) :
    ¬ (¬ Marks (before ++ l) c ∧ ¬ Marks (before ++ l ++ [c]) d) := by
  have hc : ¬ Separates (before ++ l) c := by
    intro hs
    exact (h.outside l c [] rfl).2 hs hp
  have hd : ¬ Separates (before ++ l ++ [c]) d := by
    intro hs
    have hout := hd.outside [] d r rfl
    rw [List.append_nil] at hout
    exact hout.2 hs hq
  exact ((apart_iff.1 hapart).resolve_left hc).resolve_left hd

/-- A text that breaks between two parts is cut where they are. -/
theorem Cut.append (h : Cut before cs ts) (hd : Cut (before ++ cs) ds us) (hb : Breaks before cs ds) :
    Cut before (cs ++ ds) (ts ++ us) := by
  -- a character of the first part is in no token of the second
  have hfirst {l r : List Char} {c : Char} (hcs : cs = l ++ c :: r) : ¬ InToken us (utf8Len (before ++ l)) := by
    rw [hcs, ← List.append_assoc] at hd
    exact hd.not_inToken_before
  refine ⟨?_, ?_, ?_, ?_, ?_, ?_⟩
  · refine List.pairwise_append.2 ⟨h.ascending, hd.ascending, fun t ht u hu => ?_⟩
    have ht' := (covers_offset (h.slice t ht).1).2
    have hhi := (h.bounds ht).2
    have hlo := (hd.bounds hu).1
    omega
  · refine List.pairwise_append.2 ⟨h.disjoint, hd.disjoint, fun t ht u hu position hboth => ?_⟩
    obtain ⟨⟨-, ht'⟩, hu', -⟩ := hboth
    have hhi := (h.bounds ht).2
    have hlo := (hd.bounds hu).1
    omega
  · intro t ht
    rcases List.mem_append.1 ht with ht | ht
    · obtain ⟨hne, l, r, rfl, hoffset⟩ := h.slice t ht
      exact ⟨hne, l, r ++ ds, by simp, hoffset⟩
    · obtain ⟨hne, l, r, rfl, hoffset⟩ := hd.slice t ht
      exact ⟨hne, cs ++ l, r, by simp, by rw [hoffset, List.append_assoc]⟩
  · intro l c r hplace
    rw [inToken_append]
    rcases place_append hplace with ⟨r', hcs, -⟩ | ⟨l', rfl, hds⟩
    · rw [or_iff_left (hfirst hcs)]
      exact h.outside l c r' hcs
    · rw [← List.append_assoc, or_iff_right (h.not_inToken_behind l')]
      exact hd.outside l' c r hds
  · intro l c r hplace hmark
    rcases place_append hplace with ⟨r', hcs, -⟩ | ⟨l', rfl, hds⟩
    · exact List.mem_append_left _ (h.mark l c r' hcs hmark)
    · rw [← List.append_assoc] at hmark ⊢
      exact List.mem_append_right _ (hd.mark l' c r hds hmark)
  · intro l c d r hplace
    rw [inToken_append, inToken_append, inOneToken_append]
    rcases place_append hplace with ⟨r', hcs, hr⟩ | ⟨l', rfl, hds⟩
    · have hnone := hfirst hcs
      rw [or_iff_left hnone, or_iff_left (mt InOneToken.left hnone)]
      cases r' with
      | nil =>
        -- the two parts meet between the characters
        intro hp hq
        obtain rfl : ds = d :: r := hr.symm
        have hapart := hb l c d r hcs rfl
        subst hcs
        rw [← List.append_assoc] at hd
        have hbehind : ¬ InToken ts (utf8Len (before ++ l ++ [c])) := by simpa using h.not_inToken_behind []
        rw [or_iff_right hbehind] at hq
        exact iff_of_false (mt InOneToken.right hbehind) (h.marks_of_apart hd hapart hp hq)
      | cons d' r' =>
        obtain ⟨rfl, rfl⟩ := List.cons.inj hr
        rw [or_iff_left (by simpa using hfirst (l := l ++ [c]) (by simpa using hcs))]
        exact h.joined l c d r' hcs
    · have hnone := h.not_inToken_behind l'
      have hnone' := h.not_inToken_behind (l' ++ [c])
      rw [← List.append_assoc] at hnone' ⊢
      rw [or_iff_right hnone, or_iff_right hnone', or_iff_right (mt InOneToken.left hnone)]
      exact hd.joined l' c d r hds

/-! ## The scanner -/

/-- No character of the word separates, and one that is a mark is the whole word. -/
def Holds (before word : List Char) : Prop :=
  ∀ l c r, word = l ++ c :: r → ¬ Separates (before ++ l) c ∧ (Marks (before ++ l) c → word = [c])

theorem cut_nil (before : List Char) : Cut before [] [] where
  ascending := .nil
  disjoint := .nil
  slice := by simp
  outside := by simp
  mark := by simp
  joined := by simp

theorem place_singleton {l r : List Char} {c d : Char} (h : [c] = l ++ d :: r) : l = [] ∧ d = c ∧ r = [] := by
  cases l with
  | nil =>
    obtain ⟨rfl, rfl⟩ := List.cons.inj h
    exact ⟨rfl, rfl, rfl⟩
  | cons _ l => simp at h

theorem cut_separator {c : Char} (hc : Separates before c) : Cut before [c] [] where
  ascending := .nil
  disjoint := .nil
  slice := by simp
  outside l d r hplace := by
    obtain ⟨rfl, rfl, rfl⟩ := place_singleton hplace
    simpa [InToken] using hc
  mark l d r hplace hmark := by
    obtain ⟨rfl, rfl, rfl⟩ := place_singleton hplace
    rw [List.append_nil] at hmark
    exact absurd hc hmark.not_separates
  joined := by simp [InToken]

/-- A word is one token. So is a mark, which is a word of one character. -/
theorem cut_word {word : List Char} (hne : word ≠ []) (h : Holds before word) :
    Cut before word [⟨String.ofList word, utf8Len before⟩] := by
  have hcovers {l r : List Char} {c : Char} (hplace : word = l ++ c :: r) :
      Covers ⟨String.ofList word, utf8Len before⟩ (utf8Len (before ++ l)) :=
    covers_place rfl (by simpa using hplace)
  refine ⟨by simp, by simp, ?_, ?_, ?_, ?_⟩
  · intro t ht
    obtain rfl := List.mem_singleton.1 ht
    exact ⟨by simpa using hne, [], [], by simp, by simp⟩
  · intro l c r hplace
    refine iff_of_false (not_not_intro ⟨_, List.mem_singleton_self _, hcovers hplace⟩) ?_
    exact (h l c r hplace).1
  · intro l c r hplace hmark
    obtain rfl := (h l c r hplace).2 hmark
    obtain ⟨rfl, -, -⟩ := place_singleton hplace
    rw [List.append_nil, String.singleton_eq_ofList]
    exact List.mem_singleton_self _
  · intro l c d r hplace _ _
    have hplace' : word = (l ++ [c]) ++ d :: r := by simpa using hplace
    have hd := hcovers hplace'
    rw [← List.append_assoc] at hd
    refine iff_of_true ⟨_, List.mem_singleton_self _, hcovers hplace, hd⟩ ⟨fun hm => ?_, fun hm => ?_⟩
    · obtain ⟨-, -, hr⟩ := place_singleton (((h l c _ hplace).2 hm).symm.trans hplace)
      cases hr
    · rw [List.append_assoc] at hm
      obtain ⟨hl, -, -⟩ := place_singleton (((h _ d r hplace').2 hm).symm.trans hplace')
      simp at hl

theorem cut_mark {c : Char} (hc : Marks before c) : Cut before [c] [⟨String.singleton c, utf8Len before⟩] := by
  rw [String.singleton_eq_ofList]
  refine cut_word (List.cons_ne_nil c []) fun l d r hplace => ?_
  obtain ⟨rfl, rfl, -⟩ := place_singleton hplace
  rw [List.append_nil]
  exact ⟨hc.not_separates, fun _ => rfl⟩

/-- The quotation flag of the scanner: the quotes so far are odd in number. -/
def flag (cs : List Char) : Bool := cs.count '\'' % 2 == 1

theorem flag_append_singleton (cs : List Char) (c : Char) :
    flag (cs ++ [c]) = if c = '\'' then !flag cs else flag cs := by
  unfold flag
  rw [List.count_append]
  by_cases hc : c = '\''
  · subst hc
    rcases Nat.mod_two_eq_zero_or_one (cs.count '\'') with h | h <;> simp [h, Nat.add_mod]
  · simp [hc]

theorem quoted_iff_flag (c : Char) : Quoted before c ↔ flag (before ++ [c]) = true := by
  simp [Quoted, flag]

/-- The characters of a word under way. -/
def Going (before word : List Char) : Prop :=
  ∀ l c r, word = l ++ c :: r → ¬ Separates (before ++ l) c ∧ ¬ Marks (before ++ l) c

theorem cut_ofWord {word : List Char} (h : Going before word) :
    Cut before word (ofWord word.reverse (utf8Len before)) := by
  unfold ofWord
  split
  · next hempty =>
    obtain rfl : word = [] := by simpa using hempty
    exact cut_nil before
  · next hne =>
    rw [List.reverse_reverse]
    refine cut_word (by simpa using hne) fun l c r hplace => ?_
    obtain ⟨hseparates, hmarks⟩ := h l c r hplace
    exact ⟨hseparates, fun hm => absurd hm hmarks⟩

/-- A character that is in no word breaks the text before and behind it. -/
theorem cut_around {word rest : List Char} {c : Char} {one : List Token} (hword : Going before word)
    (hc : Separates (before ++ word) c ∨ Marks (before ++ word) c) (hone : Cut (before ++ word) [c] one)
    (hrest : Cut (before ++ word ++ [c]) rest us) :
    Cut before (word ++ c :: rest) (ofWord word.reverse (utf8Len before) ++ (one ++ us)) := by
  have hbehind : Breaks (before ++ word) [c] rest := by
    intro l d e r hl _
    obtain ⟨rfl, rfl, -⟩ := place_singleton hl
    exact .inl (by simpa using hc)
  have hbefore : Breaks before word ([c] ++ rest) := by
    intro l d e r hl hr
    obtain ⟨rfl, -⟩ := List.cons.inj hr
    exact .inr (by simpa [hl] using hc)
  exact (cut_ofWord hword).append (hone.append hrest hbehind) hbefore

theorem Going.append_singleton {word : List Char} {c : Char} (h : Going before word)
    (hs : ¬ Separates (before ++ word) c) (hm : ¬ Marks (before ++ word) c) : Going before (word ++ [c]) := by
  intro l d r hplace
  rcases place_append hplace with ⟨r', hword, -⟩ | ⟨l', rfl, hc⟩
  · exact h l d r' hword
  · obtain ⟨rfl, rfl, -⟩ := place_singleton hc
    rw [List.append_nil]
    exact ⟨hs, hm⟩

theorem cut_scan : ∀ (rest before word : List Char), Going before word →
    Cut before (word ++ rest)
      (scan (flag (before ++ word)) (utf8Len (before ++ word)) word.reverse (utf8Len before) rest)
  | [], before, word, hword => by
    rw [List.append_nil]
    exact cut_ofWord hword
  | c :: rest, before, word, hword => by
    have hpos : utf8Len (before ++ word) + c.utf8Size = utf8Len (before ++ word ++ [c]) := by
      simp [Nat.add_assoc]
    simp only [scan]
    rw [← flag_append_singleton, hpos]
    have hrest := cut_scan rest (before ++ word ++ [c]) [] (by simp [Going])
    rw [List.append_nil, List.nil_append] at hrest
    split
    · next h =>
      have hs : Separates (before ++ word) c := by simpa [Separates, quoted_iff_flag, and_comm] using h
      exact cut_around hword (.inl hs) (cut_separator hs) hrest
    · next hs =>
      split
      · next h =>
        have hm : Marks (before ++ word) c := by simpa [Marks, quoted_iff_flag, and_comm] using h
        exact cut_around hword (.inr hm) (cut_mark hm) hrest
      · next hm =>
        have hgoing : Going before (word ++ [c]) := by
          refine hword.append_singleton ?_ ?_
          · simpa [Separates, quoted_iff_flag, and_comm] using hs
          · simpa [Marks, quoted_iff_flag, and_comm] using hm
        simpa using cut_scan rest before (word ++ [c]) hgoing

theorem cut_tokenize (input : String) : Cut [] input.toList (tokenize input) :=
  cut_scan input.toList [] [] (by simp [Going])

/-! ## The ends of a token -/

theorem Cut.eq_of_covers (h : Cut before cs ts) (ht : t ∈ ts) (hu : u ∈ ts) (hp : t.Covers p) (hq : u.Covers p) :
    t = u := by
  by_contra hne
  have hsymm : Std.Symm fun t u : Token => ∀ position, ¬ (t.Covers position ∧ u.Covers position) :=
    ⟨fun _ _ h position hboth => h position hboth.symm⟩
  exact h.disjoint.forall ht hu hne p ⟨hp, hq⟩

theorem Cut.inOneToken_iff (h : Cut before cs ts) {l r : List Char} {c d : Char} (hplace : cs = l ++ c :: d :: r) :
    InOneToken ts (utf8Len (before ++ l)) (utf8Len (before ++ l ++ [c])) ↔ ¬ Apart (before ++ l) c d := by
  have hc := h.outside l c (d :: r) hplace
  have hd := h.outside (l ++ [c]) d r (by simpa using hplace)
  rw [← List.append_assoc] at hd
  have hjoined := h.joined l c d r hplace
  rw [apart_iff]
  constructor
  · rintro hone (hs | hs | hmarks)
    · exact hc.2 hs hone.left
    · exact hd.2 hs hone.right
    · exact hmarks ((hjoined hone.left hone.right).1 hone)
  · intro hapart
    rw [not_or, not_or, not_not] at hapart
    obtain ⟨hsc, hsd, hmarks⟩ := hapart
    exact (hjoined (not_not.1 (mt hc.1 hsc)) (not_not.1 (mt hd.1 hsd))).2 hmarks

/-- The characters `w` between `l` and `r` are one piece: it ends at breaks and has none inside. -/
structure Piece (before l w r : List Char) : Prop where
  left : Breaks before l (w ++ r)
  right : Breaks before (l ++ w) r
  inside : ∀ x y, w = x ++ y → x ≠ [] → y ≠ [] → ¬ Breaks before (l ++ x) (y ++ r)

section Ends

variable {l r : List Char} (h : Cut before cs ts) (ht : t ∈ ts) (hcs : cs = l ++ t.text.toList ++ r)
  (hoffset : t.offset = utf8Len (before ++ l))

include h ht hcs hoffset

/-- A token with the character before the offset would be this one, which begins behind it. -/
theorem Cut.breaks_left : Breaks before l (t.text.toList ++ r) := by
  intro l' c d r' hl hr
  by_contra hapart
  rw [hl, List.append_assoc, List.append_assoc, hr] at hcs
  obtain ⟨u, hu, hleft, hright⟩ := (h.inOneToken_iff hcs).2 hapart
  rw [List.append_assoc, ← hl, ← hoffset] at hright
  obtain rfl := h.eq_of_covers ht hu (covers_offset (h.slice t ht).1) hright
  have hc : 0 < c.utf8Size := c.utf8Size_pos
  rw [Covers, hoffset, hl] at hleft
  simp only [String.utf8Len_append, String.utf8Len_cons] at hleft
  omega

/-- A token with the character behind the end would be this one, which has ended. -/
theorem Cut.breaks_right : Breaks before (l ++ t.text.toList) r := by
  intro l' c d r' hl hr
  by_contra hapart
  obtain ⟨w, e, hw⟩ : ∃ w e, t.text.toList = w ++ [e] := by
    have hne : t.text.toList ≠ [] := by simpa using (h.slice t ht).1
    simpa [hne] using List.eq_nil_or_concat' t.text.toList
  rw [hw, ← List.append_assoc] at hl
  obtain ⟨rfl, hlast⟩ := List.append_inj' hl rfl
  obtain rfl := List.singleton_inj.1 hlast
  rw [hw, hr] at hcs
  obtain ⟨u, hu, hleft, hright⟩ := (h.inOneToken_iff (by simpa using hcs)).2 hapart
  rw [← List.append_assoc] at hleft
  obtain rfl := h.eq_of_covers ht hu (covers_place hoffset hw) hleft
  have hsize := congrArg utf8Len hw
  rw [Covers, hoffset] at hright
  simp only [String.utf8Len_append, String.utf8Len_toList] at hright hsize
  omega

/-- Characters next to one another in a token are in one token. -/
theorem Cut.not_breaks_inside {x y : List Char} (htext : t.text.toList = x ++ y) (hx : x ≠ []) (hy : y ≠ []) :
    ¬ Breaks before (l ++ x) (y ++ r) := by
  intro hbreak
  obtain ⟨x, c, rfl⟩ := (List.eq_nil_or_concat' x).resolve_left hx
  obtain ⟨d, y, rfl⟩ := List.exists_cons_of_ne_nil hy
  have hplace : cs = (l ++ x) ++ c :: d :: (y ++ r) := by simp [hcs, htext]
  have hright := covers_place hoffset htext
  rw [List.append_assoc] at htext
  have hleft := covers_place hoffset htext
  refine (h.inOneToken_iff hplace).1 ⟨t, ht, ?_, ?_⟩ (hbreak (l ++ x) c d (y ++ r) (by simp) rfl)
  · simpa using hleft
  · simpa using hright

theorem Cut.piece : Piece before l t.text.toList r where
  left := h.breaks_left ht hcs hoffset
  right := h.breaks_right ht hcs hoffset
  inside _ _ htext hx hy := h.not_breaks_inside ht hcs hoffset htext hx hy

end Ends

/-- Pieces that begin at one place end at one place. -/
theorem Piece.text_eq {l w r w' r' : List Char} (h : Piece before l w r) (h' : Piece before l w' r')
    (hw : w ≠ []) (hw' : w' ≠ []) (heq : w ++ r = w' ++ r') : w = w' := by
  rcases List.append_eq_append_iff.1 heq with ⟨x, rfl, rfl⟩ | ⟨x, rfl, rfl⟩
  · by_cases hx : x = []
    · simp [hx]
    · exact absurd h.right (h'.inside w x rfl hw hx)
  · by_cases hx : x = []
    · simp [hx]
    · exact absurd h'.right (h.inside w' x rfl hw' hx)

theorem exists_append_of_utf8Len_le {l r l' r' : List Char} (h : l ++ r = l' ++ r') (hle : utf8Len l' ≤ utf8Len l) :
    ∃ x, l = l' ++ x ∧ r' = x ++ r := by
  rcases List.append_eq_append_iff.1 h with ⟨x, rfl, rfl⟩ | ⟨x, rfl, rfl⟩
  · rw [String.utf8Len_append] at hle
    obtain rfl : x = [] := String.utf8Len_eq_zero.1 (by omega)
    exact ⟨[], by simp⟩
  · exact ⟨x, rfl, rfl⟩

/-- Of two pieces of a text, one that begins in the other begins where that does. -/
theorem Piece.left_eq {l w r l' w' r' : List Char} (h : Piece before l w r) (h' : Piece before l' w' r')
    (heq : l ++ (w ++ r) = l' ++ (w' ++ r')) (hle : utf8Len l' ≤ utf8Len l)
    (hlt : utf8Len l < utf8Len l' + utf8Len w') : l = l' := by
  obtain ⟨x, rfl, hx⟩ := exists_append_of_utf8Len_le heq hle
  rw [String.utf8Len_append] at hlt
  obtain ⟨y, rfl, hy⟩ := exists_append_of_utf8Len_le hx (by omega)
  by_contra hne
  have hxne : x ≠ [] := by
    rintro rfl
    exact hne (List.append_nil _)
  have hyne : y ≠ [] := by
    rintro rfl
    simp at hlt
  refine h'.inside x y rfl hxne hyne ?_
  rw [← hy]
  exact h.left

/-- Two pieces of a text, one of which begins in the other, are one. -/
theorem Piece.eq {l w r l' w' r' : List Char} (h : Piece before l w r) (h' : Piece before l' w' r') (hw : w ≠ [])
    (heq : l ++ (w ++ r) = l' ++ (w' ++ r')) (hle : utf8Len l' ≤ utf8Len l)
    (hlt : utf8Len l < utf8Len l' + utf8Len w') : l = l' ∧ w = w' := by
  obtain rfl := h.left_eq h' heq hle hlt
  have hw' : w' ≠ [] := by
    rintro rfl
    simp at hlt
  exact ⟨rfl, h.text_eq h' hw hw' (List.append_cancel_left heq)⟩

/-- The character a token of one cut begins with is in a token of any other cut, and the two are one. -/
theorem Cut.mem (h : Cut before cs ts) (h' : Cut before cs us) (ht : t ∈ ts) : t ∈ us := by
  obtain ⟨hne, l, r, hcs, hoffset⟩ := h.slice t ht
  obtain ⟨c, w, hw⟩ := List.exists_cons_of_ne_nil (l := t.text.toList) (by simpa using hne)
  have hplace : cs = l ++ c :: (w ++ r) := by simp [hcs, hw]
  have hin : InToken ts (utf8Len (before ++ l)) := ⟨t, ht, hoffset ▸ covers_offset hne⟩
  have hin' : InToken us (utf8Len (before ++ l)) := by
    by_contra hnot
    exact (h.outside l c _ hplace).2 ((h'.outside l c _ hplace).1 hnot) hin
  obtain ⟨u, hu, hle, hlt⟩ := hin'
  obtain ⟨-, l', r', hcs', hoffset'⟩ := h'.slice u hu
  have hpiece := h.piece ht hcs hoffset
  have hpiece' := h'.piece hu hcs' hoffset'
  rw [hoffset', String.utf8Len_append, String.utf8Len_append] at hle hlt
  obtain ⟨rfl, htext⟩ := hpiece.eq hpiece' (by simpa using hne)
    (by rw [← List.append_assoc, ← hcs, hcs', List.append_assoc]) (by omega)
    (by rw [String.utf8Len_toList]; omega)
  obtain rfl : t = u := by
    cases t
    cases u
    exact congrArg₂ Token.mk (String.toList_inj.1 htext) (hoffset.trans hoffset'.symm)
  exact hu

theorem Cut.eq (h : Cut before cs ts) (h' : Cut before cs us) : ts = us := by
  have hirrefl : Std.Irrefl fun t u : Token => t.offset < u.offset := ⟨fun t => Nat.lt_irrefl t.offset⟩
  have hantisymm : Std.Antisymm fun t u : Token => t.offset < u.offset :=
    ⟨fun _ _ htu hut => absurd hut (Nat.lt_asymm htu)⟩
  exact h.ascending.eq_of_mem_iff h'.ascending fun t => ⟨h.mem h', h'.mem h⟩

/-- **There is one way to cut a filter, and the scanner takes it.** -/
theorem cut_iff (input : String) (ts : List Token) : Cut [] input.toList ts ↔ ts = tokenize input := by
  constructor
  · intro h
    exact h.eq (cut_tokenize input)
  · rintro rfl
    exact cut_tokenize input

end FilterQuery.Token
