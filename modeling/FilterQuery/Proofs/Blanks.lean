import FilterQuery.Proofs.Decoding

/-!
# Blanks outside strings

The layouts differ in blanks only. `eraseBlanks` follows a text as a reader does, to know what stands in a string:
a quote that is not escaped begins or ends one. No text in a value can end the string that it is written in, so the
blanks that are erased are those of the layout, and what is left is the compact text (`eraseBlanks_write`).
-/

namespace FilterQuery.Json

/-- The text without the blanks outside its strings. The flag tells whether it begins in a string. -/
def eraseBlanks : Bool → List Char → List Char
  | _, [] => []
  | false, c :: cs => if isBlank c then eraseBlanks false cs else c :: eraseBlanks (c == '"') cs
  | true, '\\' :: c :: cs => '\\' :: c :: eraseBlanks true cs
  | true, c :: cs => c :: eraseBlanks (c != '"') cs

/-! ## Outside strings -/

/-- The characters are neither blanks nor quotes. -/
def Bare (cs : List Char) : Prop := ∀ c ∈ cs, isBlank c = false ∧ c ≠ '"'

theorem eraseBlanks_bare {cs : List Char} (h : Bare cs) (k : List Char) :
    eraseBlanks false (cs ++ k) = cs ++ eraseBlanks false k := by
  induction cs with
  | nil => rfl
  | cons c cs ih =>
    obtain ⟨hb, hq⟩ := h c (by simp)
    have hflag : (c == '"') = false := by simpa using hq
    rw [List.cons_append, eraseBlanks, if_neg (by simp [hb]), hflag, ih fun d hd => h d (by simp [hd])]
    rfl

theorem eraseBlanks_mark {c : Char} (hb : isBlank c = false) (hq : c ≠ '"') (k : List Char) :
    eraseBlanks false (c :: k) = c :: eraseBlanks false k :=
  eraseBlanks_bare (by simpa [Bare] using ⟨hb, hq⟩ : Bare [c]) k

theorem eraseBlanks_gap {cs : List Char} (h : ∀ c ∈ cs, isBlank c = true) (k : List Char) :
    eraseBlanks false (cs ++ k) = eraseBlanks false k := by
  induction cs with
  | nil => rfl
  | cons c cs ih =>
    rw [List.cons_append, eraseBlanks, if_pos (h c (by simp)), ih fun d hd => h d (by simp [hd])]

theorem eraseBlanks_newLine (layout : Layout) (depth : Nat) (k : List Char) :
    eraseBlanks false (layout.newLine depth ++ k) = eraseBlanks false k :=
  eraseBlanks_gap (isBlank_of_mem_newLine layout depth) k

theorem eraseBlanks_colon (layout : Layout) (k : List Char) :
    eraseBlanks false (layout.colon ++ k) = ':' :: eraseBlanks false k := by
  cases layout <;> rfl

theorem bare_spelled {t : NumberText} {ending : List Char} (h : t.Spelled ending) : Bare (t.spelled ending) := by
  intro c hc
  have hn := NumberText.isNumberChar_of_mem_spelled h c hc
  refine ⟨not_blank_of_isNumberChar hn, ?_⟩
  rintro rfl
  exact absurd hn (by decide)

theorem bare_toString (n : Int) : Bare (toString n).toList := by
  rw [NumberText.toList_toString]
  exact bare_spelled (NumberText.spelled_ofInt n)

theorem bare_floatText (x : Binary64) : Bare (floatText x) := by
  unfold floatText
  split
  · next hx =>
    obtain ⟨c, e, t, ending, hw, -⟩ := Binary64.exists_writes_text floatLayout hx
    rw [hw.text]
    exact bare_spelled hw.spelled
  · have hall : "null".toList.all (fun c => !isBlank c && c != '"') = true := by decide
    intro c hc
    simpa using List.all_eq_true.1 hall c hc

/-! ## Strings -/

theorem eraseBlanks_inside {cs : List Char} (h : ∀ c ∈ cs, c ≠ '"' ∧ c ≠ '\\') (k : List Char) :
    eraseBlanks true (cs ++ k) = cs ++ eraseBlanks true k := by
  induction cs with
  | nil => rfl
  | cons c cs ih =>
    obtain ⟨hquote, hbackslash⟩ := h c (by simp)
    have hflag : (c != '"') = true := by simpa using hquote
    have ih := ih fun d hd => h d (by simp [hd])
    simp [eraseBlanks, hbackslash, hflag, ih]

theorem hex4_inside {n : Nat} (h : n < 0x20) : ∀ c ∈ hex4 n, c ≠ '"' ∧ c ≠ '\\' := by
  have hall : ∀ i : Fin 0x20, (hex4 i).all (fun c => c != '"' && c != '\\') = true := by decide
  intro c hc
  simpa using List.all_eq_true.1 (hall ⟨n, h⟩) c hc

theorem eraseBlanks_escape (c : Char) (k : List Char) :
    eraseBlanks true (escape c ++ k) = escape c ++ eraseBlanks true k := by
  rcases escape_cases c with ⟨e, he, -⟩ | ⟨hcontrol, he⟩ | ⟨hquote, hbackslash, -, he⟩
  · rw [he]
    rfl
  · have hcode := eraseBlanks_inside (hex4_inside hcontrol) k
    simp [he, eraseBlanks, hcode]
  · rw [he]
    exact eraseBlanks_inside (by simpa using ⟨hquote, hbackslash⟩) k

theorem eraseBlanks_stringText (s : String) (k : List Char) :
    eraseBlanks false (stringText s ++ k) = stringText s ++ eraseBlanks false k := by
  have hinside : ∀ cs : List Char,
      eraseBlanks true (cs.flatMap escape ++ '"' :: k) = cs.flatMap escape ++ '"' :: eraseBlanks false k := by
    intro cs
    induction cs with
    | nil => rfl
    | cons c cs ih => rw [List.flatMap_cons, List.append_assoc, eraseBlanks_escape, ih, List.append_assoc]
  rw [stringText_append, stringText_append, ← hinside]
  rfl

/-! ## Values -/

mutual

/-- **The layouts differ in blanks only**: without the blanks outside strings, the text of a value is its compact
text. -/
theorem eraseBlanks_write (layout : Layout) : ∀ (depth depth' : Nat) (j : Json) (k : List Char),
    eraseBlanks false (write layout depth j k) = write .compact depth' j (eraseBlanks false k)
  | _, _, null, k | _, _, bool true, k | _, _, bool false, k => rfl
  | _, _, array [], k | _, _, object [], k => rfl
  | _, _, int n, k => eraseBlanks_bare (bare_toString n) k
  | _, _, float x, k => eraseBlanks_bare (bare_floatText x) k
  | _, _, string s, k => eraseBlanks_stringText s k
  | depth, depth', array (x :: xs), k => by
    rw [write, List.cons_append, eraseBlanks_mark (by decide) (by decide), eraseBlanks_newLine]
    rw [eraseBlanks_write layout (depth + 1) (depth' + 1) x]
    rw [eraseBlanks_writeItems layout (depth + 1) (depth' + 1) xs]
    rw [eraseBlanks_newLine, eraseBlanks_mark (by decide) (by decide)]
    rfl
  | depth, depth', object ((key, x) :: ms), k => by
    rw [write, List.cons_append, eraseBlanks_mark (by decide) (by decide), eraseBlanks_newLine]
    rw [writeMember, eraseBlanks_stringText, eraseBlanks_colon, eraseBlanks_write layout (depth + 1) (depth' + 1) x]
    rw [eraseBlanks_writeMembers layout (depth + 1) (depth' + 1) ms]
    rw [eraseBlanks_newLine, eraseBlanks_mark (by decide) (by decide)]
    rfl

theorem eraseBlanks_writeItems (layout : Layout) : ∀ (depth depth' : Nat) (xs : List Json) (k : List Char),
    eraseBlanks false (writeItems layout depth xs k) = writeItems .compact depth' xs (eraseBlanks false k)
  | _, _, [], k => rfl
  | depth, depth', x :: xs, k => by
    rw [writeItems, List.cons_append, eraseBlanks_mark (by decide) (by decide), eraseBlanks_newLine]
    rw [eraseBlanks_write layout depth depth' x, eraseBlanks_writeItems layout depth depth' xs]
    rfl

theorem eraseBlanks_writeMembers (layout : Layout) : ∀ (depth depth' : Nat) (ms : List (String × Json))
    (k : List Char),
    eraseBlanks false (writeMembers layout depth ms k) = writeMembers .compact depth' ms (eraseBlanks false k)
  | _, _, [], k => rfl
  | depth, depth', (key, x) :: ms, k => by
    rw [writeMembers, List.cons_append, eraseBlanks_mark (by decide) (by decide), eraseBlanks_newLine]
    rw [writeMember, eraseBlanks_stringText, eraseBlanks_colon, eraseBlanks_write layout depth depth' x]
    rw [eraseBlanks_writeMembers layout depth depth' ms]
    rfl

end

end FilterQuery.Json
