import FilterQuery.Json.Printer
import FilterQuery.Proofs.Numerals

/-!
# What is written is read back

A value without infinities and NaN is read back from its text, compact or indented: the same keys in the same
order, the same strings character by character, whole numbers as such and doubles bit by bit
(`decode?_render`). The reader is the one for requests, except that it takes numbers exactly: a whole number
may be of any size, and any other is the double nearest to it (`exactValue?`).
-/

namespace FilterQuery.Json

/-! ## Values without infinities -/

mutual

/-- Every double in the value is finite. -/
def finite : Json → Bool
  | float x => x.isFinite
  | array items => finiteItems items
  | object members => finiteMembers members
  | _ => true

def finiteItems : List Json → Bool
  | [] => true
  | x :: xs => finite x && finiteItems xs

def finiteMembers : List (String × Json) → Bool
  | [] => true
  | (_, x) :: ms => finite x && finiteMembers ms

end

/-! ## Numbers -/

/-- The number that the parts write: a whole number if there is neither a point nor an exponent, else the nearest
double, if there is a finite one. -/
def NumberText.exactValue? (t : NumberText) : Option Json :=
  if t.plain then
    let n := Decimal.ofDigits t.whole
    some (int (if t.negative then -(n : Int) else n))
  else
    let x := Binary64.ofDecimal t.decimal
    if x.isFinite then some (float x) else none

theorem exactValue?_ofInt (n : Int) : (NumberText.ofInt n).exactValue? = some (int n) := by
  simp only [NumberText.exactValue?, NumberText.ofInt, Binary64.ofDigits_toDigits, if_true, decide_eq_true_eq]
  split <;> congr 2 <;> omega

/-- The text after a number: nothing in it can be taken for a part of the number. -/
def Ends (k : List Char) : Prop := ∀ c ∈ k.head?, isNumberChar c = false

theorem ends_nil : Ends [] := by simp [Ends]

theorem ends_cons {c : Char} (hc : isNumberChar c = false) (k : List Char) : Ends (c :: k) := by
  simpa [Ends] using hc

theorem not_blank_of_isNumberChar {c : Char} (h : isNumberChar c = true) : isBlank c = false := by
  rw [Bool.eq_false_iff]
  intro hb
  simp only [isBlank, Bool.or_eq_true, beq_iff_eq] at hb
  rcases hb with ((rfl | rfl) | rfl) | rfl <;> exact absurd h (by decide)

@[simp] theorem skipBlanks_cons {c : Char} (h : isBlank c = false) (cs : List Char) :
    skipBlanks (c :: cs) = c :: cs := by
  simp [skipBlanks, h]

variable {value? : NumberText → Option Json} {fuel : Nat}

/-- A character of numbers begins no other value. -/
theorem read_of_isNumberChar {c : Char} (h : isNumberChar c = true) (cs : List Char) :
    read value? (fuel + 1) (c :: cs) = readNumber value? (c :: cs) := by
  have hne : ∀ d, isNumberChar d = false → c ≠ d := by
    rintro d hd rfl
    rw [h] at hd
    cases hd
  rw [read, skipBlanks_cons (not_blank_of_isNumberChar h)]
  simp [hne 'n' rfl, hne 't' rfl, hne 'f' rfl, hne '"' rfl, hne '[' rfl, hne '\x7b' rfl]

theorem read_spelled {t : NumberText} {ending k : List Char} (h : t.Spelled ending) (hk : Ends k) :
    read value? (fuel + 1) (t.spelled ending ++ k) = (value? t).map fun j => (j, k) := by
  have hchars := NumberText.isNumberChar_of_mem_spelled h
  obtain ⟨c, cs, hcs⟩ := List.exists_cons_of_ne_nil h.spelled_ne_nil
  have hc : isNumberChar c = true := hchars c (by simp [hcs])
  have hspan : (t.spelled ending ++ k).span isNumberChar = (t.spelled ending, k) :=
    NumberText.span_append hchars hk
  calc read value? (fuel + 1) (t.spelled ending ++ k) = readNumber value? (t.spelled ending ++ k) := by
        rw [hcs, List.cons_append, read_of_isNumberChar hc]
    _ = (value? t).map fun j => (j, k) := by
        simp only [readNumber, hspan, NumberText.read?_spelled h, Option.map_eq_bind]
        rfl

theorem read_int {k : List Char} (hk : Ends k) (n : Int) :
    read NumberText.exactValue? (fuel + 1) ((toString n).toList ++ k) = some (int n, k) := by
  rw [NumberText.toList_toString, read_spelled (NumberText.spelled_ofInt n) hk, exactValue?_ofInt]
  rfl

theorem read_float {x : Binary64} (hx : x.isFinite = true) {k : List Char} (hk : Ends k) :
    read NumberText.exactValue? (fuel + 1) (floatText x ++ k) = some (float x, k) := by
  obtain ⟨c, e, t, ending, hw, hdec⟩ := Binary64.exists_writes_text floatLayout hx
  have hvalue : t.exactValue? = some (float x) := by
    simp [NumberText.exactValue?, hw.not_plain, hdec, hx]
  rw [floatText, if_pos hx, hw.text, read_spelled hw.spelled hk, hvalue]
  rfl

/-! ## Strings -/

theorem hex4_eq {n : Nat} (h : n < 0x20) : hex4 n = ['0', '0', Nat.digitChar (n / 16), Nat.digitChar (n % 16)] := by
  have hall : ∀ i : Fin 0x20, hex4 i = ['0', '0', Nat.digitChar (i / 16), Nat.digitChar (i % 16)] := by decide
  exact hall ⟨n, h⟩

theorem hexDigit?_digitChar {d : Nat} (h : d < 16) : hexDigit? (Nat.digitChar d) = some d := by
  have hall : ∀ i : Fin 16, hexDigit? (Nat.digitChar i) = some i.1 := by decide
  exact hall ⟨d, h⟩

theorem readHex4_hex4 {n : Nat} (h : n < 0x20) (rest : List Char) : readHex4 (hex4 n ++ rest) = some (n, rest) := by
  have hzero : hexDigit? '0' = some 0 := by decide
  rw [hex4_eq h]
  simp only [List.cons_append, List.nil_append, readHex4, hzero, hexDigit?_digitChar (by omega : n / 16 < 16),
    hexDigit?_digitChar (by omega : n % 16 < 16)]
  simp
  omega

/-- A character is written with a letter after a backslash, by its number, or as it stands. -/
theorem escape_cases (c : Char) :
    (∃ e, escape c = ['\\', e] ∧ ∀ rest, readEscape (e :: rest) = some (c, rest)) ∨
      (c.toNat < 0x20 ∧ escape c = '\\' :: 'u' :: hex4 c.toNat) ∨
      (c ≠ '"' ∧ c ≠ '\\' ∧ ¬ c.toNat < 0x20 ∧ escape c = [c]) := by
  by_cases hnamed : c ∈ ['"', '\\', '\x08', '\x0c', '\n', '\r', '\t']
  · left
    simp only [List.mem_cons, List.not_mem_nil, or_false] at hnamed
    rcases hnamed with rfl | rfl | rfl | rfl | rfl | rfl | rfl <;> exact ⟨_, rfl, fun _ => rfl⟩
  · right
    simp only [List.mem_cons, List.not_mem_nil, or_false, not_or] at hnamed
    obtain ⟨hquote, hbackslash, hb, hf, hn, hr, ht⟩ := hnamed
    unfold escape
    rw [if_neg hquote, if_neg hbackslash, if_neg hb, if_neg hf, if_neg hn, if_neg hr, if_neg ht]
    by_cases hcontrol : c.toNat < 0x20
    · exact .inl ⟨hcontrol, if_pos hcontrol⟩
    · exact .inr ⟨hquote, hbackslash, hcontrol, if_neg hcontrol⟩

/-- An escaped character is read as the character. -/
theorem readString_escape (c : Char) (text rest : List Char) :
    readString (fuel + 1) text (escape c ++ rest) = readString fuel (c :: text) rest := by
  rcases escape_cases c with ⟨e, he, hread⟩ | ⟨hcontrol, he⟩ | ⟨hquote, hbackslash, hcontrol, he⟩
  · simp [he, readString, hread]
  · have hlow : ¬ 0xD800 ≤ c.toNat := by omega
    have hhigh : ¬ 0xDC00 ≤ c.toNat := by omega
    have hcode : readCodePoint (hex4 c.toNat ++ rest) = some (c, rest) := by
      simp [readCodePoint, readHex4_hex4 hcontrol, hlow, hhigh, Char.ofNat_toNat]
    simp [he, readString, readEscape, hcode]
  · simp [he, readString, hquote, hbackslash, hcontrol]

theorem length_le_flatMap_escape (cs : List Char) : cs.length ≤ (cs.flatMap escape).length := by
  induction cs with
  | nil => simp
  | cons c cs ih =>
    have hc : 1 ≤ (escape c).length := by
      rcases escape_cases c with ⟨e, he, -⟩ | ⟨-, he⟩ | ⟨-, -, -, he⟩ <;> simp [he]
    rw [List.flatMap_cons, List.length_append, List.length_cons]
    omega

theorem readString_flatMap_escape (cs : List Char) (k : List Char) :
    ∀ (fuel : Nat) (text : List Char), cs.length < fuel →
      readString fuel text (cs.flatMap escape ++ '"' :: k) = some (String.ofList (text.reverse ++ cs), k) := by
  induction cs with
  | nil =>
    intro fuel text h
    obtain ⟨fuel, rfl⟩ := Nat.exists_eq_add_one_of_ne_zero (Nat.ne_of_gt h)
    simp [readString]
  | cons c cs ih =>
    intro fuel text h
    obtain ⟨fuel, rfl⟩ := Nat.exists_eq_add_one_of_ne_zero (Nat.ne_of_gt (Nat.zero_lt_of_lt h))
    rw [List.flatMap_cons, List.append_assoc, readString_escape, ih fuel (c :: text) (by simpa using h)]
    simp

theorem stringText_append (s : String) (k : List Char) :
    stringText s ++ k = '"' :: (s.toList.flatMap escape ++ '"' :: k) := by
  simp [stringText]

theorem readString_stringText (s : String) (k : List Char) :
    readString ((s.toList.flatMap escape ++ '"' :: k).length + 1) [] (s.toList.flatMap escape ++ '"' :: k) =
      some (s, k) := by
  have hlen : s.toList.length ≤ (s.toList.flatMap escape).length := length_le_flatMap_escape s.toList
  rw [readString_flatMap_escape]
  · simp
  · rw [List.length_append]
    omega

/-! ## Blanks -/

theorem isBlank_of_mem_newLine (layout : Layout) (depth : Nat) : ∀ c ∈ layout.newLine depth, isBlank c = true := by
  intro c hc
  cases layout with
  | compact => cases hc
  | indented =>
    rcases List.mem_cons.1 hc with rfl | hc
    · decide
    · rw [List.eq_of_mem_replicate hc]
      decide

theorem skipBlanks_newLine (layout : Layout) (depth : Nat) (cs : List Char) :
    skipBlanks (layout.newLine depth ++ cs) = skipBlanks cs :=
  List.dropWhile_append_of_pos (isBlank_of_mem_newLine layout depth)

theorem read_skipBlanks {cs ds : List Char} (h : skipBlanks cs = skipBlanks ds) :
    read value? fuel cs = read value? fuel ds := by
  cases fuel with
  | zero => simp [read]
  | succ fuel => rw [read, read, h]

theorem readItems_skipBlanks {cs ds : List Char} (h : skipBlanks cs = skipBlanks ds) :
    readItems value? fuel cs = readItems value? fuel ds := by
  cases fuel with
  | zero => simp [readItems]
  | succ fuel => rw [readItems, readItems, read_skipBlanks h]

theorem readMembers_skipBlanks {cs ds : List Char} (h : skipBlanks cs = skipBlanks ds) :
    readMembers value? fuel cs = readMembers value? fuel ds := by
  cases fuel with
  | zero => simp [readMembers]
  | succ fuel => rw [readMembers, readMembers, h]

theorem ends_newLine {c : Char} (hc : isNumberChar c = false) (layout : Layout) (depth : Nat) (k : List Char) :
    Ends (layout.newLine depth ++ c :: k) := by
  cases layout with
  | compact => exact ends_cons hc k
  | indented => exact ends_cons (by decide) _

theorem ends_writeItems (layout : Layout) (inner outer : Nat) (xs : List Json) (k : List Char) :
    Ends (writeItems layout inner xs (layout.newLine outer ++ ']' :: k)) := by
  cases xs with
  | nil => exact ends_newLine (by decide) layout outer k
  | cons x xs => exact ends_cons (by decide) _

theorem ends_writeMembers (layout : Layout) (inner outer : Nat) (ms : List (String × Json)) (k : List Char) :
    Ends (writeMembers layout inner ms (layout.newLine outer ++ '\x7d' :: k)) := by
  cases ms with
  | nil => exact ends_newLine (by decide) layout outer k
  | cons m ms => exact ends_cons (by decide) _

/-- The first character of a value is neither a blank nor a bracket that closes an array. -/
def Starts (cs : List Char) : Prop := ∃ c ds, cs = c :: ds ∧ isBlank c = false ∧ c ≠ ']'

theorem starts_cons {c : Char} (hb : isBlank c = false) (hc : c ≠ ']') (cs : List Char) : Starts (c :: cs) :=
  ⟨c, cs, rfl, hb, hc⟩

theorem starts_spelled {t : NumberText} {ending : List Char} (h : t.Spelled ending) (k : List Char) :
    Starts (t.spelled ending ++ k) := by
  obtain ⟨c, cs, hcs⟩ := List.exists_cons_of_ne_nil h.spelled_ne_nil
  have hc : isNumberChar c = true := NumberText.isNumberChar_of_mem_spelled h c (by simp [hcs])
  rw [hcs, List.cons_append]
  refine starts_cons (not_blank_of_isNumberChar hc) ?_ _
  rintro rfl
  exact absurd hc (by decide)

theorem starts_write (layout : Layout) (depth : Nat) (j : Json) (k : List Char) :
    Starts (write layout depth j k) := by
  match j with
  | null | bool true | bool false | array [] | array (_ :: _) | object [] | object (_ :: _) =>
    exact starts_cons (by decide) (by decide) _
  | string s => exact starts_cons (by decide) (by decide) _
  | int n =>
    rw [write, NumberText.toList_toString]
    exact starts_spelled (NumberText.spelled_ofInt n) k
  | float x =>
    rw [write, floatText]
    split
    · next hx =>
      obtain ⟨c, e, t, ending, hw, -⟩ := Binary64.exists_writes_text floatLayout hx
      rw [hw.text]
      exact starts_spelled hw.spelled k
    · exact starts_cons (by decide) (by decide) _

/-- After the bracket of an array that is not empty come its items. -/
theorem read_bracket {cs : List Char} (h : Starts cs) (layout : Layout) (depth : Nat) :
    read value? (fuel + 1) ('[' :: layout.newLine depth ++ cs) =
      (readItems value? fuel cs).map fun (items, rest) => (array items, rest) := by
  obtain ⟨c, ds, rfl, hb, hc⟩ := h
  rw [List.cons_append, read, skipBlanks_cons (by decide)]
  simp only [skipBlanks_newLine, skipBlanks_cons hb]
  split
  · next heq =>
    cases heq
    exact absurd rfl hc
  · rfl

/-- After the brace of an object that is not empty come its members. -/
theorem read_brace (layout : Layout) (depth : Nat) (cs : List Char) :
    read value? (fuel + 1) ('\x7b' :: layout.newLine depth ++ '"' :: cs) =
      (readMembers value? fuel ('"' :: cs)).map fun (members, rest) => (object members, rest) := by
  rw [List.cons_append, read, skipBlanks_cons (by decide)]
  simp only [skipBlanks_newLine]
  rw [skipBlanks_cons (by decide)]
  rfl

theorem read_string (s : String) (k : List Char) :
    read value? (fuel + 1) (stringText s ++ k) = some (string s, k) := by
  rw [stringText_append, read, skipBlanks_cons (by decide)]
  simp only [readString_stringText]
  rfl

/-! ## Fuel -/

mutual

/-- What reading the value takes of the fuel, beyond the first step. -/
def cost : Json → Nat
  | array items => costItems items
  | object members => costMembers members
  | _ => 0

def costItems : List Json → Nat
  | [] => 0
  | x :: xs => cost x + 2 + costItems xs

def costMembers : List (String × Json) → Nat
  | [] => 0
  | (_, x) :: ms => cost x + 2 + costMembers ms

end

mutual

theorem cost_le (layout : Layout) : ∀ (depth : Nat) (j : Json) (k : List Char),
    cost j + 2 * k.length ≤ 2 * (write layout depth j k).length
  | _, null, k | _, bool true, k | _, bool false, k | _, array [], k | _, object [], k => by
    simp [cost, costItems, costMembers, write]
    omega
  | _, int _, k | _, float _, k | _, string _, k => by simp [cost, write]
  | depth, array (x :: xs), k => by
    have hx := cost_le layout (depth + 1) x (writeItems layout (depth + 1) xs (layout.newLine depth ++ ']' :: k))
    have hxs := costItems_le layout (depth + 1) xs (layout.newLine depth ++ ']' :: k)
    simp only [cost, costItems, write, List.cons_append, List.length_cons, List.length_append] at hxs ⊢
    omega
  | depth, object ((key, x) :: ms), k => by
    have hx := cost_le layout (depth + 1) x (writeMembers layout (depth + 1) ms (layout.newLine depth ++ '\x7d' :: k))
    have hms := costMembers_le layout (depth + 1) ms (layout.newLine depth ++ '\x7d' :: k)
    simp only [cost, costMembers, write, writeMember, List.cons_append, List.length_cons, List.length_append] at hms ⊢
    omega

theorem costItems_le (layout : Layout) : ∀ (depth : Nat) (xs : List Json) (k : List Char),
    costItems xs + 2 * k.length ≤ 2 * (writeItems layout depth xs k).length
  | _, [], k => by simp [costItems, writeItems]
  | depth, x :: xs, k => by
    have hx := cost_le layout depth x (writeItems layout depth xs k)
    have hxs := costItems_le layout depth xs k
    simp only [costItems, writeItems, List.cons_append, List.length_cons, List.length_append]
    omega

theorem costMembers_le (layout : Layout) : ∀ (depth : Nat) (ms : List (String × Json)) (k : List Char),
    costMembers ms + 2 * k.length ≤ 2 * (writeMembers layout depth ms k).length
  | _, [], k => by simp [costMembers, writeMembers]
  | depth, (key, x) :: ms, k => by
    have hx := cost_le layout depth x (writeMembers layout depth ms k)
    have hms := costMembers_le layout depth ms k
    simp only [costMembers, writeMembers, writeMember, List.cons_append, List.length_cons, List.length_append]
    omega

end

/-! ## Items and members -/

section

variable {cs rest : List Char} {x : Json}

/-- An item is read, and then a comma or the closing bracket decides. -/
theorem readItems_item (hx : read value? fuel cs = some (x, rest)) :
    readItems value? (fuel + 1) cs =
      match skipBlanks rest with
      | ',' :: after => (readItems value? fuel after).map fun (xs, k) => (x :: xs, k)
      | ']' :: after => some ([x], after)
      | _ => none := by
  rw [readItems, hx]
  simp only [Option.bind_eq_bind, Option.bind_some, Option.map_eq_bind]
  rfl

theorem exists_colon (layout : Layout) (cs : List Char) :
    ∃ ds, layout.colon ++ cs = ':' :: ds ∧ skipBlanks ds = skipBlanks cs := by
  cases layout with
  | compact => exact ⟨cs, rfl, rfl⟩
  | indented => exact ⟨' ' :: cs, rfl, rfl⟩

/-- A key, a colon and a value are read, and then a comma or the closing brace decides. -/
theorem readMembers_key {key : String} {layout : Layout} (hx : read value? fuel cs = some (x, rest)) :
    readMembers value? (fuel + 1) (stringText key ++ (layout.colon ++ cs)) =
      match skipBlanks rest with
      | ',' :: after => (readMembers value? fuel after).map fun (ms, k) => ((key, x) :: ms, k)
      | '\x7d' :: after => some ([(key, x)], after)
      | _ => none := by
  obtain ⟨ds, hcolon, hds⟩ := exists_colon layout cs
  have hvalue : read value? fuel ds = some (x, rest) := (read_skipBlanks hds).trans hx
  rw [hcolon, stringText_append, readMembers, skipBlanks_cons (by decide)]
  simp only [readString_stringText, Option.bind_eq_bind, Option.bind_some]
  rw [skipBlanks_cons (by decide)]
  simp only [hvalue, Option.bind_some, Option.map_eq_bind]
  rfl

end

/-! ## Values -/

mutual

theorem read_write (layout : Layout) : ∀ (depth : Nat) (j : Json) (fuel : Nat) (k : List Char),
    j.finite = true → cost j ≤ fuel → Ends k →
      read NumberText.exactValue? (fuel + 1) (write layout depth j k) = some (j, k)
  | _, null, _, _, _, _, _ | _, bool true, _, _, _, _, _ | _, bool false, _, _, _, _, _ => rfl
  | _, array [], _, _, _, _, _ | _, object [], _, _, _, _, _ => rfl
  | _, int n, _, _, _, _, hk => read_int hk n
  | _, float x, _, _, hf, _, hk => read_float hf hk
  | _, string s, _, k, _, _, _ => read_string s k
  | depth, array (x :: xs), fuel, k, hf, hc, hk => by
    simp only [finite, finiteItems, Bool.and_eq_true] at hf
    simp only [cost, costItems] at hc
    obtain ⟨fuel, rfl⟩ : ∃ f, fuel = f + 2 := ⟨fuel - 2, by omega⟩
    have hx := read_write layout (depth + 1) x fuel _ hf.1 (by omega)
      (ends_writeItems layout (depth + 1) depth xs k)
    have hxs := readItems_of_read layout depth (depth + 1) xs (fuel + 1) x _ k hf.2 (by omega) hx
    rw [write, read_bracket (starts_write layout (depth + 1) x _), hxs]
    rfl
  | depth, object ((key, x) :: ms), fuel, k, hf, hc, hk => by
    simp only [finite, finiteMembers, Bool.and_eq_true] at hf
    simp only [cost, costMembers] at hc
    obtain ⟨fuel, rfl⟩ : ∃ f, fuel = f + 2 := ⟨fuel - 2, by omega⟩
    have hx := read_write layout (depth + 1) x fuel _ hf.1 (by omega)
      (ends_writeMembers layout (depth + 1) depth ms k)
    have hms := readMembers_of_read layout depth (depth + 1) ms (fuel + 1) key x _ k hf.2 (by omega) hx
    rw [write, writeMember, stringText_append, read_brace, ← stringText_append, hms]
    rfl

/-- If an item is read and the other items are what remains, all of them are read. -/
theorem readItems_of_read (layout : Layout) (outer : Nat) : ∀ (depth : Nat) (xs : List Json) (fuel : Nat) (x : Json)
    (cs k : List Char), finiteItems xs = true → costItems xs ≤ fuel →
      read NumberText.exactValue? fuel cs =
          some (x, writeItems layout depth xs (layout.newLine outer ++ ']' :: k)) →
        readItems NumberText.exactValue? (fuel + 1) cs = some (x :: xs, k)
  | _, [], fuel, x, cs, k, _, _, hx => by
    rw [readItems_item hx, writeItems, skipBlanks_newLine, skipBlanks_cons (by decide)]
    rfl
  | depth, y :: ys, fuel, x, cs, k, hf, hc, hx => by
    simp only [finiteItems, Bool.and_eq_true] at hf
    simp only [costItems] at hc
    obtain ⟨fuel, rfl⟩ : ∃ f, fuel = f + 2 := ⟨fuel - 2, by omega⟩
    have hy := read_write layout depth y fuel _ hf.1 (by omega) (ends_writeItems layout depth outer ys k)
    have hys := readItems_of_read layout outer depth ys (fuel + 1) y _ k hf.2 (by omega) hy
    have hnext := (readItems_skipBlanks (skipBlanks_newLine layout depth _)).trans hys
    rw [readItems_item hx, writeItems, List.cons_append, skipBlanks_cons (by decide)]
    simp only [hnext]
    rfl

theorem readMembers_of_read (layout : Layout) (outer : Nat) : ∀ (depth : Nat) (ms : List (String × Json)) (fuel : Nat)
    (key : String) (x : Json) (cs k : List Char), finiteMembers ms = true → costMembers ms ≤ fuel →
      read NumberText.exactValue? fuel cs =
          some (x, writeMembers layout depth ms (layout.newLine outer ++ '\x7d' :: k)) →
        readMembers NumberText.exactValue? (fuel + 1) (stringText key ++ (layout.colon ++ cs)) =
          some ((key, x) :: ms, k)
  | _, [], fuel, key, x, cs, k, _, _, hx => by
    rw [readMembers_key hx, writeMembers, skipBlanks_newLine, skipBlanks_cons (by decide)]
    rfl
  | depth, (next, y) :: ms, fuel, key, x, cs, k, hf, hc, hx => by
    simp only [finiteMembers, Bool.and_eq_true] at hf
    simp only [costMembers] at hc
    obtain ⟨fuel, rfl⟩ : ∃ f, fuel = f + 2 := ⟨fuel - 2, by omega⟩
    have hy := read_write layout depth y fuel _ hf.1 (by omega) (ends_writeMembers layout depth outer ms k)
    have hms := readMembers_of_read layout outer depth ms (fuel + 1) next y _ k hf.2 (by omega) hy
    have hnext := (readMembers_skipBlanks (skipBlanks_newLine layout depth _)).trans hms
    rw [readMembers_key hx, writeMembers, List.cons_append, skipBlanks_cons (by decide)]
    simp only [hnext, writeMember]
    rfl

end

/-- **What is written is read back**, in both layouts. -/
theorem decode?_render (layout : Layout) {j : Json} (hj : j.finite = true) :
    decode? NumberText.exactValue? (j.render layout) = some j := by
  have hcost := cost_le layout 0 j []
  have hread := read_write layout 0 j (2 * (write layout 0 j []).length) [] hj (by simpa using hcost) ends_nil
  simp only [decode?, render, String.toList_ofList, hread]
  rfl

end FilterQuery.Json
