import FilterQuery.Proofs.Acceptance
import FilterQuery.Proofs.Layout

/-!
# Writing a filter

The way back from a tree to a filter. A tree can be written in many ways, so this is a relation: parentheses
can be added to any part of it (`Prints`), the connectives have no case, and the texts can be laid out with
more or fewer separators (`Layout.lean`). Parentheses are needed only where a part would otherwise be taken
for operands of what surrounds it (`Bare`).

Whatever is written comes back when it is read (`parse_printed`). The two halves are independent: each text of
a printing is one token in every layout (`whole_of_prints`), and the texts derive the tree in the grammar
(`derives_of_prints`), which is what the reader accepts.
-/

namespace FilterQuery

open Token (Whole Laid Gap isPlain)

/-- Text that can be a token of its own as it stands. -/
structure Word where
  text : String
  nonempty : text ≠ ""
  plain : text.toList.all isPlain = true

/-- A value as a filter writes it: a word, or any text without a quote between two quotes. -/
inductive Raw where
  | word (w : Word)
  | quoted (inner : String) (h : '\'' ∉ inner.toList)

def Raw.text : Raw → String
  | word w => w.text
  | quoted inner _ => String.ofList ('\'' :: inner.toList ++ ['\''])

/-- A comparison to be written. Its name has a field. -/
structure Clause (resolve : String → Option String) where
  name : Word
  field : String
  resolved : resolve name.text = some field
  op : CompareOp
  raw : Raw

/-- A tree to be written. A connective has at least two operands. -/
inductive Source (resolve : String → Option String) where
  | clause (l : Clause resolve)
  | node (c : Connective) (first second : Source resolve) (others : List (Source resolve))

variable {resolve : String → Option String}

def Clause.comparison (l : Clause resolve) : Comparison :=
  ⟨l.field, l.name.text, l.op, .ofToken l.raw.text⟩

namespace Source

mutual

def toExpr : Source resolve → Expr
  | clause l => .comparison l.comparison
  | node c first second others => c.combine (first.toExpr :: second.toExpr :: toExprs others)

def toExprs : List (Source resolve) → List Expr
  | [] => []
  | s :: ss => s.toExpr :: toExprs ss

end

/-- Operands of the connective need no parentheses there: at the top, and for a conjunction among the operands
of a disjunction. -/
inductive Bare : Option Connective → Connective → Prop
  | top (c : Connective) : Bare none c
  | conjunction : Bare (some .or) .and

mutual

/-- The texts write the tree as an operand of the connective `outer`, or as a whole filter. -/
inductive Prints : Option Connective → Source resolve → List String → Prop
  | clause {outer : Option Connective} (l : Clause resolve) :
      Prints outer (.clause l) [l.name.text, l.op.keyword, l.raw.text]
  | group {outer : Option Connective} {s : Source resolve} {texts : List String} (h : Prints none s texts) :
      Prints outer s ("(" :: texts ++ [")"])
  | node {outer : Option Connective} {c : Connective} {first second : Source resolve}
      {others : List (Source resolve)} {texts : List String} (hb : Bare outer c)
      (h : PrintsAll c (first :: second :: others) texts) : Prints outer (.node c first second others) texts

/-- The texts write the trees as the operands of the connective, with its word between each two. -/
inductive PrintsAll : Connective → List (Source resolve) → List String → Prop
  | one {c : Connective} {s : Source resolve} {texts : List String} (h : Prints (some c) s texts) :
      PrintsAll c [s] texts
  | cons {c : Connective} {s : Source resolve} {ss : List (Source resolve)} {texts after : List String}
      {word : String} (h : Prints (some c) s texts) (hw : c.Spells word) (hs : PrintsAll c ss after) :
      PrintsAll c (s :: ss) (texts ++ word :: after)

end

end Source

theorem Literal.ofToken_quoted (inner : String) (h : '\'' ∉ inner.toList) :
    ofToken (Raw.quoted inner h).text = .string inner := by
  simp [ofToken, unquote?, Raw.text]

/-! ## Every text is one token -/

theorem Token.whole_of_plain {text : String} (hne : text ≠ "") (h : text.toList.all isPlain = true) :
    Whole text :=
  .inr ⟨hne, solid_of_plain (List.all_eq_true.1 h)⟩

theorem Word.whole (w : Word) : Whole w.text := Token.whole_of_plain w.nonempty w.plain

theorem Word.ne_open (w : Word) : w.text ≠ "(" := by
  intro h
  have hp := w.plain
  rw [h] at hp
  revert hp
  decide

theorem Raw.whole : ∀ raw : Raw, Whole raw.text
  | word w => w.whole
  | quoted inner h => by
    refine .inr ⟨?_, ?_⟩
    · rw [Ne, ← String.toList_inj]
      simp [Raw.text]
    · rw [Raw.text, String.toList_ofList]
      exact Token.solid_quotation h

/-- Capitals are letters, and letters are plain. -/
theorem Token.isPlain_of_toLower {c : Char} (h : isPlain c.toLower = true) : isPlain c = true := by
  have hcapital : ∀ i : Fin 26, isPlain (Char.ofNat (65 + i)) = true := by decide
  unfold Char.toLower at h
  split at h
  · rename_i hc
    have h1 : 65 ≤ c.toNat := UInt32.le_iff_toNat_le.1 hc.1
    have h2 : c.toNat ≤ 90 := UInt32.le_iff_toNat_le.1 hc.2
    have h3 := hcapital ⟨c.toNat - 65, by omega⟩
    rwa [Nat.add_sub_cancel' h1, Char.ofNat_toNat] at h3
  · exact h

theorem Connective.Spells.whole {c : Connective} {text : String} (h : c.Spells text) : Whole text := by
  have hletters : c.keyword.toList.all isPlain = true := by cases c <;> decide
  refine Token.whole_of_plain ?_ (List.all_eq_true.2 fun d hd => ?_)
  · rintro rfl
    cases c <;> cases h
  · rw [← h] at hletters
    exact Token.isPlain_of_toLower (List.all_eq_true.1 hletters _ (List.mem_map_of_mem hd))

theorem CompareOp.whole_keyword (op : CompareOp) : Whole op.keyword := by
  cases op <;> exact Token.whole_of_plain (by decide) (by decide)

namespace Source

mutual

theorem whole_of_prints {outer : Option Connective} {s : Source resolve} {texts : List String} :
    Prints outer s texts → ∀ text ∈ texts, Whole text
  | .clause l, text, ht => by
    simp only [List.mem_cons, List.not_mem_nil, or_false] at ht
    rcases ht with rfl | rfl | rfl
    · exact l.name.whole
    · exact l.op.whole_keyword
    · exact l.raw.whole
  | .group h, text, ht => by
    simp only [List.cons_append, List.mem_cons, List.mem_append, List.not_mem_nil, or_false] at ht
    rcases ht with rfl | ht | rfl
    · exact .inl (.inl rfl)
    · exact whole_of_prints h text ht
    · exact .inl (.inr rfl)
  | .node _ h, text, ht => whole_of_printsAll h text ht

theorem whole_of_printsAll {c : Connective} {ss : List (Source resolve)} {texts : List String} :
    PrintsAll c ss texts → ∀ text ∈ texts, Whole text
  | .one h, text, ht => whole_of_prints h text ht
  | .cons h hw hs, text, ht => by
    rw [List.mem_append, List.mem_cons] at ht
    rcases ht with ht | rfl | ht
    · exact whole_of_prints h text ht
    · exact hw.whole
    · exact whole_of_printsAll hs text ht

end

end Source

/-! ## The texts derive the tree -/

namespace Grammar

/-- What a part is read as: an operand of what surrounds it, or a whole filter. -/
def Level.inside : Option Connective → Level
  | none => .chain .or
  | some c => c.operand

theorem Derives.single {c : Connective} {texts : List String} {e : Expr}
    (h : Derives resolve c.operand texts e) : Derives resolve (.chain c) texts e :=
  .chain (.one h)

theorem Derives.of_term {texts : List String} {e : Expr} (h : Derives resolve .term texts e) :
    ∀ outer, Derives resolve (.inside outer) texts e
  | none => Derives.single (c := .or) (Derives.single (c := .and) h)
  | some .or => Derives.single (c := .and) h
  | some .and => h

theorem Derives.of_chain {outer : Option Connective} {c : Connective} {texts : List String} {e : Expr}
    (hb : Source.Bare outer c) (h : Derives resolve (.chain c) texts e) :
    Derives resolve (.inside outer) texts e := by
  cases hb with
  | top =>
    cases c with
    | and => exact Derives.single (c := .or) h
    | or => exact h
  | conjunction => exact h

/-- The grammar adds operands at the end, a printing starts with the first one. -/
theorem Joined.cons {c : Connective} {texts after : List String} {word : String} {e : Expr} {es : List Expr}
    (h : Derives resolve c.operand texts e) (hw : c.Spells word) :
    Joined resolve c after es → Joined resolve c (texts ++ word :: after) (e :: es)
  | .one h' => .snoc (.one h) hw h'
  | .snoc hs hw' h' => by
    have hj := Joined.snoc (Joined.cons h hw hs) hw' h'
    simpa using hj

end Grammar

namespace Source

open Grammar (Level Derives Joined)

mutual

theorem derives_of_prints {outer : Option Connective} {s : Source resolve} {texts : List String} :
    Prints outer s texts → Derives resolve (.inside outer) texts s.toExpr
  | .clause l =>
    Derives.of_term (.comparison l.name.ne_open l.resolved (CompareOp.ofKeyword?_keyword l.op)) outer
  | .group h => Derives.of_term (.group (derives_of_prints h)) outer
  | .node hb h => Derives.of_chain hb (.chain (joined_of_printsAll h))

theorem joined_of_printsAll {c : Connective} {ss : List (Source resolve)} {texts : List String} :
    PrintsAll c ss texts → Joined resolve c texts (toExprs ss)
  | .one h => .one (derives_of_prints h)
  | .cons h hw hs => .cons (derives_of_prints h) hw (joined_of_printsAll hs)

end

/-- **Reading undoes writing**: however a tree is printed and laid out, the reader returns it, and what is
quoted in the filter is text in the tree. -/
theorem parse_printed {resolver : Resolver} {scope input : String} {s : Source (resolver scope)}
    {texts : List String} (hp : Prints none s texts) (hl : Laid false texts input.toList) (mode : ParseMode) :
    Expr.parse mode resolver scope input = .ok s.toExpr ∧
      ∀ (inner : String) (h : '\'' ∉ inner.toList),
        Literal.ofToken (Raw.quoted inner h).text = .string inner := by
  refine ⟨Expr.parse_of_derives ?_ mode, Literal.ofToken_quoted⟩
  rw [Token.map_text_tokenize_of_laid hl (whole_of_prints hp)]
  exact derives_of_prints hp

/-- Names and values may be words of the grammar, and a parenthesis separates as well as a space does. -/
theorem parse_printed_nested :
    Expr.parse .strict (fun _ name => some name) "log" "and eq 'a (b' aNd((x ne 1)OR y lt or )" =
      .ok (.and [.comparison ⟨"and", "and", .eq, .string "a (b"⟩,
        .or [.comparison ⟨"x", "x", .ne, .ofToken "1"⟩,
          .comparison ⟨"y", "y", .lt, .ofToken "or"⟩]]) := by
  let resolve : String → Option String := fun name => some name
  let first : Clause resolve :=
    ⟨⟨"and", by decide, by decide⟩, "and", rfl, .eq, .quoted "a (b" (by decide)⟩
  let second : Clause resolve :=
    ⟨⟨"x", by decide, by decide⟩, "x", rfl, .ne, .word ⟨"1", by decide, by decide⟩⟩
  let third : Clause resolve :=
    ⟨⟨"y", by decide, by decide⟩, "y", rfl, .lt, .word ⟨"or", by decide, by decide⟩⟩
  have hinner : Prints none (.node .or (.clause second) (.clause third) [])
      ["(", "x", "ne", "1", ")", "OR", "y", "lt", "or"] :=
    .node (.top .or) (.cons (.group (.clause second)) rfl (.one (.clause third)))
  have hp : Prints none (.node .and (.clause first) (.node .or (.clause second) (.clause third) []) [])
      ["and", "eq", "'a (b'", "aNd", "(", "(", "x", "ne", "1", ")", "OR", "y", "lt", "or", ")"] :=
    .node (.top .and) (.cons (.clause first) rfl (.one (.group hinner)))
  have h0 : Gap [] := by simp [Gap]
  have h1 : Gap [' '] := by simp [Gap]; decide
  have hl : Laid false
      ["and", "eq", "'a (b'", "aNd", "(", "(", "x", "ne", "1", ")", "OR", "y", "lt", "or", ")"] _ :=
    .cons h0 (by simp) <| .cons h1 (by simp) <| .cons h1 (by simp) <| .cons h1 (by simp) <|
    .cons h0 (by decide) <| .cons h0 (by decide) <| .cons h0 (by decide) <| .cons h1 (by simp) <|
    .cons h1 (by simp) <| .cons h0 (by decide) <| .cons h0 (by decide) <| .cons h1 (by simp) <|
    .cons h1 (by simp) <| .cons h1 (by simp) <| .cons h1 (by simp) <| .nil h0
  obtain ⟨h, hq⟩ := @parse_printed (fun _ => resolve) "log"
    "and eq 'a (b' aNd((x ne 1)OR y lt or )" _ _ hp hl .strict
  rw [h, ← hq "a (b" (by decide)]
  rfl

end Source

end FilterQuery
