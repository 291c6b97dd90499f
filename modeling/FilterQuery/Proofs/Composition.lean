import FilterQuery.Proofs.Cutting
import FilterQuery.Proofs.Positions
import FilterQuery.Proofs.Printing

/-!
# Filters made of filters

Filters in parentheses can be joined by the word of a connective. Each of them is then read to its own tree, whatever
it contains, and the whole is read to the conjunction or disjunction of these trees (`parse_compose`).

The texts of the whole are those of its parts. Where one text leaves no quotation open and none of its words goes on
into the next text, the tokens of both are those of either (`tokenize_append`): there is one way to cut them, and the
scanner goes over the second text as it would without the first, only at another place (`scan_move`). For the reader
nothing is left to show, since a derivation goes into another one as it is.
-/

namespace FilterQuery

namespace Token

open String (utf8Len)

/-! ## One text behind another -/

theorem ofWord_move (f : Nat → Nat) (word : List Char) (start : Nat) :
    ofWord word (f start) = (ofWord word start).map (move f) := by
  unfold ofWord
  split <;> rfl

/-- The same characters at another place are the same tokens there. -/
theorem scan_move (d : Nat) : ∀ (cs : List Char) (quoted : Bool) (pos : Nat) (word : List Char) (start : Nat),
    scan quoted (pos + d) word (start + d) cs = (scan quoted pos word start cs).map (move (· + d))
  | [], _, _, word, start => ofWord_move (· + d) word start
  | c :: cs, quoted, pos, word, start => by
    have hnext : pos + d + c.utf8Size = pos + c.utf8Size + d := Nat.add_right_comm ..
    simp only [scan]
    generalize (if c = '\'' then !quoted else quoted) = quoted
    split
    · rw [hnext, scan_move d cs, ofWord_move (· + d), List.map_append]
    · split
      · rw [hnext, scan_move d cs, ofWord_move (· + d), List.map_append, List.map_cons]
        rfl
      · rw [hnext, scan_move d cs]

theorem flag_eq_false_iff (cs : List Char) : flag cs = false ↔ cs.count '\'' % 2 = 0 := by
  simp [flag]

/-- Characters behind closed quotations are quoted as they would be by themselves. -/
theorem flag_append {l r : List Char} (hl : flag l = false) : flag (l ++ r) = flag r := by
  rw [flag_eq_false_iff] at hl
  simp [flag, Nat.add_mod, hl]

/-- Outside quotations a word ends before a separator and before a mark. -/
theorem breaks_of_bounded {l r : List Char} (hq : flag l = false) (hr : Bounded r) : Breaks [] l r := by
  rintro l' c d r' rfl rfl
  have hd := hr d rfl
  have hne : d ≠ '\'' := hd.elim ne_quote_of_isSeparator ne_quote_of_isPunctuation
  have hquoted : ¬ Quoted ([] ++ l' ++ [c]) d := by
    rw [quoted_iff_flag, flag_append_singleton, if_neg hne]
    simpa using hq
  exact .inr (hd.imp (⟨·, hquoted⟩) (⟨·, hquoted⟩))

/-- Outside quotations no word goes on behind a separator or a mark. -/
theorem breaks_behind {l r : List Char} {c : Char} (hq : flag (l ++ [c]) = false)
    (hc : isSeparator c = true ∨ isPunctuation c = true) : Breaks [] (l ++ [c]) r := by
  intro l' c' d r' hl _
  obtain ⟨rfl, hlast⟩ := List.append_inj' hl rfl
  obtain rfl := List.singleton_inj.1 hlast
  have hquoted : ¬ Quoted ([] ++ l) c := by
    rw [quoted_iff_flag]
    simpa using hq
  exact .inl (hc.imp (⟨·, hquoted⟩) (⟨·, hquoted⟩))

end Token

open Token (flag Breaks Bounded)

/-- Where a quotation does not go on and no word does, the tokens of two texts are those of the one and of the other,
which stand further on by the length of the first. -/
theorem tokenize_append {s t : String} (hq : flag s.toList = false) (hb : Breaks [] s.toList t.toList) :
    tokenize (s ++ t) = tokenize s ++ (tokenize t).map (Token.move (· + s.utf8ByteSize)) := by
  have hbehind : Token.Cut s.toList t.toList ((tokenize t).map (Token.move (· + s.utf8ByteSize))) := by
    have hscan := Token.cut_scan t.toList s.toList [] (by simp [Token.Going])
    have hmove := Token.scan_move s.utf8ByteSize t.toList false 0 [] 0
    rw [List.append_nil, hq, String.utf8Len_toList] at hscan
    rw [Nat.zero_add] at hmove
    rwa [tokenize, ← hmove]
  have hcut := (Token.cut_tokenize s).append hbehind hb
  rw [← String.toList_append] at hcut
  exact ((Token.cut_iff _ _).1 hcut).symm

theorem map_text_tokenize_append {s t : String} (hq : flag s.toList = false) (hb : Breaks [] s.toList t.toList) :
    (tokenize (s ++ t)).map Token.text = (tokenize s).map Token.text ++ (tokenize t).map Token.text := by
  simp [tokenize_append hq hb, Function.comp_def]

/-! ## Filters in parentheses -/

def group (filter : String) : String := "(" ++ filter ++ ")"

theorem flag_group {filter : String} (hq : flag filter.toList = false) : flag (group filter).toList = false := by
  rw [group, String.toList_append, String.toList_append, List.append_assoc, Token.flag_append rfl, Token.flag_append hq]
  rfl

theorem map_text_tokenize_group {filter : String} (hq : flag filter.toList = false) :
    (tokenize (group filter)).map Token.text = "(" :: (tokenize filter).map Token.text ++ [")"] := by
  have hopen : Breaks [] "(".toList filter.toList := Token.breaks_behind (l := []) rfl (.inr rfl)
  have hopened : flag ("(" ++ filter).toList = false := by
    rw [String.toList_append, Token.flag_append rfl, hq]
  have hclose : Bounded ")".toList := by
    rintro c ⟨⟩
    exact .inr rfl
  rw [group, map_text_tokenize_append hopened (Token.breaks_of_bounded hopened hclose),
    map_text_tokenize_append rfl hopen]
  rfl

namespace Connective

/-- The word of the connective with a space on either side. -/
def spaced (c : Connective) : String := " " ++ c.keyword ++ " "

/-- The filters in parentheses, with the word of the connective between each two. -/
def compose (c : Connective) (filters : List String) : String :=
  String.intercalate c.spaced (filters.map group)

theorem map_text_tokenize_compose_cons (c : Connective) {filter : String} (hq : flag filter.toList = false)
    (next : String) (filters : List String) :
    (tokenize (c.compose (filter :: next :: filters))).map Token.text =
      (tokenize (group filter)).map Token.text ++
        c.keyword :: (tokenize (c.compose (next :: filters))).map Token.text := by
  have hgroup := flag_group hq
  have hword : (tokenize c.spaced).map Token.text = [c.keyword] := by cases c <;> decide
  have hquotes : flag c.spaced.toList = false := by cases c <;> rfl
  have hbefore : Bounded c.spaced.toList := by
    rw [spaced, String.toList_append, String.toList_append]
    rintro d ⟨⟩
    exact .inl (by decide)
  have hbehind : (group filter ++ c.spaced).toList = (group filter ++ (" " ++ c.keyword)).toList ++ [' '] := by
    simp [spaced]
  have hboth : flag (group filter ++ c.spaced).toList = false := by
    rw [String.toList_append, Token.flag_append hgroup, hquotes]
  have hbreak (r : List Char) : Breaks [] (group filter ++ c.spaced).toList r := by
    rw [hbehind] at hboth ⊢
    exact Token.breaks_behind hboth (.inl (by decide))
  rw [compose, List.map_cons, List.map_cons, String.intercalate_cons_cons, ← List.map_cons,
    map_text_tokenize_append hboth (hbreak _),
    map_text_tokenize_append hgroup (Token.breaks_of_bounded hgroup hbefore), hword, List.append_assoc]
  rfl

variable {resolve : String → Option String}

open Grammar (Derives Joined)

/-- Each of the filters is accepted with its tree and leaves no quotation open. -/
theorem joined_compose (c : Connective) {filters : List String} {es : List Expr} (hne : filters ≠ [])
    (h : List.Forall₂ (fun filter e =>
      Derives resolve (.chain .or) ((tokenize filter).map Token.text) e ∧ flag filter.toList = false) filters es) :
    Joined resolve c ((tokenize (c.compose filters)).map Token.text) es := by
  induction h with
  | nil => exact absurd rfl hne
  | @cons filter e filters es hfilter h ih =>
    obtain ⟨hd, hq⟩ := hfilter
    have hterm : Derives resolve c.operand ((tokenize (group filter)).map Token.text) e := by
      rw [map_text_tokenize_group hq]
      exact Derives.of_term (.group hd) (some c)
    cases h with
    | nil => exact .one (by simpa [compose] using hterm)
    | cons _ _ =>
      rw [map_text_tokenize_compose_cons c hq]
      have hspells : c.Spells c.keyword := by cases c <;> rfl
      exact .cons hterm hspells (ih (by simp))

end Connective

/-- **Filters compose.** Filters that are accepted and leave no quotation open can be put in parentheses and joined by
the word of a connective. The result is accepted too. Its tree joins theirs as they are; of a single filter it is the
filter's own. -/
theorem Expr.parse_compose {resolver : Resolver} {scope : String} (c : Connective) {filters : List String}
    {es : List Expr} (hne : filters ≠ [])
    (h : List.Forall₂ (fun filter e =>
      parse .strict resolver scope filter = .ok e ∧ filter.toList.count '\'' % 2 = 0) filters es) (mode : ParseMode) :
    parse mode resolver scope (c.compose filters) = .ok (c.join es) := by
  have hderives : List.Forall₂ (fun filter e =>
      Grammar.Derives (resolver scope) (.chain .or) ((tokenize filter).map Token.text) e ∧
        flag filter.toList = false) filters es :=
    h.imp fun _ _ hfilter => ⟨derives_of_parse hfilter.1, (Token.flag_eq_false_iff _).2 hfilter.2⟩
  have hjoined := c.joined_compose hne hderives
  exact parse_of_derives (Grammar.Derives.of_chain (.top c) (.chain hjoined)) mode

/-- The values of the parts are parentheses, a word of the grammar and a quotation with a parenthesis in it. -/
theorem Expr.parse_compose_and :
    Connective.and.compose ["a eq )", "or ne ( OR (b lt and)", "c gt 'it''s (' "] =
        "(a eq )) and (or ne ( OR (b lt and)) and (c gt 'it''s (' )" ∧
      parse .strict (fun _ name => some name) "log" "(a eq )) and (or ne ( OR (b lt and)) and (c gt 'it''s (' )" =
        .ok (.and [.comparison ⟨"a", "a", .eq, .string ")"⟩,
          .or [.comparison ⟨"or", "or", .ne, .string "("⟩, .comparison ⟨"b", "b", .lt, .string "and"⟩],
          .comparison ⟨"c", "c", .gt, .string "it''s ("⟩]) := by
  have hfirst : parse .strict (fun _ name => some name) "log" "a eq )" =
      .ok (.comparison ⟨"a", "a", .eq, .ofToken ")"⟩) :=
    parse_comparison (by decide) (by decide) rfl .strict
  have hsecond : parse .strict (fun _ name => some name) "log" "or ne ( OR (b lt and)" =
      .ok (.or [.comparison ⟨"or", "or", .ne, .string "("⟩, .comparison ⟨"b", "b", .lt, .string "and"⟩]) := by
    have ht : (tokenize "or ne ( OR (b lt and)").map Token.text =
        ["or", "ne", "("] ++ "OR" :: ("(" :: ["b", "lt", "and"] ++ [")"]) := by decide
    have hleft : Grammar.Derives some .term ["or", "ne", "("] (.comparison ⟨"or", "or", .ne, .string "("⟩) :=
      .comparison (by decide) rfl rfl
    have hright : Grammar.Derives some (.chain .or) ["b", "lt", "and"] (.comparison ⟨"b", "b", .lt, .string "and"⟩) :=
      Reading.derives_comparison (by decide) rfl rfl "and"
    have hword : Connective.or.Spells "OR" := rfl
    have hjoined := Grammar.Joined.snoc (.one (.single hleft)) hword (.single (.group hright))
    refine parse_of_derives ?_ .strict
    rw [ht]
    exact .chain hjoined
  have hthird : parse .strict (fun _ name => some name) "log" "c gt 'it''s (' " =
      .ok (.comparison ⟨"c", "c", .gt, .ofToken "'it''s ('"⟩) :=
    parse_comparison (by decide) (by decide) rfl .strict
  refine ⟨by decide, ?_⟩
  exact parse_compose .and (by simp)
    (.cons ⟨hfirst, by decide⟩ (.cons ⟨hsecond, by decide⟩ (.cons ⟨hthird, by decide⟩ .nil))) .strict

/-- A quotation that is left open takes the parenthesis behind the filter, and the rest with it. -/
example : (tokenize (Connective.or.compose ["a eq 'x", "b eq y"])).map Token.text =
    ["(", "a", "eq", "'x) or (b eq y)"] := by decide

end FilterQuery
