import FilterQuery.Proofs.Cutting
import FilterQuery.Proofs.Lenient
import FilterQuery.Proofs.WellFormed

/-!
# What an error points at

Every error of the reader points at what it talks about (`parse_error_pointsInto`): a token of the filter, the end of
it, or for a group that is left open its parenthesis and the place where the other one is missing. The first part is an
induction over a failing run, whose errors name tokens of what it was given (`Run.names`).

The parenthesis that an unclosed group names is the only one with a complete expression between it and the place where
the reading stopped. So it is the innermost group that is left open: none outside of it and none that is closed encloses
one. Parentheses cannot be counted to see this, because a value may be one. So the texts are gone over with the rules of
the grammar: in some number of open groups, an operand is due or has just ended (`Completes`). Of two expressions that
end together, the inner one would need another number of open groups than the outer one has there
(`Completes.depth_eq`), unless the parenthesis before it is a value of the outer one. Then each of the two takes for a
name what is a word of the grammar to the other, and this goes on until one of them is out of texts
(`Completes.not_due`).
-/

namespace FilterQuery

/-- The tokens that begin behind `lo` and before `hi`. -/
def Token.between (lo hi : Nat) (ts : List Token) : List Token :=
  ts.filter fun t => lo < t.offset && t.offset < hi

namespace ParseError

/-- The text is a token of the filter, and the bytes from the position on begin with it. -/
structure AtToken (input token : String) (position : Nat) : Prop where
  mem : ⟨token, position⟩ ∈ tokenize input
  bytes : ∃ before after : String, input = before ++ token ++ after ∧ before.utf8ByteSize = position

/-- A parenthesis with exactly one complete expression between it and the position. -/
structure Encloses (resolve : String → Option String) (input : String) (opened position : Nat) : Prop where
  opens : ⟨"(", opened⟩ ∈ tokenize input
  complete : ∃ e, Grammar.Derives resolve (.chain .or)
    ((Token.between opened position (tokenize input)).map Token.text) e

/-- The group is left open at the position. Of all the parentheses only this one encloses what is before it. -/
structure LeftOpen (resolve : String → Option String) (input : String) (opened position : Nat) : Prop where
  before : opened < position
  next : position = input.utf8ByteSize ∨ ∃ t ∈ tokenize input, t.offset = position ∧ t.is ")" = false ∧
    ∀ c : Connective, t.is c.keyword = false
  encloses : Encloses resolve input opened position
  only : ∀ other, Encloses resolve input other position → other = opened

/-- What the error says about the filter is so. -/
def PointsInto (resolve : String → Option String) (input : String) : ParseError → Prop
  | unexpectedEnd _ position => position = input.utf8ByteSize
  | unsupportedOperator operator position => AtToken input operator position
  | unclosedGroup opened position => LeftOpen resolve input opened position
  | trailingToken token position => AtToken input token position
  | unresolvedField field position => AtToken input field position

end ParseError

/-! ## Groups that texts leave open -/

namespace Grammar

/-- What may come next in a filter: an operand, or what can follow one. -/
inductive Turn where
  | due
  | ended

/-- From this turn on, with this many groups open, the texts bring a filter to its end. -/
inductive Completes : Turn → Nat → List String → Prop
  | opened {depth : Nat} {mark : String} {texts : List String} (hp : mark = "(")
      (h : Completes .due (depth + 1) texts) : Completes .due depth (mark :: texts)
  | clause {depth : Nat} {name operator value : String} {texts : List String} {op : CompareOp} (hp : name ≠ "(")
      (ho : CompareOp.ofKeyword? operator = some op) (h : Completes .ended depth texts) :
      Completes .due depth (name :: operator :: value :: texts)
  | closed {depth : Nat} {mark : String} {texts : List String} (hc : mark = ")") (h : Completes .ended depth texts) :
      Completes .ended (depth + 1) (mark :: texts)
  | word {depth : Nat} {c : Connective} {word : String} {texts : List String} (hw : c.Spells word)
      (h : Completes .due depth texts) : Completes .ended depth (word :: texts)
  | done : Completes .ended 0 []

theorem ofKeyword?_open : CompareOp.ofKeyword? "(" = none := rfl

theorem ofKeyword?_close : CompareOp.ofKeyword? ")" = none := rfl

theorem not_spells_open (c : Connective) : ¬ c.Spells "(" := by
  cases c <;> simp [Connective.Spells, Connective.keyword]

theorem not_spells_close (c : Connective) : ¬ c.Spells ")" := by
  cases c <;> simp [Connective.Spells, Connective.keyword]

theorem not_spells_operator {c : Connective} {operator : String} {op : CompareOp}
    (ho : CompareOp.ofKeyword? operator = some op) : ¬ c.Spells operator := by
  rw [CompareOp.ofKeyword?_eq_some_iff.1 ho]
  cases c <;> cases op <;> simp [Connective.Spells, Connective.keyword, CompareOp.keyword]

variable {resolve : String → Option String}

mutual

theorem completes_of_derives {l : Level} {texts : List String} {e : Expr} : Derives resolve l texts e →
    ∀ {depth : Nat} {rest : List String}, Completes .ended depth rest → Completes .due depth (texts ++ rest)
  | .comparison hp _ ho, _, _, hr => .clause hp ho hr
  | .group h, _, _, hr => by
    have hinner := completes_of_derives h (.closed rfl hr)
    simpa using Completes.opened rfl hinner
  | .chain h, _, _, hr => completes_of_joined h hr

theorem completes_of_joined {c : Connective} {texts : List String} {es : List Expr} : Joined resolve c texts es →
    ∀ {depth : Nat} {rest : List String}, Completes .ended depth rest → Completes .due depth (texts ++ rest)
  | .one h, _, _, hr => completes_of_derives h hr
  | .snoc hs hw h, _, _, hr => by
    rw [List.append_assoc]
    exact completes_of_joined hs (.word hw (completes_of_derives h hr))

end

theorem Derives.completes {texts : List String} {e : Expr} (h : Derives resolve (.chain .or) texts e) :
    Completes .due 0 texts := by
  simpa using completes_of_derives h .done

/-- Each text tells which rule it is read by, so the groups that are open are those that the texts close. -/
theorem Completes.depth_eq {turn : Turn} {m n : Nat} {texts : List String} (h : Completes turn m texts)
    (h' : Completes turn n texts) : m = n := by
  induction h generalizing n with
  | opened hp _ ih =>
    cases h' with
    | opened _ h' => exact Nat.succ.inj (ih h')
    | clause hp' _ _ => exact absurd hp hp'
  | clause hp _ _ ih =>
    cases h' with
    | opened hp' _ => exact absurd hp' hp
    | clause _ _ h' => exact ih h'
  | closed hc _ ih =>
    cases h' with
    | closed _ h' => rw [ih h']
    | word hw _ => exact absurd (hc ▸ hw) (not_spells_close _)
  | word hw _ ih =>
    cases h' with
    | closed hc _ => exact absurd (hc ▸ hw) (not_spells_close _)
    | word _ h' => exact ih h'
  | done =>
    cases h'
    rfl

/-- Texts that follow an operand are not a whole filter. Their first one would be a name, the next one the operator
behind it, and a name again to the operand that the first one calls for; and so on with what follows these. -/
theorem Completes.not_due {m : Nat} {texts : List String} : Completes .ended m texts → ¬ Completes .due 0 texts
  | .closed hc _, .opened hp _ => by simp [hc] at hp
  | .closed _ (.closed hc _), .clause _ ho _ => by simp [hc, ofKeyword?_close] at ho
  | .closed _ (.word hw _), .clause _ ho _ => not_spells_operator ho hw
  | .word hw _, .opened hp _ => not_spells_open _ (hp ▸ hw)
  | .word _ (.opened hp _), .clause _ ho _ => by simp [hp, ofKeyword?_open] at ho
  | .word _ (.clause _ _ h), .clause _ _ (.word _ h') => h.not_due h'

/-- What is behind a parenthesis is in its group, or it follows the operand that has the parenthesis for a value. -/
theorem Completes.behind_open {turn : Turn} {m : Nat} {before texts : List String}
    (h : Completes turn m (before ++ "(" :: texts)) :
    ∃ depth, Completes .due (depth + 1) texts ∨ Completes .ended depth texts := by
  generalize hall : before ++ "(" :: texts = all at h
  induction h generalizing before with
  | @opened depth mark rest hp h ih =>
    cases before with
    | nil =>
      obtain ⟨-, rfl⟩ := List.cons.inj hall
      exact ⟨depth, .inl h⟩
    | cons _ before => exact ih (List.cons.inj hall).2
  | @clause depth name operator value rest op hp ho h ih =>
    match before with
    | [] => exact absurd (List.cons.inj hall).1.symm hp
    | [_] =>
      obtain ⟨-, rfl, -⟩ : _ ∧ "(" = operator ∧ _ := by simpa using hall
      simp [ofKeyword?_open] at ho
    | [_, _] =>
      obtain ⟨-, -, -, rfl⟩ : _ ∧ _ ∧ _ ∧ texts = rest := by simpa using hall
      exact ⟨depth, .inr h⟩
    | _ :: _ :: _ :: before =>
      simp only [List.cons_append, List.cons.injEq] at hall
      exact ih hall.2.2.2
  | closed hc _ ih =>
    cases before with
    | nil => simp [hc] at hall
    | cons _ before => exact ih (List.cons.inj hall).2
  | word hw _ ih =>
    cases before with
    | nil =>
      obtain ⟨rfl, -⟩ := List.cons.inj hall
      exact absurd hw (not_spells_open _)
    | cons _ before => exact ih (List.cons.inj hall).2
  | done => simp at hall

/-- No expression ends with a parenthesis and an expression behind it. -/
theorem Derives.not_derives_behind_open {before texts : List String} {e e' : Expr}
    (h : Derives resolve (.chain .or) (before ++ "(" :: texts) e) :
    ¬ Derives resolve (.chain .or) texts e' := by
  intro h'
  obtain ⟨depth, hdue | hended⟩ := h.completes.behind_open
  · exact absurd (hdue.depth_eq h'.completes) (Nat.succ_ne_zero depth)
  · exact hended.not_due h'.completes

end Grammar

/-! ## Tokens between two places -/

namespace Token

theorem between_behind {lo : Nat} {ts : List Token} (h : ∀ t ∈ ts, lo < t.offset) (hi : Nat) :
    between lo hi ts = ts.filter fun t => t.offset < hi := by
  refine List.filter_congr fun t ht => ?_
  simp [h t ht]

section Ascending

variable {before after : List Token} {t : Token}
  (h : (before ++ t :: after).Pairwise fun t u => t.offset < u.offset)

include h

/-- From a token on, the tokens between two places are those behind it. -/
theorem between_offset (hi : Nat) :
    between t.offset hi (before ++ t :: after) = after.filter fun u => u.offset < hi := by
  rw [List.pairwise_append, List.pairwise_cons] at h
  obtain ⟨-, ⟨hafter, -⟩, hbefore⟩ := h
  have hnone : before.filter (fun u => t.offset < u.offset && u.offset < hi) = [] := by
    refine List.filter_eq_nil_iff.2 fun u hu => ?_
    have hlt := hbefore u hu t List.mem_cons_self
    simp only [Bool.and_eq_true, decide_eq_true_eq]
    omega
  rw [between, List.filter_append, hnone, List.nil_append, List.filter_cons_of_neg (by simp)]
  exact between_behind hafter hi

/-- The tokens between two places go on from one of them as the tokens between it and the second place. -/
theorem between_split {lo hi : Nat} (hlo : lo < t.offset) (hhi : t.offset < hi) :
    between lo hi (before ++ t :: after) =
      between lo hi before ++ t :: between t.offset hi (before ++ t :: after) := by
  rw [between_offset h, between, List.filter_append, List.filter_cons_of_pos (by simp [hlo, hhi])]
  rw [List.pairwise_append, List.pairwise_cons] at h
  have hafter := between_behind (fun u hu => Nat.lt_trans hlo (h.2.1.1 u hu)) hi
  rw [← hafter]
  rfl

end Ascending

end Token

/-- Two parentheses do not enclose expressions up to the same position. -/
theorem ParseError.Encloses.le {resolve : String → Option String} {input : String} {opened other position : Nat}
    (h : Encloses resolve input opened position) (h' : Encloses resolve input other position) : other ≤ opened := by
  by_contra hlt
  obtain ⟨e, he⟩ := h.complete
  obtain ⟨e', he'⟩ := h'.complete
  have hne : Token.between other position (tokenize input) ≠ [] := by
    intro hnil
    rw [hnil] at he'
    cases he'.completes
  obtain ⟨t, ht⟩ := List.exists_mem_of_ne_nil _ hne
  have hposition : other < position := by
    have hbetween := (List.mem_filter.1 ht).2
    simp only [Bool.and_eq_true, decide_eq_true_eq] at hbetween
    omega
  have hpairwise := (Token.ascending_tokenize input).pairwise
  obtain ⟨before, after, hinput⟩ := List.append_of_mem h'.opens
  rw [hinput] at hpairwise he he'
  rw [Token.between_split hpairwise (Nat.lt_of_not_le hlt) hposition, List.map_append, List.map_cons] at he
  exact he.not_derives_behind_open he'

/-! ## Errors of a run -/

namespace Expr.Reading

open Grammar (Derives)

variable {r : Reading}

/-- The error names tokens of those that were given. -/
def Names (r : Reading) (ts : List Token) : ParseError → Prop
  | .unexpectedEnd _ position => position = r.inputEnd
  | .unsupportedOperator token position | .trailingToken token position | .unresolvedField token position =>
    ⟨token, position⟩ ∈ ts
  | .unclosedGroup opened position =>
    ∃ before t read us e, ts = before ++ t :: (read ++ us) ∧ t.is "(" = true ∧ t.offset = opened ∧
      r.position us = position ∧ Stuck us ∧ Derives r.resolve (.chain .or) (read.map Token.text) e

theorem Names.append_left {us : List Token} {err : ParseError} (h : Names r us err) (ts : List Token) :
    Names r (ts ++ us) err := by
  cases err with
  | unexpectedEnd expected position => exact h
  | unsupportedOperator token position | trailingToken token position | unresolvedField token position =>
    exact List.mem_append_right ts h
  | unclosedGroup opened position =>
    obtain ⟨before, t, read, rest, e, rfl, hgroup⟩ := h
    exact ⟨ts ++ before, t, read, rest, e, by simp, hgroup⟩

theorem Leaf.names {ts : List Token} {err : ParseError} (h : Leaf r ts (.error err)) : Names r ts err := by
  cases h with
  | noName | noOperator _ | noValue _ _ => rfl
  | unresolved _ | badOperator _ _ => simp [Names]

theorem Run.names {p : Phase} {ts : List Token} {err : ParseError} (h : Run r p ts (.error err)) :
    Names r ts err := by
  generalize ho : Except.error err = o at h
  induction h with
  | leaf _ h =>
    subst ho
    exact h.names
  | closed | tolerated | stop => cases ho
  | @groupError t _ _ _ _ ih => exact (ih ho).append_left [t]
  | headError _ ih => exact ih ho
  | @stepError _ _ t _ _ _ _ ih => exact (ih ho).append_left [t]
  | @unclosed t ts us e hp h hs hm _ =>
    -- what the group holds is complete, and what follows neither closes it nor goes on with it
    cases ho
    obtain ⟨read, rfl, hd⟩ := h.covers hm
    exact ⟨[], t, read, us, e, rfl, hp, rfl, rfl, ⟨hs, h.leaves⟩, hd⟩
  | head h _ _ ihl =>
    obtain ⟨first, rfl, -⟩ := h.inOrder
    exact (ihl ho).append_left first
  | @step _ _ t _ _ _ _ _ h _ _ ihl =>
    obtain ⟨operand, rfl, -⟩ := h.inOrder
    exact (ihl ho).append_left (t :: operand)

theorem names_of_filter {ts : List Token} {err : ParseError} (h : r.filter ts = .error err) : Names r ts err := by
  rcases filter_eq_error_iff.1 h with hr | ⟨e, t, us, hr, -, rfl⟩
  · exact hr.names
  · obtain ⟨read, rfl, -⟩ := hr.inOrder
    simp [Names]

/-- Between a token that was read and the place where the reading stopped are the tokens that were read after it. -/
theorem between_position {lo : Nat} {before read us : List Token} {t : Token}
    (h : Token.Ascending lo r.inputEnd ((before ++ t :: read) ++ us)) :
    Token.between t.offset (r.position us) (before ++ t :: (read ++ us)) = read := by
  have hread := offset_lt_position h
  have hleft := position_le_offset h
  have hkept : read.filter (fun u => u.offset < r.position us) = read :=
    List.filter_eq_self.2 fun u hu => by simpa using hread u (by simp [hu])
  have hdropped : us.filter (fun u => u.offset < r.position us) = [] :=
    List.filter_eq_nil_iff.2 fun u hu => by simpa using hleft u hu
  have hpairwise := h.pairwise
  rw [List.append_assoc, List.cons_append] at hpairwise
  rw [Token.between_offset hpairwise, List.filter_append, hkept, hdropped, List.append_nil]

end Expr.Reading

/-! ## Errors of a filter -/

namespace ParseError

theorem atToken_of_mem {input token : String} {position : Nat} (h : ⟨token, position⟩ ∈ tokenize input) :
    AtToken input token position := by
  obtain ⟨-, l, r, hinput, hoffset⟩ := (Token.cut_tokenize input).slice _ h
  refine ⟨h, String.ofList l, String.ofList r, String.toList_inj.1 (by simpa using hinput), ?_⟩
  rw [← String.utf8Len_toList, String.toList_ofList]
  exact hoffset.symm

theorem leftOpen_of_names {mode : ParseMode} {resolve : String → Option String} {input : String}
    {opened position : Nat}
    (h : Expr.Reading.Names ⟨resolve, mode, input.utf8ByteSize⟩ (tokenize input) (.unclosedGroup opened position)) :
    LeftOpen resolve input opened position := by
  obtain ⟨before, t, read, us, e, hts, hopen, rfl, rfl, hstuck, he⟩ := h
  let r : Expr.Reading := ⟨resolve, mode, input.utf8ByteSize⟩
  have hascending : Token.Ascending 0 r.inputEnd ((before ++ t :: read) ++ us) := by
    simpa [hts] using Token.ascending_tokenize input
  have hbetween : Token.between t.offset (r.position us) (tokenize input) = read := by
    rw [hts]
    exact Expr.Reading.between_position hascending
  have hencloses : Encloses resolve input t.offset (r.position us) := by
    refine ⟨?_, e, by rwa [hbetween]⟩
    rw [← (Token.is_open_iff t).1 hopen, hts]
    simp
  refine ⟨Expr.Reading.offset_lt_position hascending t (by simp), ?_, hencloses, fun other hother => ?_⟩
  · cases us with
    | nil => exact .inl rfl
    | cons u us =>
      refine .inr ⟨u, by simp [hts], rfl, ?_, fun c => ?_⟩
      · simpa using hstuck.1
      · simpa using hstuck.stops c
  · exact Nat.le_antisymm (hencloses.le hother) (hother.le hencloses)

end ParseError

/-- **Every error points at what it talks about**: an operator, a name or a token that is too much at itself, a filter
that ends too early at its end, and a group that is left open at its parenthesis and at the place where the other one is
missing, with a complete expression between the two. -/
theorem parse_error_pointsInto {mode : ParseMode} {resolver : Resolver} {scope input : String} {err : ParseError}
    (h : Expr.parse mode resolver scope input = .error err) : err.PointsInto (resolver scope) input := by
  have hnames := Expr.Reading.names_of_filter h
  cases err with
  | unexpectedEnd expected position => exact hnames
  | unsupportedOperator token position | trailingToken token position | unresolvedField token position =>
    exact ParseError.atToken_of_mem hnames
  | unclosedGroup opened position => exact ParseError.leftOpen_of_names hnames

/-- The parenthesis behind `ne` and the one behind `gt` are values, and the group of `c` is closed. -/
theorem parse_error_pointsInto_unclosed :
    Expr.parse .strict (fun _ name => if name = "ü" then none else some name) "log"
        "naïve eq '(é' or (b ne ( and (c lt or) and d gt ) ü" = .error (.unclosedGroup 19 52) ∧
      ParseError.LeftOpen (fun name => if name = "ü" then none else some name)
        "naïve eq '(é' or (b ne ( and (c lt or) and d gt ) ü" 19 52 := by
  have ht : tokenize "naïve eq '(é' or (b ne ( and (c lt or) and d gt ) ü" =
      [⟨"naïve", 0⟩, ⟨"eq", 7⟩, ⟨"'(é'", 10⟩, ⟨"or", 16⟩, ⟨"(", 19⟩, ⟨"b", 20⟩, ⟨"ne", 22⟩, ⟨"(", 25⟩, ⟨"and", 27⟩,
        ⟨"(", 31⟩, ⟨"c", 32⟩, ⟨"lt", 34⟩, ⟨"or", 37⟩, ⟨")", 39⟩, ⟨"and", 41⟩, ⟨"d", 45⟩, ⟨"gt", 47⟩, ⟨")", 50⟩,
        ⟨"ü", 52⟩] := by decide
  have h : Expr.parse .strict (fun _ name => if name = "ü" then none else some name) "log"
      "naïve eq '(é' or (b ne ( and (c lt or) and d gt ) ü" = .error (.unclosedGroup 19 52) := by
    unfold Expr.parse
    rw [ht]
    simp [Expr.Reading.filter, Expr.Reading.disjunction, Expr.Reading.disjuncts, Expr.Reading.conjunction,
      Expr.Reading.conjuncts, Expr.Reading.term, Expr.Reading.comparison, Expr.Reading.closeGroup, Token.is,
      CompareOp.ofKeyword?]
  exact ⟨h, parse_error_pointsInto h⟩

end FilterQuery
