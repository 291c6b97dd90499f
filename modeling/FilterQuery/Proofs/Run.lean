import FilterQuery.Expr.Parser
import FilterQuery.Proofs.Grammar

/-!
# Runs of the reader

The reader is five mutually recursive functions whose results carry proofs about lengths. Here it is one
relation `Run` with a rule for each thing that can happen between two calls, so that every later statement
about the reader, be it about its trees or its errors, is one induction over these rules.

Disjunctions and conjunctions run alike: an operand, then a loop that holds the operands read so far. The
phases of a run are therefore the levels of the grammar and the loop of each connective.

`run_disjunction` and `Run.unique` tie the two together: the result of the reader is a run, and it is the only
one from these tokens.
-/

namespace FilterQuery

/-! ## Words and parentheses -/

namespace Token

theorem toLower_eq_iff {c d : Char} (hd : d.toNat < 'A'.toNat) : c.toLower = d ↔ c = d := by
  unfold Char.toLower
  split
  · rename_i h
    have h1 : 65 ≤ c.toNat := UInt32.le_iff_toNat_le.1 h.1
    have h2 : c.toNat ≤ 90 := UInt32.le_iff_toNat_le.1 h.2
    have hd' : d.toNat < 65 := hd
    constructor
    · rintro rfl
      have h3 : (c.val + 32).toNat < 65 := hd'
      rw [UInt32.toNat_add] at h3
      have e1 : c.val.toNat = c.toNat := rfl
      have e2 : (32 : UInt32).toNat = 32 := rfl
      omega
    · rintro rfl
      omega
  · rfl

theorem map_toLower_eq_iff : ∀ {cs ds : List Char}, (∀ d ∈ ds, d.toNat < 'A'.toNat) →
    (cs.map Char.toLower = ds ↔ cs = ds)
  | [], [], _ => by simp
  | [], _ :: _, _ => by simp
  | _ :: _, [], _ => by simp
  | c :: cs, d :: ds, h => by
    rw [List.map_cons, List.cons.injEq, List.cons.injEq, toLower_eq_iff (h d (by simp)),
      map_toLower_eq_iff fun x hx => h x (by simp [hx])]

/-- Parentheses have no case, so only the parenthesis itself compares equal to it. -/
theorem is_iff_text_eq {k : String} (hk : ∀ d ∈ k.toList, d.toNat < 'A'.toNat) (t : Token) :
    t.is k = true ↔ t.text = k := by
  have e : k.toList.map Char.toLower = k.toList := (map_toLower_eq_iff hk).2 rfl
  rw [Token.is, beq_iff_eq, e, map_toLower_eq_iff hk, String.toList_inj]

theorem is_open_iff (t : Token) : t.is "(" = true ↔ t.text = "(" := is_iff_text_eq (by simp) t

theorem is_close_iff (t : Token) : t.is ")" = true ↔ t.text = ")" := is_iff_text_eq (by simp) t

theorem is_keyword_iff (c : Connective) (t : Token) : t.is c.keyword = true ↔ c.Spells t.text := by
  have e : c.keyword.toList.map Char.toLower = c.keyword.toList := by cases c <;> rfl
  rw [Token.is, beq_iff_eq, e, Connective.Spells]

end Token

/-- The next token, if there is one, is not the word `k`. -/
def Stops (k : String) (ts : List Token) : Prop := ∀ t ∈ ts.head?, t.is k = false

@[simp] theorem stops_nil (k : String) : Stops k [] := by simp [Stops]

@[simp] theorem stops_cons (k : String) (t : Token) (ts : List Token) :
    Stops k (t :: ts) ↔ t.is k = false := by simp [Stops]

/-! ## The rules -/

namespace Expr.Reading

open Grammar (Level)

/-- What the reader is doing: reading a phrase, or looking for one more operand of a connective after the
ones it has. -/
inductive Phase where
  | phrase (l : Level)
  | loop (c : Connective) (parts : List Expr)

/-- The tree of a phrase with the tokens after it, or the error that ends the reading. -/
abbrev Outcome := Except ParseError (Expr × List Token)

/-- The three tokens of a comparison, the first of which is no parenthesis. -/
inductive Leaf (r : Reading) : List Token → Outcome → Prop
  | noName : Leaf r [] (.error (.unexpectedEnd "a field name" r.inputEnd))
  | unresolved {name : Token} {ts : List Token} (hn : r.resolve name.text = none) :
      Leaf r (name :: ts) (.error (.unresolvedField name.text name.offset))
  | noOperator {name : Token} {field : String} (hn : r.resolve name.text = some field) :
      Leaf r [name] (.error (.unexpectedEnd "a comparison operator" r.inputEnd))
  | badOperator {name operator : Token} {field : String} {ts : List Token}
      (hn : r.resolve name.text = some field) (ho : CompareOp.ofKeyword? operator.text = none) :
      Leaf r (name :: operator :: ts) (.error (.unsupportedOperator operator.text operator.offset))
  | noValue {name operator : Token} {field : String} {op : CompareOp}
      (hn : r.resolve name.text = some field) (ho : CompareOp.ofKeyword? operator.text = some op) :
      Leaf r [name, operator] (.error (.unexpectedEnd "a value" r.inputEnd))
  | comparison {name operator value : Token} {field : String} {op : CompareOp} {ts : List Token}
      (hn : r.resolve name.text = some field) (ho : CompareOp.ofKeyword? operator.text = some op) :
      Leaf r (name :: operator :: value :: ts)
        (.ok (.comparison ⟨field, name.text, op, .ofToken value.text⟩, ts))

/-- A phase started on these tokens ends so. -/
inductive Run (r : Reading) : Phase → List Token → Outcome → Prop
  | leaf {ts : List Token} {o : Outcome} (hp : Stops "(" ts) (h : Leaf r ts o) :
      Run r (.phrase .term) ts o
  | groupError {t : Token} {ts : List Token} {err : ParseError} (hp : t.is "(" = true)
      (h : Run r (.phrase (.chain .or)) ts (.error err)) : Run r (.phrase .term) (t :: ts) (.error err)
  | closed {t c : Token} {ts us : List Token} {e : Expr} (hp : t.is "(" = true)
      (h : Run r (.phrase (.chain .or)) ts (.ok (e, c :: us))) (hc : c.is ")" = true) :
      Run r (.phrase .term) (t :: ts) (.ok (e, us))
  | unclosed {t : Token} {ts us : List Token} {e : Expr} (hp : t.is "(" = true)
      (h : Run r (.phrase (.chain .or)) ts (.ok (e, us))) (hs : Stops ")" us) (hm : r.mode = .strict) :
      Run r (.phrase .term) (t :: ts) (.error (.unclosedGroup t.offset (r.position us)))
  | tolerated {t : Token} {ts us : List Token} {e : Expr} (hp : t.is "(" = true)
      (h : Run r (.phrase (.chain .or)) ts (.ok (e, us))) (hs : Stops ")" us) (hm : r.mode = .lenient) :
      Run r (.phrase .term) (t :: ts) (.ok (e, us))
  | headError {c : Connective} {ts : List Token} {err : ParseError}
      (h : Run r (.phrase c.operand) ts (.error err)) : Run r (.phrase (.chain c)) ts (.error err)
  | head {c : Connective} {ts us : List Token} {e : Expr} {o : Outcome}
      (h : Run r (.phrase c.operand) ts (.ok (e, us))) (hl : Run r (.loop c [e]) us o) :
      Run r (.phrase (.chain c)) ts o
  | stop {c : Connective} {parts : List Expr} {ts : List Token} (hs : Stops c.keyword ts) :
      Run r (.loop c parts) ts (.ok (c.join parts, ts))
  | stepError {c : Connective} {parts : List Expr} {t : Token} {ts : List Token} {err : ParseError}
      (hk : t.is c.keyword = true) (h : Run r (.phrase c.operand) ts (.error err)) :
      Run r (.loop c parts) (t :: ts) (.error err)
  | step {c : Connective} {parts : List Expr} {t : Token} {ts us : List Token} {e : Expr} {o : Outcome}
      (hk : t.is c.keyword = true) (h : Run r (.phrase c.operand) ts (.ok (e, us)))
      (hl : Run r (.loop c (parts ++ [e])) us o) : Run r (.loop c parts) (t :: ts) o

/-! ## Every result of the reader is a run -/

def outcome {ts : List Token} : Except ParseError (Phrase ts) → Outcome
  | .error err => .error err
  | .ok p => .ok (p.expr, p.rest)

/-- The operands read by a loop join the ones it started with. -/
def loopOutcome (c : Connective) (parts : List Expr) {ts : List Token} :
    Except ParseError (Operands ts) → Outcome
  | .error err => .error err
  | .ok o => .ok (c.join (parts ++ o.exprs), o.rest)

theorem collapse_and (e : Expr) (es : List Expr) : collapse .and e es = Connective.and.join (e :: es) := by
  cases es <;> rfl

theorem collapse_or (e : Expr) (es : List Expr) : collapse .or e es = Connective.or.join (e :: es) := by
  cases es <;> rfl

theorem leaf_comparison (r : Reading) : ∀ ts : List Token, Leaf r ts (outcome (r.comparison ts))
  | [] => .noName
  | name :: ts => by
    cases hn : r.resolve name.text with
    | none => simpa [comparison, hn, outcome] using Leaf.unresolved hn
    | some field =>
      match ts with
      | [] => simpa [comparison, hn, outcome] using Leaf.noOperator hn
      | operator :: ts =>
        cases ho : CompareOp.ofKeyword? operator.text with
        | none => simpa [comparison, hn, ho, outcome] using Leaf.badOperator hn ho
        | some op =>
          match ts with
          | [] => simpa [comparison, hn, ho, outcome] using Leaf.noValue hn ho
          | value :: ts => simpa [comparison, hn, ho, outcome] using Leaf.comparison hn ho

theorem run_closeGroup {r : Reading} {t : Token} {ts us : List Token} {e : Expr} (hp : t.is "(" = true)
    (h : Run r (.phrase (.chain .or)) ts (.ok (e, us))) :
    Run r (.phrase .term) (t :: ts) ((r.closeGroup t.offset us).map fun after => (e, after.1)) := by
  unfold closeGroup
  split
  · rename_i c us
    by_cases hc : c.is ")" = true
    · simpa [hc, Except.map] using Run.closed hp h hc
    · have hs : Stops ")" (c :: us) := by simpa using hc
      cases hm : r.mode with
      | strict => simpa [hc, Except.map, position] using Run.unclosed hp h hs hm
      | lenient => simpa [hc, Except.map] using Run.tolerated hp h hs hm
  · cases hm : r.mode with
    | strict => simpa [Except.map, position] using Run.unclosed hp h (stops_nil _) hm
    | lenient => simpa [Except.map] using Run.tolerated hp h (stops_nil _) hm

mutual

theorem run_disjunction (r : Reading) (ts : List Token) :
    Run r (.phrase (.chain .or)) ts (outcome (r.disjunction ts)) := by
  have hc := run_conjunction r ts
  unfold disjunction
  split <;> rename_i h <;> rw [h] at hc
  · exact .headError hc
  · rename_i first
    have := first.shorter
    have hl := run_disjuncts r [first.expr] first.rest
    split <;> rename_i h' <;> rw [h'] at hl
    · exact .head hc hl
    · rw [outcome, collapse_or]
      exact .head hc hl
termination_by (ts.length, 2)

theorem run_disjuncts (r : Reading) (parts : List Expr) : ∀ ts : List Token,
    Run r (.loop .or parts) ts (loopOutcome .or parts (r.disjuncts ts))
  | [] => by
    rw [disjuncts, loopOutcome, List.append_nil]
    exact .stop (stops_nil _)
  | t :: ts => by
    unfold disjuncts
    by_cases hk : t.is "or" = true
    · rw [if_pos hk]
      have hc := run_conjunction r ts
      split <;> rename_i h <;> rw [h] at hc
      · exact .stepError hk hc
      · rename_i operand
        have := operand.shorter
        have hl := run_disjuncts r (parts ++ [operand.expr]) operand.rest
        split <;> rename_i h' <;> rw [h'] at hl
        · exact .step hk hc hl
        · rw [loopOutcome, List.append_assoc] at hl
          exact .step hk hc hl
    · rw [if_neg hk, loopOutcome, List.append_nil]
      exact .stop (by simpa [Connective.keyword] using hk)
termination_by ts => (ts.length, 0)

theorem run_conjunction (r : Reading) (ts : List Token) :
    Run r (.phrase (.chain .and)) ts (outcome (r.conjunction ts)) := by
  have ht := run_term r ts
  unfold conjunction
  split <;> rename_i h <;> rw [h] at ht
  · exact .headError ht
  · rename_i first
    have := first.shorter
    have hl := run_conjuncts r [first.expr] first.rest
    split <;> rename_i h' <;> rw [h'] at hl
    · exact .head ht hl
    · rw [outcome, collapse_and]
      exact .head ht hl
termination_by (ts.length, 1)

theorem run_conjuncts (r : Reading) (parts : List Expr) : ∀ ts : List Token,
    Run r (.loop .and parts) ts (loopOutcome .and parts (r.conjuncts ts))
  | [] => by
    rw [conjuncts, loopOutcome, List.append_nil]
    exact .stop (stops_nil _)
  | t :: ts => by
    unfold conjuncts
    by_cases hk : t.is "and" = true
    · rw [if_pos hk]
      have ht := run_term r ts
      split <;> rename_i h <;> rw [h] at ht
      · exact .stepError hk ht
      · rename_i operand
        have := operand.shorter
        have hl := run_conjuncts r (parts ++ [operand.expr]) operand.rest
        split <;> rename_i h' <;> rw [h'] at hl
        · exact .step hk ht hl
        · rw [loopOutcome, List.append_assoc] at hl
          exact .step hk ht hl
    · rw [if_neg hk, loopOutcome, List.append_nil]
      exact .stop (by simpa [Connective.keyword] using hk)
termination_by ts => (ts.length, 0)

theorem run_term (r : Reading) : ∀ ts : List Token, Run r (.phrase .term) ts (outcome (r.term ts))
  | [] => by
    rw [term]
    exact .leaf (stops_nil _) (leaf_comparison r [])
  | t :: ts => by
    unfold term
    by_cases hp : t.is "(" = true
    · rw [if_pos hp]
      have hd := run_disjunction r ts
      split <;> rename_i h <;> rw [h] at hd
      · exact .groupError hp hd
      · have hg := run_closeGroup hp hd
        split <;> rename_i h' <;> rw [h'] at hg <;> exact hg
    · rw [if_neg hp]
      exact .leaf (by simpa using hp) (leaf_comparison r (t :: ts))
termination_by ts => (ts.length, 0)

end

/-! ## There is no other run -/

theorem Leaf.eq {r : Reading} {ts : List Token} {o : Outcome} (h : Leaf r ts o) :
    o = outcome (r.comparison ts) := by
  cases h <;> simp_all [Reading.comparison, outcome]

theorem Run.unique {r : Reading} {p : Phase} {ts : List Token} {o : Outcome} (h : Run r p ts o) :
    ∀ {o' : Outcome}, Run r p ts o' → o = o' := by
  induction h with
  | leaf hp h =>
    intro o' h'
    cases h' with
    | leaf _ h' => rw [h.eq, h'.eq]
    | groupError hp' _ | closed hp' _ _ | unclosed hp' _ _ _ | tolerated hp' _ _ _ =>
      simp [hp'] at hp
  | groupError hp h ih =>
    intro o' h'
    cases h' with
    | leaf hp' _ => simp [hp] at hp'
    | groupError _ h' => exact ih h'
    | closed _ h' _ | unclosed _ h' _ _ | tolerated _ h' _ _ => cases ih h'
  | closed hp h hc ih =>
    intro o' h'
    cases h' with
    | leaf hp' _ => simp [hp] at hp'
    | groupError _ h' => cases ih h'
    | closed _ h' _ => cases ih h'; rfl
    | unclosed _ h' hs _ | tolerated _ h' hs _ => cases ih h'; simp [hc] at hs
  | unclosed hp h hs hm ih =>
    intro o' h'
    cases h' with
    | leaf hp' _ => simp [hp] at hp'
    | groupError _ h' => cases ih h'
    | closed _ h' hc => cases ih h'; simp [hc] at hs
    | unclosed _ h' _ _ => cases ih h'; rfl
    | tolerated _ _ _ hm' => simp [hm] at hm'
  | tolerated hp h hs hm ih =>
    intro o' h'
    cases h' with
    | leaf hp' _ => simp [hp] at hp'
    | groupError _ h' => cases ih h'
    | closed _ h' hc => cases ih h'; simp [hc] at hs
    | unclosed _ _ _ hm' => simp [hm] at hm'
    | tolerated _ h' _ _ => cases ih h'; rfl
  | headError h ih =>
    intro o' h'
    cases h' with
    | headError h' => exact ih h'
    | head h' _ => cases ih h'
  | head h hl ih ihl =>
    intro o' h'
    cases h' with
    | headError h' => cases ih h'
    | head h' hl' => cases ih h'; exact ihl hl'
  | stop hs =>
    intro o' h'
    cases h' with
    | stop _ => rfl
    | stepError hk _ | step hk _ _ => simp [hk] at hs
  | stepError hk h ih =>
    intro o' h'
    cases h' with
    | stop hs => simp [hk] at hs
    | stepError _ h' => exact ih h'
    | step _ h' _ => cases ih h'
  | step hk h hl ih ihl =>
    intro o' h'
    cases h' with
    | stop hs => simp [hk] at hs
    | stepError _ h' => cases ih h'
    | step _ h' hl' => cases ih h'; exact ihl hl'

theorem run_iff {r : Reading} {ts : List Token} {o : Outcome} :
    Run r (.phrase (.chain .or)) ts o ↔ outcome (r.disjunction ts) = o := by
  constructor
  · intro h
    exact (run_disjunction r ts).unique h
  · rintro rfl
    exact run_disjunction r ts

/-! ## Whole filters -/

theorem filter_eq_ok_iff {r : Reading} {ts : List Token} {e : Expr} :
    r.filter ts = .ok e ↔
      ∃ us, Run r (.phrase (.chain .or)) ts (.ok (e, us)) ∧ (r.mode = .strict → us = []) := by
  simp only [run_iff]
  unfold filter
  cases hd : r.disjunction ts with
  | error err => simp [outcome]
  | ok p =>
    obtain ⟨e', us, hlt⟩ := p
    cases us <;> cases hm : r.mode <;> simp [outcome]

theorem filter_eq_error_iff {r : Reading} {ts : List Token} {err : ParseError} :
    r.filter ts = .error err ↔
      Run r (.phrase (.chain .or)) ts (.error err) ∨
      ∃ e t us, Run r (.phrase (.chain .or)) ts (.ok (e, t :: us)) ∧ r.mode = .strict ∧
        err = .trailingToken t.text t.offset := by
  simp only [run_iff]
  unfold filter
  cases hd : r.disjunction ts with
  | error err => simp [outcome]
  | ok p =>
    obtain ⟨e', us, hlt⟩ := p
    cases us with
    | nil => simp [outcome]
    | cons t us =>
      cases hm : r.mode with
      | lenient => simp [outcome]
      | strict =>
        constructor
        · intro h
          cases h
          exact .inr ⟨e', t, us, rfl, rfl, rfl⟩
        · rintro (h | ⟨e, t', us', h, -, rfl⟩) <;> cases h
          rfl

/-- An error of the first comparison is the error of the filter. -/
theorem filter_eq_error_of_leaf {r : Reading} {ts : List Token} {err : ParseError} (hp : Stops "(" ts)
    (h : Leaf r ts (.error err)) : r.filter ts = .error err :=
  filter_eq_error_iff.2 (.inl (.headError (.headError (.leaf hp h))))

end Expr.Reading

end FilterQuery
