import FilterQuery.Proofs.Run

/-!
# The cursor of the reader

The reader goes over the tokens with a cursor and looks at one token at a time. Its results tell where the cursor stands
after a phrase, by the tokens that are left, but not where an error has left it. `Walk` has the rules of `Run` with the
list as a whole and the cursor before and after, so that it tells both. Each phrase has one walk from each index, and
the walk has the result of the reader (`Walk.run`, `Run.walk`, `Walk.unique`).

All that a walk asks the list for is what is at some index, and none of these is before the cursor it starts with or
behind the one it ends with (`Walk.bounds`). So a list that has the same there has the same walk (`Walk.congr`).
-/

namespace FilterQuery

/-- What is at the cursor, if anything, is not the word `k`. -/
def StopsAt (k : String) (tokens : List Token) (i : Nat) : Prop := ∀ t ∈ tokens[i]?, t.is k = false

theorem stops_drop_iff {k : String} {tokens : List Token} {i : Nat} :
    Stops k (tokens.drop i) ↔ StopsAt k tokens i := by
  rw [Stops, StopsAt, List.head?_drop]

theorem drop_eq_cons_iff {tokens ts : List Token} {i : Nat} {t : Token} :
    tokens.drop i = t :: ts ↔ tokens[i]? = some t ∧ tokens.drop (i + 1) = ts := by
  rw [← List.head?_drop, ← List.tail_drop]
  cases tokens.drop i <;> simp

theorem drop_of_getElem? {tokens : List Token} {i : Nat} {t : Token} (h : tokens[i]? = some t) :
    tokens.drop i = t :: tokens.drop (i + 1) :=
  drop_eq_cons_iff.2 ⟨h, rfl⟩

theorem drop_eq_nil_iff_getElem? {tokens : List Token} {i : Nat} : tokens.drop i = [] ↔ tokens[i]? = none := by
  rw [← List.head?_drop, List.head?_eq_none_iff]

/-- From `i` to `j` the lists have the same tokens, or one ends where the other one does. -/
def AgreeOn (i j : Nat) (tokens tokens' : List Token) : Prop := ∀ k, i ≤ k → k ≤ j → tokens'[k]? = tokens[k]?

namespace AgreeOn

variable {i j : Nat} {tokens tokens' : List Token} (h : AgreeOn i j tokens tokens')

include h

theorem mono {i' j' : Nat} (hi : i ≤ i') (hj : j' ≤ j) : AgreeOn i' j' tokens tokens' :=
  fun k hik hkj => h k (Nat.le_trans hi hik) (Nat.le_trans hkj hj)

theorem getElem? {k : Nat} {o : Option Token} (hi : i ≤ k) (hj : k ≤ j) (hk : tokens[k]? = o) : tokens'[k]? = o :=
  (h k hi hj).trans hk

theorem stopsAt {k : String} {n : Nat} (hi : i ≤ n) (hj : n ≤ j) (hs : StopsAt k tokens n) : StopsAt k tokens' n := by
  rwa [StopsAt, h n hi hj]

end AgreeOn

namespace Expr.Reading

open Grammar (Level)

/-! ## The rules -/

/-- The byte offset of the token at the cursor, or of the end. -/
def positionAt (r : Reading) (tokens : List Token) (i : Nat) : Nat := tokens[i]?.elim r.inputEnd Token.offset

theorem position_drop (r : Reading) (tokens : List Token) (i : Nat) :
    r.position (tokens.drop i) = r.positionAt tokens i := by
  rw [positionAt, ← List.head?_drop]
  cases tokens.drop i <;> rfl

section Rules

variable (r : Reading) (tokens : List Token)

/-- The three tokens of a comparison. The cursor goes past a token before it is known whether the token is right. -/
inductive LeafAt : Nat → Nat → Except ParseError Expr → Prop
  | noName {i : Nat} (h₀ : tokens[i]? = none) : LeafAt i i (.error (.unexpectedEnd "a field name" r.inputEnd))
  | unresolved {i : Nat} {name : Token} (h₀ : tokens[i]? = some name) (hn : r.resolve name.text = none) :
      LeafAt i (i + 1) (.error (.unresolvedField name.text name.offset))
  | noOperator {i : Nat} {name : Token} {field : String} (h₀ : tokens[i]? = some name)
      (hn : r.resolve name.text = some field) (h₁ : tokens[i + 1]? = none) :
      LeafAt i (i + 1) (.error (.unexpectedEnd "a comparison operator" r.inputEnd))
  | badOperator {i : Nat} {name operator : Token} {field : String} (h₀ : tokens[i]? = some name)
      (hn : r.resolve name.text = some field) (h₁ : tokens[i + 1]? = some operator)
      (ho : CompareOp.ofKeyword? operator.text = none) :
      LeafAt i (i + 2) (.error (.unsupportedOperator operator.text operator.offset))
  | noValue {i : Nat} {name operator : Token} {field : String} {op : CompareOp} (h₀ : tokens[i]? = some name)
      (hn : r.resolve name.text = some field) (h₁ : tokens[i + 1]? = some operator)
      (ho : CompareOp.ofKeyword? operator.text = some op) (h₂ : tokens[i + 2]? = none) :
      LeafAt i (i + 2) (.error (.unexpectedEnd "a value" r.inputEnd))
  | comparison {i : Nat} {name operator value : Token} {field : String} {op : CompareOp}
      (h₀ : tokens[i]? = some name) (hn : r.resolve name.text = some field) (h₁ : tokens[i + 1]? = some operator)
      (ho : CompareOp.ofKeyword? operator.text = some op) (h₂ : tokens[i + 2]? = some value) :
      LeafAt i (i + 3) (.ok (.comparison ⟨field, name.text, op, .ofToken value.text⟩))

/-- A phase that is started with the cursor at the first index ends so, with the cursor at the second one. -/
inductive Walk : Phase → Nat → Nat → Except ParseError Expr → Prop
  | leaf {i j : Nat} {o : Except ParseError Expr} (hp : StopsAt "(" tokens i) (h : LeafAt r tokens i j o) :
      Walk (.phrase .term) i j o
  | groupError {i j : Nat} {t : Token} {err : ParseError} (ht : tokens[i]? = some t) (hp : t.is "(" = true)
      (h : Walk (.phrase (.chain .or)) (i + 1) j (.error err)) : Walk (.phrase .term) i j (.error err)
  | closed {i j : Nat} {t c : Token} {e : Expr} (ht : tokens[i]? = some t) (hp : t.is "(" = true)
      (h : Walk (.phrase (.chain .or)) (i + 1) j (.ok e)) (hj : tokens[j]? = some c) (hc : c.is ")" = true) :
      Walk (.phrase .term) i (j + 1) (.ok e)
  | unclosed {i j : Nat} {t : Token} {e : Expr} (ht : tokens[i]? = some t) (hp : t.is "(" = true)
      (h : Walk (.phrase (.chain .or)) (i + 1) j (.ok e)) (hs : StopsAt ")" tokens j) (hm : r.mode = .strict) :
      Walk (.phrase .term) i j (.error (.unclosedGroup t.offset (r.positionAt tokens j)))
  | tolerated {i j : Nat} {t : Token} {e : Expr} (ht : tokens[i]? = some t) (hp : t.is "(" = true)
      (h : Walk (.phrase (.chain .or)) (i + 1) j (.ok e)) (hs : StopsAt ")" tokens j) (hm : r.mode = .lenient) :
      Walk (.phrase .term) i j (.ok e)
  | headError {c : Connective} {i j : Nat} {err : ParseError} (h : Walk (.phrase c.operand) i j (.error err)) :
      Walk (.phrase (.chain c)) i j (.error err)
  | head {c : Connective} {i j k : Nat} {e : Expr} {o : Except ParseError Expr}
      (h : Walk (.phrase c.operand) i j (.ok e)) (hl : Walk (.loop c [e]) j k o) : Walk (.phrase (.chain c)) i k o
  | stop {c : Connective} {parts : List Expr} {i : Nat} (hs : StopsAt c.keyword tokens i) :
      Walk (.loop c parts) i i (.ok (c.join parts))
  | stepError {c : Connective} {parts : List Expr} {i j : Nat} {t : Token} {err : ParseError}
      (ht : tokens[i]? = some t) (hk : t.is c.keyword = true)
      (h : Walk (.phrase c.operand) (i + 1) j (.error err)) : Walk (.loop c parts) i j (.error err)
  | step {c : Connective} {parts : List Expr} {i j k : Nat} {t : Token} {e : Expr} {o : Except ParseError Expr}
      (ht : tokens[i]? = some t) (hk : t.is c.keyword = true) (h : Walk (.phrase c.operand) (i + 1) j (.ok e))
      (hl : Walk (.loop c (parts ++ [e])) j k o) : Walk (.loop c parts) i k o

end Rules

/-! ## Walks and runs -/

/-- A result with the cursor at `j`, as a run has it. -/
def atCursor (tokens : List Token) (j : Nat) : Except ParseError Expr → Outcome
  | .error err => .error err
  | .ok e => .ok (e, tokens.drop j)

variable {r : Reading} {tokens : List Token}

theorem atCursor_eq_error_iff {j : Nat} {o : Except ParseError Expr} {err : ParseError} :
    atCursor tokens j o = .error err ↔ o = .error err := by
  cases o <;> simp [atCursor]

theorem atCursor_eq_ok_iff {j : Nat} {o : Except ParseError Expr} {e : Expr} {us : List Token} :
    atCursor tokens j o = .ok (e, us) ↔ o = .ok e ∧ tokens.drop j = us := by
  cases o <;> simp [atCursor]

theorem LeafAt.leaf {i j : Nat} {o : Except ParseError Expr} (h : LeafAt r tokens i j o) :
    Leaf r (tokens.drop i) (atCursor tokens j o) := by
  cases h with
  | noName h₀ =>
    rw [drop_eq_nil_iff_getElem?.2 h₀]
    exact .noName
  | unresolved h₀ hn =>
    rw [drop_of_getElem? h₀]
    exact .unresolved hn
  | noOperator h₀ hn h₁ =>
    rw [drop_of_getElem? h₀, drop_eq_nil_iff_getElem?.2 h₁]
    exact .noOperator hn
  | badOperator h₀ hn h₁ ho =>
    rw [drop_of_getElem? h₀, drop_of_getElem? h₁]
    exact .badOperator hn ho
  | noValue h₀ hn h₁ ho h₂ =>
    rw [drop_of_getElem? h₀, drop_of_getElem? h₁, drop_eq_nil_iff_getElem?.2 h₂]
    exact .noValue hn ho
  | comparison h₀ hn h₁ ho h₂ =>
    rw [drop_of_getElem? h₀, drop_of_getElem? h₁, drop_of_getElem? h₂]
    exact .comparison hn ho

theorem Leaf.leafAt {ts : List Token} {o : Outcome} (h : Leaf r ts o) {i : Nat} (hi : tokens.drop i = ts) :
    ∃ j o', LeafAt r tokens i j o' ∧ atCursor tokens j o' = o := by
  cases h with
  | noName => exact ⟨_, _, .noName (drop_eq_nil_iff_getElem?.1 hi), rfl⟩
  | unresolved hn =>
    obtain ⟨h₀, -⟩ := drop_eq_cons_iff.1 hi
    exact ⟨_, _, .unresolved h₀ hn, rfl⟩
  | noOperator hn =>
    obtain ⟨h₀, hi⟩ := drop_eq_cons_iff.1 hi
    exact ⟨_, _, .noOperator h₀ hn (drop_eq_nil_iff_getElem?.1 hi), rfl⟩
  | badOperator hn ho =>
    obtain ⟨h₀, hi⟩ := drop_eq_cons_iff.1 hi
    obtain ⟨h₁, -⟩ := drop_eq_cons_iff.1 hi
    exact ⟨_, _, .badOperator h₀ hn h₁ ho, rfl⟩
  | noValue hn ho =>
    obtain ⟨h₀, hi⟩ := drop_eq_cons_iff.1 hi
    obtain ⟨h₁, hi⟩ := drop_eq_cons_iff.1 hi
    exact ⟨_, _, .noValue h₀ hn h₁ ho (drop_eq_nil_iff_getElem?.1 hi), rfl⟩
  | comparison hn ho =>
    obtain ⟨h₀, hi⟩ := drop_eq_cons_iff.1 hi
    obtain ⟨h₁, hi⟩ := drop_eq_cons_iff.1 hi
    obtain ⟨h₂, rfl⟩ := drop_eq_cons_iff.1 hi
    exact ⟨_, _, .comparison h₀ hn h₁ ho h₂, rfl⟩

/-- A walk is a run over the tokens from the cursor on. -/
theorem Walk.run {p : Phase} {i j : Nat} {o : Except ParseError Expr} (h : Walk r tokens p i j o) :
    Run r p (tokens.drop i) (atCursor tokens j o) := by
  induction h with
  | leaf hp h => exact .leaf (stops_drop_iff.2 hp) h.leaf
  | groupError ht hp _ ih =>
    rw [drop_of_getElem? ht]
    exact .groupError hp ih
  | @closed i j t c e ht hp _ hj hc ih =>
    rw [drop_of_getElem? ht]
    rw [atCursor, drop_of_getElem? hj] at ih
    exact .closed hp ih hc
  | unclosed ht hp _ hs hm ih =>
    rw [drop_of_getElem? ht, ← position_drop]
    exact .unclosed hp ih (stops_drop_iff.2 hs) hm
  | tolerated ht hp _ hs hm ih =>
    rw [drop_of_getElem? ht]
    exact .tolerated hp ih (stops_drop_iff.2 hs) hm
  | headError _ ih => exact .headError ih
  | head _ _ ih ihl => exact .head ih ihl
  | stop hs => exact .stop (stops_drop_iff.2 hs)
  | stepError ht hk _ ih =>
    rw [drop_of_getElem? ht]
    exact .stepError hk ih
  | step ht hk _ _ ih ihl =>
    rw [drop_of_getElem? ht]
    exact .step hk ih ihl

/-- A run over the tokens from an index on is a walk from there. -/
theorem Run.walk {p : Phase} {ts : List Token} {o : Outcome} (h : Run r p ts o) {i : Nat} (hi : tokens.drop i = ts) :
    ∃ j o', Walk r tokens p i j o' ∧ atCursor tokens j o' = o := by
  induction h generalizing i with
  | leaf hp h =>
    obtain ⟨j, o, hleaf, ho⟩ := h.leafAt hi
    exact ⟨j, o, .leaf (stops_drop_iff.1 (hi ▸ hp)) hleaf, ho⟩
  | groupError hp _ ih =>
    obtain ⟨ht, hi⟩ := drop_eq_cons_iff.1 hi
    obtain ⟨j, o, hw, ho⟩ := ih hi
    obtain rfl := atCursor_eq_error_iff.1 ho
    exact ⟨j, _, .groupError ht hp hw, rfl⟩
  | closed hp _ hc ih =>
    obtain ⟨ht, hi⟩ := drop_eq_cons_iff.1 hi
    obtain ⟨j, o, hw, ho⟩ := ih hi
    obtain ⟨rfl, hrest⟩ := atCursor_eq_ok_iff.1 ho
    obtain ⟨hj, hrest⟩ := drop_eq_cons_iff.1 hrest
    exact ⟨j + 1, _, .closed ht hp hw hj hc, by rw [atCursor, hrest]⟩
  | unclosed hp _ hs hm ih =>
    obtain ⟨ht, hi⟩ := drop_eq_cons_iff.1 hi
    obtain ⟨j, o, hw, ho⟩ := ih hi
    obtain ⟨rfl, rfl⟩ := atCursor_eq_ok_iff.1 ho
    exact ⟨j, _, .unclosed ht hp hw (stops_drop_iff.1 hs) hm, by rw [atCursor, position_drop]⟩
  | tolerated hp _ hs hm ih =>
    obtain ⟨ht, hi⟩ := drop_eq_cons_iff.1 hi
    obtain ⟨j, o, hw, ho⟩ := ih hi
    obtain ⟨rfl, rfl⟩ := atCursor_eq_ok_iff.1 ho
    exact ⟨j, _, .tolerated ht hp hw (stops_drop_iff.1 hs) hm, rfl⟩
  | headError _ ih =>
    obtain ⟨j, o, hw, ho⟩ := ih hi
    obtain rfl := atCursor_eq_error_iff.1 ho
    exact ⟨j, _, .headError hw, rfl⟩
  | head _ _ ih ihl =>
    obtain ⟨j, o, hw, ho⟩ := ih hi
    obtain ⟨rfl, hj⟩ := atCursor_eq_ok_iff.1 ho
    obtain ⟨k, o, hwl, ho⟩ := ihl hj
    exact ⟨k, o, .head hw hwl, ho⟩
  | stop hs =>
    subst hi
    exact ⟨i, _, .stop (stops_drop_iff.1 hs), rfl⟩
  | stepError hk _ ih =>
    obtain ⟨ht, hi⟩ := drop_eq_cons_iff.1 hi
    obtain ⟨j, o, hw, ho⟩ := ih hi
    obtain rfl := atCursor_eq_error_iff.1 ho
    exact ⟨j, _, .stepError ht hk hw, rfl⟩
  | step hk _ _ ih ihl =>
    obtain ⟨ht, hi⟩ := drop_eq_cons_iff.1 hi
    obtain ⟨j, o, hw, ho⟩ := ih hi
    obtain ⟨rfl, hj⟩ := atCursor_eq_ok_iff.1 ho
    obtain ⟨k, o, hwl, ho⟩ := ihl hj
    exact ⟨k, o, .step ht hk hw hwl, ho⟩

/-! ## Where a walk goes -/

theorem LeafAt.bounds {i j : Nat} {o : Except ParseError Expr} (h : LeafAt r tokens i j o) :
    i ≤ j ∧ j ≤ max i tokens.length := by
  cases h with
  | noName => omega
  | unresolved hlast | noOperator hlast | badOperator _ _ hlast | noValue _ _ hlast | comparison _ _ _ _ hlast =>
    -- the last token that was passed is one of the list
    obtain ⟨hlt, -⟩ := List.getElem?_eq_some_iff.1 hlast
    omega

/-- The cursor never goes back, and never past the end of the tokens. -/
theorem Walk.bounds {p : Phase} {i j : Nat} {o : Except ParseError Expr} (h : Walk r tokens p i j o) :
    i ≤ j ∧ j ≤ max i tokens.length := by
  induction h with
  | leaf _ h => exact h.bounds
  | groupError ht _ _ ih | unclosed ht _ _ _ _ ih | tolerated ht _ _ _ _ ih | stepError ht _ _ ih =>
    obtain ⟨hlt, -⟩ := List.getElem?_eq_some_iff.1 ht
    omega
  | closed ht _ _ hj _ ih =>
    obtain ⟨hlt, -⟩ := List.getElem?_eq_some_iff.1 ht
    obtain ⟨hjlt, -⟩ := List.getElem?_eq_some_iff.1 hj
    omega
  | headError _ ih => exact ih
  | head _ _ ih ihl => omega
  | stop _ => omega
  | step ht _ _ _ ih ihl =>
    obtain ⟨hlt, -⟩ := List.getElem?_eq_some_iff.1 ht
    omega

/-- What a phase reads at least: a phrase has a comparison in it, and a loop may have no more operands. -/
def Phase.least : Phase → Nat
  | .phrase _ => 3
  | .loop .. => 0

theorem LeafAt.progress {i j : Nat} {e : Expr} (h : LeafAt r tokens i j (.ok e)) : i + 3 ≤ j := by
  cases h
  exact Nat.le_refl _

theorem Walk.progress {p : Phase} {i j : Nat} {e : Expr} (h : Walk r tokens p i j (.ok e)) : i + p.least ≤ j := by
  generalize ho : Except.ok e = o at h
  induction h generalizing e with
  | leaf _ h =>
    subst ho
    exact h.progress
  | groupError | unclosed | headError | stepError => cases ho
  | closed _ _ _ _ _ ih | tolerated _ _ _ _ _ ih =>
    have := ih rfl
    simp only [Phase.least] at this ⊢
    omega
  | head _ hl ih _ =>
    have := ih rfl
    have := hl.bounds
    simp only [Phase.least] at *
    omega
  | stop _ => exact Nat.le_refl _
  | step _ _ h hl _ _ =>
    have := h.bounds
    have := hl.bounds
    simp only [Phase.least]
    omega

/-! ## What a walk depends on -/

theorem LeafAt.congr {tokens' : List Token} {i j : Nat} {o : Except ParseError Expr} (h : LeafAt r tokens i j o)
    (ha : AgreeOn i j tokens tokens') : LeafAt r tokens' i j o := by
  cases h with
  | noName h₀ => exact .noName (ha.getElem? (by omega) (by omega) h₀)
  | unresolved h₀ hn => exact .unresolved (ha.getElem? (by omega) (by omega) h₀) hn
  | noOperator h₀ hn h₁ =>
    exact .noOperator (ha.getElem? (by omega) (by omega) h₀) hn (ha.getElem? (by omega) (by omega) h₁)
  | badOperator h₀ hn h₁ ho =>
    exact .badOperator (ha.getElem? (by omega) (by omega) h₀) hn (ha.getElem? (by omega) (by omega) h₁) ho
  | noValue h₀ hn h₁ ho h₂ =>
    exact .noValue (ha.getElem? (by omega) (by omega) h₀) hn (ha.getElem? (by omega) (by omega) h₁) ho
      (ha.getElem? (by omega) (by omega) h₂)
  | comparison h₀ hn h₁ ho h₂ =>
    exact .comparison (ha.getElem? (by omega) (by omega) h₀) hn (ha.getElem? (by omega) (by omega) h₁) ho
      (ha.getElem? (by omega) (by omega) h₂)

/-- Lists that agree where the cursor has been have the same walk. -/
theorem Walk.congr {tokens' : List Token} {p : Phase} {i j : Nat} {o : Except ParseError Expr}
    (h : Walk r tokens p i j o) (ha : AgreeOn i j tokens tokens') : Walk r tokens' p i j o := by
  induction h with
  | leaf hp h => exact .leaf (ha.stopsAt (Nat.le_refl _) h.bounds.1 hp) (h.congr ha)
  | groupError ht hp h ih =>
    have := h.bounds
    exact .groupError (ha.getElem? (by omega) (by omega) ht) hp (ih (ha.mono (by omega) (by omega)))
  | closed ht hp h hj hc ih =>
    have := h.bounds
    exact .closed (ha.getElem? (by omega) (by omega) ht) hp (ih (ha.mono (by omega) (by omega)))
      (ha.getElem? (by omega) (by omega) hj) hc
  | @unclosed i j t e ht hp h hs hm ih =>
    have := h.bounds
    have hposition : r.positionAt tokens' j = r.positionAt tokens j := by
      rw [positionAt, ha j (by omega) (by omega), positionAt]
    rw [← hposition]
    exact .unclosed (ha.getElem? (by omega) (by omega) ht) hp (ih (ha.mono (by omega) (by omega)))
      (ha.stopsAt (by omega) (by omega) hs) hm
  | tolerated ht hp h hs hm ih =>
    have := h.bounds
    exact .tolerated (ha.getElem? (by omega) (by omega) ht) hp (ih (ha.mono (by omega) (by omega)))
      (ha.stopsAt (by omega) (by omega) hs) hm
  | headError _ ih => exact .headError (ih ha)
  | head h hl ih ihl =>
    have := h.bounds
    have := hl.bounds
    exact .head (ih (ha.mono (by omega) (by omega))) (ihl (ha.mono (by omega) (by omega)))
  | stop hs => exact .stop (ha.stopsAt (Nat.le_refl _) (Nat.le_refl _) hs)
  | stepError ht hk h ih =>
    have := h.bounds
    exact .stepError (ha.getElem? (by omega) (by omega) ht) hk (ih (ha.mono (by omega) (by omega)))
  | step ht hk h hl ih ihl =>
    have := h.bounds
    have := hl.bounds
    exact .step (ha.getElem? (by omega) (by omega) ht) hk (ih (ha.mono (by omega) (by omega)))
      (ihl (ha.mono (by omega) (by omega)))

/-! ## There is no other walk -/

theorem LeafAt.unique {i j j' : Nat} {o o' : Except ParseError Expr} (h : LeafAt r tokens i j o)
    (h' : LeafAt r tokens i j' o') : j = j' ∧ o = o' := by
  cases h <;> cases h' <;> simp_all

theorem Walk.unique {p : Phase} {i j : Nat} {o : Except ParseError Expr} (h : Walk r tokens p i j o) :
    ∀ {j' : Nat} {o' : Except ParseError Expr}, Walk r tokens p i j' o' → j = j' ∧ o = o' := by
  induction h with
  | leaf hp h =>
    intro j' o' h'
    cases h' with
    | leaf _ h' => exact h.unique h'
    | groupError ht hp' _ | closed ht hp' _ _ _ | unclosed ht hp' _ _ _ | tolerated ht hp' _ _ _ =>
      simp [hp _ ht] at hp'
  | groupError ht hp h ih =>
    intro j' o' h'
    cases h' with
    | leaf hp' _ => simp [hp' _ ht] at hp
    | groupError _ _ h' => exact ih h'
    | closed _ _ h' _ _ | unclosed _ _ h' _ _ | tolerated _ _ h' _ _ => cases (ih h').2
  | closed ht hp h hj hc ih =>
    intro j' o' h'
    cases h' with
    | leaf hp' _ => simp [hp' _ ht] at hp
    | groupError _ _ h' => cases (ih h').2
    | closed _ _ h' _ _ =>
      obtain ⟨rfl, hok⟩ := ih h'
      exact ⟨rfl, hok⟩
    | unclosed _ _ h' hs _ | tolerated _ _ h' hs _ =>
      obtain ⟨rfl, -⟩ := ih h'
      simp [hs _ hj] at hc
  | unclosed ht hp h hs hm ih =>
    intro j' o' h'
    cases h' with
    | leaf hp' _ => simp [hp' _ ht] at hp
    | groupError _ _ h' => cases (ih h').2
    | closed _ _ h' hj hc =>
      obtain ⟨rfl, -⟩ := ih h'
      simp [hs _ hj] at hc
    | unclosed ht' _ h' _ _ =>
      obtain ⟨rfl, -⟩ := ih h'
      obtain rfl := Option.some.inj (ht.symm.trans ht')
      exact ⟨rfl, rfl⟩
    | tolerated _ _ _ _ hm' => simp [hm] at hm'
  | tolerated ht hp h hs hm ih =>
    intro j' o' h'
    cases h' with
    | leaf hp' _ => simp [hp' _ ht] at hp
    | groupError _ _ h' => cases (ih h').2
    | closed _ _ h' hj hc =>
      obtain ⟨rfl, -⟩ := ih h'
      simp [hs _ hj] at hc
    | unclosed _ _ _ _ hm' => simp [hm] at hm'
    | tolerated _ _ h' _ _ => exact ih h'
  | headError h ih =>
    intro j' o' h'
    cases h' with
    | headError h' => exact ih h'
    | head h' _ => cases (ih h').2
  | head h hl ih ihl =>
    intro j' o' h'
    cases h' with
    | headError h' => cases (ih h').2
    | head h' hl' =>
      obtain ⟨rfl, hok⟩ := ih h'
      cases hok
      exact ihl hl'
  | stop hs =>
    intro j' o' h'
    cases h' with
    | stop _ => exact ⟨rfl, rfl⟩
    | stepError ht hk _ | step ht hk _ _ => simp [hs _ ht] at hk
  | stepError ht hk h ih =>
    intro j' o' h'
    cases h' with
    | stop hs => simp [hs _ ht] at hk
    | stepError _ _ h' => exact ih h'
    | step _ _ h' _ => cases (ih h').2
  | step ht hk h hl ih ihl =>
    intro j' o' h'
    cases h' with
    | stop hs => simp [hs _ ht] at hk
    | stepError _ _ h' => cases (ih h').2
    | step _ _ h' hl' =>
      obtain ⟨rfl, hok⟩ := ih h'
      cases hok
      exact ihl hl'

/-! ## The reader -/

/-- What the reader makes of the tokens at a level. -/
def read (r : Reading) : Level → List Token → Outcome
  | .term, ts => outcome (r.term ts)
  | .chain .and, ts => outcome (r.conjunction ts)
  | .chain .or, ts => outcome (r.disjunction ts)

theorem run_read (r : Reading) : ∀ (l : Level) (ts : List Token), Run r (.phrase l) ts (r.read l ts)
  | .term, ts => run_term r ts
  | .chain .and, ts => run_conjunction r ts
  | .chain .or, ts => run_disjunction r ts

theorem exists_walk (r : Reading) (l : Level) (tokens : List Token) (i : Nat) :
    ∃ j o, Walk r tokens (.phrase l) i j o ∧ atCursor tokens j o = r.read l (tokens.drop i) :=
  (run_read r l (tokens.drop i)).walk rfl

theorem Walk.read_eq {l : Level} {i j : Nat} {o : Except ParseError Expr} (h : Walk r tokens (.phrase l) i j o) :
    r.read l (tokens.drop i) = atCursor tokens j o :=
  (run_read r l (tokens.drop i)).unique h.run

/-- **The cursor makes progress, stays in the tokens, and looks at nothing behind itself.** A phrase that is started at
any index ends, with one result and the cursor in one place. That place is never before the start and never past the
end of the tokens; after a tree it is three tokens further on, or more. And the result and the place are those for any
tokens that are the same from the start up to that place. -/
theorem read_progress_local (r : Reading) (l : Level) (tokens : List Token) (i : Nat) :
    ∃ j o, Walk r tokens (.phrase l) i j o ∧
      (∀ j' o', Walk r tokens (.phrase l) i j' o' → j' = j ∧ o' = o) ∧
      r.read l (tokens.drop i) = atCursor tokens j o ∧
      i ≤ j ∧ j ≤ max i tokens.length ∧
      (∀ e, o = .ok e → i + 3 ≤ j ∧ j ≤ tokens.length) ∧
      ∀ tokens', AgreeOn i j tokens tokens' →
        Walk r tokens' (.phrase l) i j o ∧ r.read l (tokens'.drop i) = atCursor tokens' j o := by
  obtain ⟨j, o, h, hread⟩ := exists_walk r l tokens i
  obtain ⟨hle, hmax⟩ := h.bounds
  refine ⟨j, o, h, fun j' o' h' => h'.unique h, hread.symm, hle, hmax, ?_, fun tokens' ha => ?_⟩
  · rintro e rfl
    have hprogress : i + 3 ≤ j := h.progress
    exact ⟨hprogress, by omega⟩
  · exact ⟨h.congr ha, (h.congr ha).read_eq⟩

end Expr.Reading

end FilterQuery
