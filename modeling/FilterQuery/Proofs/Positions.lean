import FilterQuery.Proofs.Run

/-!
# Where the tokens stand

The reader looks at the texts of tokens. Their offsets go into errors and nowhere else. So tokens that are moved to
other places are read to the same tree, or to the same error with its positions moved (`filter_move`).

A filter is therefore read as its texts are, with the tokens numbered instead of placed (`parse_eq_readTexts`): the
number of a token, or of the end, tells where in the filter an error is.
-/

namespace FilterQuery

/-! ## Moving -/

def Token.move (f : Nat → Nat) (t : Token) : Token := { t with offset := f t.offset }

@[simp] theorem Token.text_move (f : Nat → Nat) (t : Token) : (t.move f).text = t.text := rfl

@[simp] theorem Token.offset_move (f : Nat → Nat) (t : Token) : (t.move f).offset = f t.offset := rfl

@[simp] theorem Token.is_move (f : Nat → Nat) (t : Token) (k : String) : (t.move f).is k = t.is k := rfl

/-- The same error with all its positions moved. -/
def ParseError.move (f : Nat → Nat) : ParseError → ParseError
  | unexpectedEnd expected position => unexpectedEnd expected (f position)
  | unsupportedOperator operator position => unsupportedOperator operator (f position)
  | unclosedGroup opened position => unclosedGroup (f opened) (f position)
  | trailingToken token position => trailingToken token (f position)
  | unresolvedField field position => unresolvedField field (f position)

@[simp] theorem stops_move {f : Nat → Nat} {k : String} {ts : List Token} :
    Stops k (ts.map (Token.move f)) ↔ Stops k ts := by
  cases ts <;> simp

namespace Expr

namespace Reading

variable {r : Reading} {f : Nat → Nat}

def move (f : Nat → Nat) (r : Reading) : Reading := { r with inputEnd := f r.inputEnd }

def moved (f : Nat → Nat) : Outcome → Outcome
  | .error err => .error (err.move f)
  | .ok (e, us) => .ok (e, us.map (Token.move f))

theorem position_move (ts : List Token) : (r.move f).position (ts.map (Token.move f)) = f (r.position ts) := by
  cases ts <;> rfl

/-! ## Moved tokens are read alike -/

theorem Leaf.move {ts : List Token} {o : Outcome} (h : Leaf r ts o) :
    Leaf (r.move f) (ts.map (Token.move f)) (moved f o) := by
  cases h with
  | noName => exact .noName
  | unresolved hn => exact .unresolved hn
  | noOperator hn => exact .noOperator hn
  | badOperator hn ho => exact .badOperator hn ho
  | noValue hn ho => exact .noValue hn ho
  | comparison hn ho => exact .comparison hn ho

theorem Run.move {p : Phase} {ts : List Token} {o : Outcome} (h : Run r p ts o) :
    Run (r.move f) p (ts.map (Token.move f)) (moved f o) := by
  induction h with
  | leaf hp h => exact .leaf (stops_move.2 hp) h.move
  | groupError hp _ ih => exact .groupError hp ih
  | closed hp _ hc ih => exact .closed hp ih hc
  | unclosed hp _ hs hm ih =>
    have hrun := Run.unclosed (t := Token.move f _) hp ih (stops_move.2 hs) hm
    rwa [position_move] at hrun
  | tolerated hp _ hs hm ih => exact .tolerated hp ih (stops_move.2 hs) hm
  | headError _ ih => exact .headError ih
  | head _ _ ih ihl => exact .head ih ihl
  | stop hs => exact .stop (stops_move.2 hs)
  | stepError hk _ ih => exact .stepError hk ih
  | step hk _ _ ih ihl => exact .step hk ih ihl

theorem filter_move (f : Nat → Nat) (r : Reading) (ts : List Token) :
    (r.move f).filter (ts.map (Token.move f)) = (r.filter ts).mapError (ParseError.move f) := by
  cases h : r.filter ts with
  | ok e =>
    obtain ⟨us, hrun, hus⟩ := filter_eq_ok_iff.1 h
    exact filter_eq_ok_iff.2 ⟨us.map (Token.move f), hrun.move, fun hm => by simp [hus hm]⟩
  | error err =>
    refine filter_eq_error_iff.2 ?_
    rcases filter_eq_error_iff.1 h with hrun | ⟨e, t, us, hrun, hm, rfl⟩
    · exact .inl hrun.move
    · exact .inr ⟨e, t.move f, us.map (Token.move f), hrun.move, hm, rfl⟩

end Reading

/-! ## Numbered tokens -/

/-- The texts read as tokens that stand at their numbers, with the end at the number of them all. -/
def readTexts (mode : ParseMode) (resolve : String → Option String) (texts : List String) : Except ParseError Expr :=
  Reading.filter ⟨resolve, mode, texts.length⟩ (texts.mapIdx fun k text => ⟨text, k⟩)

/-- The offset of the token with the number; where there is none, the end of the filter. -/
def place (input : String) (k : Nat) : Nat := ((tokenize input)[k]?).elim input.utf8ByteSize Token.offset

theorem parse_eq_readTexts (mode : ParseMode) (resolver : Resolver) (scope input : String) :
    parse mode resolver scope input =
      (readTexts mode (resolver scope) ((tokenize input).map Token.text)).mapError (ParseError.move (place input)) := by
  have htokens : (((tokenize input).map Token.text).mapIdx fun k text => (⟨text, k⟩ : Token)).map
      (Token.move (place input)) = tokenize input := by
    refine List.ext_getElem (by simp) fun k hk hk' => ?_
    simp [Token.move, place, hk']
  have hend : place input ((tokenize input).map Token.text).length = input.utf8ByteSize := by simp [place]
  rw [readTexts, ← Reading.filter_move, htokens, Reading.move, hend]
  rfl

end Expr

end FilterQuery
