import FilterQuery.Proofs.Lenient

/-!
# What an error blames

A strict reading fails at the earliest token it can. The tokens before the one that an error blames still
begin a filter that is accepted, and with this token they begin none (`parse_error_earliest`). An error at the
end of the filter blames no token: all that is there can be gone on with.

Both halves come from one induction over a failing run (`Run.blames`). The tokens that the run took are made a
phrase by texts put after them, which the induction builds from the innermost phrase outwards. That the blamed
token cannot stand there whatever follows it is a statement about runs as well: with any other tokens behind
the blamed one the reader fails again.
-/

namespace FilterQuery.Expr

open Grammar (Level Derives Joined)

namespace Reading

variable {r : Reading}

/-! ## Other tokens behind the next one -/

/-- Where a phrase ends depends on the next token only. -/
theorem ends_congr {l : Level} {ts us : List Token} (h : ts.head? = us.head?) (he : Ends l ts) : Ends l us := by
  cases l with
  | term => trivial
  | chain c => cases c <;> simpa [Ends, Stops, h] using he

theorem ends_append_cons {l : Level} {read us : List Token} {t : Token} (h : Ends l (read ++ t :: us))
    (ws : List Token) : Ends l (read ++ t :: ws) := by
  refine ends_congr ?_ h
  cases read <;> rfl

/-- A phrase that was read before tokens is read before any others that begin with the same one. -/
theorem Run.again {l : Level} {first us : List Token} {t : Token} {e : Expr} (read : List Token)
    (h : Run r (.phrase l) (first ++ (read ++ t :: us)) (.ok (e, read ++ t :: us)))
    (hd : Derives r.resolve l (first.map Token.text) e) (ws : List Token) :
    Run r (.phrase l) (first ++ (read ++ t :: ws)) (.ok (e, read ++ t :: ws)) :=
  run_of_derives hd rfl (ends_append_cons h.leaves ws)

/-! ## Failing runs -/

/-- A phase that fails on these tokens took `read` of them. Texts can follow those so that the phase reads a
tree. The error is at the next token, and with this one there the phase fails whatever comes after it. -/
structure Blames (r : Reading) (p : Phase) (err : ParseError) (read us : List Token) : Prop where
  position : err.position = r.position us
  viable : ∃ (more : List String) (e : Expr), p.Covers r.resolve (read.map Token.text ++ more) e
  fatal : ∀ t rest, us = t :: rest → ∀ ws, ∃ err', Run r p (read ++ t :: ws) (.error err')

theorem text_ne_open {t : Token} {ts : List Token} (h : Stops "(" (t :: ts)) : t.text ≠ "(" := by
  intro ho
  simp [(Token.is_open_iff t).2 ho] at h

/-- A name that resolves and an operator are a comparison with any value. -/
theorem derives_clause {name field operator : String} {op : CompareOp} (hne : name ≠ "(")
    (hf : r.resolve name = some field) (ho : CompareOp.ofKeyword? operator = some op) :
    ∃ e, Derives r.resolve .term [name, operator, "0"] e :=
  ⟨_, .comparison hne hf ho⟩

theorem Leaf.blames {ts : List Token} {err : ParseError} (hp : Stops "(" ts) (h : Leaf r ts (.error err))
    (hn : ∃ name field, name ≠ "(" ∧ r.resolve name = some field) :
    ∃ read us, ts = read ++ us ∧ Blames r (.phrase .term) err read us := by
  have heq := CompareOp.ofKeyword?_keyword .eq
  cases h with
  | noName =>
    obtain ⟨name, field, hne, hf⟩ := hn
    obtain ⟨e, he⟩ := derives_clause hne hf heq
    exact ⟨[], [], rfl, rfl, ⟨_, e, he⟩, by simp⟩
  | @unresolved t ts ht =>
    obtain ⟨name, field, hne, hf⟩ := hn
    obtain ⟨e, he⟩ := derives_clause hne hf heq
    refine ⟨[], t :: ts, rfl, rfl, ⟨_, e, he⟩, ?_⟩
    rintro _ _ ⟨⟩ ws
    exact ⟨_, .leaf (by simpa using hp) (.unresolved ht)⟩
  | @noOperator t field ht =>
    obtain ⟨e, he⟩ := derives_clause (text_ne_open hp) ht heq
    exact ⟨[t], [], rfl, rfl, ⟨_, e, he⟩, by simp⟩
  | @badOperator t operator field ts ht ho =>
    obtain ⟨e, he⟩ := derives_clause (text_ne_open hp) ht heq
    refine ⟨[t], operator :: ts, rfl, rfl, ⟨_, e, he⟩, ?_⟩
    rintro _ _ ⟨⟩ ws
    exact ⟨_, .leaf (by simpa using hp) (.badOperator ht ho)⟩
  | @noValue t operator field op ht ho =>
    obtain ⟨e, he⟩ := derives_clause (text_ne_open hp) ht ho
    exact ⟨[t, operator], [], rfl, rfl, ⟨_, e, he⟩, by simp⟩

theorem Run.blames (hm : r.mode = .strict) (hn : ∃ name field, name ≠ "(" ∧ r.resolve name = some field)
    {p : Phase} {ts : List Token} {err : ParseError} (h : Run r p ts (.error err)) :
    ∃ read us, ts = read ++ us ∧ Blames r p err read us := by
  generalize ho : Except.error err = o at h
  induction h with
  | leaf hp h =>
    subst ho
    exact h.blames hp hn
  | closed | tolerated | stop => cases ho
  | @groupError t ts err' hp h ih =>
    obtain ⟨read, us, rfl, hpos, ⟨more, e, he⟩, hfatal⟩ := ih ho
    refine ⟨t :: read, us, rfl, hpos, ⟨more ++ [")"], e, ?_⟩, fun u rest hu ws => ?_⟩
    · have hg := Derives.group he
      rw [← (Token.is_open_iff t).1 hp] at hg
      simpa [Phase.Covers] using hg
    · obtain ⟨err'', hrun⟩ := hfatal u rest hu ws
      exact ⟨err'', .groupError hp hrun⟩
  | @unclosed t ts us e hp h hs _ _ =>
    -- the group is complete but for its parenthesis, and the blamed token is none
    cases ho
    obtain ⟨read, rfl, hd⟩ := h.covers hm
    refine ⟨t :: read, us, rfl, rfl, ⟨[")"], e, ?_⟩, ?_⟩
    · have hg := Derives.group hd
      rw [← (Token.is_open_iff t).1 hp] at hg
      simpa [Phase.Covers] using hg
    · rintro u rest rfl ws
      exact ⟨_, .unclosed hp (h.again [] hd ws) (by simpa using hs) hm⟩
  | @headError c ts err' h ih =>
    obtain ⟨read, us, rfl, hpos, ⟨more, e, he⟩, hfatal⟩ := ih ho
    refine ⟨read, us, rfl, hpos, ⟨more, _, .chain (.one he)⟩, fun u rest hu ws => ?_⟩
    obtain ⟨err'', hrun⟩ := hfatal u rest hu ws
    exact ⟨err'', .headError hrun⟩
  | @head c ts us e o h hl _ ihl =>
    obtain ⟨first, rfl, hd⟩ := h.covers hm
    obtain ⟨read, us, rfl, hpos, ⟨more, e', he⟩, hfatal⟩ := ihl ho
    refine ⟨first ++ read, us, by simp, hpos, ⟨more, e', ?_⟩, ?_⟩
    · have hj := he _ (.one hd)
      simpa [Phase.Covers] using hj
    · rintro u rest rfl ws
      obtain ⟨err', hrun⟩ := hfatal u rest rfl ws
      rw [List.append_assoc]
      exact ⟨err', .head (h.again read hd ws) hrun⟩
  | @stepError c parts t ts err' hk h ih =>
    obtain ⟨read, us, rfl, hpos, ⟨more, e, he⟩, hfatal⟩ := ih ho
    refine ⟨t :: read, us, rfl, hpos, ⟨more, c.join (parts ++ [e]), fun before hb => ?_⟩, fun u rest hu ws => ?_⟩
    · exact .chain (.snoc hb ((Token.is_keyword_iff c t).1 hk) he)
    · obtain ⟨err'', hrun⟩ := hfatal u rest hu ws
      exact ⟨err'', .stepError hk hrun⟩
  | @step c parts t ts us e o hk h hl _ ihl =>
    obtain ⟨operand, rfl, hd⟩ := h.covers hm
    obtain ⟨read, us, rfl, hpos, ⟨more, e', he⟩, hfatal⟩ := ihl ho
    refine ⟨t :: (operand ++ read), us, by simp, hpos, ⟨more, e', fun before hb => ?_⟩, ?_⟩
    · have hj := he _ (.snoc hb ((Token.is_keyword_iff c t).1 hk) hd)
      simpa using hj
    · rintro u rest rfl ws
      obtain ⟨err', hrun⟩ := hfatal u rest rfl ws
      rw [List.cons_append, List.append_assoc]
      exact ⟨err', .step hk (h.again read hd ws) hrun⟩

/-! ## Whole filters -/

/-- The fault at a position is at index `k`, which is the number of tokens if it is at the end. The tokens before
it begin an accepted list of tokens; with the one at the index no list that begins with the same texts is
accepted. -/
structure FaultAt (r : Reading) (ts : List Token) (position k : Nat) : Prop where
  index_le : k ≤ ts.length
  located : r.position (ts.drop k) = position
  viable : ∃ (more : List Token) (e : Expr), r.filter (ts.take k ++ more) = .ok e
  fatal : k < ts.length → ∀ (us : List Token) (e : Expr),
    (ts.take (k + 1)).map Token.text <+: us.map Token.text → r.filter us ≠ .ok e

/-- A token that follows a whole expression and does not go on with it is blamed as one that fails a phrase. -/
theorem blames_of_filter (hm : r.mode = .strict) (hn : ∃ name field, name ≠ "(" ∧ r.resolve name = some field)
    {ts : List Token} {err : ParseError} (h : r.filter ts = .error err) :
    ∃ read us, ts = read ++ us ∧ err.position = r.position us ∧
      (∃ (more : List String) (e : Expr), Derives r.resolve (.chain .or) (read.map Token.text ++ more) e) ∧
      ∀ t rest, us = t :: rest → ∀ ws, ∃ err', r.filter (read ++ t :: ws) = .error err' := by
  rcases filter_eq_error_iff.1 h with hr | ⟨e, t, us, hr, -, rfl⟩
  · obtain ⟨read, us, hts, hpos, hviable, hfatal⟩ := hr.blames hm hn
    refine ⟨read, us, hts, hpos, hviable, fun t rest hu ws => ?_⟩
    obtain ⟨err', hrun⟩ := hfatal t rest hu ws
    exact ⟨err', filter_eq_error_iff.2 (.inl hrun)⟩
  · obtain ⟨read, rfl, hd⟩ := hr.covers hm
    refine ⟨read, t :: us, rfl, rfl, ⟨[], e, by simpa [Phase.Covers] using hd⟩, ?_⟩
    rintro _ _ ⟨⟩ ws
    exact ⟨_, filter_eq_error_iff.2 (.inr ⟨e, t, ws, hr.again [] hd ws, hm, rfl⟩)⟩

/-- Tokens with the given texts; where they stand does not matter to acceptance. -/
def tokensOf (texts : List String) : List Token := texts.map fun text => ⟨text, 0⟩

@[simp] theorem map_text_tokensOf (texts : List String) : (tokensOf texts).map Token.text = texts := by
  simp [tokensOf, Function.comp_def]

theorem faultAt_of_filter (hm : r.mode = .strict) (hn : ∃ name field, name ≠ "(" ∧ r.resolve name = some field)
    {ts : List Token} {err : ParseError} (h : r.filter ts = .error err) :
    ∃ k, FaultAt r ts err.position k ∧ ∀ lo, Token.Ascending lo r.inputEnd ts → Token.index err.position ts = k := by
  obtain ⟨read, us, rfl, hpos, ⟨more, e, he⟩, hfatal⟩ := blames_of_filter hm hn h
  refine ⟨read.length, ⟨by simp, by simp [hpos], ⟨tokensOf more, e, ?_⟩, fun hk vs e' hv hok => ?_⟩, ?_⟩
  · rw [List.take_left]
    exact filter_of_derives (by simpa using he)
  · -- an accepted list with these texts would be accepted behind the blamed token too
    obtain ⟨t, rest, rfl⟩ := List.exists_cons_of_ne_nil (l := us) (by rintro rfl; simp at hk)
    rw [List.take_length_add_append, List.take_one] at hv
    obtain ⟨others, hothers⟩ := hv
    obtain ⟨err', herr⟩ := hfatal t rest rfl (tokensOf others)
    have hd := (filter_strict_iff_derives hm).1 hok
    rw [← hothers] at hd
    have hok' : r.filter (read ++ t :: tokensOf others) = .ok e' := filter_of_derives (by simpa using hd)
    rw [herr] at hok'
    cases hok'
  · intro lo ha
    rw [hpos, index_position ha]

end Reading

/-- **An error is reported at the earliest token it can be.** In a scope where some name resolves, whatever tokens the
strict reader rejects, the tokens before the blamed one begin an accepted list of tokens, and with the blamed one they
begin none. In a filter the blamed token is the one at the position of the error. -/
theorem parse_error_earliest (resolver : Resolver) (scope : String)
    (hn : ∃ name field, name ≠ "(" ∧ resolver scope name = some field) :
    (∀ (inputEnd : Nat) (ts : List Token) (err : ParseError),
      Reading.filter ⟨resolver scope, .strict, inputEnd⟩ ts = .error err →
        ∃ k, Reading.FaultAt ⟨resolver scope, .strict, inputEnd⟩ ts err.position k) ∧
    ∀ (input : String) (err : ParseError), parse .strict resolver scope input = .error err →
      Reading.FaultAt ⟨resolver scope, .strict, input.utf8ByteSize⟩ (tokenize input) err.position
        (Token.index err.position (tokenize input)) := by
  constructor
  · intro inputEnd ts err h
    obtain ⟨k, hk, -⟩ := Reading.faultAt_of_filter (r := ⟨resolver scope, .strict, inputEnd⟩) rfl hn h
    exact ⟨k, hk⟩
  · intro input err h
    obtain ⟨k, hk, hindex⟩ := Reading.faultAt_of_filter (r := ⟨resolver scope, .strict, input.utf8ByteSize⟩) rfl hn h
    rw [hindex 0 (Token.ascending_tokenize input)]
    exact hk

/-- The group's values are words of the grammar, so the parenthesis before `x` does not close it: `x` is blamed. -/
theorem parse_error_earliest_unclosed :
    parse .strict (fun _ name => if name = "x" then none else some name) "log"
        "a eq 1 and (b ne and or c lt ) x" = .error (.unclosedGroup 11 31) ∧
      Reading.FaultAt ⟨fun name => if name = "x" then none else some name, .strict, 32⟩
        (tokenize "a eq 1 and (b ne and or c lt ) x") 31 12 := by
  have ht : tokenize "a eq 1 and (b ne and or c lt ) x" =
      [⟨"a", 0⟩, ⟨"eq", 2⟩, ⟨"1", 5⟩, ⟨"and", 7⟩, ⟨"(", 11⟩, ⟨"b", 12⟩, ⟨"ne", 14⟩, ⟨"and", 17⟩, ⟨"or", 21⟩,
        ⟨"c", 24⟩, ⟨"lt", 26⟩, ⟨")", 29⟩, ⟨"x", 31⟩] := by decide
  have h : parse .strict (fun _ name => if name = "x" then none else some name) "log"
      "a eq 1 and (b ne and or c lt ) x" = .error (.unclosedGroup 11 31) := by
    unfold parse
    rw [ht]
    simp [Reading.filter, Reading.disjunction, Reading.disjuncts, Reading.conjunction, Reading.conjuncts,
      Reading.term, Reading.comparison, Reading.closeGroup, Token.is, CompareOp.ofKeyword?]
  refine ⟨h, ?_⟩
  have hf := (parse_error_earliest (fun _ name => if name = "x" then none else some name) "log"
    ⟨"a", "a", by decide, by decide⟩).2 _ _ h
  rw [ht] at hf ⊢
  exact hf

end FilterQuery.Expr
