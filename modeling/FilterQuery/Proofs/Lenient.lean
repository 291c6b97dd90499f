import FilterQuery.Proofs.Acceptance
import FilterQuery.Proofs.Scan

/-!
# Lenient mode is strict mode and a repair

In lenient mode a group may end without its parenthesis, and tokens after the expression are ignored. Neither
lets the reader take another way through the tokens: where the strict reader ends without an error about
structure the lenient one ends alike, and where a strict run meets a group that is not closed, the lenient
run closes it there and is stuck. The token it stands before is no `)`, no `and` and no `or`, so no group and
no loop around it can go on, and all of them end at the same place (`Run.mended`).

What a stuck run has read lacks only its parentheses: with as many of them as groups were open, the strict
reader accepts it with the same tree.
-/

namespace FilterQuery.Expr

open Grammar (Level Derives Joined)

namespace Reading

variable {r : Reading}

def lenient (r : Reading) : Reading := { r with mode := .lenient }

/-- Nothing that is open can go on into these tokens: they begin with no closing parenthesis and no word. -/
def Stuck (ts : List Token) : Prop := Stops ")" ts ∧ Ends (.chain .or) ts

theorem stuck_nil : Stuck [] := ⟨stops_nil _, ends_nil _⟩

theorem Stuck.stops {ts : List Token} (h : Stuck ts) : ∀ c : Connective, Stops c.keyword ts
  | .and => h.2.1
  | .or => h.2.2

theorem Stuck.ends {ts : List Token} (h : Stuck ts) (l : Level) : Ends l ts := ends_of_stops h.stops l

/-- Where a phrase ends before tokens, it ends before any others that are stuck or begin with the same. -/
theorem ends_append_of_stuck {l : Level} {read us ws : List Token} (h : Ends l (read ++ us)) (hw : Stuck ws) :
    Ends l (read ++ ws) := by
  cases read with
  | nil => exact hw.ends l
  | cons t read =>
    match l, h with
    | .term, _ => trivial
    | .chain .and, h => exact h
    | .chain .or, h => exact h

/-- What the lenient reader makes of a phase that ends so in strict mode. -/
inductive Mended (r : Reading) (p : Phase) (ts : List Token) : Outcome → Prop
  | unchanged {o : Outcome} (h : Run r.lenient p ts o)
      (ho : ∀ opened position, o ≠ .error (.unclosedGroup opened position)) : Mended r p ts o
  | closed (read us : List Token) (e : Expr) (d : Nat) {opened : Nat} (hts : ts = read ++ us)
      (hus : Stuck us) (hd : 1 ≤ d) (h : ∀ ws, Stuck ws → Run r.lenient p (read ++ ws) (.ok (e, ws)))
      (hc : p.Covers r.resolve (read.map Token.text ++ List.replicate d ")") e) :
      Mended r p ts (.error (.unclosedGroup opened (r.position us)))

theorem Leaf.lenient {ts : List Token} {o : Outcome} (h : Leaf r ts o) : Leaf r.lenient ts o := by
  cases h with
  | noName => exact .noName
  | unresolved hn => exact .unresolved hn
  | noOperator hn => exact .noOperator hn
  | badOperator hn ho => exact .badOperator hn ho
  | noValue hn ho => exact .noValue hn ho
  | comparison hn ho => exact .comparison hn ho

theorem Leaf.ne_unclosedGroup {ts : List Token} {o : Outcome} (h : Leaf r ts o) (opened position : Nat) :
    o ≠ .error (.unclosedGroup opened position) := by
  rintro rfl
  cases h

/-- A group around texts that lack parentheses lacks one more. -/
theorem derives_group_replicate {resolve : String → Option String} {texts : List String} {e : Expr} {d : Nat}
    {t : Token} (hp : t.is "(" = true) (h : Derives resolve (.chain .or) (texts ++ List.replicate d ")") e) :
    Derives resolve .term (t.text :: texts ++ List.replicate (d + 1) ")") e := by
  have hg := Derives.group h
  rw [(Token.is_open_iff t).1 hp, List.replicate_succ']
  simpa using hg

theorem Run.mended (hm : r.mode = .strict) {p : Phase} {ts : List Token} {o : Outcome} (h : Run r p ts o) :
    Mended r p ts o := by
  induction h with
  | leaf hp h => exact .unchanged (.leaf hp h.lenient) h.ne_unclosedGroup
  | @groupError t ts err hp h ih =>
    -- a group around one that is not closed: the lenient run ends both at the same place
    cases ih with
    | unchanged hl ho => exact .unchanged (.groupError hp hl) (by simpa using ho)
    | closed read us e d hts hus hd hl hc =>
      refine .closed (t :: read) us e (d + 1) (by rw [hts]; rfl) hus (by omega) ?_ ?_
      · exact fun ws hw => .tolerated hp (hl ws hw) hw.1 rfl
      · exact derives_group_replicate hp hc
  | closed hp h hc ih =>
    cases ih with
    | unchanged hl ho => exact .unchanged (.closed hp hl hc) (by simp)
  | @unclosed t ts us e hp h hs _ ih =>
    -- the innermost group: what it holds is complete, and only this parenthesis is missing
    obtain ⟨read, rfl, hd⟩ := h.covers hm
    have hus : Stuck us := ⟨hs, h.leaves⟩
    refine .closed (t :: read) us e 1 rfl hus (Nat.le_refl _) ?_ ?_
    · exact fun ws hw => .tolerated hp (run_of_derives (r := r.lenient) hd rfl (hw.ends _)) hw.1 rfl
    · refine derives_group_replicate hp ?_
      rw [List.replicate_zero, List.append_nil]
      exact hd
  | tolerated _ _ _ hl => simp [hm] at hl
  | @headError c ts err h ih =>
    cases ih with
    | unchanged hl ho => exact .unchanged (.headError hl) (by simpa using ho)
    | closed read us e d hts hus hd hl hc =>
      refine .closed read us e d hts hus hd (fun ws hw => ?_) ?_
      · exact .head (hl ws hw) (.stop (hw.stops c))
      · exact Derives.chain (.one hc)
  | @head c ts us e o h hl ih ihl =>
    cases ih with
    | unchanged hl' _ =>
      obtain ⟨first, rfl, hd⟩ := h.covers hm
      cases ihl with
      | unchanged hll ho => exact .unchanged (.head hl' hll) ho
      | closed read us e' d hts hus hd' hll hc =>
        -- the first operand is complete, so it is read again before any stuck tokens
        subst hts
        refine .closed (first ++ read) us e' d (by simp) hus hd' (fun ws hw => ?_) ?_
        · rw [List.append_assoc]
          have he := ends_append_of_stuck h.leaves hw
          exact .head (run_of_derives (r := r.lenient) hd rfl he) (hll ws hw)
        · have hj := hc _ (.one hd)
          simpa [Phase.Covers] using hj
  | stop hs => exact .unchanged (.stop hs) (by simp)
  | @stepError c parts t ts err hk h ih =>
    cases ih with
    | unchanged hl ho => exact .unchanged (.stepError hk hl) (by simpa using ho)
    | closed read us e d hts hus hd hl hc =>
      refine .closed (t :: read) us (c.join (parts ++ [e])) d (by rw [hts]; rfl) hus hd
        (fun ws hw => ?_) fun before hb => ?_
      · exact .step hk (hl ws hw) (.stop (hw.stops c))
      · exact Derives.chain (.snoc hb ((Token.is_keyword_iff c t).1 hk) hc)
  | @step c parts t ts us e o hk h hl ih ihl =>
    cases ih with
    | unchanged hl' _ =>
      obtain ⟨operand, rfl, hd⟩ := h.covers hm
      cases ihl with
      | unchanged hll ho => exact .unchanged (.step hk hl' hll) ho
      | closed read us e' d hts hus hd' hll hc =>
        subst hts
        refine .closed (t :: (operand ++ read)) us e' d (by simp) hus hd' (fun ws hw => ?_) fun before hb => ?_
        · rw [List.cons_append, List.append_assoc]
          have he := ends_append_of_stuck h.leaves hw
          exact .step hk (run_of_derives (r := r.lenient) hd rfl he) (hll ws hw)
        · have hj := hc _ (.snoc hb ((Token.is_keyword_iff c t).1 hk) hd)
          simpa using hj

/-! ## Whole filters -/

/-- The tokens before the position are a filter that writes `e` once `d` closing parentheses follow them, and
in lenient mode they are one as they stand. -/
def Repaired (r : Reading) (ts : List Token) (position d : Nat) (e : Expr) : Prop :=
  (∀ closers : List Token, closers.map Token.text = List.replicate d ")" →
    r.filter (ts.take (Token.index position ts) ++ closers) = .ok e) ∧
  r.lenient.filter (ts.take (Token.index position ts)) = .ok e

/-- The tokens that are read lie before the position of the next one. -/
theorem offset_lt_position {lo : Nat} {read us : List Token} (h : Token.Ascending lo r.inputEnd (read ++ us)) :
    ∀ t ∈ read, t.offset < r.position us := by
  intro t ht
  cases us with
  | nil => exact (h.bounds t (by simpa using ht)).2
  | cons u us => exact (List.pairwise_append.1 h.pairwise).2.2 t ht u (by simp)

/-- The tokens that are not read lie at the position of the next one or behind it. -/
theorem position_le_offset {lo : Nat} {read us : List Token} (h : Token.Ascending lo r.inputEnd (read ++ us)) :
    ∀ u ∈ us, r.position us ≤ u.offset := by
  intro u hu
  cases us with
  | nil => simp at hu
  | cons v us =>
    rcases List.mem_cons.1 hu with rfl | hu
    · exact Nat.le_refl _
    · have hlater := (List.pairwise_append.1 h.pairwise).2.1
      exact Nat.le_of_lt (List.rel_of_pairwise_cons hlater hu)

/-- The index of the position that an error names is the number of tokens read before it. -/
theorem index_position {lo : Nat} {read us : List Token} (h : Token.Ascending lo r.inputEnd (read ++ us)) :
    Token.index (r.position us) (read ++ us) = read.length := by
  have hlt := offset_lt_position h
  have hread : read.findIdx (fun t => t.offset == r.position us) = read.length := by
    rw [List.findIdx_eq_length]
    intro t ht
    simpa using Nat.ne_of_lt (hlt t ht)
  rw [Token.index, List.findIdx_append, hread]
  cases us with
  | nil => simp
  | cons u us => simp [List.findIdx_cons, position]

theorem repaired_of_run {lo d : Nat} {read us : List Token} {e : Expr}
    (ha : Token.Ascending lo r.inputEnd (read ++ us))
    (hc : Derives r.resolve (.chain .or) (read.map Token.text ++ List.replicate d ")") e)
    (h : Run r.lenient (.phrase (.chain .or)) read (.ok (e, []))) :
    Repaired r (read ++ us) (r.position us) d e := by
  unfold Repaired
  rw [index_position ha, List.take_left]
  refine ⟨fun closers hcl => filter_of_derives ?_, filter_eq_ok_iff.2 ⟨[], h, fun _ => rfl⟩⟩
  rwa [List.map_append, hcl]

/-- Only what follows a whole expression can be a trailing token. -/
theorem Run.ne_trailingToken {p : Phase} {ts : List Token} {o : Outcome} (h : Run r p ts o)
    (token : String) (position : Nat) : o ≠ .error (.trailingToken token position) := by
  induction h with
  | leaf hp h =>
    rintro rfl
    cases h
  | groupError _ _ ih | headError _ ih | stepError _ _ ih => exact ih
  | closed | unclosed | tolerated | stop => simp
  | head _ _ _ ihl | step _ _ _ _ ihl => exact ihl

/-- In lenient mode a group may be left open. -/
theorem Run.ne_unclosedGroup {p : Phase} {ts : List Token} {o : Outcome} (h : Run r.lenient p ts o)
    (opened position : Nat) : o ≠ .error (.unclosedGroup opened position) := by
  induction h with
  | leaf hp h => exact h.ne_unclosedGroup opened position
  | groupError _ _ ih | headError _ ih | stepError _ _ ih => exact ih
  | unclosed _ _ _ hm => cases hm
  | closed | tolerated | stop => simp
  | head _ _ _ ihl | step _ _ _ _ ihl => exact ihl

theorem run_of_filter_lenient {ts : List Token} {err : ParseError} (h : r.lenient.filter ts = .error err) :
    Run r.lenient (.phrase (.chain .or)) ts (.error err) := by
  rcases filter_eq_error_iff.1 h with hr | ⟨_, _, _, _, hm, _⟩
  · exact hr
  · cases hm

theorem filter_lenient_of_run {ts us : List Token} {e : Expr}
    (h : Run r.lenient (.phrase (.chain .or)) ts (.ok (e, us))) : r.lenient.filter ts = .ok e :=
  filter_eq_ok_iff.2 ⟨us, h, by simp [lenient]⟩

theorem filter_lenient {lo : Nat} {ts : List Token} (hm : r.mode = .strict)
    (ha : Token.Ascending lo r.inputEnd ts) :
    match r.filter ts with
    | .ok e => r.lenient.filter ts = .ok e
    | .error (.trailingToken _ position) => ∃ e, r.lenient.filter ts = .ok e ∧ Repaired r ts position 0 e
    | .error (.unclosedGroup _ position) =>
      ∃ e d, r.lenient.filter ts = .ok e ∧ 1 ≤ d ∧ Repaired r ts position d e
    | .error err => r.lenient.filter ts = .error err := by
  cases h : r.filter ts with
  | ok e => exact filter_of_derives (r := r.lenient) ((filter_strict_iff_derives hm).1 h)
  | error err =>
    rcases filter_eq_error_iff.1 h with hr | ⟨e, t, us, hr, -, rfl⟩
    · have ht := hr.ne_trailingToken
      cases hr.mended hm with
      | unchanged hl ho =>
        have hf : r.lenient.filter ts = .error err := filter_eq_error_iff.2 (.inl hl)
        cases err with
        | trailingToken token position => exact absurd rfl (ht token position)
        | unclosedGroup opened position => exact absurd rfl (ho opened position)
        | unexpectedEnd | unsupportedOperator | unresolvedField => exact hf
      | closed read us e d hts hus hd hl hc =>
        subst hts
        have hread : Run r.lenient (.phrase (.chain .or)) read (.ok (e, [])) := by
          simpa using hl [] stuck_nil
        exact ⟨e, d, filter_lenient_of_run (hl us hus), hd, repaired_of_run ha hc hread⟩
    · obtain ⟨read, rfl, hd⟩ := hr.covers hm
      have hl : ∀ ws, Ends (.chain .or) ws → Run r.lenient (.phrase (.chain .or)) (read ++ ws) (.ok (e, ws)) :=
        fun ws hw => run_of_derives (r := r.lenient) hd rfl hw
      have hc : Derives r.resolve (.chain .or) (read.map Token.text ++ List.replicate 0 ")") e := by
        rw [List.replicate_zero, List.append_nil]
        exact hd
      have hread : Run r.lenient (.phrase (.chain .or)) read (.ok (e, [])) := by
        simpa using hl [] (ends_nil _)
      exact ⟨e, filter_lenient_of_run (hl _ hr.leaves), repaired_of_run ha hc hread⟩

end Reading

/-- **Lenient mode is strict mode and a repair.** What strict mode accepts or blames on a name, an operator or
a missing token, lenient mode treats alike. Where strict mode blames the structure, lenient mode accepts: its
tree is that of the tokens before the one blamed, with the closing parentheses they lack, and no later token
has a part in it. -/
theorem parse_lenient (resolver : Resolver) (scope input : String) :
    (match parse .strict resolver scope input with
    | .ok e => parse .lenient resolver scope input = .ok e
    | .error (.trailingToken _ position) =>
      ∃ e, parse .lenient resolver scope input = .ok e ∧
        Reading.Repaired ⟨resolver scope, .strict, input.utf8ByteSize⟩ (tokenize input) position 0 e
    | .error (.unclosedGroup _ position) =>
      ∃ e d, parse .lenient resolver scope input = .ok e ∧ 1 ≤ d ∧
        Reading.Repaired ⟨resolver scope, .strict, input.utf8ByteSize⟩ (tokenize input) position d e
    | .error err => parse .lenient resolver scope input = .error err) ∧
    (∀ token position, parse .lenient resolver scope input ≠ .error (.trailingToken token position)) ∧
    ∀ opened position, parse .lenient resolver scope input ≠ .error (.unclosedGroup opened position) := by
  let r : Reading := ⟨resolver scope, .strict, input.utf8ByteSize⟩
  refine ⟨Reading.filter_lenient (r := r) rfl (Token.ascending_tokenize input), ?_, ?_⟩
  · intro token position hl
    exact (Reading.run_of_filter_lenient (r := r) hl).ne_trailingToken token position rfl
  · intro opened position hl
    exact (Reading.run_of_filter_lenient (r := r) hl).ne_unclosedGroup opened position rfl

end FilterQuery.Expr
