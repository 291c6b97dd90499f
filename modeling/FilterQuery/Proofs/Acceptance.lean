import FilterQuery.Proofs.Run

/-!
# The reader accepts the grammar

In strict mode the reader and the grammar agree in both directions. A phrase that is read was derived from
the tokens it took (`Run.covers`), and a derived phrase is read as such whatever follows it, as long as that
does not go on with the phrase (`run_of_derives`). The second direction holds in both modes.

A loop takes the operands read so far with it. What it reads is therefore no phrase of its own but what makes
one of any texts that write those operands (`Phase.Covers`).

From the two directions: acceptance is derivability (`parse_strict_iff_derives`), and the tree of a list of
texts is unique, since a run has one outcome.
-/

namespace FilterQuery.Expr

open Grammar (Level Derives Joined)

namespace Reading

variable {r : Reading}

/-! ## What is read was derived -/

/-- The texts that a phase takes, with the ones of the operands it starts with, write the tree. -/
def Phase.Covers (resolve : String → Option String) : Phase → List String → Expr → Prop
  | .phrase l, texts, e => Derives resolve l texts e
  | .loop c parts, texts, e =>
    ∀ before, Joined resolve c before parts → Derives resolve (.chain c) (before ++ texts) e

theorem Run.covers {p : Phase} {ts us : List Token} {e : Expr} (hm : r.mode = .strict)
    (h : Run r p ts (.ok (e, us))) :
    ∃ read, ts = read ++ us ∧ p.Covers r.resolve (read.map Token.text) e := by
  -- the outcome is a variable of the induction, since the errors have rules too
  generalize ho : Except.ok (e, us) = o at h
  induction h generalizing e us with
  | leaf hp h =>
    cases h with
    | noName | unresolved _ | noOperator _ | badOperator _ _ | noValue _ _ => cases ho
    | @comparison name operator value field op ts hn hop =>
      cases ho
      refine ⟨[name, operator, value], rfl, .comparison ?_ hn hop⟩
      intro e
      simp [(Token.is_open_iff name).2 e] at hp
  | groupError | unclosed | headError | stepError => cases ho
  | @closed t c ts us e hp h hc ih =>
    cases ho
    obtain ⟨inner, rfl, hd⟩ := ih rfl
    refine ⟨t :: (inner ++ [c]), by simp, ?_⟩
    have hg := Derives.group hd
    rw [← (Token.is_open_iff t).1 hp, ← (Token.is_close_iff c).1 hc] at hg
    simpa [Phase.Covers] using hg
  | tolerated _ _ _ hl => simp [hm] at hl
  | head h hl ih ihl =>
    obtain ⟨first, rfl, hd⟩ := ih rfl
    obtain ⟨others, rfl, hc⟩ := ihl ho
    refine ⟨first ++ others, by simp, ?_⟩
    rw [List.map_append]
    exact hc _ (.one hd)
  | stop hs =>
    cases ho
    refine ⟨[], rfl, fun before hb => ?_⟩
    rw [List.map_nil, List.append_nil]
    exact .chain hb
  | @step c parts t ts us e o hk h hl ih ihl =>
    obtain ⟨operand, rfl, hd⟩ := ih rfl
    obtain ⟨others, rfl, hc⟩ := ihl ho
    refine ⟨t :: (operand ++ others), by simp, fun before hb => ?_⟩
    have hj := hc _ (.snoc hb ((Token.is_keyword_iff c t).1 hk) hd)
    simpa using hj

/-! ## Where a phrase ends -/

/-- No phrase of the level goes on into these tokens. -/
def Ends : Level → List Token → Prop
  | .term, _ => True
  | .chain .and, ts => Stops "and" ts
  | .chain .or, ts => Stops "and" ts ∧ Stops "or" ts

theorem ends_chain (c : Connective) (ts : List Token) :
    Ends (.chain c) ts ↔ Ends c.operand ts ∧ Stops c.keyword ts := by
  cases c <;> simp [Ends, Connective.operand, Connective.keyword]

/-- Tokens that begin with neither word prolong nothing. -/
theorem ends_of_stops {ts : List Token} (h : ∀ c : Connective, Stops c.keyword ts) (l : Level) :
    Ends l ts := by
  cases l with
  | term => trivial
  | chain c =>
    cases c with
    | and => exact h .and
    | or => exact ⟨h .and, h .or⟩

@[simp] theorem ends_nil (l : Level) : Ends l [] := ends_of_stops (fun _ => stops_nil _) l

/-- The word of a connective does not prolong its operands. -/
theorem ends_of_keyword {c : Connective} {t : Token} (hk : t.is c.keyword = true) (ts : List Token) :
    Ends c.operand (t :: ts) := by
  cases c with
  | and => trivial
  | or =>
    rw [Token.is, beq_iff_eq] at hk
    refine (stops_cons ..).2 ?_
    rw [Token.is, hk]
    decide

theorem ends_of_close {t : Token} (hc : t.is ")" = true) (ts : List Token) (l : Level) : Ends l (t :: ts) := by
  rw [Token.is, beq_iff_eq] at hc
  refine ends_of_stops (fun c => (stops_cons ..).2 ?_) l
  rw [Token.is, hc]
  cases c <;> decide

/-- A phase that stops before `us` leaves nothing it could have read. A loop sees to its own word only, so for
it this depends on where it started. -/
def Phase.Leaves : Phase → List Token → List Token → Prop
  | .phrase l, _, us => Ends l us
  | .loop c _, ts, us => Ends c.operand ts → Ends (.chain c) us

theorem Run.leaves {p : Phase} {ts us : List Token} {e : Expr} (h : Run r p ts (.ok (e, us))) :
    p.Leaves ts us := by
  generalize ho : Except.ok (e, us) = o at h
  induction h generalizing e us with
  | leaf | closed | tolerated => trivial
  | groupError | unclosed | headError | stepError => cases ho
  | head h hl ih ihl => exact ihl ho (ih rfl)
  | @stop c parts ts hs =>
    cases ho
    exact fun hr => (ends_chain c ts).2 ⟨hr, hs⟩
  | step hk h hl ih ihl => exact fun _ => ihl ho (ih rfl)

/-! ## What is derived is read -/

mutual

theorem run_of_derives {l : Level} {texts : List String} {e : Expr} : Derives r.resolve l texts e →
    ∀ {ts rest : List Token}, ts.map Token.text = texts → Ends l rest →
      Run r (.phrase l) (ts ++ rest) (.ok (e, rest))
  | .comparison hp hf ho, ts, rest, ht, _ => by
    match ts, ht with
    | [name, operator, value], ht =>
      simp only [List.map_cons, List.map_nil, List.cons.injEq, and_true] at ht
      obtain ⟨rfl, rfl, rfl⟩ := ht
      refine .leaf ?_ (.comparison hf ho)
      rw [List.cons_append, stops_cons, Bool.eq_false_iff]
      exact mt (Token.is_open_iff name).1 hp
  | .group h, ts, rest, ht, _ => by
    obtain ⟨t, inner, rfl, hp, hi⟩ := List.map_eq_cons_iff.1 ht
    obtain ⟨read, close, rfl, hr, hc⟩ := List.map_eq_append_iff.1 hi
    obtain ⟨c, rfl, hct⟩ := List.map_eq_singleton_iff.1 hc
    have hc' := (Token.is_close_iff c).2 hct
    have hd := run_of_derives h hr (ends_of_close hc' rest _)
    rw [List.cons_append, List.append_assoc]
    exact .closed ((Token.is_open_iff t).2 hp) hd hc'
  | .chain h, ts, rest, ht, hr => by
    obtain ⟨ho, hs⟩ := (ends_chain _ rest).1 hr
    exact run_of_joined h ht ho (.stop hs)

/-- Joined operands bring the reader into their loop, with these operands in hand. -/
theorem run_of_joined {c : Connective} {texts : List String} {es : List Expr} :
    Joined r.resolve c texts es → ∀ {ts rest : List Token} {o : Outcome}, ts.map Token.text = texts →
      Ends c.operand rest → Run r (.loop c es) rest o → Run r (.phrase (.chain c)) (ts ++ rest) o
  | .one h, ts, rest, o, ht, hr, hl => .head (run_of_derives h ht hr) hl
  | .snoc hs hw h, ts, rest, o, ht, hr, hl => by
    -- the last operand is a step of the loop that the operands before it lead into
    obtain ⟨before, after, rfl, hb, ha⟩ := List.map_eq_append_iff.1 ht
    obtain ⟨t, operand, rfl, rfl, ho⟩ := List.map_eq_cons_iff.1 ha
    have hk := (Token.is_keyword_iff c t).2 hw
    rw [List.append_assoc]
    exact run_of_joined hs hb (ends_of_keyword hk _) (.step hk (run_of_derives h ho hr) hl)

end

/-- A comparison by itself is a whole filter. -/
theorem derives_comparison {resolve : String → Option String} {name operator field : String} {op : CompareOp}
    (hp : name ≠ "(") (hf : resolve name = some field) (ho : CompareOp.ofKeyword? operator = some op)
    (value : String) :
    Derives resolve (.chain .or) [name, operator, value] (.comparison ⟨field, name, op, .ofToken value⟩) :=
  .chain (.one (.chain (.one (.comparison hp hf ho))))

theorem filter_of_derives {ts : List Token} {e : Expr}
    (h : Derives r.resolve (.chain .or) (ts.map Token.text) e) : r.filter ts = .ok e := by
  rw [filter_eq_ok_iff]
  refine ⟨[], ?_, fun _ => rfl⟩
  simpa using run_of_derives h rfl (ends_nil _)

theorem filter_strict_iff_derives (hm : r.mode = .strict) {ts : List Token} {e : Expr} :
    r.filter ts = .ok e ↔ Derives r.resolve (.chain .or) (ts.map Token.text) e := by
  refine ⟨fun h => ?_, filter_of_derives⟩
  obtain ⟨us, hr, hus⟩ := filter_eq_ok_iff.1 h
  obtain ⟨read, rfl, hd⟩ := hr.covers hm
  rw [hus hm, List.append_nil]
  exact hd

end Reading

theorem derives_unique {resolve : String → Option String} {texts : List String} {e e' : Expr}
    (h : Derives resolve (.chain .or) texts e) (h' : Derives resolve (.chain .or) texts e') : e = e' := by
  let r : Reading := ⟨resolve, .strict, 0⟩
  let ts : List Token := texts.map fun text => ⟨text, 0⟩
  have ht : ts.map Token.text = texts := by simp [ts, Function.comp_def]
  rw [← ht] at h h'
  have hr : r.filter ts = .ok e := Reading.filter_of_derives h
  have hr' : r.filter ts = .ok e' := Reading.filter_of_derives h'
  simpa [hr] using hr'

/-- A derivable filter is accepted in both modes. -/
theorem parse_of_derives {resolver : Resolver} {scope input : String} {e : Expr}
    (h : Derives (resolver scope) (.chain .or) ((tokenize input).map Token.text) e) (mode : ParseMode) :
    parse mode resolver scope input = .ok e :=
  Reading.filter_of_derives (r := ⟨resolver scope, mode, input.utf8ByteSize⟩) h

/-- Three tokens that can be a comparison are one. -/
theorem parse_comparison {resolver : Resolver} {scope input name field value : String} {op : CompareOp}
    (ht : (tokenize input).map Token.text = [name, op.keyword, value]) (hp : name ≠ "(")
    (hf : resolver scope name = some field) (mode : ParseMode) :
    parse mode resolver scope input = .ok (.comparison ⟨field, name, op, .ofToken value⟩) := by
  have hd := Reading.derives_comparison hp hf (CompareOp.ofKeyword?_keyword op) value
  rw [← ht] at hd
  exact parse_of_derives hd mode

theorem derives_of_parse {resolver : Resolver} {scope input : String} {e : Expr}
    (h : parse .strict resolver scope input = .ok e) :
    Derives (resolver scope) (.chain .or) ((tokenize input).map Token.text) e :=
  (Reading.filter_strict_iff_derives (r := ⟨resolver scope, .strict, input.utf8ByteSize⟩) rfl).1 h

/-- **The strict reader accepts exactly its grammar**, with the tree that the grammar gives to the texts of the
tokens; and the grammar gives no list of texts two trees. -/
theorem parse_strict_iff_derives (resolver : Resolver) (scope input : String) :
    (∀ e, parse .strict resolver scope input = .ok e ↔
      Derives (resolver scope) (.chain .or) ((tokenize input).map Token.text) e) ∧
    ∀ (texts : List String) (e e' : Expr), Derives (resolver scope) (.chain .or) texts e →
      Derives (resolver scope) (.chain .or) texts e' → e = e' :=
  ⟨fun _ => ⟨derives_of_parse, fun h => parse_of_derives h .strict⟩, fun _ _ _ h h' => derives_unique h h'⟩

end FilterQuery.Expr
