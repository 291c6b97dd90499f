import FilterQuery.Proofs.Leaves

/-!
# Expressions that the reader returns

Whatever a filter writes and whichever mode reads it, the expression that comes back is well formed. A conjunction or
disjunction joins at least two operands, because a single one stands for itself. No number is infinite, because a token
that would be one is text. And nothing in the expression is made up: its comparisons stand in the filter, three tokens
next to one another for each, in the order in which the expression has them (`InOrder`).

A query that is built from such an expression has no hole: there is no null in it, and no list of clauses is empty or
has a single entry (`wellFormed_of_parse`).
-/

namespace FilterQuery

/-! ## Values -/

namespace Literal

def IsFinite : Literal → Prop
  | string _ => True
  | number x => x.isFinite = true

/-- A finite value is text or a number in JSON. -/
theorem IsFinite.toJson_cases {l : Literal} (h : l.IsFinite) :
    (∃ s, l.toJson = .string s) ∨ (∃ n, l.toJson = .int n) ∨ ∃ x, l.toJson = .float x := by
  cases l with
  | string s => exact .inl ⟨s, rfl⟩
  | number x =>
    have hfinite : x.isFinite = true := h
    rw [toJson, Binary64.toJson, if_pos hfinite]
    split
    · exact .inr (.inl ⟨_, rfl⟩)
    · exact .inr (.inr ⟨x, rfl⟩)

theorem isFinite_ofToken (raw : String) : (ofToken raw).IsFinite := by
  unfold ofToken
  split
  · trivial
  · split
    · next hread => exact (Option.filter_eq_some_iff.1 hread).2
    · trivial

end Literal

/-! ## Where comparisons stand -/

/-- The three tokens from the index on are the name, the operator and the value of the comparison. -/
def Comparison.StandsAt (c : Comparison) (ts : List Token) (index : Nat) : Prop :=
  ∃ (before after : List Token) (name operator value : Token),
    ts = before ++ name :: operator :: value :: after ∧ before.length = index ∧ name.text = c.logical ∧
      operator.text = c.op.keyword ∧ Literal.ofToken value.text = c.value

/-- The comparisons stand among the tokens one behind the other, from an index on. -/
inductive InOrder (ts : List Token) : Nat → List Comparison → Prop
  | nil {index : Nat} : InOrder ts index []
  | cons {lo index : Nat} {c : Comparison} {cs : List Comparison} (hlo : lo ≤ index) (hc : c.StandsAt ts index)
      (h : InOrder ts (index + 3) cs) : InOrder ts lo (c :: cs)

theorem Comparison.StandsAt.le_length {c : Comparison} {ts : List Token} {index : Nat} (h : c.StandsAt ts index) :
    index + 3 ≤ ts.length := by
  obtain ⟨before, after, name, operator, value, rfl, rfl, -⟩ := h
  simp

theorem Comparison.StandsAt.append_right {c : Comparison} {ts : List Token} {index : Nat} (h : c.StandsAt ts index)
    (us : List Token) : c.StandsAt (ts ++ us) index := by
  obtain ⟨before, after, name, operator, value, rfl, hindex, htexts⟩ := h
  exact ⟨before, after ++ us, name, operator, value, by simp, hindex, htexts⟩

theorem Comparison.StandsAt.append_left {c : Comparison} {us : List Token} {index : Nat} (h : c.StandsAt us index)
    (ts : List Token) : c.StandsAt (ts ++ us) (ts.length + index) := by
  obtain ⟨before, after, name, operator, value, rfl, rfl, htexts⟩ := h
  exact ⟨ts ++ before, after, name, operator, value, by simp, by simp, htexts⟩

theorem InOrder.of_le {ts : List Token} {lo index : Nat} {cs : List Comparison} (h : InOrder ts index cs)
    (hlo : lo ≤ index) : InOrder ts lo cs := by
  cases h with
  | nil => exact .nil
  | cons hindex hc h => exact .cons (Nat.le_trans hlo hindex) hc h

theorem InOrder.append_left {us : List Token} {index : Nat} {cs : List Comparison} (h : InOrder us index cs)
    (ts : List Token) : InOrder (ts ++ us) (ts.length + index) cs := by
  induction h with
  | nil => exact .nil
  | cons hlo hc _ ih => exact .cons (Nat.add_le_add_left hlo _) (hc.append_left ts) ih

theorem InOrder.append {ts us : List Token} {index : Nat} {cs ds : List Comparison} (h : InOrder ts index cs)
    (hindex : index ≤ ts.length) (hd : InOrder us 0 ds) : InOrder (ts ++ us) index (cs ++ ds) := by
  induction h with
  | nil => exact (hd.append_left ts).of_le hindex
  | cons hlo hc _ ih => exact .cons hlo (hc.append_right us) (ih hc.le_length)

theorem InOrder.append_right {ts : List Token} {cs : List Comparison} (h : InOrder ts 0 cs) (us : List Token) :
    InOrder (ts ++ us) 0 cs := by
  have hnil : InOrder us 0 [] := .nil
  have happend := h.append (Nat.zero_le _) hnil
  rwa [List.append_nil] at happend

theorem InOrder.finite {ts : List Token} {index : Nat} {cs : List Comparison} (h : InOrder ts index cs) :
    ∀ c ∈ cs, c.value.IsFinite := by
  induction h with
  | nil => simp
  | @cons _ _ c _ _ hc _ ih =>
    obtain ⟨_, _, _, _, value, _, _, _, _, hvalue⟩ := hc
    refine List.forall_mem_cons.2 ⟨?_, ih⟩
    rw [← hvalue]
    exact Literal.isFinite_ofToken value.text

theorem inOrder_singleton {c : Comparison} {name operator value : Token} (hname : name.text = c.logical)
    (hoperator : operator.text = c.op.keyword) (hvalue : Literal.ofToken value.text = c.value) :
    InOrder [name, operator, value] 0 [c] :=
  .cons (Nat.le_refl 0) ⟨[], [], name, operator, value, rfl, rfl, hname, hoperator, hvalue⟩ .nil

namespace Expr

/-! ## The shape of a tree -/

/-- No number in the expression is infinite or no number at all. -/
def Finite (e : Expr) : Prop := ∀ c ∈ e.comparisons, c.value.IsFinite

mutual

/-- Every conjunction and every disjunction, at any depth, joins at least two operands. -/
def Branching : Expr → Prop
  | comparison _ => True
  | and operands => 2 ≤ operands.length ∧ AllBranching operands
  | or operands => 2 ≤ operands.length ∧ AllBranching operands

def AllBranching : List Expr → Prop
  | [] => True
  | e :: es => Branching e ∧ AllBranching es

end

theorem allBranching_iff {es : List Expr} : AllBranching es ↔ ∀ e ∈ es, e.Branching := by
  induction es with
  | nil => simp [AllBranching]
  | cons e es ih => simp [AllBranching, ih]

theorem branching_join {c : Connective} {es : List Expr} (hne : es ≠ []) (h : ∀ e ∈ es, e.Branching) :
    (c.join es).Branching := by
  match es with
  | [] => contradiction
  | [e] => exact h e (by simp)
  | e :: e' :: es =>
    have hlength : 2 ≤ (e :: e' :: es).length := by simp
    cases c <;> exact ⟨hlength, allBranching_iff.2 h⟩

/-- What the reader returns for these tokens, with the names of the scope. -/
structure WellFormed (resolve : String → Option String) (ts : List Token) (e : Expr) : Prop where
  branching : e.Branching
  resolved : e.Resolved resolve
  finite : e.Finite
  inOrder : InOrder ts 0 e.comparisons

namespace Reading

variable {r : Reading}

/-- The operands that a phase starts with are trees that branch; a loop has at least one. -/
def Phase.Branching : Phase → Prop
  | .phrase _ => True
  | .loop _ parts => parts ≠ [] ∧ ∀ part ∈ parts, part.Branching

theorem Run.branching {p : Phase} {ts us : List Token} {e : Expr} (h : Run r p ts (.ok (e, us)))
    (hp : p.Branching) : e.Branching := by
  generalize ho : Except.ok (e, us) = o at h
  induction h generalizing e us with
  | leaf _ h =>
    cases h with
    | noName | unresolved _ | noOperator _ | badOperator _ _ | noValue _ _ => cases ho
    | comparison _ _ =>
      cases ho
      trivial
  | groupError | unclosed | headError | stepError => cases ho
  | closed _ _ _ ih | tolerated _ _ _ _ ih =>
    cases ho
    exact ih trivial rfl
  | head _ _ ih ihl => exact ihl ⟨by simp, by simpa using ih trivial rfl⟩ ho
  | stop =>
    cases ho
    exact branching_join hp.1 hp.2
  | step _ _ _ ih ihl =>
    refine ihl ⟨by simp, fun part hpart => ?_⟩ ho
    rcases List.mem_append.1 hpart with hpart | hpart
    · exact hp.2 part hpart
    · rw [List.mem_singleton.1 hpart]
      exact ih trivial rfl

/-- The tokens that a phase takes write what it adds to the operands it starts with. -/
theorem Run.inOrder {p : Phase} {ts us : List Token} {e : Expr} (h : Run r p ts (.ok (e, us))) :
    ∃ read, ts = read ++ us ∧
      ∀ before, InOrder before 0 (p.parts.flatMap comparisons) → InOrder (before ++ read) 0 e.comparisons := by
  generalize ho : Except.ok (e, us) = o at h
  induction h generalizing e us with
  | leaf _ h =>
    cases h with
    | noName | unresolved _ | noOperator _ | badOperator _ _ | noValue _ _ => cases ho
    | @comparison name operator value field op ts hn hop =>
      cases ho
      refine ⟨[name, operator, value], rfl, fun before hb => ?_⟩
      exact hb.append (Nat.zero_le _)
        (inOrder_singleton rfl (CompareOp.ofKeyword?_eq_some_iff.1 hop) rfl)
  | groupError | unclosed | headError | stepError => cases ho
  | @closed t c ts us e hp h hc ih =>
    cases ho
    obtain ⟨inner, rfl, hi⟩ := ih rfl
    refine ⟨t :: (inner ++ [c]), by simp, fun before hb => ?_⟩
    have hgroup := (hi (before ++ [t]) (hb.append_right [t])).append_right [c]
    simpa using hgroup
  | @tolerated t ts us e hp h hs hm ih =>
    cases ho
    obtain ⟨inner, rfl, hi⟩ := ih rfl
    refine ⟨t :: inner, rfl, fun before hb => ?_⟩
    simpa using hi (before ++ [t]) (hb.append_right [t])
  | head h hl ih ihl =>
    obtain ⟨first, rfl, hf⟩ := ih rfl
    obtain ⟨others, rfl, hothers⟩ := ihl ho
    refine ⟨first ++ others, by simp, fun before hb => ?_⟩
    rw [← List.append_assoc]
    exact hothers _ (by simpa [Phase.parts] using hf before hb)
  | stop =>
    cases ho
    refine ⟨[], rfl, fun before hb => ?_⟩
    simpa [Phase.parts] using hb
  | @step c parts t ts us next o hk h hl ih ihl =>
    obtain ⟨operand, rfl, hoperand⟩ := ih rfl
    obtain ⟨others, rfl, hothers⟩ := ihl ho
    refine ⟨t :: (operand ++ others), by simp, fun before hb => ?_⟩
    have hnext : InOrder (t :: operand) 0 next.comparisons := hoperand [t] .nil
    have hjoined := hothers (before ++ t :: operand) (by simpa [Phase.parts] using hb.append (Nat.zero_le _) hnext)
    simpa using hjoined

end Reading

theorem wellFormed_parsed {mode : ParseMode} {resolver : Resolver} {scope input : String} {e : Expr}
    (h : parse mode resolver scope input = .ok e) : e.WellFormed (resolver scope) (tokenize input) := by
  obtain ⟨us, hr, -⟩ := Reading.filter_eq_ok_iff.1 h
  obtain ⟨read, hts, hread⟩ := hr.inOrder
  have hinOrder : InOrder (tokenize input) 0 e.comparisons := by
    rw [hts]
    simpa using (hread [] .nil).append_right us
  exact ⟨hr.branching trivial, resolved_of_parse h, hinOrder.finite, hinOrder⟩

end Expr

/-! ## The query -/

/-- A JSON value is another one or a part of it, at any depth. -/
inductive Json.Within (part : Json) : Json → Prop
  | self : Within part part
  | item {x : Json} {items : List Json} (hx : x ∈ items) (h : Within part x) : Within part (.array items)
  | member {key : String} {x : Json} {members : List (String × Json)} (hx : (key, x) ∈ members)
      (h : Within part x) : Within part (.object members)

namespace Query

/-- No null is in the node, and every list of clauses in it has at least two. -/
structure Complete (node : Json) : Prop where
  noNull : ¬ Json.Within .null node
  clauses : ∀ members key items, Json.Within (.object members) node → (key, .array items) ∈ members →
    key = "must" ∨ key = "should" → 2 ≤ items.length

theorem complete_single {key : String} {value : Json} (h : Complete value)
    (hkey : ∀ items, value = .array items → key = "must" ∨ key = "should" → 2 ≤ items.length) :
    Complete (.single key value) where
  noNull hnull := by
    cases hnull with
    | member hx hnull =>
      obtain ⟨rfl, rfl⟩ := Prod.mk.inj (List.mem_singleton.1 hx)
      exact h.noNull hnull
  clauses members key' items hwithin hm hclause := by
    cases hwithin with
    | self =>
      obtain ⟨rfl, hitems⟩ := Prod.mk.inj (List.mem_singleton.1 hm)
      exact hkey items hitems.symm hclause
    | member hx hwithin =>
      obtain ⟨rfl, rfl⟩ := Prod.mk.inj (List.mem_singleton.1 hx)
      exact h.clauses members key' items hwithin hm hclause

theorem complete_array {items : List Json} (h : ∀ x ∈ items, Complete x) : Complete (.array items) where
  noNull hnull := by
    cases hnull with
    | item hx hnull => exact (h _ hx).noNull hnull
  clauses members key items hwithin := by
    cases hwithin with
    | item hx hwithin => exact (h _ hx).clauses members key items hwithin

/-- A list of clauses under one of the words of `bool`. -/
theorem complete_clauses {word : String} {nodes : List Json} (h : ∀ node ∈ nodes, Complete node)
    (hlength : 2 ≤ nodes.length) : Complete (.single "bool" (.single word (.array nodes))) := by
  refine complete_single (complete_single (complete_array h) ?_) (by simp [Json.single])
  rintro items ⟨⟩ -
  exact hlength

/-- A clause on a finite value. -/
theorem complete_value {l : Literal} (h : l.IsFinite) (key : String) : Complete (.single key l.toJson) := by
  rcases h.toJson_cases with ⟨s, hl⟩ | ⟨n, hl⟩ | ⟨x, hl⟩ <;> rw [hl]
  all_goals exact complete_single ⟨by rintro ⟨⟩, by rintro _ _ _ ⟨⟩⟩ (by simp)

theorem complete_comparison {c : Comparison} (h : c.value.IsFinite) : Complete c.toQuery := by
  have hobject {key : String} {members : List (String × Json)} (hm : Complete (.object members)) :
      Complete (.single key (.object members)) := complete_single hm (by simp)
  have hphrase : Complete (matchPhrase c.field c.value.toJson) := hobject (complete_value h c.field)
  unfold Comparison.toQuery
  split
  · next key _ => exact hobject (hobject (complete_value h key))
  · extract_lets node
    split
    · exact hobject (hobject hphrase)
    · exact hphrase

mutual

theorem complete_toQuery : ∀ e : Expr, e.Branching → e.Finite → Complete e.toQuery
  | .comparison c, _, hf => by
    rw [Expr.toQuery]
    exact complete_comparison (hf c (by simp [Expr.comparisons]))
  | .and es, ⟨hlength, hb⟩, hf => by
    rw [Expr.toQuery]
    exact complete_clauses (complete_toQueries es hb hf) (by simpa [Expr.toQueries_eq_map] using hlength)
  | .or es, ⟨hlength, hb⟩, hf => by
    rw [Expr.toQuery]
    exact complete_clauses (complete_toQueries es hb hf) (by simpa [Expr.toQueries_eq_map] using hlength)

theorem complete_toQueries : ∀ es : List Expr, Expr.AllBranching es →
    (∀ c ∈ Expr.allComparisons es, c.value.IsFinite) → ∀ node ∈ Expr.toQueries es, Complete node
  | [], _, _ => by simp [Expr.toQueries]
  | e :: es, ⟨hb, hbs⟩, hf => by
    simp only [Expr.allComparisons, List.mem_append] at hf
    refine List.forall_mem_cons.2 ⟨?_, ?_⟩
    · exact complete_toQuery e hb fun c hc => hf c (.inl hc)
    · exact complete_toQueries es hbs fun c hc => hf c (.inr hc)

end

end Query

/-- **What the reader returns is well formed, and so is a query that is built from it.** In either mode, an expression
that is read has at least two operands in each conjunction and disjunction, its names resolve to its fields, its
numbers are finite and its comparisons stand in the filter in their order. The query of a document has no null and at
least two clauses in each list. -/
theorem wellFormed_of_parse :
    (∀ (mode : ParseMode) (resolver : Resolver) (scope input : String) (e : Expr),
      Expr.parse mode resolver scope input = .ok e → e.WellFormed (resolver scope) (tokenize input)) ∧
    ∀ (resolver : Resolver) (scope filter : String) (options : QueryOptions) (env : Envelope),
      buildQuery resolver scope filter options = .ok env → Query.Complete env.query := by
  refine ⟨fun mode resolver scope input e => Expr.wellFormed_parsed, fun resolver scope filter options env h => ?_⟩
  obtain ⟨e, includes, hp, -, rfl⟩ := exists_of_buildQuery h
  have he := Expr.wellFormed_parsed hp
  exact Query.complete_toQuery e he.branching he.finite

/-- Both groups are left open before `d`; the values are a word and a parenthesis of the grammar. -/
theorem wellFormed_of_parse_lenient :
    let filter := "(a eq 'x' and (b ne and or c le ) d"
    let e : Expr := .and [.comparison ⟨"a", "a", .eq, .string "x"⟩,
      .or [.comparison ⟨"b", "b", .ne, .string "and"⟩, .comparison ⟨"c", "c", .le, .string ")"⟩]]
    e.WellFormed some (tokenize filter) ∧
      ∃ env, buildQuery (fun _ name => some name) "log" filter { lenient := true } = .ok env ∧
        env.query = e.toQuery ∧ Query.Complete env.query := by
  intro filter e
  have ht : tokenize filter =
      [⟨"(", 0⟩, ⟨"a", 1⟩, ⟨"eq", 3⟩, ⟨"'x'", 6⟩, ⟨"and", 10⟩, ⟨"(", 14⟩, ⟨"b", 15⟩, ⟨"ne", 17⟩, ⟨"and", 20⟩,
        ⟨"or", 24⟩, ⟨"c", 27⟩, ⟨"le", 29⟩, ⟨")", 32⟩, ⟨"d", 34⟩] := by decide
  have hvalues : Literal.ofToken "'x'" = .string "x" ∧ Literal.ofToken "and" = .string "and" ∧
      Literal.ofToken ")" = .string ")" := by decide
  have hparse : Expr.parse .lenient (fun _ name => some name) "log" filter = .ok e := by
    unfold Expr.parse
    rw [ht]
    simp [Expr.Reading.filter, Expr.Reading.disjunction, Expr.Reading.disjuncts, Expr.Reading.conjunction,
      Expr.Reading.conjuncts, Expr.Reading.term, Expr.Reading.comparison, Expr.Reading.closeGroup,
      Expr.Reading.collapse, Token.is, CompareOp.ofKeyword?, hvalues, e]
  have hbuild : buildQuery (fun _ name => some name) "log" filter { lenient := true } =
      .ok ⟨e.toQuery, 500, 0, ["*"]⟩ := by
    have hmode : Expr.parse (QueryOptions.mode { lenient := true }) (fun _ name => some name) "log" filter = .ok e :=
      hparse
    rw [buildQuery_of_parse hmode]
    rfl
  exact ⟨wellFormed_of_parse.1 _ _ _ _ _ hparse, _, hbuild, rfl, wellFormed_of_parse.2 _ _ _ _ _ hbuild⟩

end FilterQuery
