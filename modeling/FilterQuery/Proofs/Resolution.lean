import FilterQuery.Proofs.Leaves
import FilterQuery.Proofs.Lenient

/-!
# Names are resolved in the order of the filter

The reader asks for a name as soon as it comes to it. Reading the whole filter first and resolving its names
afterwards gives the same result, because nothing but the first name without an answer depends on the answers.

Which tokens are names is told by the tokens before them: a name stands at the start, after a parenthesis that
opens a group and after a word that joins operands, and behind it come an operator and a value (`Slot`). A run
that takes every name as it stands fixes the names that any run from the same tokens asks for, in their order,
and with them its result (`Run.asks`). So a filter has one list of names, whatever resolves them
(`exists_asked`), and the error of a name comes before every error that lies behind it
(`parse_eq_resolve_after`).
-/

namespace FilterQuery

/-! ## Fields put in afterwards -/

/-- The comparison with the stored field that its name has; where it has none, nothing changes. -/
def Comparison.withField (resolve : String → Option String) (c : Comparison) : Comparison :=
  { c with field := (resolve c.logical).getD c.field }

namespace Expr

open Grammar (Level)

mutual

/-- The expression with the stored fields that the names in it have. -/
def withFields (resolve : String → Option String) : Expr → Expr
  | comparison c => comparison (c.withField resolve)
  | and operands => and (allWithFields resolve operands)
  | or operands => or (allWithFields resolve operands)

def allWithFields (resolve : String → Option String) : List Expr → List Expr
  | [] => []
  | e :: es => withFields resolve e :: allWithFields resolve es

end

theorem allWithFields_eq_map (resolve : String → Option String) (es : List Expr) :
    allWithFields resolve es = es.map (withFields resolve) := by
  induction es with
  | nil => rfl
  | cons e es ih => rw [allWithFields, List.map_cons, ih]

@[simp] theorem withFields_join (resolve : String → Option String) (c : Connective) (es : List Expr) :
    (c.join es).withFields resolve = c.join (es.map (withFields resolve)) := by
  match es with
  | [e] => rfl
  | [] | _ :: _ :: _ =>
    cases c <;> simp [Connective.join, Connective.combine, withFields, allWithFields_eq_map]

namespace Reading

/-! ## Where a name stands -/

/-- What the next token is, as far as the tokens before it tell. -/
inductive Slot where
  | name
  | operator
  | value
  /-- Behind a comparison or a group: a word that joins another one, or the end of a group. -/
  | joint
deriving DecidableEq, Repr

namespace Slot

/-- The slot behind a token. -/
def next : Slot → Token → Slot
  | name, t => if t.is "(" then name else operator
  | operator, _ => value
  | value, _ => joint
  | joint, t => if t.is ")" then joint else name

/-- The slot behind tokens. -/
def after (s : Slot) (ts : List Token) : Slot := ts.foldl next s

/-- The tokens that stand for names. A parenthesis in the place of one opens a group. -/
def names : Slot → List Token → List Token
  | _, [] => []
  | name, t :: ts => if t.is "(" then names (name.next t) ts else t :: names (name.next t) ts
  | s, t :: ts => names (s.next t) ts

@[simp] theorem after_nil (s : Slot) : s.after [] = s := rfl

@[simp] theorem after_cons (s : Slot) (t : Token) (ts : List Token) : s.after (t :: ts) = (s.next t).after ts := rfl

@[simp] theorem names_nil (s : Slot) : s.names [] = [] := by simp [names]

theorem after_append (s : Slot) (ts us : List Token) : s.after (ts ++ us) = (s.after ts).after us :=
  List.foldl_append

theorem names_append (s : Slot) (ts us : List Token) :
    s.names (ts ++ us) = s.names ts ++ (s.after ts).names us := by
  induction ts generalizing s with
  | nil => simp
  | cons t ts ih =>
    rw [List.cons_append, after_cons]
    cases s with
    | name =>
      by_cases hp : t.is "(" = true
      · simp [names, hp, ih]
      · simp [names, hp, ih]
    | operator | value | joint => simp [names, ih]

theorem next_open {t : Token} (hp : t.is "(" = true) : name.next t = name := by simp [next, hp]

theorem names_open {t : Token} (hp : t.is "(" = true) (ts : List Token) : name.names (t :: ts) = name.names ts := by
  simp [names, hp, next_open hp]

theorem next_close {t : Token} (hc : t.is ")" = true) : joint.next t = joint := by simp [next, hc]

/-- A word that joins operands is no parenthesis. -/
theorem next_keyword {c : Connective} {t : Token} (hk : t.is c.keyword = true) : joint.next t = name := by
  have hc : t.is ")" = false := by
    rw [Token.is, beq_iff_eq] at hk
    rw [Token.is, hk]
    cases c <;> decide
  simp [next, hc]

/-- Names keep the order of the tokens. -/
theorem names_sublist (s : Slot) (ts : List Token) : (s.names ts).Sublist ts := by
  induction ts generalizing s with
  | nil => simp
  | cons t ts ih =>
    cases s with
    | name =>
      by_cases hp : t.is "(" = true
      · rw [names_open hp]
        exact (ih name).cons t
      · simp only [names, hp]
        exact (ih _).cons_cons t
    | operator | value | joint =>
      rw [names]
      · exact (ih _).cons t
      · simp

theorem names_joint (t : Token) (ts : List Token) : joint.names (t :: ts) = (joint.next t).names ts := by
  simp [names]

/-- The one or two tokens behind a name are its operator and its value. -/
theorem names_clause {t : Token} {ts : List Token} (hp : t.is "(" = false) (hlen : ts.length ≤ 2) :
    name.names (t :: ts) = [t] := by
  match ts, hlen with
  | [], _ | [_], _ | [_, _], _ => simp [names, next, hp]

end Slot

/-- The slot that a phase begins in: that of a name, and for a loop, which has its first operand, the one behind it. -/
def Phase.slot : Phase → Slot
  | .phrase _ => .name
  | .loop _ _ => .joint

/-! ## Where a run stops -/

variable {r : Reading}

/-- The names in expressions, as the filter writes them. -/
def logicalNames (es : List Expr) : List String := (es.flatMap comparisons).map Comparison.logical

@[simp] theorem logicalNames_nil : logicalNames [] = [] := rfl

@[simp] theorem logicalNames_append (es fs : List Expr) :
    logicalNames (es ++ fs) = logicalNames es ++ logicalNames fs := by
  simp [logicalNames]

/-- A phase that took `read` and left `us` ends in one of two ways: behind an operand, with the names that it read in
its tree, or with an error of form at the next token. -/
def Stopped (r : Reading) (p : Phase) (read us : List Token) : Outcome → Prop
  | .ok (e, rest) =>
    rest = us ∧ p.slot.after read = .joint ∧
      logicalNames [e] = logicalNames p.parts ++ (p.slot.names read).map Token.text
  | .error err => err.position = r.position us ∧ err.isSyntax = true

/-- What a phase begins with may be read by another phase before it. -/
theorem Stopped.behind {p q : Phase} {before read us : List Token} {o : Outcome}
    (h : Stopped r q read us o) (hslot : p.slot.after before = q.slot)
    (hnames : logicalNames q.parts = logicalNames p.parts ++ (p.slot.names before).map Token.text) :
    Stopped r p (before ++ read) us o := by
  match o, h with
  | .error err, h => exact h
  | .ok (e, rest), ⟨hrest, hafter, he⟩ =>
    refine ⟨hrest, ?_, ?_⟩
    · rw [Slot.after_append, hslot, hafter]
    · rw [he, hnames, Slot.names_append, hslot, List.map_append, List.append_assoc]

/-! ## What a run asks for -/

/-- The reading with other answers for names. -/
def under (r : Reading) (resolve : String → Option String) : Reading := { r with resolve }

/-- The first of the names that does not resolve. -/
def firstMissing (resolve : String → Option String) (names : List Token) : Option Token :=
  names.find? fun t => (resolve t.text).isNone

theorem firstMissing_append (resolve : String → Option String) (ts us : List Token) :
    firstMissing resolve (ts ++ us) = (firstMissing resolve ts).or (firstMissing resolve us) :=
  List.find?_append

def Phase.withFields (resolve : String → Option String) : Phase → Phase
  | .phrase l => .phrase l
  | .loop c parts => .loop c (parts.map (Expr.withFields resolve))

/-- The names decide how a phase ends: at the first one without an answer, and if there is none, as it does where
names are taken as they stand, with the fields put in. -/
structure Asks (r : Reading) (resolve : String → Option String) (p : Phase) (ts names : List Token) (o : Outcome) :
    Prop where
  missing : ∀ t, firstMissing resolve names = some t →
    Run (r.under resolve) (p.withFields resolve) ts (.error (.unresolvedField t.text t.offset))
  resolved : firstMissing resolve names = none →
    Run (r.under resolve) (p.withFields resolve) ts (o.map (Prod.map (withFields resolve) id))

/-- A comparison asks for its name before it looks further. -/
theorem asks_clause {resolve : String → Option String} {name : Token} {ts : List Token} {o : Outcome}
    (hp : name.is "(" = false)
    (h : ∀ field, resolve name.text = some field →
      Leaf (r.under resolve) (name :: ts) (o.map (Prod.map (withFields resolve) id))) :
    Asks r resolve (.phrase .term) (name :: ts) [name] o := by
  have hs : Stops "(" (name :: ts) := by simpa using hp
  constructor
  · intro t ht
    obtain ⟨hnone, rfl⟩ : resolve name.text = none ∧ name = t := by simpa [firstMissing] using ht
    exact .leaf hs (.unresolved hnone)
  · intro hnone
    cases hres : resolve name.text with
    | none => simp [firstMissing, hres] at hnone
    | some field => exact .leaf hs (h field hres)

/-- A phase around one that fails with it asks for the same names. -/
theorem Asks.around {resolve : String → Option String} {p q : Phase} {ts us names : List Token} {o o' : Outcome}
    (h : Asks r resolve q us names o)
    (herror : ∀ err, Run (r.under resolve) (q.withFields resolve) us (.error err) →
      Run (r.under resolve) (p.withFields resolve) ts (.error err))
    (hgo : Run (r.under resolve) (q.withFields resolve) us (o.map (Prod.map (withFields resolve) id)) →
      Run (r.under resolve) (p.withFields resolve) ts (o'.map (Prod.map (withFields resolve) id))) :
    Asks r resolve p ts names o' :=
  ⟨fun t ht => herror _ (h.missing t ht), fun hnone => hgo (h.resolved hnone)⟩

/-- A phase that goes on behind an operand asks for the operand's names first. -/
theorem Asks.append {resolve : String → Option String} {p q q' : Phase} {ts us us' names names' : List Token}
    {o o' : Outcome} (h : Asks r resolve q us names o) (h' : Asks r resolve q' us' names' o')
    (herror : ∀ err, Run (r.under resolve) (q.withFields resolve) us (.error err) →
      Run (r.under resolve) (p.withFields resolve) ts (.error err))
    (hgo : Run (r.under resolve) (q.withFields resolve) us (o.map (Prod.map (withFields resolve) id)) →
      ∀ o, Run (r.under resolve) (q'.withFields resolve) us' o → Run (r.under resolve) (p.withFields resolve) ts o) :
    Asks r resolve p ts (names ++ names') o' := by
  constructor
  · intro t ht
    rw [firstMissing_append, Option.or_eq_some_iff] at ht
    rcases ht with ht | ⟨hnone, ht⟩
    · exact herror _ (h.missing t ht)
    · exact hgo (h.resolved hnone) _ (h'.missing t ht)
  · intro hnone
    rw [firstMissing_append, Option.or_eq_none_iff] at hnone
    exact hgo (h.resolved hnone.1) _ (h'.resolved hnone.2)

theorem Leaf.asks {ts : List Token} {o : Outcome} (hp : Stops "(" ts) (h : Leaf (r.under some) ts o) :
    ∃ read us, ts = read ++ us ∧ Stopped r (.phrase .term) read us o ∧
      ∀ resolve, Asks r resolve (.phrase .term) ts (Slot.name.names read) o := by
  cases h with
  | noName =>
    refine ⟨[], [], rfl, ⟨rfl, rfl⟩, fun resolve => ⟨fun t ht => ?_, fun _ => .leaf hp .noName⟩⟩
    simp [firstMissing] at ht
  | unresolved hn => cases hn
  | @noOperator name field hn =>
    rw [stops_cons] at hp
    refine ⟨[name], [], rfl, ⟨rfl, rfl⟩, fun resolve => ?_⟩
    rw [Slot.names_clause hp (by simp)]
    exact asks_clause hp fun field hres => .noOperator hres
  | @badOperator name operator field ts hn ho =>
    rw [stops_cons] at hp
    refine ⟨[name], operator :: ts, rfl, ⟨rfl, rfl⟩, fun resolve => ?_⟩
    rw [Slot.names_clause hp (by simp)]
    exact asks_clause hp fun field hres => .badOperator hres ho
  | @noValue name operator field op hn ho =>
    rw [stops_cons] at hp
    refine ⟨[name, operator], [], rfl, ⟨rfl, rfl⟩, fun resolve => ?_⟩
    rw [Slot.names_clause hp (by simp)]
    exact asks_clause hp fun field hres => .noValue hres ho
  | @comparison name operator value field op ts hn ho =>
    rw [stops_cons] at hp
    have hnames : Slot.name.names [name, operator, value] = [name] := Slot.names_clause hp (by simp)
    refine ⟨[name, operator, value], ts, rfl, ⟨rfl, ?_, ?_⟩, fun resolve => ?_⟩
    · simp [Slot.next, hp, Phase.slot]
    · simp [logicalNames, comparisons, Phase.parts, Phase.slot, hnames]
    · rw [hnames]
      refine asks_clause hp fun field' hres => ?_
      have hleaf := @Leaf.comparison (r.under resolve) name operator value field' op ts hres ho
      simpa [Except.map, withFields, Comparison.withField, hres] using hleaf

theorem Run.asks {p : Phase} {ts : List Token} {o : Outcome} (h : Run (r.under some) p ts o) :
    ∃ read us, ts = read ++ us ∧ Stopped r p read us o ∧
      ∀ resolve, Asks r resolve p ts (p.slot.names read) o := by
  induction h with
  | leaf hp h => exact h.asks hp
  | @groupError t ts err hp h ih =>
    obtain ⟨read, us, rfl, hs, ha⟩ := ih
    refine ⟨t :: read, us, rfl, hs, fun resolve => ?_⟩
    rw [Phase.slot, Slot.names_open hp]
    exact (ha resolve).around (fun _ => .groupError hp) (.groupError hp)
  | @closed t c ts us e hp h hc ih =>
    obtain ⟨read, _, rfl, ⟨rfl, hafter, he⟩, ha⟩ := ih
    simp only [Phase.slot] at hafter
    have hnames : Slot.name.names (t :: (read ++ [c])) = Slot.name.names read := by
      simp [Slot.names_open hp, Slot.names_append, hafter, Slot.names_joint]
    refine ⟨t :: (read ++ [c]), us, by simp, ⟨rfl, ?_, ?_⟩, fun resolve => ?_⟩
    · simp [Phase.slot, Slot.next_open hp, Slot.after_append, hafter, Slot.next_close hc]
    · rw [Phase.slot, hnames]
      exact he
    · rw [Phase.slot, hnames]
      exact (ha resolve).around (fun _ => .groupError hp) fun h => .closed hp h hc
  | @unclosed t ts us e hp h hs hm ih =>
    obtain ⟨read, _, rfl, ⟨rfl, hafter, he⟩, ha⟩ := ih
    refine ⟨t :: read, us, rfl, ⟨rfl, rfl⟩, fun resolve => ?_⟩
    rw [Phase.slot, Slot.names_open hp]
    exact (ha resolve).around (fun _ => .groupError hp) fun h => .unclosed hp h hs hm
  | @tolerated t ts us e hp h hs hm ih =>
    obtain ⟨read, _, rfl, ⟨rfl, hafter, he⟩, ha⟩ := ih
    refine ⟨t :: read, us, rfl, ⟨rfl, ?_, ?_⟩, fun resolve => ?_⟩
    · rw [Phase.slot, Slot.after_cons, Slot.next_open hp]
      exact hafter
    · rw [Phase.slot, Slot.names_open hp]
      exact he
    · rw [Phase.slot, Slot.names_open hp]
      exact (ha resolve).around (fun _ => .groupError hp) fun h => .tolerated hp h hs hm
  | @headError c ts err h ih =>
    obtain ⟨read, us, rfl, hs, ha⟩ := ih
    refine ⟨read, us, rfl, hs, fun resolve => ?_⟩
    exact (ha resolve).around (fun _ => .headError) .headError
  | @head c ts us e o h hl ih ihl =>
    obtain ⟨first, _, rfl, ⟨rfl, hafter, he⟩, ha⟩ := ih
    obtain ⟨read, us, rfl, hs, hal⟩ := ihl
    simp only [Phase.slot] at hafter
    refine ⟨first ++ read, us, by simp, hs.behind hafter he, fun resolve => ?_⟩
    rw [Phase.slot, Slot.names_append, hafter]
    exact (ha resolve).append (hal resolve) (fun _ => .headError) fun h _ hl => .head h hl
  | @stop c parts ts hs =>
    refine ⟨[], ts, rfl, ⟨rfl, rfl, ?_⟩, fun resolve => ⟨fun t ht => by simp [firstMissing] at ht, fun _ => ?_⟩⟩
    · simp [logicalNames, Phase.parts]
    · have hstop := @Run.stop (r.under resolve) c (parts.map (withFields resolve)) ts hs
      simpa [Except.map, Phase.withFields] using hstop
  | @stepError c parts t ts err hk h ih =>
    obtain ⟨read, us, rfl, hs, ha⟩ := ih
    refine ⟨t :: read, us, rfl, hs, fun resolve => ?_⟩
    rw [Phase.slot, Slot.names_joint, Slot.next_keyword hk]
    exact (ha resolve).around (fun _ => .stepError hk) (.stepError hk)
  | @step c parts t ts us e o hk h hl ih ihl =>
    obtain ⟨operand, _, rfl, ⟨rfl, hafter, he⟩, ha⟩ := ih
    obtain ⟨read, us, rfl, hs, hal⟩ := ihl
    simp only [Phase.slot] at hafter
    have hnames : Slot.joint.names (t :: operand) = Slot.name.names operand := by
      rw [Slot.names_joint, Slot.next_keyword hk]
    have hslot : Slot.joint.after (t :: operand) = .joint := by
      rw [Slot.after_cons, Slot.next_keyword hk, hafter]
    refine ⟨t :: operand ++ read, us, by simp, hs.behind hslot ?_, fun resolve => ?_⟩
    · rw [Phase.slot, hnames]
      simpa [Phase.parts, Phase.slot] using he
    · rw [Phase.slot, Slot.names_append, hnames, hslot]
      refine (ha resolve).append (hal resolve) (fun _ => .stepError hk) fun h _ hl => .step hk h ?_
      simpa [Phase.withFields] using hl

/-! ## Whole filters -/

/-- The end of a reading: in strict mode no token may be left. -/
def finish (mode : ParseMode) : Outcome → Except ParseError Expr
  | .error err => .error err
  | .ok (e, us) =>
    match us, mode with
    | t :: _, .strict => .error (.trailingToken t.text t.offset)
    | _, _ => .ok e

theorem filter_of_run {ts : List Token} {o : Outcome} (h : Run r (.phrase (.chain .or)) ts o) :
    r.filter ts = finish r.mode o := by
  rw [← run_iff.1 h, filter]
  cases r.disjunction ts with
  | error err => rfl
  | ok phrase => rfl

theorem finish_map (mode : ParseMode) (put : Expr → Expr) (o : Outcome) :
    finish mode (o.map (Prod.map put id)) = (finish mode o).map put := by
  match o, mode with
  | .error err, _ => rfl
  | .ok (e, []), _ => cases mode <;> rfl
  | .ok (e, t :: us), .strict | .ok (e, t :: us), .lenient => rfl

/-- A result in which names were taken as they stand, once they are resolved: the first one without an answer is
the error, and where each has one, the fields are put in. -/
def answered (resolve : String → Option String) (names : List Token) (result : Except ParseError Expr) :
    Except ParseError Expr :=
  match firstMissing resolve names with
  | some t => .error (.unresolvedField t.text t.offset)
  | none => result.map (withFields resolve)

/-- What a reading of the tokens asks for, whatever the answers are: the names among `read`, in their order. A tree
without answers holds just these names, and an error without answers lies behind them. -/
structure Asked (r : Reading) (ts read us : List Token) : Prop where
  split : ts = read ++ us
  inTree : ∀ e, (r.under some).filter ts = .ok e →
    e.comparisons.map Comparison.logical = (Slot.name.names read).map Token.text
  atEnd : ∀ err, (r.under some).filter ts = .error err → err.position = r.position us ∧ err.isSyntax = true
  filter_eq : ∀ resolve,
    (r.under resolve).filter ts = answered resolve (Slot.name.names read) ((r.under some).filter ts)

theorem exists_asked (r : Reading) (ts : List Token) : ∃ read us, Asked r ts read us := by
  have hrun := run_disjunction (r.under some) ts
  generalize outcome ((r.under some).disjunction ts) = o at hrun
  obtain ⟨read, us, rfl, hs, ha⟩ := hrun.asks
  have hplain := filter_of_run hrun
  refine ⟨read, us, rfl, fun e he => ?_, fun err herr => ?_, fun resolve => ?_⟩
  · obtain ⟨rest, hr, -⟩ := filter_eq_ok_iff.1 he
    cases hrun.unique hr
    simpa [logicalNames, Phase.parts, Phase.slot] using hs.2.2
  · rcases filter_eq_error_iff.1 herr with hr | ⟨e, t, rest, hr, -, rfl⟩
    · cases hrun.unique hr
      exact hs
    · cases hrun.unique hr
      rw [← hs.1]
      exact ⟨rfl, rfl⟩
  · unfold answered
    cases hm : firstMissing resolve (Slot.name.names read) with
    | some t => exact filter_of_run ((ha resolve).missing t hm)
    | none =>
      have hfilter := filter_of_run ((ha resolve).resolved hm)
      rw [hfilter, finish_map, hplain]
      rfl

/-- The names of an accepted filter are those in its tree. -/
theorem Asked.firstMissing_eq_none_iff {ts read us : List Token} (h : Asked r ts read us) {e : Expr}
    (he : (r.under some).filter ts = .ok e) (resolve : String → Option String) :
    firstMissing resolve (Slot.name.names read) = none ↔ ∀ c ∈ e.comparisons, resolve c.logical ≠ none := by
  calc firstMissing resolve (Slot.name.names read) = none
      ↔ ∀ name ∈ (Slot.name.names read).map Token.text, resolve name ≠ none := by simp [firstMissing]
    _ ↔ ∀ c ∈ e.comparisons, resolve c.logical ≠ none := by simp [← h.inTree e he]

theorem Asked.filter_eq_ok_iff {ts read us : List Token} (h : Asked r ts read us)
    (resolve : String → Option String) (e : Expr) :
    (r.under resolve).filter ts = .ok e ↔
      ∃ e₀, (r.under some).filter ts = .ok e₀ ∧ (∀ c ∈ e₀.comparisons, resolve c.logical ≠ none) ∧
        e = e₀.withFields resolve := by
  rw [h.filter_eq]
  constructor
  · intro he
    cases hm : firstMissing resolve (Slot.name.names read) with
    | some t => simp [answered, hm] at he
    | none =>
      cases hplain : (r.under some).filter ts with
      | error err => simp [answered, hm, hplain, Except.map] at he
      | ok e₀ =>
        have hfields : e₀.withFields resolve = e := by simpa [answered, hm, hplain, Except.map] using he
        exact ⟨e₀, rfl, (h.firstMissing_eq_none_iff hplain resolve).1 hm, hfields.symm⟩
  · rintro ⟨e₀, hplain, hres, rfl⟩
    rw [answered, (h.firstMissing_eq_none_iff hplain resolve).2 hres, hplain]
    rfl

/-- An error that is about the form was none of the answers. -/
theorem Asked.resolved_of_isSyntax {ts read us : List Token} (h : Asked r ts read us)
    {resolve : String → Option String} {err : ParseError} (herr : (r.under resolve).filter ts = .error err)
    (hform : err.isSyntax = true) :
    firstMissing resolve (Slot.name.names read) = none ∧ (r.under some).filter ts = .error err := by
  rw [h.filter_eq] at herr
  cases hm : firstMissing resolve (Slot.name.names read) with
  | some t =>
    rw [answered, hm] at herr
    cases herr
    cases hform
  | none =>
    cases hplain : (r.under some).filter ts with
    | error err₀ => simpa [answered, hm, hplain, Except.map] using herr
    | ok e₀ => simp [answered, hm, hplain, Except.map] at herr

theorem Asked.missing_of_unresolved {ts read us : List Token} (h : Asked r ts read us)
    {resolve : String → Option String} {field : String} {position : Nat}
    (herr : (r.under resolve).filter ts = .error (.unresolvedField field position)) :
    firstMissing resolve (Slot.name.names read) = some ⟨field, position⟩ := by
  rw [h.filter_eq] at herr
  cases hm : firstMissing resolve (Slot.name.names read) with
  | some t =>
    obtain ⟨rfl, rfl⟩ : t.text = field ∧ t.offset = position := by simpa [answered, hm] using herr
    rfl
  | none =>
    -- an error without answers is one of form
    have hplain : (r.under some).filter ts = .error (.unresolvedField field position) := by
      cases hf : (r.under some).filter ts <;> simp_all [answered, Except.map]
    cases (h.atEnd _ hplain).2

/-- The first name without an answer is the leftmost one, and all that is left lies behind it. -/
theorem Asked.leftmost {ts read us : List Token} (h : Asked r ts read us) {lo : Nat}
    (ha : Token.Ascending lo r.inputEnd ts) {resolve : String → Option String} {t : Token}
    (hm : firstMissing resolve (Slot.name.names read) = some t) :
    resolve t.text = none ∧ t ∈ Slot.name.names ts ∧
      (∀ u ∈ Slot.name.names ts, u.offset < t.offset → resolve u.text ≠ none) ∧ t.offset < r.position us := by
  obtain ⟨hnone, before, after, hnames, hbefore⟩ := List.find?_eq_some_iff_append.1 hm
  have hsplit := h.split
  subst hsplit
  have hmem : t ∈ Slot.name.names read := by simp [hnames]
  have hread : t ∈ read := (Slot.names_sublist _ _).subset hmem
  have hlt := offset_lt_position ha t hread
  refine ⟨by simpa using hnone, by simp [Slot.names_append, hmem], fun u hu hut => ?_, hlt⟩
  -- names behind it have greater offsets, so this one is before it
  have hpairwise := ha.pairwise.sublist (Slot.names_sublist .name _)
  rw [Slot.names_append, hnames, List.append_assoc, List.cons_append] at hu hpairwise
  rcases List.mem_append.1 hu with hu | hu
  · intro hres
    simpa [hres] using hbefore u hu
  · rcases List.mem_cons.1 hu with rfl | hu
    · omega
    · have hbehind := (List.pairwise_cons.1 (List.pairwise_append.1 hpairwise).2.1).1 u hu
      omega

end Reading

/-- Every name is taken for the stored one. -/
def verbatim : Resolver := fun _ name => some name

/-- **Resolving on the way is resolving afterwards, from left to right.** A filter is accepted if it is accepted with
its names taken as they stand and all of them resolve, and its tree is the same but for the fields. An error of form
is the error without answers as well. A name that does not resolve is an error if every name before it resolves and
nothing before it is wrong: what is wrong without answers, such as the operator behind the name, lies further on. -/
theorem parse_eq_resolve_after (mode : ParseMode) (resolver : Resolver) (scope input : String) :
    (∀ e, parse mode resolver scope input = .ok e ↔
      ∃ e₀, parse mode verbatim scope input = .ok e₀ ∧
        (∀ c ∈ e₀.comparisons, resolver scope c.logical ≠ none) ∧ e = e₀.withFields (resolver scope)) ∧
    (∀ err, parse mode resolver scope input = .error err → err.isSyntax = true →
      parse mode verbatim scope input = .error err) ∧
    ∀ field position, parse mode resolver scope input = .error (.unresolvedField field position) →
      resolver scope field = none ∧
      ⟨field, position⟩ ∈ Reading.Slot.name.names (tokenize input) ∧
      (∀ t ∈ Reading.Slot.name.names (tokenize input), t.offset < position → resolver scope t.text ≠ none) ∧
      ∀ err, parse mode verbatim scope input = .error err → position < err.position := by
  let r : Reading := ⟨some, mode, input.utf8ByteSize⟩
  obtain ⟨read, us, h⟩ := Reading.exists_asked r (tokenize input)
  refine ⟨h.filter_eq_ok_iff (resolver scope), fun err herr hform => (h.resolved_of_isSyntax herr hform).2, ?_⟩
  intro field position hf
  obtain ⟨hnone, hmem, hbefore, hlt⟩ := h.leftmost (Token.ascending_tokenize input) (h.missing_of_unresolved hf)
  refine ⟨hnone, hmem, hbefore, fun err herr => ?_⟩
  rw [(h.atEnd err herr).1]
  exact hlt

/-- The operator behind `c` is none, which is not looked at as `c` does not resolve. -/
theorem parse_eq_resolve_after_unknown :
    parse .strict (fun _ name => if name = "a" then some "x" else none) "log" "(a eq b) or c like d" =
        .error (.unresolvedField "c" 12) ∧
      parse .strict verbatim "log" "(a eq b) or c like d" = .error (.unsupportedOperator "like" 14) ∧
      ∀ t ∈ Reading.Slot.name.names (tokenize "(a eq b) or c like d"), t.offset < 12 → t.text = "a" := by
  have ht : tokenize "(a eq b) or c like d" =
      [⟨"(", 0⟩, ⟨"a", 1⟩, ⟨"eq", 3⟩, ⟨"b", 6⟩, ⟨")", 7⟩, ⟨"or", 9⟩, ⟨"c", 12⟩, ⟨"like", 14⟩, ⟨"d", 19⟩] := by decide
  have hplain : parse .strict verbatim "log" "(a eq b) or c like d" = .error (.unsupportedOperator "like" 14) := by
    unfold parse
    rw [ht]
    simp [Reading.filter, Reading.disjunction, Reading.disjuncts, Reading.conjunction, Reading.conjuncts,
      Reading.term, Reading.comparison, Reading.closeGroup, Token.is, CompareOp.ofKeyword?, verbatim]
  have h : parse .strict (fun _ name => if name = "a" then some "x" else none) "log" "(a eq b) or c like d" =
      .error (.unresolvedField "c" 12) := by
    unfold parse
    rw [ht]
    simp [Reading.filter, Reading.disjunction, Reading.disjuncts, Reading.conjunction, Reading.conjuncts,
      Reading.term, Reading.comparison, Reading.closeGroup, Token.is, CompareOp.ofKeyword?]
  refine ⟨h, hplain, fun t hmem hlt => ?_⟩
  obtain ⟨-, -, hresolves, -⟩ := (parse_eq_resolve_after _ _ _ _).2.2 "c" 12 h
  simpa using hresolves t hmem hlt

end Expr

end FilterQuery
