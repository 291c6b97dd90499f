import FilterQuery.Token
import FilterQuery.Expr.Basic
import FilterQuery.Expr.ParseError

/-!
# Reading a filter

A filter is read from its tokens by descent, with one token of lookahead:

* a disjunction is one or more conjunctions with `or` between them,
* a conjunction is one or more terms with `and` between them,
* a term is a disjunction in parentheses, or the three tokens of a comparison.

A single operand stands for itself. A token is a parenthesis or a connective only where one can stand: `and`
may be the name of a field or a value. The field is resolved before the operator is read, so an unknown field
is reported before a bad operator in the same comparison.

Each phrase leaves fewer tokens than it was given, which is why the descent ends.
-/

namespace FilterQuery

/-- How forgiving the reader is about the structure around a valid expression. -/
inductive ParseMode where
  /-- Groups are closed and every token is read. -/
  | strict
  /-- A missing `)` is accepted, and tokens after the expression are ignored. -/
  | lenient
deriving DecidableEq, Repr, Inhabited

namespace Expr

/-- What the reader knows besides the tokens: the names of the scope, the mode, and the byte length of the
filter, which is the position of its end. -/
structure Reading where
  resolve : String → Option String
  mode : ParseMode
  inputEnd : Nat

/-- A phrase read from `ts`: its tree, and the tokens after it. -/
structure Phrase (ts : List Token) where
  expr : Expr
  rest : List Token
  shorter : rest.length < ts.length

/-- The operands read after the first one, and the tokens after them. -/
structure Operands (ts : List Token) where
  exprs : List Expr
  rest : List Token
  notLonger : rest.length ≤ ts.length

namespace Reading

/-- The byte offset of the next token, or of the end. -/
def position (r : Reading) : List Token → Nat
  | [] => r.inputEnd
  | t :: _ => t.offset

/-- The three tokens of a comparison. -/
def comparison (r : Reading) : (ts : List Token) → Except ParseError (Phrase ts)
  | [] => .error (.unexpectedEnd "a field name" r.inputEnd)
  | name :: ts =>
    match r.resolve name.text with
    | none => .error (.unresolvedField name.text name.offset)
    | some field =>
      match ts with
      | [] => .error (.unexpectedEnd "a comparison operator" r.inputEnd)
      | operator :: ts =>
        match CompareOp.ofKeyword? operator.text with
        | none => .error (.unsupportedOperator operator.text operator.offset)
        | some op =>
          match ts with
          | [] => .error (.unexpectedEnd "a value" r.inputEnd)
          | value :: ts =>
            .ok ⟨.comparison ⟨field, name.text, op, .ofToken value.text⟩, ts, by simp; omega⟩

/-- The end of a group whose inner phrase left `ts`. Without a closing parenthesis the group ends here in
lenient mode. -/
def closeGroup (r : Reading) (opened : Nat) (ts : List Token) :
    Except ParseError { rest : List Token // rest.length ≤ ts.length } :=
  match ts with
  | t :: rest =>
    if t.is ")" then .ok ⟨rest, by simp⟩
    else if r.mode = .strict then .error (.unclosedGroup opened t.offset)
    else .ok ⟨t :: rest, Nat.le_refl _⟩
  | [] =>
    if r.mode = .strict then .error (.unclosedGroup opened r.inputEnd)
    else .ok ⟨[], Nat.le_refl _⟩

/-- A single operand is the tree itself. -/
def collapse (combine : List Expr → Expr) (first : Expr) (others : List Expr) : Expr :=
  if others.isEmpty then first else combine (first :: others)

mutual

def disjunction (r : Reading) (ts : List Token) : Except ParseError (Phrase ts) :=
  match r.conjunction ts with
  | .error e => .error e
  | .ok first =>
    have := first.shorter
    match r.disjuncts first.rest with
    | .error e => .error e
    | .ok others =>
      .ok ⟨collapse .or first.expr others.exprs, others.rest, Nat.lt_of_le_of_lt others.notLonger this⟩
termination_by (ts.length, 2)

/-- The conjunctions that follow, each after an `or`. -/
def disjuncts (r : Reading) (ts : List Token) : Except ParseError (Operands ts) :=
  match ts with
  | [] => .ok ⟨[], [], Nat.le_refl _⟩
  | t :: rest =>
    if t.is "or" then
      match r.conjunction rest with
      | .error e => .error e
      | .ok operand =>
        have := operand.shorter
        match r.disjuncts operand.rest with
        | .error e => .error e
        | .ok others =>
          .ok ⟨operand.expr :: others.exprs, others.rest, by
            have := others.notLonger; simp only [List.length_cons]; omega⟩
    else .ok ⟨[], t :: rest, Nat.le_refl _⟩
termination_by (ts.length, 0)

def conjunction (r : Reading) (ts : List Token) : Except ParseError (Phrase ts) :=
  match r.term ts with
  | .error e => .error e
  | .ok first =>
    have := first.shorter
    match r.conjuncts first.rest with
    | .error e => .error e
    | .ok others =>
      .ok ⟨collapse .and first.expr others.exprs, others.rest, Nat.lt_of_le_of_lt others.notLonger this⟩
termination_by (ts.length, 1)

/-- The terms that follow, each after an `and`. -/
def conjuncts (r : Reading) (ts : List Token) : Except ParseError (Operands ts) :=
  match ts with
  | [] => .ok ⟨[], [], Nat.le_refl _⟩
  | t :: rest =>
    if t.is "and" then
      match r.term rest with
      | .error e => .error e
      | .ok operand =>
        have := operand.shorter
        match r.conjuncts operand.rest with
        | .error e => .error e
        | .ok others =>
          .ok ⟨operand.expr :: others.exprs, others.rest, by
            have := others.notLonger; simp only [List.length_cons]; omega⟩
    else .ok ⟨[], t :: rest, Nat.le_refl _⟩
termination_by (ts.length, 0)

def term (r : Reading) (ts : List Token) : Except ParseError (Phrase ts) :=
  match ts with
  | [] => r.comparison []
  | t :: rest =>
    if t.is "(" then
      match r.disjunction rest with
      | .error e => .error e
      | .ok inner =>
        match r.closeGroup t.offset inner.rest with
        | .error e => .error e
        | .ok after =>
          .ok ⟨inner.expr, after.1, by
            have := after.2; have := inner.shorter; simp only [List.length_cons]; omega⟩
    else r.comparison (t :: rest)
termination_by (ts.length, 0)

end

/-- A whole filter: a disjunction, and in strict mode nothing after it. -/
def filter (r : Reading) (ts : List Token) : Except ParseError Expr :=
  match r.disjunction ts with
  | .error e => .error e
  | .ok phrase =>
    match phrase.rest, r.mode with
    | t :: _, .strict => .error (.trailingToken t.text t.offset)
    | _, _ => .ok phrase.expr

end Reading

/-- The expression that a filter writes, with its fields resolved in a scope. -/
def parse (mode : ParseMode) (resolver : Resolver) (scope input : String) : Except ParseError Expr :=
  Reading.filter ⟨resolver scope, mode, input.utf8ByteSize⟩ (tokenize input)

end Expr

end FilterQuery
