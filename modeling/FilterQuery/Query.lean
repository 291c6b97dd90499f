import FilterQuery.Expr.Basic
import FilterQuery.Json.Basic
import FilterQuery.Number.Word

/-!
# Query nodes

The search backend takes a query as a JSON node. Equality is `match_phrase`, inequality its negation, an order
comparison a `range`, a conjunction `bool.must` and a disjunction `bool.should`. Clauses are keyed by the
stored name of the field.
-/

namespace FilterQuery

/-- The double as a JSON number: one that is a signed word of 64 bits is written as such, and one that is not finite has
no number. -/
def Binary64.toJson (x : Binary64) : Json :=
  if x.value.isWord then .int x.value.toWord.toInt else if x.isFinite then .float x else .null

def Literal.toJson : Literal → Json
  | .string s => .string s
  | .number x => x.toJson

/-- The key of a range clause; the operators for equality have none. -/
def CompareOp.rangeKey? : CompareOp → Option String
  | .eq => none
  | .ne => none
  | .gt => some "gt"
  | .ge => some "gte"
  | .lt => some "lt"
  | .le => some "lte"

namespace Query

def matchPhrase (field : String) (value : Json) : Json :=
  .single "match_phrase" (.single field value)

def range (field key : String) (value : Json) : Json :=
  .single "range" (.single field (.single key value))

def not (node : Json) : Json := .single "bool" (.single "must_not" node)

def all (nodes : List Json) : Json := .single "bool" (.single "must" (.array nodes))

def any (nodes : List Json) : Json := .single "bool" (.single "should" (.array nodes))

end Query

def Comparison.toQuery (c : Comparison) : Json :=
  match c.op.rangeKey? with
  | some key => Query.range c.field key c.value.toJson
  | none =>
    let node := Query.matchPhrase c.field c.value.toJson
    if c.op = .ne then Query.not node else node

namespace Expr

mutual

/-- The query node of an expression. -/
def toQuery : Expr → Json
  | comparison c => c.toQuery
  | and operands => Query.all (toQueries operands)
  | or operands => Query.any (toQueries operands)

/-- The nodes of the operands, in order. -/
def toQueries : List Expr → List Json
  | [] => []
  | e :: es => toQuery e :: toQueries es

end

theorem toQueries_eq_map (es : List Expr) : toQueries es = es.map toQuery := by
  induction es with
  | nil => rfl
  | cons e es ih => simp [toQueries, ih]

end Expr

end FilterQuery
