import FilterQuery.Transform
import FilterQuery.Proofs.Acceptance

/-!
# The meaning of a query

An expression and a query node each have a truth value once the atoms have one: that a field matches a phrase,
and that a field lies in a range. The value of an expression follows its operators. The value of a node
follows the shape of the JSON alone and knows nothing of expressions; a node of any other shape than the five
of the backend has none.

Translation keeps the value (`truth_toQuery`): what an expression says, its node says, under every valuation
and at every depth. With the grammar this reaches from the text of a filter to the query of its document
(`truth_buildQuery`).
-/

namespace FilterQuery

/-- A truth value for each atom: a phrase matched in a field, and a field bounded by one of the range keys. -/
structure Valuation where
  phrase (field : String) (value : Json) : Bool
  range (field key : String) (bound : Json) : Bool

/-! ## What an expression says -/

def Comparison.holds (v : Valuation) (c : Comparison) : Bool :=
  match c.op with
  | .eq => v.phrase c.field c.value.toJson
  | .ne => !v.phrase c.field c.value.toJson
  | .gt => v.range c.field "gt" c.value.toJson
  | .ge => v.range c.field "gte" c.value.toJson
  | .lt => v.range c.field "lt" c.value.toJson
  | .le => v.range c.field "lte" c.value.toJson

namespace Expr

mutual

def holds (v : Valuation) : Expr → Bool
  | .comparison c => c.holds v
  | .and es => allHold v es
  | .or es => anyHold v es

def allHold (v : Valuation) : List Expr → Bool
  | [] => true
  | e :: es => holds v e && allHold v es

def anyHold (v : Valuation) : List Expr → Bool
  | [] => false
  | e :: es => holds v e || anyHold v es

end

theorem allHold_eq_all (v : Valuation) (es : List Expr) : allHold v es = es.all (holds v) := by
  induction es with
  | nil => rfl
  | cons e es ih => rw [allHold, List.all_cons, ih]

theorem anyHold_eq_any (v : Valuation) (es : List Expr) : anyHold v es = es.any (holds v) := by
  induction es with
  | nil => rfl
  | cons e es ih => rw [anyHold, List.any_cons, ih]

end Expr

/-! ## What a node says -/

namespace Query

/-- The keys of a range clause. -/
def rangeKeys : List String := ["gt", "gte", "lt", "lte"]

mutual

/-- The value of a query node by its shape, if it has one of the shapes that the backend knows. -/
def truth (v : Valuation) : Json → Option Bool
  | .object [("match_phrase", .object [(field, value)])] => some (v.phrase field value)
  | .object [("range", .object [(field, .object [(key, bound)])])] =>
    if key ∈ rangeKeys then some (v.range field key bound) else none
  | .object [("bool", .object [("must_not", node)])] => (truth v node).map fun b => !b
  | .object [("bool", .object [("must", .array nodes)])] => (truths v nodes).map fun bs => bs.all id
  | .object [("bool", .object [("should", .array nodes)])] => (truths v nodes).map fun bs => bs.any id
  | _ => none

/-- The values of nodes that all have one. -/
def truths (v : Valuation) : List Json → Option (List Bool)
  | [] => some []
  | node :: nodes =>
    match truth v node, truths v nodes with
    | some b, some bs => some (b :: bs)
    | _, _ => none

end

variable (v : Valuation)

theorem truth_matchPhrase (field : String) (value : Json) :
    truth v (matchPhrase field value) = some (v.phrase field value) := by
  simp [matchPhrase, Json.single, truth]

theorem truth_range {key : String} (hk : key ∈ rangeKeys) (field : String) (bound : Json) :
    truth v (range field key bound) = some (v.range field key bound) := by
  simp [range, Json.single, truth, hk]

theorem truth_not (node : Json) : truth v (not node) = (truth v node).map fun b => !b := by
  simp [not, Json.single, truth]

theorem truth_all (nodes : List Json) : truth v (all nodes) = (truths v nodes).map fun bs => bs.all id := by
  simp [all, Json.single, truth]

theorem truth_any (nodes : List Json) : truth v (any nodes) = (truths v nodes).map fun bs => bs.any id := by
  simp [any, Json.single, truth]

/-! ## They say the same -/

theorem truth_comparison (c : Comparison) : truth v c.toQuery = some (c.holds v) := by
  obtain ⟨field, logical, op, value⟩ := c
  unfold Comparison.toQuery Comparison.holds
  cases op with
  | eq => exact truth_matchPhrase v field value.toJson
  | ne =>
    simp only [CompareOp.rangeKey?, if_true]
    rw [truth_not, truth_matchPhrase]
    rfl
  | gt | ge | lt | le => exact truth_range v (by decide) field value.toJson

mutual

theorem truth_toQuery : ∀ e : Expr, truth v e.toQuery = some (e.holds v)
  | .comparison c => by
    rw [Expr.toQuery, Expr.holds]
    exact truth_comparison v c
  | .and es => by
    rw [Expr.toQuery, Expr.holds, truth_all, truths_toQueries es, Expr.allHold_eq_all]
    rw [Option.map_some, List.all_map]
    rfl
  | .or es => by
    rw [Expr.toQuery, Expr.holds, truth_any, truths_toQueries es, Expr.anyHold_eq_any]
    rw [Option.map_some, List.any_map]
    rfl

theorem truths_toQueries : ∀ es : List Expr, truths v (Expr.toQueries es) = some (es.map (Expr.holds v))
  | [] => rfl
  | e :: es => by rw [Expr.toQueries, truths, truth_toQuery e, truths_toQueries es, List.map_cons]

end

end Query

/-! ## From the filter to the document -/

theorem buildQuery_of_derives {resolver : Resolver} {scope filter : String} {e : Expr}
    (h : Grammar.Derives (resolver scope) (.chain .or) ((tokenize filter).map Token.text) e)
    (options : QueryOptions) :
    buildQuery resolver scope filter options =
      (projection resolver scope options.select).map
        fun includes => ⟨e.toQuery, options.top, options.offset, includes⟩ :=
  buildQuery_of_parse (Expr.parse_of_derives h options.mode)

/-- **Translation keeps the meaning of the filter.** Every expression has a query with its truth value under
every valuation. A filter that strict mode accepts has the reading that the grammar gives it, and whenever the
select list resolves too, there is a document and its query has the truth value of this reading. -/
theorem truth_buildQuery :
    (∀ (v : Valuation) (e : Expr), Query.truth v e.toQuery = some (e.holds v)) ∧
    ∀ (resolver : Resolver) (scope filter : String) (options : QueryOptions) (e : Expr),
      Expr.parse .strict resolver scope filter = .ok e →
        Grammar.Derives (resolver scope) (.chain .or) ((tokenize filter).map Token.text) e ∧
        ((∃ env, buildQuery resolver scope filter options = .ok env) ↔
          ∃ includes, projection resolver scope options.select = .ok includes) ∧
        ∀ env, buildQuery resolver scope filter options = .ok env →
          ∀ v, Query.truth v env.query = some (e.holds v) := by
  refine ⟨Query.truth_toQuery, fun resolver scope filter options e hp => ?_⟩
  have hd := Expr.derives_of_parse hp
  refine ⟨hd, ?_⟩
  rw [buildQuery_of_derives hd]
  cases projection resolver scope options.select with
  | error err => exact ⟨by simp [Except.map], fun env henv => by cases henv⟩
  | ok includes =>
    refine ⟨by simp [Except.map], fun env henv v => ?_⟩
    cases henv
    exact Query.truth_toQuery v e

end FilterQuery
