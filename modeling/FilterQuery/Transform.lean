import FilterQuery.Options

/-!
# From a filter to a query document

The filter is parsed, its fields resolved in the scope of the request, and its query wrapped with the paging
and the projection of the options. A fault of the filter is reported before one of the select list.
-/

namespace FilterQuery

/-- The document of a request, before it is written. -/
def buildQuery (resolver : Resolver) (scope filter : String) (options : QueryOptions) :
    Except TransformError Envelope :=
  match Expr.parse options.mode resolver scope filter with
  | .error e => .error (.ofParseError e)
  | .ok expr => Envelope.assemble resolver scope expr options.select options.top options.offset

/-- A filter that is accepted leaves the request to its select list. -/
theorem buildQuery_of_parse {resolver : Resolver} {scope filter : String} {options : QueryOptions} {e : Expr}
    (h : Expr.parse options.mode resolver scope filter = .ok e) :
    buildQuery resolver scope filter options =
      (projection resolver scope options.select).map
        fun includes => ⟨e.toQuery, options.top, options.offset, includes⟩ := by
  simp only [buildQuery, h, Envelope.assemble]
  cases projection resolver scope options.select <;> rfl

/-- The text that a writer gives the document of a request. A writer that fails is an error within. -/
def deliver (write : Envelope → Option String) (resolver : Resolver) (scope filter : String)
    (options : QueryOptions) : Except TransformError String :=
  match buildQuery resolver scope filter options with
  | .error e => .error e
  | .ok envelope =>
    match write envelope with
    | some text => .ok text
    | none => .error .unwritable

/-- The text of the document of a request. -/
def transform (layout : Json.Layout) (resolver : Resolver) (scope filter : String) (options : QueryOptions) :
    Except TransformError String :=
  (buildQuery resolver scope filter options).map fun e => e.toJson.render layout

theorem transform_eq_ok_iff {layout : Json.Layout} {resolver : Resolver} {scope filter : String}
    {options : QueryOptions} {document : String} :
    transform layout resolver scope filter options = .ok document ↔
      ∃ env, buildQuery resolver scope filter options = .ok env ∧ env.toJson.render layout = document := by
  unfold transform
  cases buildQuery resolver scope filter options <;> simp [Except.map]

/-- The documents are written by a writer that does not fail. -/
theorem transform_eq_deliver (layout : Json.Layout) :
    transform layout = deliver fun e => some (e.toJson.render layout) := by
  funext resolver scope filter options
  unfold transform deliver
  cases buildQuery resolver scope filter options <;> rfl

end FilterQuery
