import FilterQuery.Transform
import FilterQuery.Proofs.Printing

/-!
# Filters with one comparison

A name, an operator and a value with blanks between them. The name has to be one token where a blank follows it
(`IsName`), and the value one token where the filter ends. Then the document of the filter has the clause of the
operator, on the stored field and with the value (`buildQuery_comparison`).
-/

namespace FilterQuery

/-! ## The tokens -/

/-- A name that is one token where a separator follows it: a mark, or characters that hold together. The parenthesis
that opens a group is no name. -/
structure IsName (name : String) : Prop where
  ne_open : name ≠ "("
  whole : (∃ c, Token.isPunctuation c = true ∧ name = String.singleton c) ∨
    (name ≠ "" ∧ Token.Solid false name.toList)

theorem Word.isName (w : Word) : IsName w.text where
  ne_open := w.ne_open
  whole := .inr ⟨w.nonempty, Token.solid_of_plain (List.all_eq_true.1 w.plain)⟩

/-- After the name come the operator and the value, each after a blank. -/
theorem Token.laid_rest (after : Bool) (op : CompareOp) (value : String) :
    Laid after [op.keyword, value] (' ' :: op.keyword.toList ++ ' ' :: value.toList) := by
  have hgap : Gap [' '] := by
    intro c hc
    rw [List.mem_singleton.1 hc]
    decide
  have hend : Laid (!decide (IsParenthesis value)) [] [] := .nil (by simp [Gap])
  have hvalue : Laid (!decide (IsParenthesis op.keyword)) [value] ([' '] ++ value.toList ++ []) :=
    .cons hgap (by simp) hend
  have hop : Laid after [op.keyword, value] ([' '] ++ op.keyword.toList ++ ([' '] ++ value.toList ++ [])) :=
    .cons hgap (by simp) hvalue
  simpa using hop

theorem Token.map_text_tokenize_comparison {name value : String} (hn : IsName name) (hv : Whole value)
    (op : CompareOp) :
    (tokenize (name ++ " " ++ op.keyword ++ " " ++ value)).map Token.text = [name, op.keyword, value] := by
  have hinput : (name ++ " " ++ op.keyword ++ " " ++ value).toList =
      name.toList ++ (' ' :: op.keyword.toList ++ ' ' :: value.toList) := by simp
  have hrest : ∀ text ∈ [op.keyword, value], Whole text := by
    simpa using ⟨CompareOp.whole_keyword op, hv⟩
  rcases hn.whole with ⟨c, hc, rfl⟩ | ⟨hne, hs⟩
  · rw [tokenize, hinput, String.toList_singleton, List.singleton_append, scan_punctuation 0 [] 0 _ hc]
    rw [List.map_append, List.map_cons, map_text_scan_of_laid (laid_rest false op value) hrest]
    rfl
  · have hlaid : Laid false [name, op.keyword, value]
        ([] ++ name.toList ++ (' ' :: op.keyword.toList ++ ' ' :: value.toList)) :=
      .cons (by simp [Gap]) (by simp) (laid_rest _ op value)
    rw [List.nil_append, ← hinput] at hlaid
    exact map_text_tokenize_of_laid hlaid (List.forall_mem_cons.2 ⟨.inr ⟨hne, hs⟩, hrest⟩)

/-! ## The document -/

/-- The clause of the operator, with a value. -/
def CompareOp.clause (field : String) (value : Json) : CompareOp → Json
  | eq => Query.matchPhrase field value
  | ne => Query.not (Query.matchPhrase field value)
  | gt => Query.range field "gt" value
  | ge => Query.range field "gte" value
  | lt => Query.range field "lt" value
  | le => Query.range field "lte" value

theorem Comparison.toQuery_eq_clause (c : Comparison) : c.toQuery = c.op.clause c.field c.value.toJson := by
  obtain ⟨field, logical, op, value⟩ := c
  cases op <;> rfl

/-- The filter that compares a name with one value has a document with the clause of its operator. -/
theorem buildQuery_comparison {resolver : Resolver} {scope name field value : String} (hn : IsName name)
    (hf : resolver scope name = some field) (hv : Token.Whole value) (op : CompareOp) (options : QueryOptions) :
    buildQuery resolver scope (name ++ " " ++ op.keyword ++ " " ++ value) options =
      (projection resolver scope options.select).map fun includes =>
        ⟨op.clause field (Literal.ofToken value).toJson, options.top, options.offset, includes⟩ := by
  have hparse := Expr.parse_comparison (Token.map_text_tokenize_comparison hn hv op) hn.ne_open hf options.mode
  rw [buildQuery_of_parse hparse, Expr.toQuery, Comparison.toQuery_eq_clause]

end FilterQuery
