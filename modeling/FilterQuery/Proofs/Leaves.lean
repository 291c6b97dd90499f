import FilterQuery.Transform
import FilterQuery.Proofs.Acceptance
import FilterQuery.Proofs.Projection

/-!
# The names that a request uses

A filter uses the names of its comparisons, a select list the names between its commas. The reader returns no
comparison whose name does not resolve to its stored field, in either mode (`resolved_of_parse`). With the names of
the projection, which resolve as well, what a request uses its scope allows (`resolved_of_buildQuery`).
-/

namespace FilterQuery

namespace Expr

/-! ## Comparisons of an expression -/

mutual

/-- The comparisons in an expression, from left to right. -/
def comparisons : Expr → List Comparison
  | comparison c => [c]
  | and operands => allComparisons operands
  | or operands => allComparisons operands

def allComparisons : List Expr → List Comparison
  | [] => []
  | e :: es => comparisons e ++ allComparisons es

end

theorem allComparisons_eq_flatMap (es : List Expr) : allComparisons es = es.flatMap comparisons := by
  induction es with
  | nil => rfl
  | cons e es ih => rw [allComparisons, List.flatMap_cons, ih]

@[simp] theorem comparisons_join (c : Connective) (es : List Expr) :
    (c.join es).comparisons = es.flatMap comparisons := by
  match es with
  | [e] => simp [Connective.join]
  | [] | _ :: _ :: _ =>
    cases c <;> simp [Connective.join, Connective.combine, comparisons, allComparisons_eq_flatMap]

/-- Every comparison has the stored field that its name resolves to. -/
def Resolved (resolve : String → Option String) (e : Expr) : Prop :=
  ∀ c ∈ e.comparisons, resolve c.logical = some c.field

theorem resolved_join {resolve : String → Option String} {c : Connective} {es : List Expr}
    (h : ∀ e ∈ es, Resolved resolve e) : Resolved resolve (c.join es) := by
  intro d hd
  rw [comparisons_join, List.mem_flatMap] at hd
  obtain ⟨e, he, hd⟩ := hd
  exact h e he d hd

namespace Reading

variable {r : Reading}

/-- The operands that a phase starts with. -/
def Phase.parts : Phase → List Expr
  | .phrase _ => []
  | .loop _ parts => parts

theorem Run.resolved {p : Phase} {ts us : List Token} {e : Expr} (h : Run r p ts (.ok (e, us)))
    (hp : ∀ part ∈ p.parts, Resolved r.resolve part) : Resolved r.resolve e := by
  generalize ho : Except.ok (e, us) = o at h
  induction h generalizing e us with
  | leaf _ h =>
    cases h with
    | noName | unresolved _ | noOperator _ | badOperator _ _ | noValue _ _ => cases ho
    | comparison hn _ =>
      cases ho
      simpa [Resolved, comparisons] using hn
  | groupError | unclosed | headError | stepError => cases ho
  | closed _ _ _ ih | tolerated _ _ _ _ ih =>
    cases ho
    exact ih (by simp [Phase.parts]) rfl
  | head _ _ ih ihl => exact ihl (by simpa [Phase.parts] using ih (by simp [Phase.parts]) rfl) ho
  | stop =>
    cases ho
    exact resolved_join hp
  | step _ _ _ ih ihl =>
    refine ihl (fun part hpart => ?_) ho
    rcases List.mem_append.1 hpart with hpart | hpart
    · exact hp part hpart
    · rw [List.mem_singleton.1 hpart]
      exact ih (by simp [Phase.parts]) rfl

end Reading

theorem resolved_of_parse {mode : ParseMode} {resolver : Resolver} {scope input : String} {e : Expr}
    (h : parse mode resolver scope input = .ok e) : Resolved (resolver scope) e := by
  obtain ⟨us, hr, -⟩ := Reading.filter_eq_ok_iff.1 h
  exact hr.resolved (by simp [Reading.Phase.parts])

end Expr

/-! ## With the select list -/

/-- A document is made of an expression that the filter writes and a projection. -/
theorem exists_of_buildQuery {resolver : Resolver} {scope filter : String} {options : QueryOptions} {env : Envelope}
    (h : buildQuery resolver scope filter options = .ok env) :
    ∃ e includes, Expr.parse options.mode resolver scope filter = .ok e ∧
      projection resolver scope options.select = .ok includes ∧
      env = ⟨e.toQuery, options.top, options.offset, includes⟩ := by
  cases hp : Expr.parse options.mode resolver scope filter with
  | error err => simp [buildQuery, hp] at h
  | ok e =>
    rw [buildQuery_of_parse hp] at h
    cases hs : projection resolver scope options.select with
    | error err => simp [hs, Except.map] at h
    | ok includes =>
      simp only [hs, Except.map, Except.ok.injEq] at h
      exact ⟨e, includes, rfl, rfl, h.symm⟩

/-- An accepted request uses names that resolve in its scope. -/
theorem resolved_of_buildQuery {resolver : Resolver} {scope filter : String} {options : QueryOptions} {env : Envelope}
    (h : buildQuery resolver scope filter options = .ok env) :
    (∃ e, Expr.parse options.mode resolver scope filter = .ok e ∧ e.Resolved (resolver scope)) ∧
      (options.select = selectAll ∨ ∀ name ∈ selectNames options.select, resolver scope name ≠ none) := by
  obtain ⟨e, includes, hp, hs, -⟩ := exists_of_buildQuery h
  exact ⟨⟨e, hp, Expr.resolved_of_parse hp⟩, resolved_of_projection hs⟩

end FilterQuery
