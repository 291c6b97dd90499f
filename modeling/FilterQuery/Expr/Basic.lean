import FilterQuery.Literal

/-!
# Filter expressions

A filter is a comparison, or a conjunction or disjunction of filters. A comparison holds both names of its
field: the one written in the filter, and the one that the search backend stores it under.
-/

namespace FilterQuery

inductive CompareOp where
  | eq
  | ne
  | gt
  | ge
  | lt
  | le
deriving DecidableEq, Repr, Inhabited

namespace CompareOp

def keyword : CompareOp → String
  | eq => "eq"
  | ne => "ne"
  | gt => "gt"
  | ge => "ge"
  | lt => "lt"
  | le => "le"

/-- Operators are matched exactly as they are written: `EQ` is none. -/
def ofKeyword? : String → Option CompareOp
  | "eq" => some eq
  | "ne" => some ne
  | "gt" => some gt
  | "ge" => some ge
  | "lt" => some lt
  | "le" => some le
  | _ => none

@[simp] theorem ofKeyword?_keyword (op : CompareOp) : ofKeyword? op.keyword = some op := by
  cases op <;> rfl

theorem ofKeyword?_eq_some_iff {k : String} {op : CompareOp} : ofKeyword? k = some op ↔ k = op.keyword := by
  constructor
  · intro h
    unfold ofKeyword? at h
    split at h <;> cases h <;> rfl
  · rintro rfl
    exact ofKeyword?_keyword op

end CompareOp

/-- One comparison of a stored field with a value. -/
structure Comparison where
  /-- The name that the backend stores the field under. -/
  field : String
  /-- The name as the filter writes it. -/
  logical : String
  op : CompareOp
  value : Literal
deriving DecidableEq, Repr, Inhabited

inductive Expr where
  | comparison (c : Comparison)
  | and (operands : List Expr)
  | or (operands : List Expr)
deriving Repr, Inhabited

/-- Maps a name, within a scope such as the name of an index, to the name that the backend stores. No answer
means that the name may not be used in that scope. -/
abbrev Resolver := String → String → Option String

end FilterQuery
