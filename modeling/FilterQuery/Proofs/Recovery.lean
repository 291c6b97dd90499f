import FilterQuery.Proofs.WellFormed
import FilterQuery.Proofs.WholeNumbers

/-!
# What a query keeps

A query node does not tell which name the filter used for a field, nor the sign of a zero. Everything else of an
expression can be told from it: which comparisons it has, how they are joined and nested, and every value.

That is shown by reading the node back. The reader goes by the shape of the JSON alone, so a stored name that is also
a word of the query language, such as `bool` or `gt`, does not mislead it (`toExpr?_toQuery`). A whole number is read
as the double nearest to it, which is the one it was written for.
-/

namespace FilterQuery

/-! ## What is kept of an expression -/

/-- Zero without its sign, and any other double as it is. -/
def Binary64.unsignedZero (x : Binary64) : Binary64 := if x = ofMagnitude true 0 then ofMagnitude false 0 else x

def Literal.unsignedZero : Literal → Literal
  | string s => string s
  | number x => number x.unsignedZero

/-- The comparison without the name that the filter used. -/
def Comparison.canonical (c : Comparison) : Comparison :=
  { c with logical := "", value := c.value.unsignedZero }

namespace Expr

mutual

/-- The expression without the names that the filter used and without signs of zeros. -/
def canonical : Expr → Expr
  | comparison c => comparison c.canonical
  | and operands => and (allCanonical operands)
  | or operands => or (allCanonical operands)

def allCanonical : List Expr → List Expr
  | [] => []
  | e :: es => canonical e :: allCanonical es

end

end Expr

/-! ## Reading a node back -/

namespace Query

/-- The value that a clause compares with. -/
def toLiteral? : Json → Option Literal
  | .string s => some (.string s)
  | .int n => some (.number (.ofInt n))
  | .float x => some (.number x)
  | _ => none

/-- The operator with this key of a range clause. -/
def rangeOp? : String → Option CompareOp
  | "gt" => some .gt
  | "gte" => some .ge
  | "lt" => some .lt
  | "lte" => some .le
  | _ => none

/-- The comparison of a stored field whose name in the filter is not known. -/
def comparison (field : String) (op : CompareOp) (value : Literal) : Expr := .comparison ⟨field, "", op, value⟩

mutual

/-- The expression that a node was made for, by its shape. -/
def toExpr? : Json → Option Expr
  | .object [("match_phrase", .object [(field, value)])] => (toLiteral? value).map (comparison field .eq)
  | .object [("bool", .object [("must_not", .object [("match_phrase", .object [(field, value)])])])] =>
    (toLiteral? value).map (comparison field .ne)
  | .object [("range", .object [(field, .object [(key, bound)])])] =>
    (rangeOp? key).bind fun op => (toLiteral? bound).map (comparison field op)
  | .object [("bool", .object [("must", .array nodes)])] => (toExprs? nodes).map .and
  | .object [("bool", .object [("should", .array nodes)])] => (toExprs? nodes).map .or
  | _ => none

def toExprs? : List Json → Option (List Expr)
  | [] => some []
  | node :: nodes =>
    match toExpr? node, toExprs? nodes with
    | some e, some es => some (e :: es)
    | _, _ => none

end

end Query

/-! ## Numbers -/

namespace Binary64

theorem unsignedZero_of_magnitudeBits {x : Binary64} (h : x.magnitudeBits = 0) :
    x.unsignedZero = ofMagnitude false 0 := by
  have hx := ofMagnitude_self x
  rw [h] at hx
  unfold unsignedZero
  cases hs : x.isNegative with
  | true => rw [if_pos (by rw [← hx, hs])]
  | false => rw [← hx, hs]; decide

/-- Both zeros have the whole number zero. -/
theorem integer?_zero (negative : Bool) : (ofMagnitude negative 0).integer? = some 0 := by
  obtain ⟨hbits, -⟩ := magnitudeBits_ofMagnitude negative (by norm_num : 0 < 2 ^ 63)
  have hfinite : (ofMagnitude negative 0).isFinite = true := by
    rw [isFinite, hbits]
    decide
  have hvalue : magnitudeValue (ofMagnitude negative 0).magnitudeBits = (0 : Nat) := by
    rw [hbits, magnitudeValue, split_eq_zero_iff.2 rfl, Nat.cast_zero, zero_mul]
  rw [integer?_eq hfinite hvalue]
  simp

theorem unsignedZero_of_ne {x : Binary64} (h : x.integer? ≠ some 0) : x.unsignedZero = x := by
  unfold unsignedZero
  rw [if_neg]
  rintro rfl
  exact h (integer?_zero true)

/-- Zero is a word. -/
theorem unsignedZero_of_not_word {x : Binary64} {r : ℚ} (h : x.rational? = some r)
    (hr : ¬ ∃ n : Int, r = n ∧ -2 ^ 63 ≤ n ∧ n < 2 ^ 63) : x.unsignedZero = x := by
  refine unsignedZero_of_ne fun hzero => hr ⟨0, ?_, by norm_num⟩
  rwa [integer?_eq_some_iff, h, Option.some_inj] at hzero

/-- A double with a whole value is the one that this whole number is read as. -/
theorem ofInt_of_integer? {x : Binary64} {n : Int} (h : x.integer? = some n) : ofInt n = x.unsignedZero := by
  have hfinite : x.magnitudeBits < infinityBits := by simpa [isFinite] using isFinite_of_integer? h
  obtain ⟨k, hk, hn⟩ := exists_of_integer? h
  rcases Nat.eq_zero_or_pos x.magnitudeBits with hzero | hpos
  · rw [hzero, magnitudeValue, split_eq_zero_iff.2 rfl, Nat.cast_zero, zero_mul] at hk
    obtain rfl : k = 0 := by exact_mod_cast hk.symm
    rw [unsignedZero_of_magnitudeBits hzero, hn]
    cases x.isNegative <;> decide
  · have hkpos : 0 < k := by
      have hvalue := magnitudeValue_pos hpos
      rw [hk] at hvalue
      exact_mod_cast hvalue
    have hbits : roundDecimal k 0 = x.magnitudeBits := by
      rw [roundDecimal_eq hkpos, zpow_zero, mul_one, ← hk, nearest_magnitudeValue hpos hfinite]
    have hsign : decide (n < 0) = x.isNegative := by
      rw [hn]
      cases x.isNegative <;> simp [hkpos]
    have habs : n.natAbs = k := by
      rw [hn]
      split <;> simp
    have hne : x.integer? ≠ some 0 := by
      rw [h, ne_eq, Option.some_inj]
      omega
    calc ofInt n = ofMagnitude (decide (n < 0)) (roundDecimal n.natAbs 0) := rfl
      _ = x := by rw [hsign, habs, hbits, ofMagnitude_self]
      _ = x.unsignedZero := (unsignedZero_of_ne hne).symm

theorem toJson_zero (negative : Bool) : (ofMagnitude negative 0).toJson = .int 0 := by
  exact toJson_of_word (integer?_eq_some_iff.1 (integer?_zero negative)) (by norm_num) (by norm_num)

theorem toJson_unsignedZero (x : Binary64) : x.unsignedZero.toJson = x.toJson := by
  unfold unsignedZero
  split
  · next hx =>
    rw [hx, toJson_zero, toJson_zero]
  · rfl

end Binary64

theorem Literal.toJson_unsignedZero : ∀ l : Literal, l.unsignedZero.toJson = l.toJson
  | string _ => rfl
  | number x => x.toJson_unsignedZero

/-- A value is told from its JSON, but for the sign of a zero. -/
theorem Query.toLiteral?_toJson {l : Literal} (h : l.IsFinite) : toLiteral? l.toJson = some l.unsignedZero := by
  cases l with
  | string s => rfl
  | number x =>
    rw [Literal.toJson, Literal.unsignedZero]
    rcases x.toJson_cases with ⟨hx, -⟩ | ⟨n, hx, -, hj⟩ | ⟨r, hx, hr, hj⟩
    · obtain ⟨r, hfinite⟩ := Binary64.isFinite_iff.1 h
      rw [hx] at hfinite
      cases hfinite
    · rw [hj, toLiteral?, Binary64.ofInt_of_integer? (Binary64.integer?_eq_some_iff.2 hx)]
    · rw [hj, toLiteral?, Binary64.unsignedZero_of_not_word hx hr]

/-! ## Expressions -/

namespace Query

theorem rangeOp?_of_rangeKey? {op : CompareOp} {key : String} (h : op.rangeKey? = some key) : rangeOp? key = some op := by
  cases op <;> cases h <;> rfl

theorem toExpr?_comparison {c : Comparison} (h : c.value.IsFinite) :
    toExpr? c.toQuery = some (.comparison c.canonical) := by
  obtain ⟨field, logical, op, value⟩ := c
  have hvalue := toLiteral?_toJson h
  simp only [Comparison.toQuery]
  cases hkey : op.rangeKey? with
  | some key =>
    simp [range, Json.single, toExpr?, rangeOp?_of_rangeKey? hkey, hvalue, comparison, Comparison.canonical]
  | none =>
    cases op with
    | eq => simp [matchPhrase, Json.single, toExpr?, hvalue, comparison, Comparison.canonical]
    | ne => simp [not, matchPhrase, Json.single, toExpr?, hvalue, comparison, Comparison.canonical]
    | gt | ge | lt | le => cases hkey

mutual

theorem toExpr?_toQuery : ∀ e : Expr, e.Finite → toExpr? e.toQuery = some e.canonical
  | .comparison c, h => by
    rw [Expr.toQuery, Expr.canonical]
    exact toExpr?_comparison (h c (by simp [Expr.comparisons]))
  | .and es, h => by
    rw [Expr.toQuery, Expr.canonical, all, Json.single, Json.single, toExpr?, toExprs?_toQueries es h]
    rfl
  | .or es, h => by
    rw [Expr.toQuery, Expr.canonical, any, Json.single, Json.single, toExpr?, toExprs?_toQueries es h]
    rfl

theorem toExprs?_toQueries : ∀ es : List Expr, (∀ c ∈ Expr.allComparisons es, c.value.IsFinite) →
    toExprs? (Expr.toQueries es) = some (Expr.allCanonical es)
  | [], _ => rfl
  | e :: es, h => by
    simp only [Expr.allComparisons, List.mem_append] at h
    have he := toExpr?_toQuery e fun c hc => h c (.inl hc)
    have hes := toExprs?_toQueries es fun c hc => h c (.inr hc)
    rw [Expr.toQueries, toExprs?, he, hes, Expr.allCanonical]

end

end Query

theorem Comparison.toQuery_canonical (c : Comparison) : c.canonical.toQuery = c.toQuery := by
  simp only [Comparison.toQuery, Comparison.canonical, Literal.toJson_unsignedZero]

namespace Expr

mutual

theorem toQuery_canonical : ∀ e : Expr, e.canonical.toQuery = e.toQuery
  | comparison c => by
    rw [canonical, toQuery, toQuery]
    exact c.toQuery_canonical
  | and es => by rw [canonical, toQuery, toQuery, toQueries_allCanonical es]
  | or es => by rw [canonical, toQuery, toQuery, toQueries_allCanonical es]

theorem toQueries_allCanonical : ∀ es : List Expr, toQueries (allCanonical es) = toQueries es
  | [] => rfl
  | e :: es => by rw [allCanonical, toQueries, toQueries, toQuery_canonical e, toQueries_allCanonical es]

end

/-- **A query loses nothing but the names that the filter used and the signs of zeros.** Every expression with finite
numbers, whatever its operands are, is read back from its node without these; so two of them have the same node exactly
if they are the same without these. -/
theorem toQuery_eq_toQuery_iff :
    (∀ e : Expr, e.Finite → Query.toExpr? e.toQuery = some e.canonical) ∧
    ∀ e₁ e₂ : Expr, e₁.Finite → e₂.Finite → (e₁.toQuery = e₂.toQuery ↔ e₁.canonical = e₂.canonical) := by
  refine ⟨Query.toExpr?_toQuery, fun e₁ e₂ h₁ h₂ => ⟨fun heq => ?_, fun heq => ?_⟩⟩
  · have hback := Query.toExpr?_toQuery e₁ h₁
    rw [heq, Query.toExpr?_toQuery e₂ h₂] at hback
    exact (Option.some.inj hback).symm
  · rw [← toQuery_canonical e₁, heq, toQuery_canonical]

/-- The stored names are words of the query language and the disjunction is empty. Only the name that the filter used
and the sign of the zero differ. -/
theorem toQuery_eq_toQuery_iff_words :
    let e (name : String) (negative : Bool) : Expr :=
      .and [.comparison ⟨"must", name, .ne, .number (.ofMagnitude negative 0)⟩, .or [],
        .or [.comparison ⟨"gt", name, .ge, .string "1"⟩]]
    (e "a" true).toQuery = (e "b" false).toQuery ∧ (e "a" true).toQuery ≠ Query.all [] := by
  intro e
  have hfinite (name : String) (negative : Bool) : (e name negative).Finite := by
    cases negative <;> simp [e, Finite, comparisons, allComparisons, Literal.IsFinite] <;> decide
  have hempty : (and []).Finite := by simp [Finite, comparisons, allComparisons]
  constructor
  · refine (toQuery_eq_toQuery_iff.2 _ _ (hfinite "a" true) (hfinite "b" false)).2 ?_
    simp [e, canonical, allCanonical, Comparison.canonical, Literal.unsignedZero, Binary64.unsignedZero]
  · intro heq
    have hsame := (toQuery_eq_toQuery_iff.2 _ _ (hfinite "a" true) hempty).1 heq
    simp [e, canonical, allCanonical] at hsame

end Expr

end FilterQuery
