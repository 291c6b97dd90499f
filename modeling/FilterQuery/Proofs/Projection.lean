import FilterQuery.Envelope
import Mathlib.Data.List.Basic
import Mathlib.Data.List.Find

/-!
# Projections

A select list is resolved name by name, and the first name without a stored field ends it. So the result is told by
this name, or where there is none by the fields of all names (`mapM_selectField`). It depends on the answers for the
names of the list only (`projection_congr`), and more answers keep a projection as it is (`projection_extend`).
-/

namespace FilterQuery

variable {resolver : Resolver} {scope select : String}

/-! ## The first name that does not resolve -/

def firstUnresolved (resolver : Resolver) (scope : String) (names : List String) : Option String :=
  names.find? fun name => (resolver scope name).isNone

/-- The name is in the list, does not resolve, and every name before it does. -/
def LeftmostUnresolved (resolver : Resolver) (scope : String) (names : List String) (name : String) : Prop :=
  ∃ before after, names = before ++ name :: after ∧
    (∀ earlier ∈ before, resolver scope earlier ≠ none) ∧ resolver scope name = none

theorem firstUnresolved_eq_none_iff {names : List String} :
    firstUnresolved resolver scope names = none ↔ ∀ name ∈ names, resolver scope name ≠ none := by
  simp [firstUnresolved]

theorem firstUnresolved_eq_some_iff {names : List String} {name : String} :
    firstUnresolved resolver scope names = some name ↔ LeftmostUnresolved resolver scope names name := by
  have hresolves (earlier : String) : (!(resolver scope earlier).isNone) = true ↔ resolver scope earlier ≠ none := by
    simp [Option.isSome_iff_ne_none]
  simp only [firstUnresolved, List.find?_eq_some_iff_append, hresolves, LeftmostUnresolved, Option.isNone_iff_eq_none]
  constructor
  · rintro ⟨hnone, before, after, rfl, hbefore⟩
    exact ⟨before, after, rfl, hbefore, hnone⟩
  · rintro ⟨before, after, rfl, hbefore, hnone⟩
    exact ⟨hnone, before, after, rfl, hbefore⟩

theorem exists_leftmostUnresolved_iff {names : List String} :
    (∃ name, LeftmostUnresolved resolver scope names name) ↔ ∃ name ∈ names, resolver scope name = none := by
  simp only [← firstUnresolved_eq_some_iff, firstUnresolved, ← Option.isSome_iff_exists, List.find?_isSome]
  simp

/-! ## The result of a select list -/

theorem mapM_selectField (resolver : Resolver) (scope : String) (names : List String) :
    names.mapM (selectField resolver scope) =
      match firstUnresolved resolver scope names with
      | some name => .error (.unresolvedField .select name)
      | none => .ok (names.filterMap (resolver scope)) := by
  induction names with
  | nil => rfl
  | cons name names ih =>
    rw [List.mapM_cons, ih]
    cases hn : resolver scope name with
    | none => simp [selectField, firstUnresolved, hn, bind, Except.bind]
    | some field =>
      have hfirst : firstUnresolved resolver scope (name :: names) = firstUnresolved resolver scope names := by
        simp [firstUnresolved, hn]
      rw [hfirst]
      cases firstUnresolved resolver scope names <;> simp [selectField, hn, bind, Except.bind, pure, Except.pure]

/-- A list other than `*` is resolved name by name. -/
theorem projection_of_ne (h : select ≠ selectAll) (resolver : Resolver) (scope : String) :
    projection resolver scope select =
      match firstUnresolved resolver scope (selectNames select) with
      | some name => .error (.unresolvedField .select name)
      | none => .ok ((selectNames select).filterMap (resolver scope)) := by
  rw [projection, if_neg h, mapM_selectField]

theorem projection_eq_error_iff {err : TransformError} :
    projection resolver scope select = .error err ↔
      select ≠ selectAll ∧
        ∃ name, LeftmostUnresolved resolver scope (selectNames select) name ∧ err = .unresolvedField .select name := by
  by_cases hs : select = selectAll
  · simp [projection, hs]
  · simp only [projection_of_ne hs, ← firstUnresolved_eq_some_iff]
    cases firstUnresolved resolver scope (selectNames select) with
    | none => simp
    | some name => simp [hs, eq_comm]

theorem resolved_of_projection {fields : List String} (h : projection resolver scope select = .ok fields) :
    select = selectAll ∨ ∀ name ∈ selectNames select, resolver scope name ≠ none := by
  by_cases hs : select = selectAll
  · exact .inl hs
  · right
    rw [projection_of_ne hs] at h
    cases hf : firstUnresolved resolver scope (selectNames select) with
    | some name => simp [hf] at h
    | none => exact firstUnresolved_eq_none_iff.1 hf

/-! ## Other answers -/

theorem projection_congr {resolver' : Resolver}
    (h : ∀ name ∈ selectNames select, resolver scope name = resolver' scope name) :
    projection resolver scope select = projection resolver' scope select := by
  by_cases hs : select = selectAll
  · rw [projection, projection, if_pos hs, if_pos hs]
  · have hfirst : firstUnresolved resolver scope (selectNames select) =
        firstUnresolved resolver' scope (selectNames select) :=
      List.find?_congr fun name hname => by rw [h name hname]
    have hfields : (selectNames select).filterMap (resolver scope) =
        (selectNames select).filterMap (resolver' scope) :=
      List.filterMap_congr h
    rw [projection_of_ne hs, projection_of_ne hs, hfirst, hfields]

theorem projection_extend {resolver' : Resolver}
    (hmore : ∀ name field, resolver scope name = some field → resolver' scope name = some field)
    {fields : List String} (h : projection resolver scope select = .ok fields) :
    projection resolver' scope select = .ok fields := by
  rcases resolved_of_projection h with hs | hres
  · rwa [projection, if_pos hs] at h ⊢
  · rw [← projection_congr fun name hname => ?_]
    · exact h
    · obtain ⟨field, hfield⟩ := Option.ne_none_iff_exists'.1 (hres name hname)
      rw [hfield, hmore name field hfield]

end FilterQuery
