import FilterQuery.Proofs.Bindings
import FilterQuery.Proofs.Leaves
import FilterQuery.Proofs.Truth

/-!
# How far scopes are apart

The key of a field is its scope, a dot and its name, and scopes and names may hold dots themselves. So two
pairs can have one key, but only in one way: a scope goes on from the other with a dot, and the name in the
shorter scope begins with what it goes on with (`fieldKey_eq_iff`). Two scopes of which neither goes on from
the other have no key in common.

An insert for one scope changes nothing else in another scope, and a name that no entry reaches in this way is
not accepted there (`other_scope_kept`).
-/

namespace FilterQuery.FieldTable

/-- The scope of the second pair goes on with a dot and a text, and the first name begins with this text. -/
def Shifted (scope field scope' field' : String) : Prop :=
  ∃ w, scope' = scope ++ "." ++ w ∧ field = w ++ "." ++ field'

theorem fieldKey_eq_of_shifted {scope field scope' field' : String} (h : Shifted scope field scope' field') :
    fieldKey scope' field' = fieldKey scope field := by
  obtain ⟨w, rfl, rfl⟩ := h
  simp [fieldKey, String.append_assoc]

/-- Where a key is cut at two places, the text between them is a dot and what one scope goes on with. -/
theorem shifted_of_append {scope field scope' field' : String} {cs : List Char} (hne : scope ≠ scope')
    (hs : scope'.toList = scope.toList ++ cs) (hf : '.' :: field.toList = cs ++ '.' :: field'.toList) :
    Shifted scope field scope' field' := by
  cases cs with
  | nil =>
    rw [List.append_nil, String.toList_inj] at hs
    exact absurd hs.symm hne
  | cons c cs =>
    obtain ⟨rfl, hfield⟩ := List.cons.inj hf
    refine ⟨String.ofList cs, ?_, ?_⟩
    · rw [← String.toList_inj, hs]
      simp
    · rw [← String.toList_inj, hfield]
      simp

theorem fieldKey_eq_iff {scope field scope' field' : String} (hne : scope ≠ scope') :
    fieldKey scope field = fieldKey scope' field' ↔
      Shifted scope field scope' field' ∨ Shifted scope' field' scope field := by
  constructor
  · intro h
    rw [← String.toList_inj] at h
    simp only [fieldKey, String.toList_append, List.append_assoc] at h
    rcases List.append_eq_append_iff.1 h with ⟨cs, hs, hf⟩ | ⟨cs, hs, hf⟩
    · exact .inl (shifted_of_append hne hs hf)
    · exact .inr (shifted_of_append hne.symm hs hf)
  · rintro (h | h)
    · exact (fieldKey_eq_of_shifted h).symm
    · exact fieldKey_eq_of_shifted h

/-- The entry is for another scope, and no dot between scope and name makes its key that of the field. -/
def Entry.Apart (e : Entry) (scope field : String) : Prop :=
  e.scope ≠ scope ∧ ¬ Shifted e.scope e.field scope field ∧ ¬ Shifted scope field e.scope e.field

theorem Entry.Apart.fieldKey_ne {e : Entry} {scope field : String} (h : e.Apart scope field) :
    fieldKey scope field ≠ fieldKey e.scope e.field := by
  obtain ⟨hne, h1, h2⟩ := h
  intro hk
  rcases (fieldKey_eq_iff hne).1 hk.symm with hs | hs
  · exact h1 hs
  · exact h2 hs

/-- A dot that is part of a scope can be read as part of a field of a shorter scope: the field `b.c` of `a` is the
field `c` of `a.b`. -/
theorem insert_reaches_longer_scope :
    "a" ≠ "a.b" ∧ empty.resolver "a.b" "c" = none ∧
      (empty.insert "a" "b.c" "stored").2.resolver "a.b" "c" = some "stored" := by
  decide

/-- **What is configured for one scope stays there**, but for the dots. An insert for a scope leaves the answers in
every other scope as they were, except that of the field, if there is one, which has the same key by a shift of
the dot; that one becomes the inserted name. So a field that neither the table resolves in a scope nor an inserted
entry reaches is used by no accepted request of that scope, neither in the filter nor in the select list. -/
theorem other_scope_kept (t : FieldTable) :
    (∀ (scope field stored scope' field' : String), scope ≠ scope' →
      (¬ Shifted scope field scope' field' → ¬ Shifted scope' field' scope field →
        (t.insert scope field stored).2.resolver scope' field' = t.resolver scope' field') ∧
      (Shifted scope field scope' field' ∨ Shifted scope' field' scope field →
        (t.insert scope field stored).2.resolver scope' field' = some stored)) ∧
    ∀ (entries : List Entry) (scope field : String), (∀ e ∈ entries, e.Apart scope field) →
      t.resolver scope field = none →
        ∀ (filter : String) (options : QueryOptions) (env : Envelope),
          buildQuery (t.insertAll entries).resolver scope filter options = .ok env →
            (∃ e, Expr.parse options.mode (t.insertAll entries).resolver scope filter = .ok e ∧
              ∀ c ∈ e.comparisons, c.logical ≠ field) ∧
            (options.select = selectAll ∨ field ∉ selectNames options.select) := by
  constructor
  · intro scope field stored scope' field' hne
    rw [resolver_insert]
    constructor
    · intro h1 h2
      have he : Entry.Apart ⟨scope, field, stored⟩ scope' field' := ⟨hne, h1, h2⟩
      rw [if_neg he.fieldKey_ne]
    · intro h
      rw [if_pos ((fieldKey_eq_iff hne).2 h).symm]
  · intro entries scope field hapart hnone filter options env h
    have hkept : (t.insertAll entries).resolver scope field = none := by
      rw [resolver_insertAll (fun e he => (hapart e he).fieldKey_ne), hnone]
    obtain ⟨⟨e, hp, hr⟩, hs⟩ := resolved_of_buildQuery h
    refine ⟨⟨e, hp, fun c hc heq => ?_⟩, hs.imp_right fun hs hmem => hs field hmem hkept⟩
    have hres := hr c hc
    rw [heq, hkept] at hres
    cases hres

/-- The scope `a.b` goes on from `a`. Its field `c` is reached from there by a shift of the dot, its field `d` is not,
and a request that uses neither is accepted. -/
theorem other_scope_kept_dotted :
    let own := (empty.insert "a.b" "e" "own").2
    let table := own.insertAll [⟨"a", "b.c", "shifted"⟩]
    table.resolver "a.b" "d" = own.resolver "a.b" "d" ∧ table.resolver "a.b" "c" = some "shifted" ∧
      ∃ env, buildQuery table.resolver "a.b" "e eq d" { select := "e" } = .ok env ∧
        (∃ e, Expr.parse .strict table.resolver "a.b" "e eq d" = .ok e ∧ ∀ c ∈ e.comparisons, c.logical ≠ "d") ∧
        ("e" = selectAll ∨ "d" ∉ selectNames "e") := by
  intro own table
  have hk : fieldKey "a.b" "d" ≠ fieldKey "a" "b.c" := by decide
  have hd : (⟨"a", "b.c", "shifted"⟩ : Entry).Apart "a.b" "d" :=
    ⟨by decide, fun h => hk (fieldKey_eq_of_shifted h), fun h => hk (fieldKey_eq_of_shifted h).symm⟩
  obtain ⟨hinsert, hrequest⟩ := other_scope_kept own
  have ht : (tokenize "e eq d").map Token.text = ["e", "eq", "d"] := by decide
  have hf : table.resolver "a.b" "e" = some "own" := by decide
  have hderives := Expr.Reading.derives_comparison (by decide) hf (CompareOp.ofKeyword?_keyword .eq) "d"
  rw [CompareOp.keyword, ← ht] at hderives
  refine ⟨(hinsert "a" "b.c" "shifted" "a.b" "d" (by decide)).1 hd.2.1 hd.2.2,
    (hinsert "a" "b.c" "shifted" "a.b" "c" (by decide)).2 (.inl ⟨"b", by decide, by decide⟩), _,
    buildQuery_of_derives hderives { select := "e" }, ?_⟩
  exact hrequest [⟨"a", "b.c", "shifted"⟩] "a.b" "d" (by simpa using hd) (by decide) _ _ _
    (buildQuery_of_derives hderives { select := "e" })

end FilterQuery.FieldTable
