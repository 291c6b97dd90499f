import FilterQuery.Proofs.Bindings
import FilterQuery.Proofs.Failures
import FilterQuery.Proofs.Resolution

/-!
# What other mappings change

Two runs of one request, with different answers for names, are kept in step by the names that the request asks for.
These are among the tokens of the filter and the names of the select list, so where the answers for those agree, the
results do (`parse_congr`, `buildQuery_congr`). A request that is accepted, or that fails by the form of its filter,
has an answer for every name it asked for, so more answers change nothing (`parse_extend`, `buildQuery_extend`).

A table answers by its keys, and both facts are about the keys of one scope (`request_agrees`).
-/

namespace FilterQuery

namespace Expr

/-! ## Filters -/

mutual

/-- The fields of an expression are the answers for its names. -/
theorem withFields_congr {resolve resolve' : String → Option String} : ∀ {e : Expr},
    (∀ c ∈ e.comparisons, resolve c.logical = resolve' c.logical) → e.withFields resolve = e.withFields resolve'
  | .comparison c, h => by
    have hc : resolve c.logical = resolve' c.logical := h c (by simp [comparisons])
    rw [withFields, withFields, Comparison.withField, Comparison.withField, hc]
  | .and es, h => by
    rw [withFields, withFields, allWithFields_congr h]
  | .or es, h => by
    rw [withFields, withFields, allWithFields_congr h]

theorem allWithFields_congr {resolve resolve' : String → Option String} : ∀ {es : List Expr},
    (∀ c ∈ allComparisons es, resolve c.logical = resolve' c.logical) →
      allWithFields resolve es = allWithFields resolve' es
  | [], _ => rfl
  | e :: es, h => by
    have he : e.withFields resolve = e.withFields resolve' :=
      withFields_congr fun c hc => h c (by simp [allComparisons, hc])
    have hes : allWithFields resolve es = allWithFields resolve' es :=
      allWithFields_congr fun c hc => h c (by simp [allComparisons, hc])
    rw [allWithFields, allWithFields, he, hes]

end

namespace Reading

variable {r : Reading} {resolve resolve' : String → Option String}

theorem Asked.filter_congr {ts read us : List Token} (h : Asked r ts read us)
    (heq : ∀ t ∈ Slot.name.names read, resolve t.text = resolve' t.text) :
    (r.under resolve).filter ts = (r.under resolve').filter ts := by
  have hmissing : firstMissing resolve (Slot.name.names read) = firstMissing resolve' (Slot.name.names read) :=
    List.find?_congr fun t ht => by rw [heq t ht]
  rw [h.filter_eq resolve, h.filter_eq resolve', answered, answered, hmissing]
  cases hplain : (r.under some).filter ts with
  | error err => rfl
  | ok e =>
    have hfields : e.withFields resolve = e.withFields resolve' := by
      refine withFields_congr fun c hc => ?_
      obtain ⟨t, ht, htext⟩ := List.mem_map.1 (h.inTree e hplain ▸ List.mem_map_of_mem hc)
      rw [← htext, heq t ht]
    simp only [Except.map, hfields]

/-- Where every name has an answer, more answers give the same result. -/
theorem Asked.filter_extend {ts read us : List Token} (h : Asked r ts read us)
    (hmore : ∀ name field, resolve name = some field → resolve' name = some field)
    (hnone : firstMissing resolve (Slot.name.names read) = none) :
    (r.under resolve').filter ts = (r.under resolve).filter ts := by
  refine h.filter_congr fun t ht => ?_
  have hres : resolve t.text ≠ none := by
    simpa using List.find?_eq_none.1 hnone t ht
  obtain ⟨field, hfield⟩ := Option.ne_none_iff_exists'.1 hres
  rw [hfield, hmore t.text field hfield]

end Reading

variable {mode : ParseMode} {resolver resolver' : Resolver} {scope input : String}

theorem parse_congr (h : ∀ text ∈ (tokenize input).map Token.text, resolver scope text = resolver' scope text) :
    parse mode resolver scope input = parse mode resolver' scope input := by
  obtain ⟨read, us, hasked⟩ := Reading.exists_asked ⟨some, mode, input.utf8ByteSize⟩ (tokenize input)
  refine hasked.filter_congr fun t ht => h t.text (List.mem_map_of_mem ?_)
  rw [hasked.split]
  exact List.mem_append_left us ((Reading.Slot.names_sublist .name read).subset ht)

theorem parse_extend (hmore : ∀ name field, resolver scope name = some field → resolver' scope name = some field) :
    (∀ e, parse mode resolver scope input = .ok e → parse mode resolver' scope input = .ok e) ∧
      ∀ err, parse mode resolver scope input = .error err → err.isSyntax = true →
        parse mode resolver' scope input = .error err := by
  obtain ⟨read, us, hasked⟩ := Reading.exists_asked ⟨some, mode, input.utf8ByteSize⟩ (tokenize input)
  constructor
  · intro e h
    obtain ⟨e₀, hplain, hres, -⟩ := (hasked.filter_eq_ok_iff (resolver scope) e).1 h
    exact (hasked.filter_extend hmore ((hasked.firstMissing_eq_none_iff hplain _).2 hres)).trans h
  · intro err h hform
    exact (hasked.filter_extend hmore (hasked.resolved_of_isSyntax h hform).1).trans h

end Expr

/-! ## Requests -/

variable {resolver resolver' : Resolver} {scope filter : String} {options : QueryOptions}

theorem buildQuery_congr
    (h : ∀ text ∈ (tokenize filter).map Token.text ++ selectNames options.select,
      resolver scope text = resolver' scope text) :
    buildQuery resolver scope filter options = buildQuery resolver' scope filter options := by
  have hparse : Expr.parse options.mode resolver scope filter = Expr.parse options.mode resolver' scope filter :=
    Expr.parse_congr fun text htext => h text (List.mem_append_left _ htext)
  have hprojection : projection resolver scope options.select = projection resolver' scope options.select :=
    projection_congr fun name hname => h name (List.mem_append_right _ hname)
  simp only [buildQuery, Envelope.assemble, hparse, hprojection]

theorem buildQuery_extend
    (hmore : ∀ name field, resolver scope name = some field → resolver' scope name = some field) :
    (∀ env, buildQuery resolver scope filter options = .ok env → buildQuery resolver' scope filter options = .ok env) ∧
      ∀ err, buildQuery resolver scope filter options = .error (.malformed err) →
        buildQuery resolver' scope filter options = .error (.malformed err) := by
  constructor
  · intro env h
    obtain ⟨e, includes, hp, hs, rfl⟩ := exists_of_buildQuery h
    rw [buildQuery_of_parse ((Expr.parse_extend hmore).1 e hp), projection_extend hmore hs]
    rfl
  · intro err h
    obtain ⟨hform, hp⟩ := buildQuery_eq_malformed_iff.1 h
    exact buildQuery_eq_malformed_iff.2 ⟨hform, (Expr.parse_extend hmore).2 err hp hform⟩

namespace FieldTable

/-- **Other mappings matter only where a request looks, and more of them break nothing.** Tables that agree on the keys
of the filter's tokens and of the names in the select list give one result. With a table that has every binding of
another one, what the other one accepts has the same document, and a filter that is malformed has the same error. -/
theorem request_agrees (t t' : FieldTable) (scope filter : String) (options : QueryOptions) :
    ((∀ text ∈ (tokenize filter).map Token.text ++ selectNames options.select,
        t.get? (fieldKey scope text) = t'.get? (fieldKey scope text)) →
      buildQuery t.resolver scope filter options = buildQuery t'.resolver scope filter options ∧
        ∀ layout,
          transform layout t.resolver scope filter options = transform layout t'.resolver scope filter options) ∧
    ((∀ key stored, t.get? key = some stored → t'.get? key = some stored) →
      (∀ env, buildQuery t.resolver scope filter options = .ok env →
        buildQuery t'.resolver scope filter options = .ok env) ∧
      (∀ err, buildQuery t.resolver scope filter options = .error (.malformed err) →
        buildQuery t'.resolver scope filter options = .error (.malformed err)) ∧
      ∀ layout,
        (∀ document, transform layout t.resolver scope filter options = .ok document →
          transform layout t'.resolver scope filter options = .ok document) ∧
        ∀ err, transform layout t.resolver scope filter options = .error (.malformed err) →
          transform layout t'.resolver scope filter options = .error (.malformed err)) := by
  constructor
  · intro h
    have hbuild : buildQuery t.resolver scope filter options = buildQuery t'.resolver scope filter options :=
      buildQuery_congr h
    exact ⟨hbuild, fun layout => by rw [transform, transform, hbuild]⟩
  · intro hmore
    have hresolver : ∀ name field, t.resolver scope name = some field → t'.resolver scope name = some field :=
      fun name => hmore (fieldKey scope name)
    obtain ⟨hok, hmalformed⟩ := @buildQuery_extend _ _ scope filter options hresolver
    refine ⟨hok, hmalformed, fun layout => ⟨fun document h => ?_, fun err h => ?_⟩⟩
    · obtain ⟨env, henv, hrender⟩ := transform_eq_ok_iff.1 h
      exact transform_eq_ok_iff.2 ⟨env, hok env henv, hrender⟩
    · exact transform_eq_error_iff.2 (hmalformed err (transform_eq_error_iff.1 h))

/-- The second table has one more binding, for a name that the first filter does not use, and the second filter and
its select list only as an operator or a value. -/
theorem request_agrees_inserted :
    let table := (empty.insert "log" "a" "x").2
    let more := (table.insert "log" "b" "y").2
    transform .compact table.resolver "log" "c eq 1" {} = transform .compact more.resolver "log" "c eq 1" {} ∧
      (∃ document, transform .indented table.resolver "log" "a eq b" { select := "a" } = .ok document ∧
        transform .indented more.resolver "log" "a eq b" { select := "a" } = .ok document) ∧
      ∃ err, transform .indented table.resolver "log" "a b" {} = .error (.malformed err) ∧
        transform .indented more.resolver "log" "a b" {} = .error (.malformed err) := by
  intro table more
  have hmore : ∀ key stored, table.get? key = some stored → more.get? key = some stored := by
    intro key stored h
    have hne : key ≠ fieldKey "log" "b" := by
      rintro rfl
      have hb : table.get? (fieldKey "log" "b") = none := by decide
      rw [hb] at h
      cases h
    simp only [more, insert, get?_bind, if_neg hne]
    exact h
  have hf : table.resolver "log" "a" = some "x" := by decide
  refine ⟨((request_agrees table more "log" "c eq 1" {}).1 (by decide)).2 .compact, ?_, ?_⟩
  · have ht : (tokenize "a eq b").map Token.text = ["a", "eq", "b"] := by decide
    have hp := @Expr.parse_comparison table.resolver "log" _ _ "x" _ .eq ht (by decide) hf .strict
    have hbuild := @buildQuery_of_parse _ _ _ { select := "a" } _ hp
    obtain ⟨-, -, hdocument⟩ := (request_agrees table more "log" "a eq b" { select := "a" }).2 hmore
    obtain ⟨document, hdoc⟩ : ∃ document,
        transform .indented table.resolver "log" "a eq b" { select := "a" } = .ok document :=
      ⟨_, transform_eq_ok_iff.2 ⟨_, hbuild, rfl⟩⟩
    exact ⟨document, hdoc, (hdocument .indented).1 document hdoc⟩
  · have hp : Expr.parse .strict table.resolver "log" "a b" = .error (.unsupportedOperator "b" 2) := by
      have ht : tokenize "a b" = [⟨"a", 0⟩, ⟨"b", 2⟩] := by decide
      rw [Expr.parse, ht]
      exact Expr.Reading.filter_eq_error_of_leaf (by simp [Token.is]) (.badOperator hf (by decide))
    have herr : transform .indented table.resolver "log" "a b" {} = .error (.malformed (.unsupportedOperator "b" 2)) :=
      transform_eq_error_iff.2 (buildQuery_eq_malformed_iff.2 ⟨rfl, hp⟩)
    obtain ⟨-, -, hdocument⟩ := (request_agrees table more "log" "a b" {}).2 hmore
    exact ⟨_, herr, (hdocument .indented).2 _ herr⟩

end FieldTable

end FilterQuery
