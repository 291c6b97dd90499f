import FilterQuery.Transform
import FilterQuery.Proofs.Acceptance
import FilterQuery.Proofs.Projection

/-!
# Which fault is reported

A request can be wrong in its filter and in its select list at once. The filter is looked at first, and its error is
the error of the request whatever the select list is. Otherwise the leftmost name of the select list that does not
resolve is the error (`Fails`, `buildQuery_eq_error_iff`). What writes the document adds no error unless it fails
itself (`deliver_eq_error_iff`), and every error of a request is one of its sender (`request_failure`).
-/

namespace FilterQuery

/-! ## Parse errors within a request -/

namespace TransformError

theorem ofParseError_eq_malformed_iff {e e' : ParseError} :
    ofParseError e = malformed e' ↔ e.isSyntax = true ∧ e = e' := by
  cases e <;> simp [ofParseError, ParseError.isSyntax]

/-- Only an error of form has a position in the request's error. -/
theorem position?_ofParseError (e : ParseError) :
    (ofParseError e).position? = if e.isSyntax then some e.position else none := by
  cases e <;> rfl

theorem kind_ofParseError (e : ParseError) : (ofParseError e).kind = .badRequest := by
  cases e <;> rfl

end TransformError

/-! ## Errors of a request -/

variable {resolver : Resolver} {scope filter : String} {options : QueryOptions}

/-- What the error of a request is about. -/
inductive Fails (resolver : Resolver) (scope filter : String) (options : QueryOptions) : TransformError → Prop where
  | filter {err : ParseError} (h : Expr.parse options.mode resolver scope filter = .error err) :
    Fails resolver scope filter options (.ofParseError err)
  | select {e : Expr} {name : String} (h : Expr.parse options.mode resolver scope filter = .ok e)
    (hs : options.select ≠ selectAll)
    (hn : LeftmostUnresolved resolver scope (selectNames options.select) name) :
    Fails resolver scope filter options (.unresolvedField .select name)

theorem buildQuery_eq_error_iff {err : TransformError} :
    buildQuery resolver scope filter options = .error err ↔ Fails resolver scope filter options err := by
  unfold buildQuery Envelope.assemble
  constructor
  · intro h
    cases hp : Expr.parse options.mode resolver scope filter with
    | error pe =>
      obtain rfl : TransformError.ofParseError pe = err := by simpa [hp] using h
      exact .filter hp
    | ok e =>
      cases hs : projection resolver scope options.select with
      | ok includes => simp [hp, hs] at h
      | error err' =>
        obtain rfl : err' = err := by simpa [hp, hs] using h
        obtain ⟨hne, name, hname, rfl⟩ := projection_eq_error_iff.1 hs
        exact .select hp hne hname
  · rintro (hp | ⟨hp, hne, hname⟩)
    · simp [hp]
    · simp [hp, projection_eq_error_iff.2 ⟨hne, _, hname, rfl⟩]

/-- An error of form is one of the filter. -/
theorem buildQuery_eq_malformed_iff {err : ParseError} :
    buildQuery resolver scope filter options = .error (.malformed err) ↔
      err.isSyntax = true ∧ Expr.parse options.mode resolver scope filter = .error err := by
  rw [buildQuery_eq_error_iff]
  constructor
  · intro h
    generalize he : TransformError.malformed err = e at h
    cases h with
    | filter hp =>
      obtain ⟨hform, rfl⟩ := TransformError.ofParseError_eq_malformed_iff.1 he.symm
      exact ⟨hform, hp⟩
    | select => cases he
  · rintro ⟨hform, hp⟩
    rw [← TransformError.ofParseError_eq_malformed_iff.2 ⟨hform, rfl⟩]
    exact .filter hp

/-- An error within comes from the writer only. -/
theorem deliver_eq_error_iff {write : Envelope → Option String} {err : TransformError} :
    deliver write resolver scope filter options = .error err ↔
      buildQuery resolver scope filter options = .error err ∨
        ∃ env, buildQuery resolver scope filter options = .ok env ∧ write env = none ∧ err = .unwritable := by
  unfold deliver
  cases buildQuery resolver scope filter options with
  | error err' => simp
  | ok env => cases hw : write env <;> simp [hw, eq_comm]

/-- A writer that does not fail adds no error. -/
theorem deliver_eq_error_iff_of_writes {write : Envelope → Option String} (hw : ∀ env, write env ≠ none)
    {err : TransformError} :
    deliver write resolver scope filter options = .error err ↔
      buildQuery resolver scope filter options = .error err := by
  rw [deliver_eq_error_iff]
  exact or_iff_left fun ⟨env, _, hnone, _⟩ => hw env hnone

theorem transform_eq_error_iff {layout : Json.Layout} {err : TransformError} :
    transform layout resolver scope filter options = .error err ↔
      buildQuery resolver scope filter options = .error err := by
  rw [transform_eq_deliver]
  exact deliver_eq_error_iff_of_writes (by simp)

theorem Fails.kind {err : TransformError} (h : Fails resolver scope filter options err) : err.kind = .badRequest := by
  cases h with
  | filter => exact TransformError.kind_ofParseError _
  | select => rfl

theorem exists_fails_iff :
    (∃ err, Fails resolver scope filter options err) ↔
      (∃ pe, Expr.parse options.mode resolver scope filter = .error pe) ∨
        (∃ e, Expr.parse options.mode resolver scope filter = .ok e) ∧ options.select ≠ selectAll ∧
          ∃ name ∈ selectNames options.select, resolver scope name = none := by
  rw [← exists_leftmostUnresolved_iff]
  constructor
  · rintro ⟨_, hp | ⟨hp, hs, hn⟩⟩
    · exact .inl ⟨_, hp⟩
    · exact .inr ⟨⟨_, hp⟩, hs, _, hn⟩
  · rintro (⟨_, hp⟩ | ⟨⟨_, hp⟩, hs, _, hn⟩)
    · exact ⟨_, .filter hp⟩
    · exact ⟨_, .select hp hs hn⟩

/-- **One fault is reported, by every way to ask.** With a writer that does not fail, the document and its text fail
together and with the same error. They fail if the filter does, with its error, or else if a name of the select list
does not resolve, with the leftmost one. The message of the filter's error is kept, and its position if it is one of
form. No error is one within. -/
theorem request_failure (resolver : Resolver) (scope filter : String) (options : QueryOptions) :
    (∀ write : Envelope → Option String, (∀ env, write env ≠ none) → ∀ err,
      deliver write resolver scope filter options = .error err ↔
        buildQuery resolver scope filter options = .error err) ∧
    (∀ layout err,
      transform layout resolver scope filter options = .error err ↔
        buildQuery resolver scope filter options = .error err) ∧
    ((∃ err, buildQuery resolver scope filter options = .error err) ↔
      (∃ pe, Expr.parse options.mode resolver scope filter = .error pe) ∨
        (∃ e, Expr.parse options.mode resolver scope filter = .ok e) ∧ options.select ≠ selectAll ∧
          ∃ name ∈ selectNames options.select, resolver scope name = none) ∧
    (∀ pe, Expr.parse options.mode resolver scope filter = .error pe →
      buildQuery resolver scope filter options = .error (.ofParseError pe) ∧
        (TransformError.ofParseError pe).message = pe.message ∧
        (TransformError.ofParseError pe).position? = if pe.isSyntax then some pe.position else none) ∧
    (∀ e err, Expr.parse options.mode resolver scope filter = .ok e →
      buildQuery resolver scope filter options = .error err →
        ∃ name, LeftmostUnresolved resolver scope (selectNames options.select) name ∧
          err = .unresolvedField .select name) ∧
    ∀ err, buildQuery resolver scope filter options = .error err → err.kind = .badRequest := by
  refine ⟨fun write hw err => deliver_eq_error_iff_of_writes hw, fun layout err => transform_eq_error_iff, ?_,
    fun pe hp => ?_, fun e err hp h => ?_, fun err h => ?_⟩
  · simp only [buildQuery_eq_error_iff]
    exact exists_fails_iff
  · exact ⟨buildQuery_eq_error_iff.2 (.filter hp), TransformError.message_ofParseError pe,
      TransformError.position?_ofParseError pe⟩
  · cases buildQuery_eq_error_iff.1 h with
    | filter hp' => cases hp.symm.trans hp'
    | select _ _ hn => exact ⟨_, hn, rfl⟩
  · exact (buildQuery_eq_error_iff.1 h).kind

/-- Both the operator and the select list are wrong in the first request, two names of the select list in the second. -/
theorem request_failure_both :
    let resolver : Resolver := fun _ name => if name = "a" then some "stored" else none
    transform .compact resolver "log" "a like 1" { select := "b" } =
        .error (.malformed (.unsupportedOperator "like" 2)) ∧
      transform .indented resolver "log" "a eq 1" { select := "a,b,c" } = .error (.unresolvedField .select "b") := by
  intro resolver
  constructor
  · have hp : Expr.parse .strict resolver "log" "a like 1" = .error (.unsupportedOperator "like" 2) := by
      have ht : tokenize "a like 1" = [⟨"a", 0⟩, ⟨"like", 2⟩, ⟨"1", 7⟩] := by decide
      rw [Expr.parse, ht]
      exact Expr.Reading.filter_eq_error_of_leaf (by simp [Token.is]) (.badOperator rfl (by decide))
    obtain ⟨-, htransform, -, hfilter, -⟩ := request_failure resolver "log" "a like 1" { select := "b" }
    exact (htransform .compact _).2 (hfilter _ hp).1
  · have ht : (tokenize "a eq 1").map Token.text = ["a", "eq", "1"] := by decide
    have hp := @Expr.parse_comparison resolver "log" _ _ "stored" _ .eq ht (by decide) rfl .strict
    obtain ⟨-, htransform, hfails, -, hselect, -⟩ := request_failure resolver "log" "a eq 1" { select := "a,b,c" }
    obtain ⟨err, herr⟩ := hfails.2 (.inr ⟨⟨_, hp⟩, by decide, "b", by decide, by decide⟩)
    obtain ⟨name, hname, rfl⟩ := hselect _ err hp herr
    have hb : firstUnresolved resolver "log" (selectNames "a,b,c") = some "b" := by decide
    obtain rfl : "b" = name := Option.some.inj (hb.symm.trans (firstUnresolved_eq_some_iff.2 hname))
    exact (htransform .indented _).2 herr

end FilterQuery
