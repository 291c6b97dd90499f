import FilterQuery.Proofs.Blanks
import FilterQuery.Proofs.Comparisons
import FilterQuery.Proofs.Leaves

/-!
# Documents are read back

Three kinds of text come into a document from outside: the values of the filter, the stored names, which are keys
there, and the names of the projection. A query holds no infinity and no NaN (`finite_toQuery`), so whatever these
texts are, the document that the backend reads is the one that was built (`decode?_transform`).
-/

namespace FilterQuery

open Json (decode? eraseBlanks finite finiteItems finiteMembers)
open Json.NumberText (exactValue?)

/-! ## Queries are finite -/

theorem Binary64.finite_toJson (x : Binary64) : x.toJson.finite = true := by
  unfold toJson
  split
  · rfl
  · split
    · next hf => exact hf
    · rfl

theorem Literal.finite_toJson : ∀ l : Literal, l.toJson.finite = true
  | .string _ => rfl
  | .number x => x.finite_toJson

theorem Json.finite_single (key : String) (value : Json) : (single key value).finite = value.finite := by
  simp [single, finite, finiteMembers]

theorem Comparison.finite_toQuery (c : Comparison) : c.toQuery.finite = true := by
  have hvalue := c.value.finite_toJson
  unfold Comparison.toQuery
  split
  · simpa [Query.range, Json.finite_single] using hvalue
  · extract_lets node
    have hnode : node.finite = true := by simpa [node, Query.matchPhrase, Json.finite_single] using hvalue
    split
    · simpa [Query.not, Json.finite_single] using hnode
    · exact hnode

namespace Expr

mutual

theorem finite_toQuery : ∀ e : Expr, e.toQuery.finite = true
  | comparison c => c.finite_toQuery
  | and operands => by
    rw [toQuery, Query.all, Json.finite_single, Json.finite_single]
    exact finite_toQueries operands
  | or operands => by
    rw [toQuery, Query.any, Json.finite_single, Json.finite_single]
    exact finite_toQueries operands

theorem finite_toQueries : ∀ es : List Expr, finiteItems (toQueries es) = true
  | [] => rfl
  | e :: es => by rw [toQueries, finiteItems, finite_toQuery e, finite_toQueries es]; rfl

end

end Expr

theorem Json.finiteItems_map_string (texts : List String) : finiteItems (texts.map string) = true := by
  induction texts with
  | nil => rfl
  | cons text texts ih => exact ih

theorem Envelope.finite_toJson {env : Envelope} (h : env.query.finite = true) : env.toJson.finite = true := by
  simp [toJson, finite, finiteMembers, h, Json.finite_single, Json.finiteItems_map_string]

/-! ## From the text back to the document -/

/-- **A document cannot be broken out of.** Whenever there is a document, both of its texts are read back by a reader
for JSON, to the end, as the object with the query, the paging and the projection that the request has, in this
order. Without the blanks outside its strings, the indented text is the compact one. -/
theorem decode?_transform {resolver : Resolver} {scope filter : String} {options : QueryOptions} {env : Envelope}
    (h : buildQuery resolver scope filter options = .ok env) :
    ∃ compact indented,
      transform .compact resolver scope filter options = .ok compact ∧
      transform .indented resolver scope filter options = .ok indented ∧
      decode? exactValue? compact = some (.object
        [("query", env.query), ("size", .int options.top.toInt), ("from", .int options.offset.toInt),
          ("_source", .object [("includes", .array (env.includes.map .string))])]) ∧
      decode? exactValue? indented = decode? exactValue? compact ∧
      String.ofList (eraseBlanks false indented.toList) = compact := by
  obtain ⟨e, includes, -, -, rfl⟩ := exists_of_buildQuery h
  set env : Envelope := ⟨e.toQuery, options.top, options.offset, includes⟩
  have hfinite : env.toJson.finite = true := Envelope.finite_toJson e.finite_toQuery
  refine ⟨env.toJson.compact, env.toJson.pretty, ?_, ?_, Json.decode?_render .compact hfinite, ?_, ?_⟩
  · rw [transform, h]
    rfl
  · rw [transform, h]
    rfl
  · exact (Json.decode?_render .indented hfinite).trans (Json.decode?_render .compact hfinite).symm
  · rw [Json.pretty, Json.render, String.toList_ofList, Json.eraseBlanks_write .indented 0 0]
    rfl

/-- Quotes, backslashes, controls and characters beyond the basic plane come from the filter, from the stored names
and from the select list. -/
theorem decode?_transform_quotes :
    let resolver : Resolver := fun _ name => some (name ++ "\"\\")
    let filter := "f ge '\"\x7d\\\n\x01😀'"
    ∃ compact indented,
      transform .compact resolver "s" filter { select := "x\",y" } = .ok compact ∧
      transform .indented resolver "s" filter { select := "x\",y" } = .ok indented ∧
      decode? exactValue? compact = some (.object
        [("query", Query.range "f\"\\" "gte" (.string "\"\x7d\\\n\x01😀")), ("size", .int 500), ("from", .int 0),
          ("_source", .object [("includes", .array [.string "x\"\"\\", .string "y\"\\"])])]) ∧
      decode? exactValue? indented = decode? exactValue? compact ∧
      String.ofList (eraseBlanks false indented.toList) = compact := by
  intro resolver filter
  have hname : IsName "f" := Word.isName ⟨"f", by decide, by decide⟩
  have hvalue : Token.Whole "'\"\x7d\\\n\x01😀'" :=
    Raw.whole (.quoted "\"\x7d\\\n\x01😀" (by decide))
  have hbuild : buildQuery resolver "s" filter { select := "x\",y" } = .ok
      ⟨Query.range "f\"\\" "gte" (.string "\"\x7d\\\n\x01😀"), 500, 0, ["x\"\"\\", "y\"\\"]⟩ :=
    buildQuery_comparison hname rfl hvalue .ge { select := "x\",y" }
  exact decode?_transform hbuild

end FilterQuery
