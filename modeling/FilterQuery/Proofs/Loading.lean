import FilterQuery.FieldTable.Document
import FilterQuery.Proofs.Bindings

/-!
# Tables that are loaded and tables that are built

A document with one mapping of fields for each scope says what a run of inserts says. The loader goes down the
mappings and joins the keys on its way by dots (`ofValue_scopesValue`), an insert joins scope and field by one dot, and
both give the same key, but for an empty scope: below the empty path the loader takes a key for the whole path and
writes no dot, where an insert writes one. So the two tables are equal as long as no scope is empty
(`ofYaml_scopes`), and a field of the empty scope is loaded under a key that no lookup in this scope asks for
(`loaded_empty_scope_unresolved`).
-/

namespace FilterQuery.FieldTable

/-! ## Keys -/

/-- Where the loader puts the entry. -/
def Entry.path (e : Entry) : String := joinPath e.scope e.field

/-- What the loader binds for the entry. -/
def Entry.loaded (e : Entry) : String × String := (e.path, e.stored)

@[simp] theorem joinPath_empty (key : String) : joinPath "" key = key := rfl

theorem joinPath_of_ne {path : String} (h : path ≠ "") (key : String) : joinPath path key = fieldKey path key := by
  rw [joinPath, if_neg (by simpa using h), fieldKey]

theorem Entry.path_of_ne {e : Entry} (h : e.scope ≠ "") : e.path = fieldKey e.scope e.field :=
  joinPath_of_ne h e.field

/-! ## Documents of scopes -/

/-- The mapping of scopes to mappings of fields to stored names. -/
def scopesValue (scopes : List (String × List (String × String))) : Yaml.Value :=
  .mapping (scopes.map fun (scope, fields) =>
    (.string scope, .mapping (fields.map fun (field, stored) => (.string field, .string stored))))

/-- The entries of the mapping, in the order of the document. -/
def scopesEntries (scopes : List (String × List (String × String))) : List Entry :=
  scopes.flatMap fun (scope, fields) => fields.map fun (field, stored) => ⟨scope, field, stored⟩

/-- Where each entry of a mapping binds keys, whatever the table is, the mapping binds them in turn. -/
theorem addEntries_map {α : Type} {path : String} {entry : α → Yaml.Value × Yaml.Value}
    {bindings : α → List (String × String)}
    (h : ∀ (t : FieldTable) (x : α), t.addEntry path (entry x) = .ok (t.bindAll (bindings x))) (t : FieldTable)
    (xs : List α) : t.addEntries path (xs.map entry) = .ok (t.bindAll (xs.flatMap bindings)) := by
  induction xs generalizing t with
  | nil => rfl
  | cons x xs ih =>
    rw [List.map_cons, addEntries, h]
    simp only
    rw [ih, List.flatMap_cons, bindAll_append]

theorem addEntries_fields (t : FieldTable) (path : String) (fields : List (String × String)) :
    t.addEntries path (fields.map fun (field, stored) => (.string field, .string stored)) =
      .ok (t.bindAll (fields.map fun (field, stored) => (joinPath path field, stored))) := by
  have hstep (t : FieldTable) (x : String × String) :
      t.addEntry path (.string x.1, .string x.2) = .ok (t.bindAll [(joinPath path x.1, x.2)]) := by
    simp [addEntry, addValue, Yaml.Value.text?]
  rw [addEntries_map hstep, List.map_eq_flatMap]

/-- Every entry is bound at its path, in the order of the document. -/
theorem ofValue_scopesValue (scopes : List (String × List (String × String))) :
    ofValue (scopesValue scopes) = .ok (empty.bindAll ((scopesEntries scopes).map Entry.loaded)) := by
  have hstep (t : FieldTable) (x : String × List (String × String)) :
      t.addEntry "" (.string x.1, .mapping (x.2.map fun (field, stored) => (.string field, .string stored))) =
        .ok (t.bindAll (x.2.map fun (field, stored) => (joinPath x.1 field, stored))) := by
    simp [addEntry, addValue, Yaml.Value.text?, addEntries_fields]
  rw [scopesValue, ofValue, addEntries_map hstep, scopesEntries, List.map_flatMap]
  simp [Entry.loaded, Entry.path, Function.comp_def]

/-- The tokens of a block mapping with one entry, whose texts are all quoted. -/
def Entry.tokens (e : Entry) : List Yaml.Token :=
  [.blockMappingStart, .key, .scalar .quoted e.scope, .value, .blockMappingStart, .key, .scalar .quoted e.field, .value,
    .scalar .quoted e.stored, .blockEnd, .blockEnd]

open Yaml.Node in
theorem read?_of_tokens {text : String} {e : Entry} (hb : Text.isBlank text = false)
    (ht : Yaml.tokens? text = some e.tokens) :
    Yaml.read? text = some (scopesValue [(e.scope, [(e.field, e.stored)])]) := by
  have hnode : ofTokens? e.tokens = some (some (.mapping ⟨none, none⟩ [(.scalar ⟨none, none⟩ .quoted e.scope,
      .mapping ⟨none, none⟩ [(.scalar ⟨none, none⟩ .quoted e.field, .scalar ⟨none, none⟩ .quoted e.stored)])])) := by
    simp [Entry.tokens, ofTokens?, endsDocument, Yaml.Node.read, readBlockMapping, readUnless, readValue, readProps,
      endsBlockValue, isFinished]
  -- there is no anchor, so numbering changes nothing
  simp [Yaml.read?, hb, ht, hnode, value?, number?, numberProps, numberEntries?, numberEntry?, anchored,
    anchoredEntries, anchoredEntry, anchor?, marks, marksOfEntries, marksOfEntry, Expansion.expand?, expandEntries,
    scalarValue?, withTag, localTag?, maxDepth, scopesValue]

/-! ## Loading and inserting -/

/-- **Loading a document of scopes is inserting its entries**, in the order of the document, as long as no scope is
empty. Whatever the scopes are, the document has a table, every entry is bound at its path, and where no two entries
share one, each scope but the empty one resolves what the document has for it. A field of the empty scope is bound
under its bare name. -/
theorem ofYaml_scopes (refusal : String → String) (text : String) (scopes : List (String × List (String × String)))
    (h : Yaml.read? text = some (scopesValue scopes)) :
    ofYaml refusal text = .ok (empty.bindAll ((scopesEntries scopes).map Entry.loaded)) ∧
      ((∀ e ∈ scopesEntries scopes, e.scope ≠ "") →
        ofYaml refusal text = .ok (empty.insertAll (scopesEntries scopes))) ∧
      (((scopesEntries scopes).map Entry.path).Nodup → ∀ t, ofYaml refusal text = .ok t → ∀ e ∈ scopesEntries scopes,
        (e.scope ≠ "" → t.resolver e.scope e.field = some e.stored) ∧
          (e.scope = "" → t.get? e.field = some e.stored)) := by
  have hload : ofYaml refusal text = .ok (empty.bindAll ((scopesEntries scopes).map Entry.loaded)) := by
    simp only [ofYaml, h, ofValue_scopesValue]
  refine ⟨hload, fun hne => ?_, fun hn t ht e he => ?_⟩
  · have hkeys : (scopesEntries scopes).map Entry.loaded =
        (scopesEntries scopes).map fun e => (fieldKey e.scope e.field, e.stored) :=
      List.map_congr_left fun e he => by rw [Entry.loaded, Entry.path_of_ne (hne e he)]
    rw [hload, hkeys, insertAll_eq_bindAll]
  · rw [hload] at ht
    cases ht
    have hpaths : (((scopesEntries scopes).map Entry.loaded).map Prod.fst).Nodup := by
      rwa [List.map_map]
    have hbound : (empty.bindAll ((scopesEntries scopes).map Entry.loaded)).get? e.path = some e.stored :=
      get?_bindAll_of_mem hpaths (List.mem_map_of_mem he) empty
    constructor
    · intro hne
      rw [resolver, ← Entry.path_of_ne hne]
      exact hbound
    · intro hempty
      rwa [Entry.path, hempty, joinPath_empty] at hbound

theorem ofYaml_scopes_dotted :
    (∀ refusal, ofYaml refusal "'a.b':\n  'c': 'x'" = .ok (empty.insert "a.b" "c" "x").2) ∧
      ∀ refusal t, ofYaml refusal "'a.b':\n  'c': 'x'" = .ok t → t.resolver "a.b" "c" = some "x" := by
  have hread : Yaml.read? "'a.b':\n  'c': 'x'" = some (scopesValue [("a.b", [("c", "x")])]) :=
    @read?_of_tokens _ ⟨"a.b", "c", "x"⟩ (by decide) (by decide +kernel)
  refine ⟨fun refusal => (ofYaml_scopes refusal _ _ hread).2.1 (by decide), fun refusal t ht => ?_⟩
  obtain ⟨-, -, hresolved⟩ := ofYaml_scopes refusal _ _ hread
  exact (hresolved (by decide) t ht ⟨"a.b", "c", "x"⟩ (by decide)).1 (by decide)

/-- The empty scope is a path that the loader takes for none: its field is bound under the bare name, where an insert
binds it behind a dot. -/
theorem loaded_empty_scope_unresolved :
    Yaml.read? "'':\n  'f': 'p'" = some (scopesValue [("", [("f", "p")])]) ∧
      (∀ refusal, ∃ t, ofYaml refusal "'':\n  'f': 'p'" = .ok t ∧ t.resolver "" "f" = none) ∧
      (empty.insertAll (scopesEntries [("", [("f", "p")])])).resolver "" "f" = some "p" := by
  have hread : Yaml.read? "'':\n  'f': 'p'" = some (scopesValue [("", [("f", "p")])]) :=
    @read?_of_tokens _ ⟨"", "f", "p"⟩ (by decide) (by decide +kernel)
  refine ⟨hread, fun refusal => ⟨empty.bind "f" "p", ?_, by decide⟩, by decide⟩
  simp only [ofYaml, hread, ofValue_scopesValue]
  rfl

end FilterQuery.FieldTable
