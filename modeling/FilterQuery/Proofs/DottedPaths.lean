import FilterQuery.Proofs.Loading

/-!
# What a nested document binds

A document of names is gone through once, in its order, and each key comes before what it leads to. Here the same is
said without a table that is filled on the way. `places` lists what stands in the document, each with the texts of the
keys above it. A place is at fault by itself, or it binds something, or it does neither, and it has no need to know what
came before it.

Loading puts the two together (`addValue_eq`): the first place at fault is the error, and if none is, the bindings of
all places are made in turn. So a key has the last of its bindings, and a document is refused exactly if it has a fault
at some depth (`ofYaml_flattens`).
-/

namespace FilterQuery

/-! ## Values that a document of names may have -/

namespace Yaml.Value

/-- Strings, numbers and booleans can be keys, and can be bound. -/
def isScalar : Value → Bool
  | string _ | int _ | float _ | bool _ => true
  | _ => false

theorem isSome_text? (v : Value) : v.text?.isSome = v.isScalar := by
  cases v <;> rfl

/-- A value is another one or stands in it, at any depth. -/
inductive Occurs (part : Value) : Value → Prop
  | self : Occurs part part
  | key {k v : Value} {entries : List (Value × Value)} (he : (k, v) ∈ entries) (h : Occurs part k) :
      Occurs part (.mapping entries)
  | value {k v : Value} {entries : List (Value × Value)} (he : (k, v) ∈ entries) (h : Occurs part v) :
      Occurs part (.mapping entries)
  | item {v : Value} {items : List Value} (hv : v ∈ items) (h : Occurs part v) : Occurs part (.sequence items)
  | content {tag : String} {v : Value} (h : Occurs part v) : Occurs part (.tagged tag v)

/-- The value is neither a sequence nor tagged, and if it is a mapping, its keys are scalars. -/
def Loadable : Value → Prop
  | sequence _ => False
  | tagged _ _ => False
  | mapping entries => ∀ k v, (k, v) ∈ entries → k.isScalar = true
  | _ => True

/-- Nothing stands in a scalar but itself. -/
theorem Occurs.eq_of_isScalar {part v : Value} (h : Occurs part v) (hv : v.isScalar = true) : part = v := by
  cases h with
  | self => rfl
  | key | value | item | content => cases hv

theorem loadable_of_isScalar {v : Value} (h : v.isScalar = true) : v.Loadable := by
  cases v with
  | null | bool | int | float | string => trivial
  | sequence | mapping | tagged => cases h

end Yaml.Value

namespace FieldTable

/-! ## Paths -/

/-- The texts of the keys above a place, joined by dots. Empty texts at the start leave no dot. -/
def pathOf (steps : List String) : String := ".".intercalate (steps.dropWhile String.isEmpty)

/-- A path that does not begin with an empty text is not empty. -/
theorem intercalate_ne_empty {s text : String} (h : text.isEmpty = false) (texts : List String) :
    s.intercalate (text :: texts) ≠ "" := by
  have hne : text ≠ "" := by simpa using h
  cases texts with
  | nil => rwa [String.intercalate_singleton]
  | cons u texts =>
    rw [String.intercalate_cons_cons]
    simp [hne]

theorem joinPath_pathOf (steps : List String) (key : String) :
    joinPath (pathOf steps) key = pathOf (steps ++ [key]) := by
  rw [pathOf, pathOf, List.dropWhile_append]
  cases hd : steps.dropWhile String.isEmpty with
  | nil =>
    -- every text so far is empty, so the key begins the path, or leaves it empty as well
    cases hk : key.isEmpty with
    | true => simp [String.isEmpty_iff.1 hk]
    | false => simp [hk]
  | cons text texts =>
    have htext : text.isEmpty = false := by
      have hhead := List.head?_dropWhile_not String.isEmpty steps
      rwa [hd] at hhead
    rw [joinPath_of_ne (intercalate_ne_empty htext texts), fieldKey, if_neg (by simp),
      String.intercalate_append_of_ne_nil (by simp) (by simp), String.intercalate_singleton]

/-! ## Places -/

/-- What stands in a document below keys with these texts. -/
inductive Place where
  | key (steps : List String) (k : Yaml.Value)
  | value (steps : List String) (v : Yaml.Value)

mutual

/-- The places of a value, in the order of the document. -/
def places (steps : List String) : Yaml.Value → List Place
  | .mapping entries => .value steps (.mapping entries) :: entriesPlaces steps entries
  | v => [.value steps v]

def entriesPlaces (steps : List String) : List (Yaml.Value × Yaml.Value) → List Place
  | [] => []
  | e :: es => entryPlaces steps e ++ entriesPlaces steps es

/-- A key, and what it leads to. A key without a text leads nowhere. -/
def entryPlaces (steps : List String) : Yaml.Value × Yaml.Value → List Place
  | (k, v) =>
    .key steps k ::
      match k.text? with
      | some text => places (steps ++ [text]) v
      | none => []

end

namespace Place

/-- The error of a place that may not be in a document of names. -/
def fault? : Place → Option TableError
  | key steps k => if k.isScalar then none else some (.unsupportedKey (pathOf steps) k)
  | value steps (.sequence _) => some (.sequence (pathOf steps))
  | value steps (.tagged tag v) => some (.unsupportedValue (pathOf steps) (.tagged tag v))
  | value _ _ => none

/-- The path of a scalar and its text. -/
def binding? : Place → Option (String × String)
  | key _ _ => none
  | value steps v => v.text?.map fun text => (pathOf steps, text)

end Place

/-! ## Loading is going through the places -/

/-- What places make of a table: the first fault, or their bindings in turn. -/
def load (t : FieldTable) (ps : List Place) : Except TableError FieldTable :=
  match ps.findSome? Place.fault? with
  | some err => .error err
  | none => .ok (t.bindAll (ps.filterMap Place.binding?))

theorem load_append (t : FieldTable) (ps qs : List Place) :
    t.load (ps ++ qs) =
      match t.load ps with
      | .error err => .error err
      | .ok t => t.load qs := by
  unfold load
  rw [List.findSome?_append]
  cases ps.findSome? Place.fault? with
  | some err => rfl
  | none =>
    simp only [Option.none_or, List.filterMap_append, bindAll_append]

theorem load_key (t : FieldTable) (steps : List String) (k : Yaml.Value) (ps : List Place) :
    t.load (.key steps k :: ps) =
      if k.isScalar then t.load ps else .error (.unsupportedKey (pathOf steps) k) := by
  cases hk : k.isScalar with
  | true => simp [load, Place.fault?, hk, List.filterMap_cons, Place.binding?]
  | false => simp [load, Place.fault?, hk]

mutual

theorem addValue_eq (t : FieldTable) (steps : List String) :
    ∀ v : Yaml.Value, t.addValue (pathOf steps) v = t.load (places steps v)
  | .mapping entries => by
    rw [addValue, places, addEntries_eq t steps entries]
    rfl
  | .null => rfl
  | .bool b => rfl
  | .int n => rfl
  | .float x => rfl
  | .string s => rfl
  | .sequence items => rfl
  | .tagged tag v => rfl

theorem addEntries_eq (t : FieldTable) (steps : List String) :
    ∀ es : List (Yaml.Value × Yaml.Value), t.addEntries (pathOf steps) es = t.load (entriesPlaces steps es)
  | [] => rfl
  | e :: es => by
    rw [addEntries, entriesPlaces, load_append, addEntry_eq t steps e]
    cases t.load (entryPlaces steps e) with
    | error err => rfl
    | ok t => exact addEntries_eq t steps es

theorem addEntry_eq (t : FieldTable) (steps : List String) :
    ∀ e : Yaml.Value × Yaml.Value, t.addEntry (pathOf steps) e = t.load (entryPlaces steps e)
  | (k, v) => by
    have hk := k.isSome_text?
    rw [addEntry, entryPlaces, load_key, ← hk]
    cases k.text? with
    | none => rfl
    | some text =>
      simp only [joinPath_pathOf]
      exact addValue_eq t (steps ++ [text]) v

end

/-! ## Faults at any depth -/

theorem entriesPlaces_eq_flatMap (steps : List String) (es : List (Yaml.Value × Yaml.Value)) :
    entriesPlaces steps es = es.flatMap (entryPlaces steps) := by
  induction es with
  | nil => rfl
  | cons e es ih => rw [entriesPlaces, List.flatMap_cons, ih]

theorem fault?_value_of_loadable {v : Yaml.Value} (h : v.Loadable) (steps : List String) :
    (Place.value steps v).fault? = none := by
  cases v with
  | sequence | tagged => cases h
  | null | bool | int | float | string | mapping => rfl

mutual

theorem fault?_of_loadable (steps : List String) : ∀ v : Yaml.Value,
    (∀ part, Yaml.Value.Occurs part v → part.Loadable) → ∀ p ∈ places steps v, p.fault? = none
  | .mapping entries, h, p, hp => by
    rw [places] at hp
    rcases List.mem_cons.1 hp with rfl | hp
    · rfl
    · refine fault?_of_loadable_entries steps entries (h _ .self) (fun k v he part hpart => ?_) p hp
      exact h part (.value he hpart)
  | .null, h, p, hp | .bool _, h, p, hp | .int _, h, p, hp | .float _, h, p, hp | .string _, h, p, hp
  | .sequence _, h, p, hp | .tagged _ _, h, p, hp => by
    rw [List.mem_singleton.1 hp]
    exact fault?_value_of_loadable (h _ .self) steps

theorem fault?_of_loadable_entries (steps : List String) : ∀ es : List (Yaml.Value × Yaml.Value),
    (∀ k v, (k, v) ∈ es → k.isScalar = true) →
      (∀ k v, (k, v) ∈ es → ∀ part, Yaml.Value.Occurs part v → part.Loadable) →
        ∀ p ∈ entriesPlaces steps es, p.fault? = none
  | [], _, _, p, hp => by simp [entriesPlaces] at hp
  | (k, v) :: es, hk, hv, p, hp => by
    rw [entriesPlaces, entryPlaces, List.cons_append] at hp
    rcases List.mem_cons.1 hp with rfl | hp
    · simp [Place.fault?, hk k v]
    · rcases List.mem_append.1 hp with hp | hp
      · split at hp
        · exact fault?_of_loadable _ v (hv k v (by simp)) p hp
        · cases hp
      · refine fault?_of_loadable_entries steps es (fun k' v' he => ?_) (fun k' v' he => ?_) p hp
        · exact hk k' v' (List.mem_cons_of_mem _ he)
        · exact hv k' v' (List.mem_cons_of_mem _ he)

end

/-- Where no key of a mapping is at fault, the places of what they lead to are among those of the mapping. -/
theorem places_of_mem {steps : List String} {entries : List (Yaml.Value × Yaml.Value)} {k v : Yaml.Value}
    (he : (k, v) ∈ entries) (h : ∀ p ∈ places steps (.mapping entries), p.fault? = none) :
    k.isScalar = true ∧ ∃ text, ∀ p ∈ places (steps ++ [text]) v, p.fault? = none := by
  have hentry : ∀ p ∈ entryPlaces steps (k, v), p.fault? = none := fun p hp => by
    refine h p ?_
    rw [places, entriesPlaces_eq_flatMap]
    exact List.mem_cons_of_mem _ (List.mem_flatMap.2 ⟨_, he, hp⟩)
  rw [entryPlaces] at hentry
  obtain ⟨hkey, hbelow⟩ := List.forall_mem_cons.1 hentry
  have hk : k.isScalar = true := by simpa [Place.fault?] using hkey
  obtain ⟨text, htext⟩ := Option.isSome_iff_exists.1 (k.isSome_text?.trans hk)
  rw [htext] at hbelow
  exact ⟨hk, text, hbelow⟩

theorem loadable_of_fault? {steps : List String} {part v : Yaml.Value} (ho : Yaml.Value.Occurs part v)
    (h : ∀ p ∈ places steps v, p.fault? = none) : part.Loadable := by
  induction ho generalizing steps with
  | self =>
    cases part with
    | null | bool | int | float | string => trivial
    | mapping entries => exact fun k v he => (places_of_mem he h).1
    | sequence | tagged => cases h _ (List.mem_singleton_self _)
  | key he ho _ =>
    have hk := (places_of_mem he h).1
    rw [ho.eq_of_isScalar hk]
    exact Yaml.Value.loadable_of_isScalar hk
  | value he _ ih =>
    obtain ⟨-, text, htext⟩ := places_of_mem he h
    exact ih htext
  | item | content => cases h _ (List.mem_singleton_self _)

/-! ## Documents -/

/-- The paths of the scalars in a document with their texts, in its order. -/
def leaves (v : Yaml.Value) : List (String × String) := (places [] v).filterMap Place.binding?

theorem ofYaml_of_read? {text : String} {entries : List (Yaml.Value × Yaml.Value)} (refusal : String → String)
    (h : Yaml.read? text = some (.mapping entries)) :
    ofYaml refusal text = empty.load (places [] (.mapping entries)) := by
  rw [← addValue_eq, ofYaml, h]
  rfl

theorem load_eq_ok_iff {t t' : FieldTable} {ps : List Place} :
    t.load ps = .ok t' ↔ (∀ p ∈ ps, p.fault? = none) ∧ t.bindAll (ps.filterMap Place.binding?) = t' := by
  rw [load, ← List.findSome?_eq_none_iff]
  cases ps.findSome? Place.fault? <;> simp

theorem load_eq_error_iff {t : FieldTable} {ps : List Place} {err : TableError} :
    t.load ps = .error err ↔
      ∃ before p after, ps = before ++ p :: after ∧ p.fault? = some err ∧ ∀ q ∈ before, q.fault? = none := by
  rw [load, ← List.findSome?_eq_some_iff]
  cases ps.findSome? Place.fault? <;> simp

/-- **A nested document binds the path of each of its scalars to the text of the scalar.** It has a table exactly if
nowhere in it there is a sequence, a tagged value or a key that is no scalar. Then a key has the text of the last scalar
with this path, in the order of the document, and no other key is bound. If it has none, the error is that of the first
place at fault. -/
theorem ofYaml_flattens (refusal : String → String) {text : String} {entries : List (Yaml.Value × Yaml.Value)}
    (h : Yaml.read? text = some (.mapping entries)) :
    ((∃ t, ofYaml refusal text = .ok t) ↔ ∀ part, Yaml.Value.Occurs part (.mapping entries) → part.Loadable) ∧
    (∀ t, ofYaml refusal text = .ok t →
      (∀ key, t.get? key = (leaves (.mapping entries)).reverse.lookup key) ∧
      t.size = ((leaves (.mapping entries)).map Prod.fst).toFinset.card) ∧
    ∀ err, ofYaml refusal text = .error err ↔
      ∃ before place after, places [] (.mapping entries) = before ++ place :: after ∧
        place.fault? = some err ∧ ∀ earlier ∈ before, earlier.fault? = none := by
  rw [ofYaml_of_read? refusal h]
  simp only [load_eq_ok_iff]
  refine ⟨⟨?_, ?_⟩, ?_, fun err => load_eq_error_iff⟩
  · rintro ⟨t, hnone, -⟩ part ho
    exact loadable_of_fault? ho hnone
  · intro hload
    exact ⟨_, fault?_of_loadable [] _ hload, rfl⟩
  · rintro t ⟨-, rfl⟩
    constructor
    · intro key
      rw [get?_bindAll]
      exact Option.or_none
    · rw [size_eq_card]
      congr 1
      ext key
      rw [List.mem_toFinset, List.mem_toFinset, mem_keys_bindAll, leaves]
      exact or_iff_left List.not_mem_nil

open Yaml.Node in
/-- One key is bound: the empty text leaves no dot, the null binds nothing, and of two texts the second one holds. -/
theorem ofYaml_flattens_collision :
    (∀ refusal, ∃ t, ofYaml refusal "'':\n  a: x\n1: ~\na: true" = .ok t) ∧
      ∀ refusal t, ofYaml refusal "'':\n  a: x\n1: ~\na: true" = .ok t →
        t.get? "a" = some "true" ∧ t.get? "1" = none ∧ t.size = 1 := by
  let entries : List (Yaml.Value × Yaml.Value) :=
    [(.string "", .mapping [(.string "a", .string "x")]), (.int 1, .null), (.string "a", .bool true)]
  have hread : Yaml.read? "'':\n  a: x\n1: ~\na: true" = some (.mapping entries) := by
    have hb : Text.isBlank "'':\n  a: x\n1: ~\na: true" = false := by decide
    have ht : Yaml.tokens? "'':\n  a: x\n1: ~\na: true" = some [.blockMappingStart, .key, .scalar .quoted "", .value,
        .blockMappingStart, .key, .scalar .plain "a", .value, .scalar .plain "x", .blockEnd, .key, .scalar .plain "1",
        .value, .scalar .plain "~", .key, .scalar .plain "a", .value, .scalar .plain "true", .blockEnd] := by
      decide +kernel
    have hplain : Yaml.Value.ofPlain? "a" = some (.string "a") ∧ Yaml.Value.ofPlain? "x" = some (.string "x") ∧
        Yaml.Value.ofPlain? "1" = some (.int 1) ∧ Yaml.Value.ofPlain? "~" = some .null ∧
        Yaml.Value.ofPlain? "true" = some (.bool true) := ⟨rfl, rfl, rfl, rfl, rfl⟩
    simp [Yaml.read?, hb, ht, ofTokens?, endsDocument, Yaml.Node.read, readBlockMapping, readUnless, readValue,
      readProps, endsBlockValue, isFinished, value?, number?, numberProps, numberEntries?, numberEntry?, anchored,
      anchoredEntries, anchoredEntry, anchor?, marks, marksOfEntries, marksOfEntry, Expansion.expand?, expandEntries,
      scalarValue?, withTag, localTag?, maxDepth, hplain, Yaml.Value.same, entries]
  have hleaves : leaves (.mapping entries) = [("a", "x"), ("a", "true")] := by decide
  constructor
  · intro refusal
    obtain ⟨hok, -⟩ := ofYaml_flattens refusal hread
    exact hok.2 fun part ho => @loadable_of_fault? [] _ _ ho (List.findSome?_eq_none_iff.1 (by rfl))
  · intro refusal t ht
    obtain ⟨-, htable, -⟩ := ofYaml_flattens refusal hread
    obtain ⟨hget, hsize⟩ := htable t ht
    rw [hget, hget, hsize, hleaves]
    decide

end FieldTable

end FilterQuery
