import FilterQuery.Proofs.Bindings
import Mathlib.Data.Set.Card

/-!
# Runs of inserts

Entries are inserted into a table one after the other, and the table may have been loaded or built before. All that can
be seen of such a run follows from the keys and the names of its entries: a key has the name of the last entry with
this key, or else what the table had for it (`get?_insertAll`). It does not matter which scope and which field a key
was joined from.

An insert returns the answer that its key had at that moment, and the table is one key larger afterwards if there was
none (`getElem?_replaced`, `size_insertAll_append`). A table is as large as the set of keys that it answers
(`encard_answered`), and tables that answer alike are equal. So the order of a run matters only between two entries of
one key (`insertAll_swap_iff`), and a run of another order or from another table ends in an equal table exactly if
every key ends with the same name. All of it together is `inserts_lastWrite`.
-/

namespace FilterQuery.FieldTable

/-- The key of the field that the entry is about. -/
def Entry.key (e : Entry) : String := fieldKey e.scope e.field

/-- The name of the last of the entries with the key. -/
def lastStored? (entries : List Entry) (key : String) : Option String :=
  (entries.reverse.find? fun e => e.key == key).map Entry.stored

/-- What the inserts of the entries return in turn. -/
def replaced (t : FieldTable) : List Entry → List (Option String)
  | [] => []
  | e :: es =>
    (t.insert e.scope e.field e.stored).1 :: replaced (t.insert e.scope e.field e.stored).2 es

/-! ## Answers after a run -/

theorem lookup_map_entry (entries : List Entry) (key : String) :
    (entries.map fun e => (e.key, e.stored)).lookup key =
      (entries.find? fun e => e.key == key).map Entry.stored := by
  induction entries with
  | nil => rfl
  | cons e es ih =>
    rw [List.map_cons, List.lookup_cons, List.find?_cons, ih]
    by_cases hkey : e.key = key
    · subst hkey
      simp
    · have hne : (e.key == key) = false := beq_false_of_ne hkey
      have hne' : (key == e.key) = false := beq_false_of_ne (Ne.symm hkey)
      rw [hne, hne']

/-- **The last write holds.** -/
theorem get?_insertAll (t : FieldTable) (entries : List Entry) (key : String) :
    (t.insertAll entries).get? key = (lastStored? entries key).or (t.get? key) := by
  rw [insertAll_eq_bindAll, get?_bindAll, ← List.map_reverse]
  exact congrArg (Option.or · (t.get? key)) (lookup_map_entry entries.reverse key)

theorem insertAll_append (t : FieldTable) (entries later : List Entry) :
    t.insertAll (entries ++ later) = (t.insertAll entries).insertAll later :=
  List.foldl_append

theorem get?_insertAll_pair (t : FieldTable) (e e' : Entry) (key : String) :
    (t.insertAll [e, e']).get? key =
      if key = e'.key then some e'.stored else if key = e.key then some e.stored else t.get? key := by
  show ((t.bind e.key e.stored).bind e'.key e'.stored).get? key = _
  rw [get?_bind, get?_bind]

/-! ## What inserts return, and how the table grows -/

theorem getElem?_replaced (t : FieldTable) (earlier : List Entry) (e : Entry) (later : List Entry) :
    (t.replaced (earlier ++ e :: later))[earlier.length]? = some ((t.insertAll earlier).get? e.key) := by
  induction earlier generalizing t with
  | nil => rfl
  | cons e' es ih =>
    rw [List.cons_append, replaced, List.length_cons, List.getElem?_cons_succ, ih]
    rfl

/-- A field of a longer scope has the same key, so its name takes the place of the first one. -/
example : empty.replaced [⟨"a", "b.c", "one"⟩, ⟨"a.b", "c", "two"⟩, ⟨"a", "c", "three"⟩] =
    [none, some "one", none] := by
  decide

theorem size_insertAll_append (t : FieldTable) (earlier : List Entry) (e : Entry) :
    (t.insertAll (earlier ++ [e])).size =
      (t.insertAll earlier).size + if (t.insertAll earlier).get? e.key = none then 1 else 0 := by
  rw [insertAll_append]
  exact size_bind _ e.key e.stored

theorem encard_answered (t : FieldTable) : {key | t.get? key ≠ none}.encard = t.size := by
  have hkeys : {key | t.get? key ≠ none} = ↑t.keys.toFinset := by
    ext key
    rw [Set.mem_ofPred_eq, ← mem_keys_iff, Finset.mem_coe, List.mem_toFinset]
  rw [hkeys, Set.encard_coe_eq_coe_finsetCard, size_eq_card]

theorem isEmpty_iff_size (t : FieldTable) : t.isEmpty = true ↔ t.size = 0 :=
  List.isEmpty_iff_length_eq_zero

/-! ## Runs in another order -/

/-- Two entries can change places exactly if they have different keys, or the same name. -/
theorem insertAll_swap_iff (t : FieldTable) (e e' : Entry) :
    t.insertAll [e, e'] = t.insertAll [e', e] ↔ e.key ≠ e'.key ∨ e.stored = e'.stored := by
  rw [eq_iff_get?]
  constructor
  · intro h
    by_cases hkey : e.key = e'.key
    · -- at the key that they share, each order answers the name that comes second
      have hat := h e.key
      rw [get?_insertAll_pair, get?_insertAll_pair, if_pos hkey, if_pos rfl] at hat
      exact .inr (Option.some.inj hat).symm
    · exact .inl hkey
  · intro h key
    rw [get?_insertAll_pair, get?_insertAll_pair]
    rcases h with hkey | hstored
    · by_cases hk : key = e.key
      · subst hk
        rw [if_neg hkey, if_pos rfl, if_pos rfl]
      · rw [if_neg hk, if_neg hk]
    · rw [hstored]
      by_cases hk : key = e.key <;> simp [hk]

/-- **A table is a map that keeps the last write**, through every run of inserts into any table, loaded or built. A key
has the name of the last entry with this key, or else what the table had for it. The next insert returns the answer
that its key has before it, and the table grows by one if there is none. Its size is the number of the keys that have an
answer, and a field of a scope has the answer of its key. Tables are equal if their answers are: two entries can change
places unless they give one key two names, and two runs end in equal tables exactly if every key ends with the same
name. -/
theorem inserts_lastWrite (t : FieldTable) (entries : List Entry) :
    (∀ key, (t.insertAll entries).get? key = (lastStored? entries key).or (t.get? key)) ∧
    (∀ e later, (t.replaced (entries ++ e :: later))[entries.length]? = some ((t.insertAll entries).get? e.key)) ∧
    (∀ e, (t.insertAll (entries ++ [e])).size =
      (t.insertAll entries).size + if (t.insertAll entries).get? e.key = none then 1 else 0) ∧
    {key | (t.insertAll entries).get? key ≠ none}.encard = (t.insertAll entries).size ∧
    ((t.insertAll entries).isEmpty = true ↔ {key | (t.insertAll entries).get? key ≠ none}.encard = 0) ∧
    (∀ scope field, (t.insertAll entries).resolver scope field =
      (t.insertAll entries).get? (scope ++ "." ++ field)) ∧
    (∀ t' : FieldTable, t.insertAll entries = t' ↔ ∀ key, (t.insertAll entries).get? key = t'.get? key) ∧
    (∀ e e', t.insertAll (entries ++ [e, e']) = t.insertAll (entries ++ [e', e]) ↔
      e.key ≠ e'.key ∨ e.stored = e'.stored) ∧
    ∀ (t' : FieldTable) (entries' : List Entry), t.insertAll entries = t'.insertAll entries' ↔
      ∀ key, (lastStored? entries key).or (t.get? key) = (lastStored? entries' key).or (t'.get? key) := by
  refine ⟨get?_insertAll t entries, getElem?_replaced t entries, size_insertAll_append t entries, encard_answered _,
    ?_, fun scope field => rfl, fun t' => eq_iff_get?, ?_, ?_⟩
  · rw [encard_answered, Nat.cast_eq_zero, isEmpty_iff_size]
  · intro e e'
    rw [insertAll_append, insertAll_append, insertAll_swap_iff]
  · intro t' entries'
    simp only [eq_iff_get?, get?_insertAll]

end FilterQuery.FieldTable
