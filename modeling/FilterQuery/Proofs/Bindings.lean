import FilterQuery.FieldTable.Basic
import Mathlib.Data.Finset.Card
import Mathlib.Data.Finset.Dedup

/-!
# What a table answers

A table is seen through `get?` only. Binding a key changes the answer for this key and for no other
(`get?_bind`), and so what an insert does to the names of a scope depends on its key alone
(`resolver_insert`). After many bindings a key has the last of its own, or else what it had before (`get?_bindAll`).
The keys of a table are those that have an answer, and each is in it once (`mem_keys_iff`, `nodup_keys`). So a binding
makes a table larger only if its key is new (`size_bind`), and there is no more to a table than its answers
(`eq_iff_get?`).
-/

namespace FilterQuery.FieldTable

theorem find?_bindIn (key stored k : String) (bs : List (String × String)) :
    (bindIn key stored bs).find? (fun b => b.1 == k) =
      if k = key then some (key, stored) else bs.find? fun b => b.1 == k := by
  induction bs with
  | nil =>
    by_cases hk : k = key
    · simp [bindIn, hk]
    · simp [bindIn, hk, Ne.symm hk]
  | cons b bs ih =>
    unfold bindIn
    split
    · next heq =>
      by_cases hk : k = key
      · simp [hk]
      · simp [hk, Ne.symm hk, ← heq]
    · next hne =>
      split
      · by_cases hk : k = key
        · simp [hk]
        · simp [hk, Ne.symm hk]
      · rw [List.find?_cons, List.find?_cons, ih]
        by_cases hk : k = key
        · have hb : (b.1 == key) = false := beq_false_of_ne (Ne.symm hne)
          simp [hk, hb]
        · simp [hk]

@[simp] theorem get?_bind (t : FieldTable) (key stored k : String) :
    (t.bind key stored).get? k = if k = key then some stored else t.get? k := by
  unfold get? bind
  rw [find?_bindIn]
  by_cases hk : k = key <;> simp [hk]

theorem resolver_insert (t : FieldTable) (scope field stored scope' field' : String) :
    (t.insert scope field stored).2.resolver scope' field' =
      if fieldKey scope' field' = fieldKey scope field then some stored else t.resolver scope' field' := by
  simp [insert, resolver]

/-! ## Many bindings -/

/-- The table after the keys have been bound in turn. -/
def bindAll (t : FieldTable) (bindings : List (String × String)) : FieldTable :=
  bindings.foldl (fun t b => t.bind b.1 b.2) t

@[simp] theorem bindAll_nil (t : FieldTable) : t.bindAll [] = t := rfl

@[simp] theorem bindAll_cons (t : FieldTable) (b : String × String) (bs : List (String × String)) :
    t.bindAll (b :: bs) = (t.bind b.1 b.2).bindAll bs := rfl

theorem bindAll_append (t : FieldTable) (bs cs : List (String × String)) :
    t.bindAll (bs ++ cs) = (t.bindAll bs).bindAll cs :=
  List.foldl_append

theorem lookup_reverse_eq_none_iff {key : String} {bs : List (String × String)} :
    bs.reverse.lookup key = none ↔ key ∉ bs.map Prod.fst := by
  simp only [List.lookup_eq_none_iff, List.mem_reverse, bne_iff_ne, List.mem_map, not_exists, not_and,
    ne_comm (a := key)]

/-- A key has the last of its bindings, or else what the table had for it. -/
theorem get?_bindAll (t : FieldTable) (bs : List (String × String)) (key : String) :
    (t.bindAll bs).get? key = (bs.reverse.lookup key).or (t.get? key) := by
  induction bs generalizing t with
  | nil => simp
  | cons b bs ih =>
    obtain ⟨k, stored⟩ := b
    have hlast : (if key = k then some stored else t.get? key) =
        (List.lookup key [(k, stored)]).or (t.get? key) := by
      by_cases hk : key = k
      · simp [hk]
      · have hne : (key == k) = false := beq_false_of_ne hk
        simp [List.lookup_cons, hk, hne]
    rw [bindAll_cons, ih, get?_bind, List.reverse_cons, List.lookup_append, Option.or_assoc, hlast]

theorem get?_bindAll_of_notMem {key : String} {bs : List (String × String)} (h : key ∉ bs.map Prod.fst)
    (t : FieldTable) : (t.bindAll bs).get? key = t.get? key := by
  rw [get?_bindAll, lookup_reverse_eq_none_iff.2 h, Option.none_or]

/-- A key that is bound once keeps its binding. -/
theorem get?_bindAll_of_mem {bs : List (String × String)} (hn : (bs.map Prod.fst).Nodup) {b : String × String}
    (hb : b ∈ bs) (t : FieldTable) : (t.bindAll bs).get? b.1 = some b.2 := by
  induction bs generalizing t with
  | nil => cases hb
  | cons c cs ih =>
    obtain ⟨hc, hcs⟩ := List.nodup_cons.1 hn
    rcases List.mem_cons.1 hb with rfl | hb
    · rw [bindAll_cons, get?_bindAll_of_notMem hc, get?_bind, if_pos rfl]
    · exact ih hcs hb _

/-! ## Keys -/

/-- The keys that the table has. -/
def keys (t : FieldTable) : List String := t.bindings.map Prod.fst

theorem nodup_keys (t : FieldTable) : t.keys.Nodup :=
  List.pairwise_map.2 (t.ascending.imp fun h => String.ne_of_lt h)

theorem mem_keys_iff {t : FieldTable} {key : String} : key ∈ t.keys ↔ t.get? key ≠ none := by
  simp [keys, get?]

theorem size_eq_card (t : FieldTable) : t.size = t.keys.toFinset.card := by
  rw [List.toFinset_card_of_nodup t.nodup_keys, keys, List.length_map, size]

theorem mem_keys_bindAll {t : FieldTable} {bs : List (String × String)} {key : String} :
    key ∈ (t.bindAll bs).keys ↔ key ∈ bs.map Prod.fst ∨ key ∈ t.keys := by
  rw [mem_keys_iff, mem_keys_iff, get?_bindAll, Ne, Option.or_eq_none_iff, lookup_reverse_eq_none_iff, not_and_or,
    not_not]

theorem toFinset_keys_bind (t : FieldTable) (key stored : String) :
    (t.bind key stored).keys.toFinset = Insert.insert key t.keys.toFinset := by
  ext k
  rw [List.mem_toFinset, Finset.mem_insert, List.mem_toFinset, mem_keys_iff, mem_keys_iff, get?_bind]
  by_cases hk : k = key <;> simp [hk]

/-- A table grows with a key that it did not have, and only then. -/
theorem size_bind (t : FieldTable) (key stored : String) :
    (t.bind key stored).size = t.size + if t.get? key = none then 1 else 0 := by
  rw [size_eq_card, size_eq_card, toFinset_keys_bind]
  by_cases hkey : t.get? key = none
  · have hnew : key ∉ t.keys.toFinset := by
      rw [List.mem_toFinset, mem_keys_iff]
      exact not_not_intro hkey
    rw [Finset.card_insert_of_notMem hnew, if_pos hkey]
  · have hold : key ∈ t.keys.toFinset := by
      rw [List.mem_toFinset, mem_keys_iff]
      exact hkey
    rw [Finset.insert_eq_of_mem hold, if_neg hkey, Nat.add_zero]

/-! ## Equal tables -/

theorem mem_bindings_iff {t : FieldTable} {key stored : String} :
    (key, stored) ∈ t.bindings ↔ t.get? key = some stored := by
  constructor
  · intro hmem
    obtain ⟨found, hfound⟩ := Option.ne_none_iff_exists'.1 (mem_keys_iff.1 (List.mem_map_of_mem hmem))
    obtain ⟨b, hb, rfl⟩ := Option.map_eq_some_iff.1 hfound
    have hkey : b.1 = key := by simpa using List.find?_some hb
    -- the binding that is found first has the key as well, and no other one does
    have hsame : b = (key, stored) :=
      List.inj_on_of_nodup_map t.nodup_keys (List.mem_of_find?_eq_some hb) hmem hkey
    rw [hfound, hsame]
  · intro hget
    obtain ⟨b, hb, rfl⟩ := Option.map_eq_some_iff.1 hget
    have hkey : b.1 = key := by simpa using List.find?_some hb
    rw [← hkey]
    exact List.mem_of_find?_eq_some hb

/-- Two tables are equal if they answer alike: the order of their bindings is the order of the keys. -/
theorem eq_iff_get? {t t' : FieldTable} : t = t' ↔ ∀ key, t.get? key = t'.get? key := by
  constructor
  · rintro rfl key
    rfl
  · intro h
    have hmem : ∀ b, b ∈ t.bindings ↔ b ∈ t'.bindings := by
      rintro ⟨key, stored⟩
      rw [mem_bindings_iff, mem_bindings_iff, h]
    have hperm : t.bindings.Perm t'.bindings :=
      (List.perm_ext_iff_of_nodup t.nodup_keys.of_map t'.nodup_keys.of_map).2 hmem
    have hbindings : t.bindings = t'.bindings :=
      hperm.eq_of_pairwise (fun _ _ _ _ hlt hgt => absurd hgt (String.lt_asymm hlt)) t.ascending t'.ascending
    cases t
    cases t'
    simpa using hbindings

/-! ## Many inserts -/

/-- A name that a field of a scope is stored under. -/
structure Entry where
  scope : String
  field : String
  stored : String
deriving DecidableEq, Repr

/-- The table after the entries have been inserted in turn. -/
def insertAll (t : FieldTable) (entries : List Entry) : FieldTable :=
  entries.foldl (fun t e => (t.insert e.scope e.field e.stored).2) t

theorem insertAll_eq_bindAll (t : FieldTable) (entries : List Entry) :
    t.insertAll entries = t.bindAll (entries.map fun e => (fieldKey e.scope e.field, e.stored)) := by
  rw [bindAll, List.foldl_map]
  rfl

/-- A field keeps its answer as long as no entry has its key. -/
theorem resolver_insertAll {entries : List Entry} {scope field : String}
    (h : ∀ e ∈ entries, fieldKey scope field ≠ fieldKey e.scope e.field) (t : FieldTable) :
    (t.insertAll entries).resolver scope field = t.resolver scope field := by
  have hkey : fieldKey scope field ∉
      (entries.map fun e => (fieldKey e.scope e.field, e.stored)).map Prod.fst := by
    rw [List.map_map, List.mem_map]
    rintro ⟨e, he, hk⟩
    exact h e he hk.symm
  rw [insertAll_eq_bindAll, resolver, get?_bindAll_of_notMem hkey, resolver]

end FilterQuery.FieldTable
