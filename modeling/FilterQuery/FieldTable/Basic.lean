import FilterQuery.Expr.Basic

/-!
# Tables of field names

A table binds keys to the names of stored fields. A field of a scope has the key `scope.field`, and resolving
the field looks up that key.

The bindings are kept in ascending order of their keys, and the order is part of the type. So a key is bound at
most once, and two tables that answer alike are equal, however they came about.
-/

namespace FilterQuery

/-- Bindings in ascending order of keys. -/
structure FieldTable where
  bindings : List (String × String)
  ascending : bindings.Pairwise fun a b => a.1 < b.1

namespace FieldTable

instance : DecidableEq FieldTable := fun a b =>
  if h : a.bindings = b.bindings then isTrue (by cases a; cases b; simp_all)
  else isFalse fun e => h (by rw [e])

def empty : FieldTable := ⟨[], .nil⟩

instance : Inhabited FieldTable := ⟨empty⟩

/-- Binds a key in a list of bindings: before the first greater key, or in place of the key's own binding. -/
def bindIn (key stored : String) : List (String × String) → List (String × String)
  | [] => [(key, stored)]
  | b :: bs =>
    if key = b.1 then (key, stored) :: bs
    else if key < b.1 then (key, stored) :: b :: bs
    else b :: bindIn key stored bs

theorem mem_bindIn {key stored : String} {bs : List (String × String)} {b : String × String}
    (h : b ∈ bindIn key stored bs) : b = (key, stored) ∨ b ∈ bs := by
  induction bs with
  | nil => exact .inl (by simpa [bindIn] using h)
  | cons a bs ih =>
    unfold bindIn at h
    split at h
    · rcases List.mem_cons.1 h with h | h
      · exact .inl h
      · exact .inr (List.mem_cons_of_mem _ h)
    · split at h
      · rcases List.mem_cons.1 h with h | h
        · exact .inl h
        · exact .inr h
      · rcases List.mem_cons.1 h with h | h
        · exact .inr (h ▸ List.mem_cons_self)
        · exact (ih h).imp id (List.mem_cons_of_mem _)

theorem pairwise_bindIn (key stored : String) {bs : List (String × String)}
    (h : bs.Pairwise fun a b => a.1 < b.1) :
    (bindIn key stored bs).Pairwise fun a b => a.1 < b.1 := by
  induction bs with
  | nil => simp [bindIn]
  | cons a bs ih =>
    obtain ⟨hhead, htail⟩ := List.pairwise_cons.1 h
    unfold bindIn
    split
    · next heq =>
      subst heq
      exact List.pairwise_cons.2 ⟨hhead, htail⟩
    · next hne =>
      split
      · next hlt =>
        refine List.pairwise_cons.2 ⟨fun b hb => ?_, h⟩
        rcases List.mem_cons.1 hb with hb | hb
        · exact hb ▸ hlt
        · exact String.lt_trans hlt (hhead b hb)
      · next hge =>
        refine List.pairwise_cons.2 ⟨fun b hb => ?_, ih htail⟩
        rcases mem_bindIn hb with hb | hb
        · subst hb
          have hle : a.1 ≤ key := String.not_lt.1 hge
          exact Decidable.byContradiction fun hn => hne (String.le_antisymm (String.not_lt.1 hn) hle)
        · exact hhead b hb

/-- Binds a key, in place of what it was bound to. -/
def bind (t : FieldTable) (key stored : String) : FieldTable :=
  ⟨bindIn key stored t.bindings, pairwise_bindIn key stored t.ascending⟩

/-- The stored name that a key is bound to. -/
def get? (t : FieldTable) (key : String) : Option String :=
  (t.bindings.find? fun b => b.1 == key).map Prod.snd

def size (t : FieldTable) : Nat := t.bindings.length

def isEmpty (t : FieldTable) : Bool := t.bindings.isEmpty

/-- The key of a field in a scope. -/
def fieldKey (scope field : String) : String := scope ++ "." ++ field

/-- The table in which a field of a scope has the given stored name, and the name it had before. -/
def insert (t : FieldTable) (scope field stored : String) : Option String × FieldTable :=
  (t.get? (fieldKey scope field), t.bind (fieldKey scope field) stored)

/-- A table resolves the fields that it has keys for. -/
def resolver (t : FieldTable) : Resolver := fun scope field => t.get? (fieldKey scope field)

end FieldTable

end FilterQuery
