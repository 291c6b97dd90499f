import FilterQuery.Proofs.Projection

/-!
# What a select list selects

A select list is written as names with commas between them. For every text there is exactly one such list of names
(`enumerates_iff`), as no name has a comma in it; names may be empty, and blanks are part of them. The projection is
the list of their stored fields, or the error of the leftmost name that has none (`projection_follows`). Two lists
that are joined by a comma are therefore projected one after the other (`projection_append`). Only the text that is a
star and nothing else is no list of names.
-/

namespace FilterQuery

/-! ## Lists of names -/

/-- The text is the names with a comma between each two, and no name has a comma in it. -/
structure Enumerates (select : String) (names : List String) : Prop where
  ne_nil : names ≠ []
  noComma : ∀ name ∈ names, ',' ∉ name.toList
  joined : ",".intercalate names = select

theorem notMem_of_mem_splitOn (c : Char) : ∀ cs : List Char, ∀ piece ∈ cs.splitOn c, c ∉ piece
  | [], piece, hpiece => by
    rw [List.splitOn_nil, List.mem_singleton] at hpiece
    simp [hpiece]
  | x :: cs, piece, hpiece => by
    rw [List.splitOn_cons_eq_if_modifyHead] at hpiece
    by_cases hx : x = c
    · rw [if_pos (by simpa using hx)] at hpiece
      rcases List.mem_cons.1 hpiece with rfl | hpiece
      · simp
      · exact notMem_of_mem_splitOn c cs piece hpiece
    · obtain ⟨first, others, hsplit⟩ := List.exists_cons_of_ne_nil (List.splitOn_ne_nil c cs)
      have ih := notMem_of_mem_splitOn c cs
      rw [hsplit] at ih
      rw [if_neg (by simpa using hx), hsplit, List.modifyHead_cons] at hpiece
      rcases List.mem_cons.1 hpiece with rfl | hpiece
      · rw [List.mem_cons, not_or]
        exact ⟨Ne.symm hx, ih first List.mem_cons_self⟩
      · exact ih piece (List.mem_cons_of_mem _ hpiece)

theorem length_splitOn (c : Char) (cs : List Char) : (cs.splitOn c).length = cs.count c + 1 := by
  induction cs with
  | nil => simp
  | cons x cs ih =>
    rw [List.splitOn_cons_eq_if_modifyHead]
    by_cases hx : x = c
    · simp [hx, ih]
    · simp [hx, ih]

theorem length_selectNames (select : String) : (selectNames select).length = select.toList.count ',' + 1 := by
  rw [selectNames, List.length_map, length_splitOn]

theorem enumerates_selectNames (select : String) : Enumerates select (selectNames select) where
  ne_nil := by simp [selectNames]
  noComma := by
    intro name hname
    obtain ⟨piece, hpiece, rfl⟩ := List.mem_map.1 hname
    rw [String.toList_ofList]
    exact notMem_of_mem_splitOn ',' _ piece hpiece
  joined := by
    have hpieces : (selectNames select).map String.toList = select.toList.splitOn ',' := by
      simp [selectNames, Function.comp_def]
    rw [← String.toList_inj, String.toList_intercalate, hpieces]
    exact List.intercalate_splitOn ','

theorem enumerates_iff {select : String} {names : List String} :
    Enumerates select names ↔ names = selectNames select := by
  constructor
  · rintro ⟨hne, hcomma, rfl⟩
    have hsplit : List.splitOn ',' ([','].intercalate (names.map String.toList)) = names.map String.toList :=
      List.splitOn_intercalate ',' (by simpa using hcomma) (by simpa using hne)
    have htext : (",".intercalate names).toList = [','].intercalate (names.map String.toList) :=
      String.toList_intercalate
    rw [selectNames, htext, hsplit, List.map_map]
    simp [Function.comp_def]
  · rintro rfl
    exact enumerates_selectNames select

/-! ## Two lists as one -/

theorem selectNames_append (a b : String) : selectNames (a ++ "," ++ b) = selectNames a ++ selectNames b := by
  have htext : (a ++ "," ++ b).toList = a.toList ++ ',' :: b.toList := by simp
  rw [selectNames, htext, List.splitOn_append_cons_self, List.map_append, selectNames, selectNames]

/-- A list with a comma is not the star. -/
theorem append_ne_selectAll (a b : String) : a ++ "," ++ b ≠ selectAll := by
  intro h
  have hcomma : ',' ∈ (a ++ "," ++ b).toList := by simp
  rw [h] at hcomma
  simp [selectAll] at hcomma

variable (resolver : Resolver) (scope : String)

theorem projection_append {a b : String} (ha : a ≠ selectAll) (hb : b ≠ selectAll) :
    projection resolver scope (a ++ "," ++ b) =
      match projection resolver scope a, projection resolver scope b with
      | .error err, _ => .error err
      | .ok _, .error err => .error err
      | .ok fields, .ok others => .ok (fields ++ others) := by
  have hfirst : firstUnresolved resolver scope (selectNames a ++ selectNames b) =
      (firstUnresolved resolver scope (selectNames a)).or (firstUnresolved resolver scope (selectNames b)) :=
    List.find?_append
  rw [projection_of_ne (append_ne_selectAll a b), projection_of_ne ha, projection_of_ne hb, selectNames_append, hfirst,
    List.filterMap_append]
  cases firstUnresolved resolver scope (selectNames a) with
  | some name => rfl
  | none => cases firstUnresolved resolver scope (selectNames b) <;> rfl

/-! ## The result of a list -/

theorem map_eq_map_some_iff {resolve : String → Option String} {names fields : List String} :
    names.map resolve = fields.map some ↔ (∀ name ∈ names, resolve name ≠ none) ∧ names.filterMap resolve = fields := by
  induction names generalizing fields with
  | nil => cases fields <;> simp
  | cons name names ih =>
    cases hn : resolve name with
    | none => cases fields <;> simp [hn]
    | some field =>
      cases fields with
      | nil => simp [hn]
      | cons other fields =>
        have htail := @ih fields
        simp [hn, htail, and_left_comm]

variable {resolver scope}

theorem projection_eq_ok_iff {select : String} (hs : select ≠ selectAll) {fields : List String} :
    projection resolver scope select = .ok fields ↔ (selectNames select).map (resolver scope) = fields.map some := by
  rw [map_eq_map_some_iff, ← firstUnresolved_eq_none_iff, projection_of_ne hs]
  cases firstUnresolved resolver scope (selectNames select) <;> simp

theorem exists_projection_iff {select : String} (hs : select ≠ selectAll) :
    (∃ fields, projection resolver scope select = .ok fields) ↔
      ∀ name ∈ selectNames select, resolver scope name ≠ none := by
  simp only [projection_eq_ok_iff hs, map_eq_map_some_iff]
  simp

/-- **The projection follows the select list.** A text has exactly one list of names with commas between them, one more
than it has commas. Unless the text is the star, it has a projection exactly if all the names resolve, namely their
fields in this order, and else the error names the leftmost one that does not. Two texts joined by a comma have the
projection of both, or the error of the first one that has none. The star is not resolved. -/
theorem projection_follows (resolver : Resolver) (scope : String) :
    (∀ select, ∃! names, Enumerates select names) ∧
    (∀ select names, Enumerates select names → select ≠ selectAll →
      names.length = select.toList.count ',' + 1 ∧
      ((∃ fields, projection resolver scope select = .ok fields) ↔ ∀ name ∈ names, resolver scope name ≠ none) ∧
      (∀ fields, projection resolver scope select = .ok fields ↔ names.map (resolver scope) = fields.map some) ∧
      ∀ err, projection resolver scope select = .error err ↔
        ∃ name, LeftmostUnresolved resolver scope names name ∧ err = .unresolvedField .select name) ∧
    (∀ a b, a ≠ selectAll → b ≠ selectAll → projection resolver scope (a ++ "," ++ b) =
      match projection resolver scope a, projection resolver scope b with
      | .error err, _ => .error err
      | .ok _, .error err => .error err
      | .ok fields, .ok others => .ok (fields ++ others)) ∧
    projection resolver scope selectAll = .ok [selectAll] := by
  refine ⟨fun select => ?_, fun select names hnames hs => ?_, fun a b => projection_append resolver scope, ?_⟩
  · exact ⟨selectNames select, enumerates_selectNames select, fun names => enumerates_iff.1⟩
  · obtain rfl := enumerates_iff.1 hnames
    refine ⟨length_selectNames select, exists_projection_iff hs, fun fields => projection_eq_ok_iff hs, fun err => ?_⟩
    rw [projection_eq_error_iff, and_iff_right hs]
  · rw [projection, if_pos rfl]

/-- A star between commas is a name like any other, and so is the empty text. -/
theorem projection_follows_commas :
    let resolver : Resolver := fun _ name => if name = " b" then none else some ("f." ++ name)
    projection resolver "log" "a,*,,a" = .ok ["f.a", "f.*", "f.", "f.a"] ∧
      projection resolver "log" "a,*,,a, b,b" = .error (.unresolvedField .select " b") := by
  intro resolver
  obtain ⟨-, hlist, happend, -⟩ := projection_follows resolver "log"
  have hnames (select : String) := enumerates_selectNames select
  have hfirst : projection resolver "log" "a,*,,a" = .ok ["f.a", "f.*", "f.", "f.a"] :=
    ((hlist _ _ (hnames _) (by decide)).2.2.1 _).2 (by decide)
  have hsecond : projection resolver "log" " b,b" = .error (.unresolvedField .select " b") :=
    ((hlist _ _ (hnames _) (by decide)).2.2.2 _).2 ⟨" b", ⟨[], ["b"], by decide, by simp, by decide⟩, rfl⟩
  have hboth := happend "a,*,,a" " b,b" (by decide) (by decide)
  rw [hfirst, hsecond] at hboth
  exact ⟨hfirst, hboth⟩

end FilterQuery
