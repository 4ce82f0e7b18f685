import QueryChain.Proofs.Representations
import QueryChain.Proofs.Transcript
import QueryChain.Query.Run

/-!
Columns that occur more than once, as in the rows of a join. Read by name a row answers the first
cell of a column, while its JSON object keeps the last one. The two have the same columns, and they
agree on a column if and only if its first and its last value have one JSON form.
-/

namespace QueryChain

/-! ### Sorted entries -/

section

variable {α : Type}

/-- An entry that is put into a list takes the place of those with its key. -/
theorem lookup_insertEntry (key name : String) (value : α) (entries : List (String × α)) :
    (insertEntry key value entries).lookup name = ((key, value) :: entries).lookup name := by
  induction entries with
  | nil => rfl
  | cons e rest ih =>
    rw [insertEntry]
    split
    · rfl
    · split
      · rename_i heq
        rw [List.lookup_cons, List.lookup_cons, List.lookup_cons, ← heq]
        cases name == key <;> rfl
      · rename_i hne
        rw [List.lookup_cons, ih, List.lookup_cons, List.lookup_cons, List.lookup_cons]
        by_cases hname : name = key
        · subst hname
          rw [beq_self_eq_true, beq_eq_false_iff_ne.mpr hne]
        · rw [beq_eq_false_iff_ne.mpr hname]

theorem lookup_foldl_insertEntry (entries front : List (String × α)) (name : String) :
    (entries.foldl (fun acc e => insertEntry e.1 e.2 acc) front).lookup name =
      (entries.reverse ++ front).lookup name := by
  induction entries generalizing front with
  | nil => rfl
  | cons e rest ih =>
    rw [List.foldl_cons, ih, List.reverse_cons, List.append_assoc, List.lookup_append,
      List.lookup_append, lookup_insertEntry]
    rfl

/-- Of the entries with one key the last is kept when they are sorted. -/
theorem lookup_sortedEntries (entries : List (String × α)) (name : String) :
    (sortedEntries entries).lookup name = entries.reverse.lookup name := by
  rw [sortedEntries, lookup_foldl_insertEntry, List.append_nil]

end

/-! ### Rows -/

namespace Row

def IsFirst (r : Row) (column : String) (v : Value) : Prop :=
  ∃ before after, r.cells = before ++ (column, v) :: after ∧ column ∉ before.map Prod.fst

def IsLast (r : Row) (column : String) (v : Value) : Prop :=
  ∃ before after, r.cells = before ++ (column, v) :: after ∧ column ∉ after.map Prod.fst

theorem forall_bne_iff {cells : List (String × Value)} {column : String} :
    (∀ cell ∈ cells, (column != cell.1) = true) ↔ column ∉ cells.map Prod.fst := by
  constructor
  · intro h hmem
    obtain ⟨cell, hcell, rfl⟩ := List.mem_map.mp hmem
    simpa using h cell hcell
  · intro h cell hcell
    rw [bne_iff_ne]
    rintro rfl
    exact h (List.mem_map_of_mem hcell)

theorem get?_eq_some_iff {r : Row} {column : String} {v : Value} :
    r.get? column = some v ↔ r.IsFirst column v := by
  simp only [get?, List.lookup_eq_some_iff, forall_bne_iff, IsFirst]

theorem member?_toJson (r : Row) (column : String) :
    r.toJson.member? column = (r.cells.reverse.lookup column).map Value.toJson := by
  rw [toJson, Json.ofMembers, Json.member?, lookup_sortedEntries, ← List.map_reverse,
    lookup_map_values]

theorem lookup_reverse_eq_some_iff {r : Row} {column : String} {v : Value} :
    r.cells.reverse.lookup column = some v ↔ r.IsLast column v := by
  rw [List.lookup_eq_some_iff]
  constructor
  · rintro ⟨after, before, hcells, hafter⟩
    refine ⟨before.reverse, after.reverse, ?_, ?_⟩
    · rw [← List.reverse_reverse r.cells, hcells]
      simp
    · rw [List.map_reverse, List.mem_reverse]
      exact forall_bne_iff.mp hafter
  · rintro ⟨before, after, hcells, hafter⟩
    refine ⟨after.reverse, before.reverse, by simp [hcells], ?_⟩
    rw [forall_bne_iff, List.map_reverse, List.mem_reverse]
    exact hafter

/-- A column has a first value if and only if it has a last one. -/
theorem isSome_lookup_reverse (r : Row) (column : String) :
    (r.cells.reverse.lookup column).isSome = (r.get? column).isSome := by
  rw [Bool.eq_iff_iff, get?, List.lookup_isSome_iff, List.lookup_isSome_iff]
  simp only [List.mem_reverse]

/-- A member of the JSON object is the value by name if and only if the first and the last value of
the column have one JSON form. -/
theorem member?_eq_iff (r : Row) (column : String) :
    r.toJson.member? column = (r.get? column).map Value.toJson ↔
      ∀ first last, r.IsFirst column first → r.IsLast column last →
        first.toJson = last.toJson := by
  simp only [← get?_eq_some_iff, ← lookup_reverse_eq_some_iff, member?_toJson]
  have hboth := r.isSome_lookup_reverse column
  cases hfirst : r.get? column with
  | none =>
    rw [hfirst, Option.isSome_none, Option.isSome_eq_false_iff,
      Option.isNone_iff_eq_none] at hboth
    simp [hboth]
  | some first =>
    rw [hfirst, Option.isSome_some, Option.isSome_iff_exists] at hboth
    obtain ⟨last, hlast⟩ := hboth
    simp [hlast, eq_comm]

/-- Where no column is repeated, a first value is also the last one. -/
theorem IsFirst.eq_of_isLast {r : Row} (hcolumns : r.columns.Nodup) {column : String}
    {first last : Value} (hfirst : r.IsFirst column first) (hlast : r.IsLast column last) :
    first = last := by
  have hmem : (column, last) ∈ r.cells := by
    obtain ⟨before, after, hcells, -⟩ := hlast
    rw [hcells]
    exact List.mem_append_right before List.mem_cons_self
  have hget := get?_eq_some_iff.mpr hfirst
  rw [get?, lookup_of_mem hcolumns hmem] at hget
  exact (Option.some.inj hget).symm

end Row

/-- A query whose records are made from its rows without failing answers what is made of the rows
that it answers otherwise. -/
theorem Query.execute_map {σ β : Type} (c : Connection σ) (f : Row → β) (q : Query)
    (j : Journal σ) :
    (q.execute c (fun r => .ok (f r)) j).1 = (q.execute c Except.ok j).1.map (List.map f) := by
  cases h : (q.send c "execute" q.select j).1 with
  | error e =>
    rw [execute, execute, Session.bind_of_error h, Session.bind_of_error h]
    rfl
  | ok rows =>
    have hmap : rows.mapM (fun r => (.ok (f r) : Except Failure β)) = .ok (rows.map f) :=
      List.mapM_pure
    have hrows : rows.mapM (Except.ok : Row → Except Failure Row) = .ok rows :=
      List.mapM_pure.trans (by rw [List.map_id']; rfl)
    rw [execute, execute, Session.bind_of_ok h, Session.bind_of_ok h, hmap, hrows]
    rfl

/-- The JSON object of a row has the columns that the row has by name, and holds the last value of
each, so the two agree on a column if and only if its first and its last value have one JSON form;
where no column is repeated, they always agree. A query over JSON records answers the objects of its
rows. -/
theorem Row.member_agrees_iff (r : Row) (column : String) :
    (r.toJson.member? column).isSome = (r.get? column).isSome ∧
    (∀ v, r.IsLast column v → r.toJson.member? column = some v.toJson) ∧
    (r.toJson.member? column = (r.get? column).map Value.toJson ↔
      ∀ first last, r.IsFirst column first → r.IsLast column last →
        first.toJson = last.toJson) ∧
    (r.columns.Nodup → r.toJson.member? column = (r.get? column).map Value.toJson) ∧
    ∀ (σ : Type) (c : Connection σ) (q : Query) (j : Journal σ),
      (q.execute c (fun r => .ok r.toJson) j).1 =
        (q.execute c Except.ok j).1.map (List.map Row.toJson) := by
  refine ⟨?_, fun v hv => ?_, r.member?_eq_iff column, fun hcolumns => ?_,
    fun σ c q j => q.execute_map c Row.toJson j⟩
  · rw [member?_toJson, Option.isSome_map, isSome_lookup_reverse]
  · rw [member?_toJson, lookup_reverse_eq_some_iff.mpr hv, Option.map_some]
  · exact (r.member?_eq_iff column).mpr fun first last hfirst hlast =>
      congrArg Value.toJson (hfirst.eq_of_isLast hcolumns hlast)

/-- A column that occurs twice with one JSON form, around another one. -/
theorem Row.member_agrees_iff_of_equal :
    let one : Value := .json (.whole ⟨1, by decide, by decide⟩)
    let r : Row := ⟨[("id", .int 1), ("name", .text "a"), ("id", one)]⟩
    r.IsFirst "id" (.int 1) ∧ r.IsLast "id" one ∧
      r.toJson.member? "id" = some one.toJson ∧
      r.toJson.member? "id" = (r.get? "id").map Value.toJson := by
  intro one r
  have hlast : r.IsLast "id" one :=
    ⟨[("id", .int 1), ("name", .text "a")], [], rfl, by decide⟩
  obtain ⟨-, hmember, hagree, -⟩ := Row.member_agrees_iff r "id"
  refine ⟨⟨[], _, rfl, by decide⟩, hlast, hmember one hlast, hagree.mpr ?_⟩
  intro first last hfirst hlast
  obtain rfl := Option.some.inj (get?_eq_some_iff.mpr hfirst)
  obtain rfl := Option.some.inj (lookup_reverse_eq_some_iff.mpr hlast)
  rfl

/-- Of two cells of one column the row answers the first one, its JSON object the second. -/
theorem Row.member_differs :
    let r : Row := ⟨[("a", .int 1), ("a", .int 2)]⟩
    r.get? "a" = some (.int 1) ∧ r.read Except.ok "a" = .ok (.int 1) ∧
      r.toJson.member? "a" = some (Value.int 2).toJson ∧
      (Value.int 1).toJson ≠ (Value.int 2).toJson :=
  ⟨rfl, rfl, rfl, nofun⟩

end QueryChain
