import QueryChain.Proofs.Pieces

/-!
What a successful insertion sends: one text, and for each row a value for each of its columns.
-/

namespace QueryChain

open Fragment (Worded ofText)

namespace Table

def insertPieces (d : Dialect) (table : QualifiedName) (columns : List QualifiedName)
    (values : List Value) : List Piece :=
  ⟨"INSERT INTO ", ofText table.sql⟩ ::
    ⟨" (", ofText (", ".intercalate (columns.map QualifiedName.sql))⟩ ::
    (Piece.series ") VALUES (" ", " (values.map d.placeholder.bind) ++ [⟨")", .empty⟩])

theorem insert_eq_join (d : Dialect) (table : QualifiedName) {columns : List QualifiedName}
    {values : List Value} (hlength : columns.length = values.length) (hne : columns ≠ []) :
    ⟨insertSql d table columns, values⟩ = Piece.join (insertPieces d table columns values) := by
  cases values with
  | nil =>
    -- Without values there would be no columns.
    exact absurd (List.eq_nil_of_length_eq_zero hlength) hne
  | cons v rest =>
    have hmarks : columns.map (fun _ => d.placeholder.token) =
        ((v :: rest).map d.placeholder.bind).map Fragment.sql := by
      rw [List.map_map, List.map_const', hlength]
      exact (List.map_const' ..).symm
    rw [insertPieces, Piece.join, Piece.join, Piece.join_append, Piece.join_series]
    ext1
    · have hseries := Fragment.sql_series_cons ") VALUES (" ", " (d.placeholder.bind v)
        (rest.map d.placeholder.bind)
      rw [← List.map_cons, ← hmarks] at hseries
      simp only [Piece.join, Piece.whole, Fragment.append_empty, Fragment.sql_append, hseries,
        Fragment.sql_ofText, insertSql_eq, String.append_assoc]
    · have hparams := Fragment.params_series ") VALUES (" ", " ((v :: rest).map d.placeholder.bind)
      rw [List.flatMap_map] at hparams
      simp only [Piece.join, Piece.whole, Fragment.append_empty, Fragment.params_append,
        Fragment.params_ofText, List.nil_append, List.append_nil, hparams]
      exact (List.flatMap_singleton' (v :: rest)).symm

/-- What a successful insertion of one row sends. -/
theorem insertStatement_ok {d : Dialect} {table : String} {cells : List (String × Value)}
    {f : Fragment} (h : insertStatement d table cells = .ok f) :
    ∃ name columns, QualifiedName.parse table = .ok name ∧ columns ≠ [] ∧
      List.Forall₂ (fun cell column => QualifiedName.parse cell.1 = .ok column) cells columns ∧
      f = ⟨insertSql d name columns, cells.map fun cell => cell.2.toStorage⟩ := by
  obtain ⟨name, hname, h⟩ := Except.bind_eq_ok.mp h
  obtain ⟨columns, hcolumns, h⟩ := Except.bind_eq_ok.mp h
  split at h
  · cases h
  · rename_i hne
    obtain rfl := Except.ok.inj h
    exact ⟨name, columns, hname, by simpa using hne, forall₂_of_mapM_ok hcolumns, rfl⟩

theorem batches_ok {expected : List String} {index : Nat} {rows : List Row}
    {batches : List (List Value)} (h : Table.batches expected index rows = .ok batches) :
    List.Forall₂ (fun row values => row.columns = expected ∧
      values = row.values.map Value.toStorage) rows batches := by
  induction rows generalizing index batches with
  | nil =>
    obtain rfl := Except.ok.inj h
    exact .nil
  | cons row rest ih =>
    rw [Table.batches] at h
    split at h
    · cases h
    · rename_i hcolumns
      obtain ⟨more, hmore, rfl⟩ := Except.map_eq_ok.mp h
      exact .cons ⟨not_not.mp hcolumns, rfl⟩ (ih hmore)

/-- What a successful insertion of several rows sends. -/
theorem insertManyStatement_ok {d : Dialect} {table : String} {first : Row} {rows : List Row}
    {sql : String} {batches : List (List Value)}
    (h : insertManyStatement d table first rows = .ok (sql, batches)) :
    ∃ name columns, QualifiedName.parse table = .ok name ∧ columns ≠ [] ∧
      List.Forall₂ (fun s column => QualifiedName.parse s = .ok column) first.columns columns ∧
      sql = insertSql d name columns ∧
      List.Forall₂ (fun row values => row.columns = first.columns ∧
        values = row.values.map Value.toStorage) rows batches := by
  obtain ⟨name, hname, h⟩ := Except.bind_eq_ok.mp h
  obtain ⟨columns, hcolumns, h⟩ := Except.bind_eq_ok.mp h
  split at h
  · cases h
  · rename_i hne
    obtain ⟨found, hfound, heq⟩ := Except.map_eq_ok.mp h
    obtain ⟨rfl, rfl⟩ := Prod.mk.inj heq
    exact ⟨name, columns, hname, by simpa using hne, forall₂_of_mapM_ok hcolumns, rfl,
      batches_ok hfound⟩

end Table

end QueryChain
