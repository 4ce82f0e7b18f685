import QueryChain.Connection.Recorder
import QueryChain.Proofs.Guarding
import QueryChain.Proofs.Insertion
import QueryChain.Proofs.Target
import QueryChain.Query.Run

/-!
Names in calls. A call with a name that is no identifier does not succeed, and whatever the calls
that do succeed assemble holds names between double quotes alone.
-/

namespace QueryChain

open Fragment (Worded)

/-! ### Valid names -/

def IsPart (cs : List Char) : Prop :=
  cs ≠ [] ∧ ∀ c ∈ cs, isNameChar c = true

def IsField (s : String) : Prop :=
  IsPart s.toList

def IsName (s : String) : Prop :=
  ∀ part ∈ s.toList.splitOn '.', IsPart part

theorem Identifier.isPart (i : Identifier) : IsPart i.chars :=
  ⟨i.nonempty, i.safe⟩

theorem Identifier.ofField_isField {s : String} {i : Identifier} (h : ofField s = .ok i) :
    IsField s := by
  have hchars := check_ok (Except.mapError_ok h)
  rw [IsField, ← hchars]
  exact i.isPart

theorem QualifiedName.checkParts_isPart {s : String} {parts : List (List Char)}
    {is : List Identifier} (h : checkParts s parts = .ok is) : ∀ part ∈ parts, IsPart part := by
  induction parts generalizing is with
  | nil => simp
  | cons part rest ih =>
    rw [checkParts] at h
    split at h
    · cases h
    · rename_i i hi
      split at h
      · cases h
      · rename_i hrest
        intro x hx
        rcases List.mem_cons.mp hx with rfl | hx
        · exact Identifier.check_ok hi ▸ i.isPart
        · exact ih hrest x hx

theorem QualifiedName.parse_isName {s : String} {n : QualifiedName} (h : parse s = .ok n) :
    IsName s := by
  have h := Except.mapError_ok h
  split at h
  · cases h
  · obtain ⟨is, his, -⟩ := Except.bind_eq_ok.mp h
    exact checkParts_isPart his

/-! ### Names of operations -/

/-- Whether all names that an operation is called with are valid. A search for nothing, or in no
field, is called with none. -/
def Operation.Named : Operation → Prop
  | .filter pairs | .exclude pairs => ∀ pair ∈ pairs, IsField (Key.parse pair.1).field
  | .search field needle => field = "" ∨ needle = "" ∨ IsField field
  | .order specs => ∀ s ∈ specs, IsField (SortKey.parse s).field
  | .groupBy fields => ∀ s ∈ fields, IsField s
  | .limit _ | .offset _ | .slice _ _ | .paginate _ _ => True

theorem Condition.ofPairs_isField {pairs : List (String × Value)} {cs : List Condition}
    (h : ofPairs pairs = .ok cs) : ∀ pair ∈ pairs, IsField (Key.parse pair.1).field := by
  intro pair hpair
  obtain ⟨c, -, hc⟩ := exists_of_forall₂_left (forall₂_of_mapM_ok h) hpair
  obtain ⟨i, hi, -⟩ := ofLookup_ok hc
  exact Identifier.ofField_isField hi

theorem SortKey.term_isField {k : SortKey} {s : String} (h : k.term = .ok s) :
    IsField k.field := by
  rw [term] at h
  split at h
  · cases h
  · exact Identifier.ofField_isField ‹_›

/-- An operation with a name that is not valid does not succeed. -/
theorem Operation.named_of_run {op : Operation} {q q' : Query} (h : op.run q = .ok q') :
    op.Named := by
  cases op with
  | filter pairs | exclude pairs =>
    obtain ⟨cs, hcs, -⟩ := Except.map_eq_ok.mp h
    exact Condition.ofPairs_isField hcs
  | search field needle =>
    simp only [run, Query.search] at h
    split at h
    · rename_i hempty
      rw [Bool.or_eq_true, String.isEmpty_iff, String.isEmpty_iff] at hempty
      exact hempty.elim .inl fun h => .inr (.inl h)
    · obtain ⟨c, hc, -⟩ := Except.map_eq_ok.mp h
      obtain ⟨i, hi, -⟩ := Condition.ofLookup_ok hc
      exact .inr (.inr (Identifier.ofField_isField hi))
  | order specs =>
    obtain ⟨terms, hterms, -⟩ := Except.map_eq_ok.mp h
    intro s hs
    obtain ⟨term, -, hterm⟩ := exists_of_forall₂_left (forall₂_of_mapM_ok hterms) hs
    exact SortKey.term_isField hterm
  | groupBy fields =>
    obtain ⟨columns, hcolumns, -⟩ := Except.map_eq_ok.mp h
    intro s hs
    obtain ⟨i, -, hi⟩ := exists_of_forall₂_left (forall₂_of_mapM_ok hcolumns) hs
    exact Identifier.ofField_isField hi
  | limit n | offset n | slice start stop | paginate page size => trivial

/-- A search for nothing, or in no field, adds nothing. -/
theorem Query.search_empty {field needle : String} (h : field = "" ∨ needle = "") (q : Query) :
    q.search field needle = .ok q := by
  rcases h with rfl | rfl <;> simp [search]

/-! ### Names of writing calls -/

theorem Query.updateStatement_isField {q : Query} {pairs : List (String × Value)} {f : Fragment}
    (h : q.updateStatement pairs = .ok f) : ∀ pair ∈ pairs, IsField pair.1 := by
  obtain ⟨assignments, -, hpairs⟩ := updateStatement_ok h
  intro pair hpair
  obtain ⟨assignment, -, hcolumn, -⟩ := exists_of_forall₂_left hpairs hpair
  exact Identifier.ofField_isField hcolumn

theorem Table.insertStatement_isName {d : Dialect} {table : String} {cells : List (String × Value)}
    {f : Fragment} (h : insertStatement d table cells = .ok f) :
    IsName table ∧ ∀ cell ∈ cells, IsName cell.1 := by
  obtain ⟨name, columns, hname, -, hcolumns, -⟩ := insertStatement_ok h
  refine ⟨QualifiedName.parse_isName hname, ?_⟩
  intro cell hcell
  obtain ⟨column, -, hcolumn⟩ := exists_of_forall₂_left hcolumns hcell
  exact QualifiedName.parse_isName hcolumn

theorem Table.insertManyStatement_isName {d : Dialect} {table : String} {first : Row}
    {rows : List Row} {sql : String} {batches : List (List Value)}
    (h : insertManyStatement d table first rows = .ok (sql, batches)) :
    IsName table ∧ ∀ row ∈ rows, ∀ s ∈ row.columns, IsName s := by
  obtain ⟨name, columns, hname, -, hcolumns, -, hrows⟩ := insertManyStatement_ok h
  refine ⟨QualifiedName.parse_isName hname, ?_⟩
  intro row hrow s hs
  obtain ⟨values, -, hsame, -⟩ := exists_of_forall₂_left hrows hrow
  obtain ⟨column, -, hcolumn⟩ := exists_of_forall₂_left hcolumns (hsame ▸ hs)
  exact QualifiedName.parse_isName hcolumn

/-- A session that begins with a checked computation succeeds only with it. -/
theorem Session.ok_of_ofExcept {σ α β : Type} {m : Except Failure α} {f : α → Session σ β}
    {j : Journal σ} {b : β} (h : ((Session.ofExcept m).bind f j).1 = .ok b) :
    ∃ a, m = .ok a := by
  cases m with
  | error e => cases h
  | ok a => exact ⟨a, rfl⟩

/-! ### Statements -/

structure Query.AllGuarded (q : Query) : Prop where
  select : Guarded q.select.sql.toList
  count : Guarded q.countStatement.sql.toList
  delete : ∀ f, q.deleteStatement = .ok f → Guarded f.sql.toList
  update : ∀ pairs f, q.updateStatement pairs = .ok f → Guarded f.sql.toList

theorem Query.chain_allGuarded {d : Dialect} {table : String} {q q' : Query}
    {ops : List Operation} (hq : Query.ofTable d table = .ok q) (h : q.chain ops = .ok q') :
    q'.AllGuarded := by
  obtain ⟨hdialect, hsections⟩ := ofTable_chain hq h fun f hf => hf
  constructor
  · rw [select, hdialect]
    exact (Clauses.select_worded hsections).guarded.1
  · rw [countStatement, hdialect]
    exact (Clauses.count_worded hsections).guarded.1
  · intro f hf
    rw [deleteStatement, hdialect] at hf
    exact (Clauses.delete_worded hsections hf).guarded.1
  · intro pairs f hf
    obtain ⟨assignments, hupdate, -⟩ := updateStatement_ok hf
    rw [hdialect] at hupdate
    exact (Clauses.update_worded hsections hupdate).guarded.1

theorem Table.insertSql_guarded (d : Dialect) (table : QualifiedName)
    (columns : List QualifiedName) : Guarded (insertSql d table columns).toList := by
  have h := insertSql_worded d table columns (columns.map fun _ => .null) (by simp)
  exact h.guarded.1

/-- No name reaches the text of a statement outside quotes. The statements of a chain on a table
and all insertions are guarded; a table, a chained call, an update and an insertion succeed with
valid names only, where an insertion of no rows is none and sends nothing. -/
theorem Query.names_stay_quoted (d : Dialect) :
    (∀ table q ops q', Query.ofTable d table = .ok q → q.chain ops = .ok q' → q'.AllGuarded) ∧
    (∀ table cells f, Table.insertStatement d table cells = .ok f → Guarded f.sql.toList) ∧
    (∀ table first rows sql batches,
      Table.insertManyStatement d table first rows = .ok (sql, batches) → Guarded sql.toList) ∧
    (∀ table q, Query.ofTable d table = .ok q → IsName table) ∧
    (∀ (op : Operation) (q q' : Query), op.run q = .ok q' → op.Named) ∧
    (∀ (q : Query) field needle, field = "" ∨ needle = "" →
      (Operation.search field needle).run q = .ok q) ∧
    (∀ {σ : Type} (c : Connection σ) (q : Query) pairs j n,
      (q.update c pairs j).1 = .ok n → ∀ pair ∈ pairs, IsField pair.1) ∧
    (∀ {σ : Type} (c : Connection σ) table cells j n, (Table.insert c d table cells j).1 = .ok n →
      IsName table ∧ ∀ cell ∈ cells, IsName cell.1) ∧
    (∀ {σ : Type} (c : Connection σ) table rows j n,
      (Table.insertMany c d table rows j).1 = .ok n → rows ≠ [] →
        IsName table ∧ ∀ row ∈ rows, ∀ s ∈ row.columns, IsName s) ∧
    ∀ {σ : Type} (c : Connection σ) table j, Table.insertMany c d table [] j = (.ok 0, j) := by
  refine ⟨?_, ?_, ?_, ?_, ?_, ?_, ?_, ?_, ?_, ?_⟩
  -- What is assembled is guarded.
  · exact fun table q ops q' hq h => chain_allGuarded hq h
  · intro table cells f h
    obtain ⟨name, columns, -, -, -, rfl⟩ := Table.insertStatement_ok h
    exact Table.insertSql_guarded d name columns
  · intro table first rows sql batches h
    obtain ⟨name, columns, -, -, -, rfl, -⟩ := Table.insertManyStatement_ok h
    exact Table.insertSql_guarded d name columns
  -- What succeeds was called with valid names.
  · intro table q h
    obtain ⟨name, hname, -⟩ := ofTable_ok h
    exact QualifiedName.parse_isName hname
  · exact fun op q q' h => Operation.named_of_run h
  · exact fun q field needle h => search_empty h q
  · intro σ c q pairs j n h
    obtain ⟨f, hf⟩ := Session.ok_of_ofExcept h
    exact updateStatement_isField hf
  · intro σ c table cells j n h
    obtain ⟨f, hf⟩ := Session.ok_of_ofExcept h
    exact Table.insertStatement_isName hf
  · intro σ c table rows j n h hne
    cases rows with
    | nil => exact absurd rfl hne
    | cons first rest =>
      obtain ⟨⟨sql, batches⟩, hsent⟩ := Session.ok_of_ofExcept h
      exact Table.insertManyStatement_isName hsent
  · exact fun c table j => rfl

/-- An insertion of no rows succeeds whatever the table is called. -/
theorem Table.insertMany_of_no_rows :
    (insertMany (Recorder.connection {}) .tsql "bad name" [] ⟨{}, []⟩).1 = .ok 0 ∧
      ¬ IsName "bad name" := by
  refine ⟨rfl, ?_⟩
  intro h
  have hpart := (h "bad name".toList (by decide)).2 ' ' (by decide)
  revert hpart
  decide

end QueryChain
