import QueryChain.Query.Run
import QueryChain.Table

/-!
Refusals. A statement that cannot be prepared is refused for a name, an operand, or the shape of
what it is made of; no preparation fails in any other way.
-/

namespace QueryChain

/-- Whether a failure says that a call cannot be made into statements at all. -/
def Failure.isRefusal : Failure → Bool
  | .malformedQuery _ | .serialization _ => true
  | e => e.isValidation

def Refusing {α : Type} (m : Except Failure α) : Prop :=
  ∀ e, m = .error e → e.isRefusal = true

namespace Refusing

variable {ε α β : Type}

theorem ok (a : α) : Refusing (.ok a) := by
  intro e h
  cases h

theorem error {e : Failure} (he : e.isRefusal = true) : Refusing (.error e : Except Failure α) := by
  intro e' h
  obtain rfl := Except.error.inj h
  exact he

theorem map {m : Except Failure α} (hm : Refusing m) (f : α → β) : Refusing (m.map f) := by
  cases m with
  | ok a => exact ok (f a)
  | error e => exact error (hm e rfl)

theorem bind {m : Except Failure α} {f : α → Except Failure β} (hm : Refusing m)
    (hf : ∀ a, Refusing (f a)) : Refusing (m.bind f) := by
  cases m with
  | ok a => exact hf a
  | error e => exact error (hm e rfl)

theorem mapM {f : α → Except Failure β} (hf : ∀ a, Refusing (f a)) (xs : List α) :
    Refusing (xs.mapM f) := by
  induction xs with
  | nil => exact ok []
  | cons x rest ih =>
    rw [List.mapM_cons]
    exact bind (hf x) fun y => bind ih fun ys => ok (y :: ys)

/-- Faults that are all refusals once they are failures. -/
theorem mapError {f : ε → Failure} (hf : ∀ fault, (f fault).isRefusal = true) (m : Except ε α) :
    Refusing (m.mapError f) := by
  cases m with
  | ok a => exact ok a
  | error fault => exact error (hf fault)

end Refusing

/-! ### What is prepared -/

theorem Identifier.ofField_refusing (s : String) : Refusing (ofField s) :=
  .mapError (fun _ => rfl) _

theorem QualifiedName.parse_refusing (s : String) : Refusing (parse s) :=
  .mapError (fun _ => rfl) _

theorem ColumnDefinition.check_refusing (definition : String) : Refusing (check definition) := by
  rw [check]
  cases checkTokens .outside (lex definition) with
  | ok _ => exact .ok ()
  | error chars => exact .error rfl

theorem Clauses.readTarget_refusing (cs : List Char) : Refusing (readTarget cs) := by
  simp only [readTarget]
  split
  · exact .ok _
  · split
    · exact .ok _
    · exact .error rfl

theorem Clauses.target_refusing (c : Clauses) : Refusing c.target := by
  rw [target]
  split
  · exact readTarget_refusing _
  · exact .error rfl
  · exact .error rfl

theorem Query.deleteStatement_refusing (q : Query) : Refusing q.deleteStatement := by
  rw [deleteStatement, Clauses.delete]
  have htarget := q.clauses.target_refusing
  split
  · rename_i e he
    exact .error (htarget e he)
  · exact .ok _

theorem Clauses.update_refusing (d : Dialect) (assignments : List (Identifier × Value))
    (c : Clauses) : Refusing (c.update d assignments) := by
  rw [update]
  have htarget := c.target_refusing
  split
  · rename_i e he
    exact .error (htarget e he)
  · split
    · exact .error rfl
    · exact .ok _

theorem Query.updateStatement_refusing (pairs : List (String × Value)) (q : Query) :
    Refusing (q.updateStatement pairs) := by
  rw [updateStatement]
  split
  · rename_i e he
    refine .error (Refusing.mapM ?_ pairs e he)
    rintro ⟨k, v⟩
    exact (Identifier.ofField_refusing k).map (·, v)
  · exact Clauses.update_refusing _ _ _

namespace Table

theorem insertStatement_refusing (d : Dialect) (table : String) (cells : List (String × Value)) :
    Refusing (insertStatement d table cells) := by
  refine .bind (QualifiedName.parse_refusing table) fun name => ?_
  refine .bind (.mapM (fun cell => QualifiedName.parse_refusing cell.1) cells) fun columns => ?_
  split
  · exact .error rfl
  · exact .ok _

theorem batches_refusing (expected : List String) (index : Nat) (rows : List Row) :
    Refusing (batches expected index rows) := by
  induction rows generalizing index with
  | nil => exact .ok []
  | cons row rest ih =>
    rw [batches]
    split
    · exact .error rfl
    · exact (ih (index + 1)).map _

theorem insertManyStatement_refusing (d : Dialect) (table : String) (first : Row)
    (rows : List Row) : Refusing (insertManyStatement d table first rows) := by
  refine .bind (QualifiedName.parse_refusing table) fun name => ?_
  refine .bind (.mapM QualifiedName.parse_refusing first.columns) fun columns => ?_
  split
  · exact .error rfl
  · exact (batches_refusing first.columns 0 rows).map _

theorem columnLine_refusing (column : String × String) : Refusing (columnLine column) := by
  refine .bind (QualifiedName.parse_refusing column.1) fun name => ?_
  exact .bind (ColumnDefinition.check_refusing column.2) fun _ => .ok _

theorem createSql_refusing (table : String) (columns : List (String × String)) :
    Refusing (createSql table columns) := by
  refine .bind (QualifiedName.parse_refusing table) fun name => ?_
  split
  · exact .error rfl
  · exact .bind (.mapM columnLine_refusing columns) fun lines => .ok _

end Table

end QueryChain
