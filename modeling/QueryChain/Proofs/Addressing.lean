import QueryChain.Proofs.Interleaving
import QueryChain.Proofs.Target
import QueryChain.Proofs.TableQuery

/-!
What DELETE and UPDATE address. A quoted name is read back as it is written, so the query of a
table changes the rows of that table, and of a chain the predicates alone decide which.
-/

namespace QueryChain

open Fragment (ofText)
open Text

/-! ### Quoted names -/

theorem Clauses.isQuotedPart_sql (i : Identifier) : isQuotedPart i.sql.toList = true := by
  have hchars : i.chars.reverse.isEmpty = false := by
    simpa using i.nonempty
  have hsafe : i.chars.reverse.all isNameChar = true := by
    simpa using i.safe
  rw [i.toList_sql]
  simp only [isQuotedPart, List.reverse_append, List.reverse_cons, List.reverse_nil,
    List.nil_append, List.cons_append, hchars, hsafe]
  rfl

namespace QualifiedName

theorem splitOn_sql (name : QualifiedName) :
    name.sql.toList.splitOn '.' = name.parts.map (·.sql.toList) := by
  have hpoint : ∀ part ∈ name.parts.map (·.sql.toList), '.' ∉ part := by
    intro part hpart
    obtain ⟨i, -, rfl⟩ := List.mem_map.mp hpart
    have hname : '.' ∉ i.chars := fun h => absurd (i.safe _ h) (by decide)
    rw [i.toList_sql]
    simp [hname]
  have hne : name.parts.map (·.sql.toList) ≠ [] := by
    simpa using name.nonempty
  rw [sql, String.toList_intercalate, List.map_map]
  exact List.splitOn_intercalate '.' hpoint hne

/-- A quoted name is no name without quotes. -/
theorem parse_sql (name : QualifiedName) :
    parse name.sql = .error (.invalidIdentifier (.character '"' name.sql)) := by
  have hparts : checkParts name.sql (name.sql.toList.splitOn '.') =
      .error (.character '"' name.sql) := by
    obtain ⟨i, rest, hcons⟩ := List.exists_cons_of_ne_nil name.nonempty
    rw [splitOn_sql, hcons, List.map_cons, i.toList_sql]
    rfl
  rw [parse, name.firm_sql.isEmpty, hparts]
  rfl

end QualifiedName

namespace Clauses

/-- A quoted name is read back as it is written, blanks around it left out. -/
theorem readTarget_sql {name : QualifiedName} {cs : List Char}
    (h : trimChars cs = name.sql.toList) : readTarget cs = .ok name.sql := by
  have hquoted : (name.sql.toList.splitOn '.').all isQuotedPart = true := by
    rw [name.splitOn_sql, List.all_map, List.all_eq_true]
    exact fun i _ => isQuotedPart_sql i
  rw [readTarget, h, String.ofList_toList, name.parse_sql]
  exact if_pos hquoted

/-- The base of a table has that table behind its only FROM. -/
theorem target_of_tableBase {name : QualifiedName} {c : Clauses}
    (h : c.head = ofText (tableBase name)) : c.target = .ok name.sql := by
  have hblank : trimChars (' ' :: name.sql.toList) = name.sql.toList := by
    have htrim := trimChars_around name.firm_sql.front name.firm_sql.back [' '] [] (by decide)
      (by simp)
    rwa [List.append_nil] at htrim
  have hdrop : (tableBase name).toList.drop 13 = ' ' :: name.sql.toList := by
    rw [toList_tableBase]
    rfl
  rw [target, h, Fragment.sql_ofText, scan_tableBase]
  change readTarget ((tableBase name).toList.drop 13) = _
  rw [hdrop]
  exact readTarget_sql hblank

end Clauses

/-! ### Predicates of a chain -/

/-- The predicates of a chain lead to its conditions on every query that has the same ones at
first, and to nothing else. -/
theorem Query.chain_predicates {q q' : Query} {ops : List Operation} (h : q.chain ops = .ok q')
    {r : Query} (hr : r.clauses.conditions = q.clauses.conditions) :
    r.chain (ops.filter (·.aspect = .predicates)) =
      .ok (r.mapClauses fun c => { c with conditions := q'.clauses.conditions }) := by
  induction ops generalizing q r with
  | nil =>
    obtain rfl := Except.ok.inj h
    rw [← hr]
    rfl
  | cons op rest ih =>
    obtain ⟨next, hnext, h⟩ := chain_cons_ok.mp h
    obtain ⟨f, hf, hrun⟩ := Operation.run_changes hnext
    obtain rfl := Except.ok.inj ((hrun q).symm.trans hnext)
    by_cases haspect : op.aspect = .predicates
    · have hsame : (f r).clauses.conditions = (f q).clauses.conditions ∧
          ∀ cs, (f r).mapClauses (fun c => { c with conditions := cs }) =
            r.mapClauses fun c => { c with conditions := cs } := by
        rw [haspect] at hf
        cases hf with
        | conditions cs => exact ⟨congrArg (· ++ cs) hr, fun _ => rfl⟩
        | same => exact ⟨hr, fun _ => rfl⟩
      rw [List.filter_cons_of_pos (by simpa using haspect), chain, hrun r, ← hsame.2]
      exact ih h hsame.1
    · have hsame : (f q).clauses.conditions = q.clauses.conditions := by
        generalize op.aspect = aspect at hf haspect
        cases hf with
        | conditions cs => exact absurd rfl haspect
        | order _ | group _ | bounds _ | same => rfl
      rw [List.filter_cons_of_neg (by simpa using haspect)]
      exact ih h (hr.trans hsame.symm)

/-! ### Assignments -/

/-- An UPDATE fails with the first name that is no field, then with its table, then for want of
assignments. -/
theorem Query.failure?_updateStatement (q : Query) (pairs : List (String × Value)) :
    failure? (q.updateStatement pairs) =
      ((pairs.findSome? fun pair => failure? (Identifier.ofField pair.1)).or
        (failure? q.clauses.target)).or
          (if pairs.isEmpty then some (.malformedQuery .noAssignment) else none) := by
  rw [updateStatement]
  split
  · rename_i e hassign
    have hfields : pairs.findSome? (fun pair => failure? (Identifier.ofField pair.1)) = some e :=
      (failure?_mapM fun pair _ => failure?_map _ _).symm.trans (failure?_eq_some.mpr hassign)
    rw [hfields]
    rfl
  · rename_i assignments hassign
    have hfields : pairs.findSome? (fun pair => failure? (Identifier.ofField pair.1)) = none :=
      (failure?_mapM fun pair _ => failure?_map _ _).symm.trans (failure?_eq_none.mpr ⟨_, hassign⟩)
    have hempty : assignments.isEmpty = pairs.isEmpty := by
      rw [Bool.eq_iff_iff, List.isEmpty_iff, List.isEmpty_iff, ← List.length_eq_zero_iff,
        ← List.length_eq_zero_iff, (forall₂_of_mapM_ok hassign).length_eq]
    rw [hfields, Clauses.update, hempty]
    cases q.clauses.target with
    | error e => rfl
    | ok table => cases pairs.isEmpty <;> rfl

theorem Clauses.map_writeAssignment {d : Dialect} {pairs : List (String × Value)}
    {assignments : List (Identifier × Value)}
    (h : List.Forall₂ (fun pair assignment => Identifier.ofField pair.1 = .ok assignment.1 ∧
      assignment.2 = pair.2) pairs assignments) :
    (assignments.map fun (column, v) => writeAssignment d column v) = pairs.map fun pair =>
      ⟨"\"" ++ pair.1 ++ "\" = " ++ d.placeholder.token, [pair.2.toStorage]⟩ := by
  induction h with
  | nil => rfl
  | @cons pair assignment _ _ hpair _ ih =>
    obtain ⟨column, v⟩ := assignment
    obtain ⟨hcolumn, rfl⟩ : Identifier.ofField pair.1 = .ok column ∧ v = pair.2 := hpair
    have hword : "\"" ++ " = " = "\" = " := by decide
    have hwritten : writeAssignment d column pair.2 =
        ⟨"\"" ++ pair.1 ++ "\" = " ++ d.placeholder.token, [pair.2.toStorage]⟩ := by
      apply Fragment.ext
      · rw [writeAssignment, Identifier.sql, Identifier.name_of_ofField hcolumn, ← hword]
        simp only [Fragment.sql_append, Fragment.sql_ofText, String.append_assoc]
        rfl
      · rfl
    rw [List.map_cons, List.map_cons, ih, ← hwritten]

/-- An UPDATE assigns the stored form of each value to the field of its pair. -/
theorem Query.updateStatement_text {q : Query} {table : String}
    (htable : q.clauses.target = .ok table) {pairs : List (String × Value)} {f : Fragment}
    (hf : q.updateStatement pairs = .ok f) :
    f.sql = "UPDATE " ++ table ++ " SET " ++ ", ".intercalate (pairs.map fun pair =>
        "\"" ++ pair.1 ++ "\" = " ++ q.dialect.placeholder.token) ++
          (q.clauses.writeConditions q.dialect).sql ∧
      f.params = pairs.map (·.2.toStorage) ++ (q.clauses.writeConditions q.dialect).params := by
  obtain ⟨assignments, hupdate, hassigned⟩ := updateStatement_ok hf
  rw [Clauses.update, htable] at hupdate
  dsimp only at hupdate
  split at hupdate
  · cases hupdate
  · rename_i hne
    obtain rfl := Except.ok.inj hupdate
    rw [Clauses.map_writeAssignment hassigned]
    cases hassigned with
    | nil => exact absurd rfl hne
    | cons hfirst hrest =>
      constructor
      · simp only [Fragment.sql_append, Fragment.sql_ofText, List.map_cons,
          Fragment.sql_series_cons, List.map_map, String.append_assoc]
        rfl
      · simp only [Fragment.params_append, Fragment.params_ofText, Fragment.params_series,
          List.flatMap_map, List.nil_append, ← List.map_eq_flatMap]

/-- An UPDATE of valid fields is made if its query has a table. -/
theorem Query.updateStatement_of_fields {q : Query} {table : String}
    (htable : q.clauses.target = .ok table) {pairs : List (String × Value)} (hne : pairs ≠ [])
    (hfields : ∀ pair ∈ pairs, ∃ i, Identifier.ofField pair.1 = .ok i) :
    ∃ f, q.updateStatement pairs = .ok f := by
  have hvalid : pairs.findSome? (fun pair => failure? (Identifier.ofField pair.1)) = none := by
    rw [List.findSome?_eq_none_iff]
    exact fun pair hpair => failure?_eq_none.mpr (hfields pair hpair)
  rw [← failure?_eq_none, failure?_updateStatement, hvalid, htable, if_neg (by simpa using hne)]
  rfl

/-! ### Tables -/

/-- DELETE and UPDATE see the head of a query and its conditions alone. -/
theorem Query.statements_of_conditions {q r : Query} (hdialect : r.dialect = q.dialect)
    (hhead : r.clauses.head = q.clauses.head)
    (hconditions : r.clauses.conditions = q.clauses.conditions) :
    r.deleteStatement = q.deleteStatement ∧
      ∀ pairs, r.updateStatement pairs = q.updateStatement pairs := by
  obtain ⟨d, head, conditions, groupBy, orderBy, bounds⟩ := q
  obtain ⟨d', head', conditions', groupBy', orderBy', bounds'⟩ := r
  obtain rfl : d' = d := hdialect
  obtain rfl : head' = head := hhead
  obtain rfl : conditions' = conditions := hconditions
  exact ⟨rfl, fun _ => rfl⟩

/-- Of every table, whatever is chained, DELETE and UPDATE address the rows that the conditions of
the SELECT keep: their WHERE clause with its parameters is that of the SELECT, which the predicates
of the chain alone lead to. -/
theorem Query.ofTable_addresses {table : String} {name : QualifiedName}
    (hname : QualifiedName.parse table = .ok name) (d : Dialect) :
    ∃ q, Query.ofTable d table = .ok q ∧ ∀ ops q', q.chain ops = .ok q' →
      (∃ r, q.chain (ops.filter (·.aspect = .predicates)) = .ok r ∧
        r.select = ofText ("SELECT * FROM " ++ name.sql) ++ q'.clauses.writeConditions d ∧
        r.deleteStatement = q'.deleteStatement ∧
        ∀ pairs, r.updateStatement pairs = q'.updateStatement pairs) ∧
      q'.select = ofText ("SELECT * FROM " ++ name.sql) ++ q'.clauses.writeConditions d ++
        q'.clauses.writeGroup ++ q'.clauses.writeOrder ++
          d.bounds q'.clauses.bounds (!q'.clauses.orderBy.isEmpty) ∧
      q'.deleteStatement =
        .ok (ofText ("DELETE FROM " ++ name.sql) ++ q'.clauses.writeConditions d) ∧
      ∀ pairs, pairs ≠ [] → (∀ pair ∈ pairs, ∃ i, Identifier.ofField pair.1 = .ok i) →
        ∃ f, q'.updateStatement pairs = .ok f ∧
          f.sql = "UPDATE " ++ name.sql ++ " SET " ++ ", ".intercalate (pairs.map fun pair =>
            "\"" ++ pair.1 ++ "\" = " ++ d.placeholder.token) ++
              (q'.clauses.writeConditions d).sql ∧
          f.params = pairs.map (·.2.toStorage) ++ (q'.clauses.writeConditions d).params := by
  refine ⟨_, ofTable_of_parse hname, fun ops q' h => ?_⟩
  have hhead : q'.clauses.head = ofText (tableBase name) := chain_head h
  obtain rfl : q'.dialect = d := chain_dialect h
  have htarget := Clauses.target_of_tableBase hhead
  obtain ⟨hdelete, hupdate⟩ := statements_of_conditions (q := q')
    (r := ⟨q'.dialect, ⟨ofText (tableBase name), q'.clauses.conditions, none, [], {}⟩⟩) rfl
    hhead.symm rfl
  refine ⟨⟨_, chain_predicates h rfl, ?_, hdelete, hupdate⟩, ?_, ?_, fun pairs hne hfields => ?_⟩
  · have hbounds := Clauses.bounds_unbounded q'.dialect (b := {}) rfl false
    change ofText (tableBase name) ++ q'.clauses.writeConditions q'.dialect ++ .empty ++ .empty ++
      q'.dialect.bounds {} false = _
    rw [hbounds, Fragment.append_empty, Fragment.append_empty, Fragment.append_empty]
    rfl
  · rw [select, Clauses.select, Clauses.writeFiltered, hhead]
    rfl
  · rw [deleteStatement, Clauses.delete, htarget]
  · obtain ⟨f, hf⟩ := updateStatement_of_fields htarget hne hfields
    exact ⟨f, hf, updateStatement_text htarget hf⟩

/-- A name whose parts are keywords, and a column that is one too. -/
theorem Query.ofTable_addresses_of_keywords :
    ∃ q q', Query.ofTable .postgres "Order.From" = .ok q ∧
      q.chain [.order ["-a"], .filter [("where", .int 1)], .groupBy ["a"], .limit 5] = .ok q' ∧
      q'.deleteStatement =
        .ok ⟨"DELETE FROM \"Order\".\"From\" WHERE \"where\" = %s", [.int 1]⟩ ∧
      q'.updateStatement [("set", .bool true), ("b", .text "x")] =
        .ok ⟨"UPDATE \"Order\".\"From\" SET \"set\" = %s, \"b\" = %s WHERE \"where\" = %s",
          [.bool true, .text "x", .int 1]⟩ := by
  have hname : QualifiedName.parse "Order.From" =
      .ok ⟨[⟨"Order".toList, by decide, by decide⟩, ⟨"From".toList, by decide, by decide⟩],
        by decide⟩ :=
    Except.eq_ok_of_toOption (by decide +kernel)
  obtain ⟨q, hq, hall⟩ := ofTable_addresses hname .postgres
  obtain rfl := Except.ok.inj (hq.symm.trans (ofTable_of_parse hname))
  obtain ⟨-, -, hdelete, hupdate⟩ := hall
    [.order ["-a"], .filter [("where", .int 1)], .groupBy ["a"], .limit 5] _ rfl
  have hfields : ∀ pair ∈ [("set", Value.bool true), ("b", .text "x")],
      ∃ i, Identifier.ofField pair.1 = .ok i :=
    List.forall_mem_cons.mpr ⟨⟨_, rfl⟩, List.forall_mem_singleton.mpr ⟨_, rfl⟩⟩
  obtain ⟨f, hf, hsql, hparams⟩ := hupdate _ (List.cons_ne_nil _ _) hfields
  refine ⟨_, _, hq, rfl, hdelete.trans (congrArg Except.ok ?_), hf.trans (congrArg Except.ok ?_)⟩
  · exact Fragment.ext (by decide +kernel) rfl
  · exact Fragment.ext (hsql.trans (by decide +kernel)) hparams

end QueryChain
