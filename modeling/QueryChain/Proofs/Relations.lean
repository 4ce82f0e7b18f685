import QueryChain.Proofs.Ambiguity

/-!
The relation that a table name stands for in PostgreSQL, where an identifier without quotes is
folded to lower case and a quoted one is kept as it is written. SELECT reads the name of a base as
it is; DELETE and UPDATE read it in quotes, which is another relation if the name has capitals.
-/

namespace QueryChain

open Text

namespace Postgres

/-- Where a reader of names stands: outside quotes, within them, or behind the second of them, which
may be the first of a pair that stands for one quote. -/
inductive Reading
  | bare
  | quoted
  | closed
  deriving DecidableEq

def nameParts : Reading → List Char → List Char → List (List Char)
  | _, part, [] => [part]
  | .quoted, part, c :: cs =>
    if c = '"' then nameParts .closed part cs else nameParts .quoted (part ++ [c]) cs
  | .closed, part, c :: cs =>
    if c = '"' then nameParts .quoted (part ++ [c]) cs
    else if c = '.' then part :: nameParts .bare [] cs
    else nameParts .bare (part ++ [c.toLower]) cs
  | .bare, part, c :: cs =>
    if c = '"' then nameParts .quoted part cs
    else if c = '.' then part :: nameParts .bare [] cs
    else nameParts .bare (part ++ [c.toLower]) cs

/-- The relation of a name, by the parts it has when identifiers without quotes are folded. -/
def relation (name : String) : List (List Char) :=
  nameParts .bare [] name.toList

theorem nameParts_quoted {cs : List Char} (h : ∀ c ∈ cs, isNameChar c = true)
    (part rest : List Char) :
    nameParts .quoted part (cs ++ '"' :: rest) = nameParts .closed (part ++ cs) rest := by
  induction cs generalizing part with
  | nil => simp [nameParts]
  | cons c cs ih =>
    obtain ⟨hc, hcs⟩ := List.forall_mem_cons.mp h
    rw [List.cons_append, nameParts, if_neg (ne_quote_of_isNameChar hc), ih hcs, List.append_assoc]
    rfl

theorem nameParts_bare {cs : List Char} (h : ∀ c ∈ cs, isNameChar c = true)
    (part rest : List Char) :
    nameParts .bare part (cs ++ rest) = nameParts .bare (part ++ cs.map Char.toLower) rest := by
  induction cs generalizing part with
  | nil => simp
  | cons c cs ih =>
    obtain ⟨hc, hcs⟩ := List.forall_mem_cons.mp h
    have hpoint : c ≠ '.' := by
      rintro rfl
      cases hc
    rw [List.cons_append, nameParts, if_neg (ne_quote_of_isNameChar hc), if_neg hpoint, ih hcs,
      List.map_cons, List.append_assoc]
    rfl

/-- A name is read part by part. -/
theorem nameParts_intercalate {is : List Identifier} {text part : Identifier → List Char}
    (hne : is ≠ [])
    (h : ∀ i, ∃ r, r ≠ Reading.quoted ∧
      ∀ rest, nameParts .bare [] (text i ++ rest) = nameParts r (part i) rest) :
    nameParts .bare [] (['.'].intercalate (is.map text)) = is.map part := by
  induction is with
  | nil => exact absurd rfl hne
  | cons i is ih =>
    obtain ⟨r, hr, hread⟩ := h i
    cases is with
    | nil =>
      have hlast : nameParts r (part i) [] = [part i] := by cases r <;> rfl
      rw [List.map_singleton, List.intercalate_singleton, ← List.append_nil (text i), hread, hlast]
      rfl
    | cons j is =>
      have hpoint (cs : List Char) :
          nameParts r (part i) ('.' :: cs) = part i :: nameParts .bare [] cs := by
        cases r with
        | quoted => exact absurd rfl hr
        | bare | closed => rfl
      rw [List.map_cons, List.map_cons, List.intercalate_cons_cons, List.append_assoc, hread,
        List.singleton_append, hpoint, ← List.map_cons, ih (List.cons_ne_nil j is)]
      rfl

/-- Between quotes a name keeps its letters. -/
theorem relation_sql (name : QualifiedName) : relation name.sql = name.parts.map (·.chars) := by
  have htext : name.sql.toList = ['.'].intercalate (name.parts.map (·.sql.toList)) := by
    rw [QualifiedName.sql, String.toList_intercalate, List.map_map]
    rfl
  rw [relation, htext]
  refine nameParts_intercalate name.nonempty fun i => ⟨.closed, by decide, fun rest => ?_⟩
  rw [i.toList_sql, List.cons_append, List.append_assoc]
  exact nameParts_quoted i.safe [] rest

end Postgres

theorem QualifiedName.head?_sql (name : QualifiedName) : name.sql.toList.head? = some '"' := by
  obtain ⟨i, rest, hparts⟩ := List.exists_cons_of_ne_nil name.nonempty
  rw [sql, hparts]
  cases rest with
  | nil => rw [List.map_singleton, String.intercalate_singleton, i.toList_sql, List.head?_cons]
  | cons j rest =>
    rw [List.map_cons, List.map_cons, String.intercalate_cons_cons, String.toList_append,
      String.toList_append, i.toList_sql]
    rfl

theorem QualifiedName.chars_of_parse {s : String} {name : QualifiedName} (h : parse s = .ok name) :
    name.parts.map (·.chars) = s.toList.splitOn '.' := by
  have hparts {parts : List (List Char)} {is : List Identifier}
      (h : checkParts s parts = .ok is) : is.map (·.chars) = parts := by
    induction parts generalizing is with
    | nil =>
      obtain rfl := Except.ok.inj h
      rfl
    | cons part rest ih =>
      rw [checkParts] at h
      split at h
      · cases h
      · rename_i i hi
        split at h
        · cases h
        · obtain rfl := Except.ok.inj h
          rw [List.map_cons, Identifier.check_ok hi, ih ‹_›]
  have h := Except.mapError_ok h
  split at h
  · cases h
  · obtain ⟨is, his, hname⟩ := Except.bind_eq_ok.mp h
    rw [ofParts] at hname
    split at hname
    · cases hname
    · obtain rfl := Except.ok.inj hname
      exact hparts his

namespace Postgres

theorem relation_of_parse {s : String} {name : QualifiedName}
    (h : QualifiedName.parse s = .ok name) :
    relation s = name.parts.map (·.chars.map Char.toLower) := by
  have htext : s.toList = ['.'].intercalate (name.parts.map (·.chars)) := by
    rw [QualifiedName.chars_of_parse h]
    exact (List.intercalate_splitOn '.').symm
  rw [relation, htext]
  exact nameParts_intercalate name.nonempty fun i =>
    ⟨.bare, by decide, fun rest => nameParts_bare i.safe [] rest⟩

theorem toLower_eq_iff {c : Char} : c.toLower = c ↔ c.isUpper = false := by
  have hupper : c.isUpper = true ↔ c.val ≥ 'A'.val ∧ c.val ≤ 'Z'.val :=
    decide_eq_true_iff
  rw [← Bool.not_eq_true, hupper]
  by_cases hrange : c.val ≥ 'A'.val ∧ c.val ≤ 'Z'.val
  · have hmoved : (c.toLower).val = c.val + ('a'.val - 'A'.val) :=
      congrArg Char.val (dif_pos hrange)
    refine iff_of_false (fun heq => ?_) (not_not.mpr hrange)
    have hwidth : 'a'.val - 'A'.val = 32 := by decide
    have hbelow : c.val.toNat ≤ 90 := UInt32.le_iff_toNat_le.mp hrange.2
    have hsame := congrArg UInt32.toNat hmoved
    have hnat : (32 : UInt32).toNat = 32 := rfl
    rw [heq, hwidth, UInt32.toNat_add, hnat] at hsame
    omega
  · exact iff_of_true (dif_neg hrange) hrange

/-- The characters of names joined by points. -/
theorem forall_mem_intercalate {P : Char → Prop} (hpoint : P '.') (ls : List (List Char)) :
    (∀ c ∈ ['.'].intercalate ls, P c) ↔ ∀ l ∈ ls, ∀ c ∈ l, P c := by
  induction ls with
  | nil => simp
  | cons l rest ih =>
    cases rest with
    | nil => simp
    | cons m rest =>
      rw [List.intercalate_cons_cons, List.forall_mem_append, List.forall_mem_append,
        List.forall_mem_singleton, ih, List.forall_mem_cons (a := l), and_assoc]
      exact and_congr_right fun _ => and_iff_right hpoint

/-- The name of a table that is read off a text stands for the relation of the text exactly if the
text is quoted or has no capital. -/
theorem relation_readTarget_iff {cs : List Char} {table : String}
    (h : Clauses.readTarget cs = .ok table) :
    relation table = relation (String.ofList (trimChars cs)) ↔
      (trimChars cs).head? = some '"' ∨ ∀ c ∈ trimChars cs, c.isUpper = false := by
  obtain ⟨name, rfl, hname | hname⟩ := Clauses.readTarget_ok h
  · have hchars := QualifiedName.chars_of_parse hname
    have htext : trimChars cs = ['.'].intercalate (name.parts.map (·.chars)) := by
      rw [hchars, String.toList_ofList]
      exact (List.intercalate_splitOn '.').symm
    have hbare : (trimChars cs).head? ≠ some '"' := by
      have hnone : ∀ c ∈ trimChars cs, c ≠ '"' := by
        rw [htext, forall_mem_intercalate (by decide), List.forall_mem_map]
        exact fun i _ c hc => ne_quote_of_isNameChar (i.safe c hc)
      exact fun hhead => hnone _ (List.mem_of_mem_head? hhead) rfl
    have hfold (cs : List Char) :
        cs = cs.map Char.toLower ↔ ∀ c ∈ cs, c.isUpper = false := by
      conv_lhs => lhs; rw [← List.map_id cs]
      rw [List.map_inj_left]
      exact forall₂_congr fun c _ => eq_comm.trans toLower_eq_iff
    rw [relation_sql, relation_of_parse hname, or_iff_right hbare, htext,
      forall_mem_intercalate (by decide), List.map_inj_left, List.forall_mem_map]
    exact forall₂_congr fun i _ => hfold i.chars
  · have htext : trimChars cs = name.sql.toList := by
      rw [← hname, String.toList_ofList]
    rw [hname, htext]
    exact iff_of_true rfl (.inl name.head?_sql)

end Postgres

def sourceText (base : String) (m : Mark) : List Char :=
  trimChars ((headText base).drop m.stop)

/-- A name without quotes, or one between quotes, is read as a table. -/
theorem Clauses.readTarget_of_name {cs : List Char} {name : QualifiedName}
    (h : QualifiedName.parse (String.ofList (trimChars cs)) = .ok name ∨
      trimChars cs = name.sql.toList) : readTarget cs = .ok name.sql := by
  rcases h with h | h
  · rw [readTarget, h]
  · exact readTarget_sql h

namespace Query

/-- A base with one FROM is deleted from if a name stands behind that FROM, whatever is chained,
unless another FROM comes to light where the blanks around its head are trimmed. Its DELETE and its
UPDATEs address the relation that the base reads exactly if the name is quoted or has no capital. -/
theorem addressed_relation_iff {base : String} {q q' : Query} {ops : List Operation}
    (hq : ofBase .postgres base = .ok q) (h : q.chain ops = .ok q') {m : Mark}
    (hm : Mark.sources base.toList = [m]) :
    ((Mark.sources (trimChars (headText base))).length = 1 → ∀ name : QualifiedName,
      (QualifiedName.parse (String.ofList (sourceText base m)) = .ok name ∨
        sourceText base m = name.sql.toList) → ∃ f, q'.deleteStatement = .ok f) ∧
    ∀ f, q'.deleteStatement = .ok f →
      ∃ table, f.sql = "DELETE FROM " ++ table ++ (q'.clauses.writeConditions .postgres).sql ∧
        (∀ pairs, pairs ≠ [] → (∀ pair ∈ pairs, ∃ i, Identifier.ofField pair.1 = .ok i) →
          ∃ g rest, q'.updateStatement pairs = .ok g ∧
            g.sql = "UPDATE " ++ table ++ " SET " ++ rest) ∧
        (Postgres.relation table = Postgres.relation (String.ofList (sourceText base m)) ↔
          (sourceText base m).head? = some '"' ∨ ∀ c ∈ sourceText base m, c.isUpper = false) := by
  have hhead := chain_headText hq h
  have hdialect : q'.dialect = .postgres := by
    obtain ⟨clauses, -, rfl⟩ := Except.map_eq_ok.mp hq
    exact chain_dialect h
  have hm := headSources_of_sources hm
  constructor
  · intro hsole name hname
    have htarget : q'.clauses.target = .ok name.sql :=
      (Clauses.target_of_headSources hhead hm hsole).trans (Clauses.readTarget_of_name hname)
    rw [deleteStatement, Clauses.delete, htarget]
    exact ⟨_, rfl⟩
  · intro f hf
    rw [deleteStatement, Clauses.delete] at hf
    split at hf
    · cases hf
    · rename_i table htable
      obtain rfl := Except.ok.inj hf
      obtain ⟨m', hm', hread⟩ := Clauses.headSources_of_target hhead htable (by simp [hm])
      obtain rfl : m = m' := by simpa [hm] using hm'
      refine ⟨table, ?_, fun pairs hne hfields => ?_, Postgres.relation_readTarget_iff hread⟩
      · rw [hdialect]
        rfl
      · obtain ⟨g, hg⟩ := updateStatement_of_fields htable hne hfields
        have htext := (updateStatement_text htable hg).1
        rw [String.append_assoc] at htext
        exact ⟨g, _, hg, htext⟩

/-- A table of a schema in small letters is deleted from as it is read. -/
theorem addressed_relation_of_schema :
    ∃ q q' f table, ofBase .postgres "SELECT * FROM shop.orders WHERE a = 1" = .ok q ∧
      q.chain [.filter [("b", .int 2)]] = .ok q' ∧ q'.deleteStatement = .ok f ∧
      f.sql = "DELETE FROM " ++ table ++ " WHERE (a = 1) AND \"b\" = %s" ∧
      Postgres.relation table = Postgres.relation "shop.orders" := by
  have hmade : ((ofBase .postgres "SELECT * FROM shop.orders WHERE a = 1").bind fun q =>
      (q.chain [.filter [("b", .int 2)]]).map fun q' =>
        decide ((q'.clauses.writeConditions .postgres).sql = " WHERE (a = 1) AND \"b\" = %s")) =
      .ok true :=
    Except.eq_ok_of_toOption (by decide +kernel)
  obtain ⟨q, hq, hmade⟩ := Except.bind_eq_ok.mp hmade
  obtain ⟨q', hq', hwhere⟩ := Except.map_eq_ok.mp hmade
  have hm : Mark.sources "SELECT * FROM shop.orders WHERE a = 1".toList = [⟨.source, 9, 13⟩] := by
    decide +kernel
  have htext : sourceText "SELECT * FROM shop.orders WHERE a = 1" ⟨.source, 9, 13⟩ =
      "shop.orders".toList := by
    decide +kernel
  have hname : QualifiedName.parse "shop.orders" =
      .ok ⟨[⟨"shop".toList, by decide, by decide⟩, ⟨"orders".toList, by decide, by decide⟩],
        by decide⟩ :=
    Except.eq_ok_of_toOption (by decide +kernel)
  obtain ⟨hmade, haddressed⟩ := addressed_relation_iff hq hq' hm
  rw [htext, String.ofList_toList] at hmade haddressed
  obtain ⟨f, hf⟩ := hmade (by decide +kernel) _ (.inl hname)
  obtain ⟨table, hsql, -, hsame⟩ := haddressed f hf
  refine ⟨q, q', f, table, hq, hq', hf, ?_, hsame.mpr (.inr (by decide))⟩
  rw [hsql, of_decide_eq_true hwhere]

/-- A table with a capital that is not quoted is read in small letters and deleted from with the
capital. -/
theorem delete_addresses_other_relation :
    (∃ q, ofBase .postgres "SELECT * FROM Users" = .ok q ∧
      q.deleteStatement = .ok ⟨"DELETE FROM \"Users\"", []⟩) ∧
    Mark.sources "SELECT * FROM Users".toList = [⟨.source, 9, 13⟩] ∧
    sourceText "SELECT * FROM Users" ⟨.source, 9, 13⟩ = "Users".toList ∧
    Postgres.relation "\"Users\"" ≠ Postgres.relation "Users" := by
  have hmade : ((ofBase .postgres "SELECT * FROM Users").bind fun q =>
      q.deleteStatement.map fun f => (f.sql, f.params.length)) = .ok ("DELETE FROM \"Users\"", 0) :=
    Except.eq_ok_of_toOption (by decide +kernel)
  exact ⟨exists_deleteStatement hmade, by decide +kernel, by decide +kernel, by decide⟩

end Query

end QueryChain
