import QueryChain.Proofs.Addressing
import QueryChain.Proofs.Sources
import QueryChain.Query.Run

/-!
Bases whose table is ambiguous. DELETE and UPDATE take the table from the head of a query, which
has to hold one FROM; they refuse a base that has none, or several, in front of its first clause.
-/

namespace QueryChain

open Text

/-! ### The table of a base -/

theorem Clauses.target_error {c : Clauses} {e : Failure} (h : c.target = .error e) :
    ∃ fault, e = .malformedQuery fault := by
  simp only [target] at h
  split at h
  · simp only [readTarget] at h
    split at h
    · cases h
    · split at h
      · cases h
      · obtain rfl := Except.error.inj h
        exact ⟨_, rfl⟩
  · obtain rfl := Except.error.inj h
    exact ⟨_, rfl⟩
  · obtain rfl := Except.error.inj h
    exact ⟨_, rfl⟩

theorem Clauses.readTarget_nil : (readTarget []).isOk = false := by
  decide +kernel

/-- The blanks behind a table are not read. -/
theorem Clauses.readTarget_append {cs post : List Char} (hpost : ∀ c ∈ post, isBlank c = true) :
    readTarget (cs ++ post) = readTarget cs := by
  have hend (cs : List Char) : trimEndChars (cs ++ post) = trimEndChars cs := by
    rw [trimEndChars, dropEndWhile, List.reverse_append,
      List.dropWhile_append_of_pos fun c hc => hpost c (List.mem_reverse.mp hc)]
    rfl
  have htrim : trimChars (cs ++ post) = trimChars cs := by
    rw [trimChars, trimChars, List.dropWhile_append]
    split
    · rename_i hempty
      rw [List.isEmpty_iff.mp hempty, ← List.append_nil post, List.dropWhile_append_of_pos hpost]
      rfl
    · exact hend _
  rw [readTarget, htrim, readTarget]

theorem Mark.eq_singleton {ms : List Mark} {m : Mark} (hms : ms.Pairwise (·.start < ·.start))
    (hne : ms ≠ []) (h : ∀ x ∈ ms, x = m) : ms = [m] := by
  obtain ⟨a, rest, rfl⟩ := List.exists_cons_of_ne_nil hne
  obtain rfl := h a List.mem_cons_self
  cases rest with
  | nil => rfl
  | cons b rest =>
    obtain rfl := h b (by simp)
    simp at hms

/-- The table of a head with one FROM stands behind the FROM of its base. -/
theorem Clauses.target_of_headSources {base : String} {c : Clauses}
    (hhead : c.head.sql.toList = trimChars (headText base)) {m : Mark}
    (hm : headSources base = [m])
    (hsole : (Mark.sources (trimChars (headText base))).length = 1) :
    c.target = readTarget ((headText base).drop m.stop) := by
  obtain ⟨pre, post, more, hparts⟩ := exists_headParts base
  rw [target, hhead]
  generalize trimChars (headText base) = cs at hsole hparts
  obtain ⟨x, hx⟩ := List.length_eq_one_iff.mp hsole
  obtain ⟨y, hy, rfl⟩ := hparts.exists_source (hm ▸ List.mem_singleton_self m)
  obtain ⟨front, word, rest, rfl, -, rfl⟩ := Mark.exists_isSource hy
  obtain rfl := List.mem_singleton.mp (hx ▸ hy)
  have hmark : (Mark.scan (front ++ (word ++ rest))).filter (·.keyword == .source) = _ := hx
  have hdrop : (headText base).drop (pre.length + (front.length + word.length)) = rest ++ post := by
    rw [hparts.head, ← List.drop_drop, List.append_assoc pre, List.drop_left, List.append_assoc,
      ← List.drop_drop, List.drop_left, List.append_assoc, List.drop_left]
  rw [hmark, hdrop, readTarget_append hparts.back]
  dsimp only
  rw [← List.append_assoc, ← List.length_append, List.drop_left]

/-- A head in which a table is found is the head of a base with one FROM in front of its first
clause, behind which the table stands. -/
theorem Clauses.headSources_of_target {base : String} {c : Clauses} {table : String}
    (hhead : c.head.sql.toList = trimChars (headText base)) (htarget : c.target = .ok table)
    (hstart : headSources base = [] →
      (({} : Context).after (base.toList.takeWhile isBlank)).isTop = true) :
    ∃ m, headSources base = [m] ∧ readTarget ((headText base).drop m.stop) = .ok table := by
  obtain ⟨pre, post, more, hparts⟩ := exists_headParts base
  have hfound := htarget
  rw [target, hhead] at hfound
  split at hfound
  case h_2 | h_3 => cases hfound
  case h_1 x hx =>
    have hx : Mark.sources (trimChars (headText base)) = [x] := hx
    have hbehind : (trimChars (headText base)).drop x.stop ≠ [] := by
      intro hnone
      have hempty := readTarget_nil
      rw [← hnone, hfound] at hempty
      cases hempty
    -- Every FROM of the base is that of the trimmed head, moved by the blanks in front.
    have hsole : ∀ m ∈ headSources base,
        m = ⟨.source, pre.length + x.start, pre.length + x.stop⟩ := by
      intro m hm
      obtain ⟨y, hy, rfl⟩ := hparts.exists_source hm
      rw [hx, List.mem_singleton] at hy
      rw [hy]
    have hsome : headSources base ≠ [] := by
      intro hnone
      have hmem := hparts.mem_headSources_of_source (hx ▸ List.mem_singleton_self x) hbehind
        (hstart hnone)
      rw [hnone] at hmem
      cases hmem
    have hm := Mark.eq_singleton (headSources_pairwise base) hsome hsole
    exact ⟨_, hm, (target_of_headSources hhead hm (by rw [hx]; rfl)).symm.trans htarget⟩

/-! ### Refusals -/

namespace Query

/-- The head of a query is that of its base, whatever is chained. -/
theorem chain_headText {d : Dialect} {base : String} {q q' : Query} {ops : List Operation}
    (hq : ofBase d base = .ok q) (h : q.chain ops = .ok q') :
    q'.clauses.head.sql.toList = trimChars (headText base) := by
  obtain ⟨clauses, hparse, rfl⟩ := Except.map_eq_ok.mp hq
  rw [chain_head h]
  exact Clauses.parse_head hparse

/-- DELETE and UPDATE of a base that has no FROM in front of its first clause, or several, fail
whatever is chained, and send nothing. A name that is no field is refused before. The blanks in
front of a base without FROM must not hide one. -/
theorem writes_refused_of_sources {d : Dialect} {base : String} {q q' : Query}
    {ops : List Operation} (hq : ofBase d base = .ok q) (h : q.chain ops = .ok q')
    (hne : (headSources base).length ≠ 1)
    (hstart : headSources base = [] →
      (({} : Context).after (base.toList.takeWhile isBlank)).isTop = true) :
    ∃ fault, ∀ {σ : Type} (c : Connection σ) (j : Journal σ),
      q'.delete c j = (.error (.malformedQuery fault), j) ∧
      ∀ pairs, q'.update c pairs j =
        (.error ((pairs.findSome? fun pair => failure? (Identifier.ofField pair.1)).getD
          (.malformedQuery fault)), j) := by
  have hhead := chain_headText hq h
  cases htarget : q'.clauses.target with
  | ok table =>
    obtain ⟨m, hm, -⟩ := Clauses.headSources_of_target hhead htarget hstart
    rw [hm] at hne
    exact absurd rfl hne
  | error e =>
    obtain ⟨fault, rfl⟩ := Clauses.target_error htarget
    refine ⟨fault, fun c j => ⟨?_, fun pairs => ?_⟩⟩
    · have hdelete : q'.deleteStatement = .error (.malformedQuery fault) := by
        rw [deleteStatement, Clauses.delete, htarget]
      rw [delete, hdelete]
      rfl
    · have hupdate : q'.updateStatement pairs =
          .error ((pairs.findSome? fun pair => failure? (Identifier.ofField pair.1)).getD
            (.malformedQuery fault)) := by
        rw [← failure?_eq_some, failure?_updateStatement, htarget]
        cases pairs.findSome? fun pair => failure? (Identifier.ofField pair.1) <;> rfl
      rw [update, hupdate]
      rfl

/-- A union in front of the first clause, and a base without a table. -/
theorem writes_refused_of_union :
    (∃ q q', ofBase .sqlite "SELECT * FROM a UNION SELECT * FROM b WHERE c = 1" = .ok q ∧
      q.chain [.filter [("d", .int 2)]] = .ok q' ∧
      ∃ fault, ∀ {σ : Type} (c : Connection σ) (j : Journal σ),
        q'.delete c j = (.error (.malformedQuery fault), j)) ∧
    ∃ q q', ofBase .sqlite " SELECT 1 ORDER BY a" = .ok q ∧ q.chain [.limit 5] = .ok q' ∧
      ∃ fault, ∀ {σ : Type} (c : Connection σ) (j : Journal σ),
        q'.update c [("a", .null)] j = (.error (.malformedQuery fault), j) := by
  constructor
  · have hok : ((ofBase .sqlite "SELECT * FROM a UNION SELECT * FROM b WHERE c = 1").bind
        (·.chain [.filter [("d", .int 2)]])).isOk = true := by
      decide +kernel
    obtain ⟨q', hq'⟩ := Except.exists_of_isOk hok
    obtain ⟨q, hq, hchain⟩ := Except.bind_eq_ok.mp hq'
    have hlength :
        (headSources "SELECT * FROM a UNION SELECT * FROM b WHERE c = 1").length = 2 := by
      decide +kernel
    obtain ⟨fault, hfault⟩ := writes_refused_of_sources hq hchain (by rw [hlength]; decide)
      fun hnone => by rw [hnone] at hlength; cases hlength
    exact ⟨q, q', hq, hchain, fault, fun c j => (hfault c j).1⟩
  · have hok : ((ofBase .sqlite " SELECT 1 ORDER BY a").bind (·.chain [.limit 5])).isOk = true := by
      decide +kernel
    obtain ⟨q', hq'⟩ := Except.exists_of_isOk hok
    obtain ⟨q, hq, hchain⟩ := Except.bind_eq_ok.mp hq'
    have hlength : (headSources " SELECT 1 ORDER BY a").length = 0 := by
      decide +kernel
    obtain ⟨fault, hfault⟩ := writes_refused_of_sources hq hchain (by rw [hlength]; decide)
      fun _ => by decide +kernel
    exact ⟨q, q', hq, hchain, fault, fun c j => (hfault c j).2 [("a", .null)]⟩

/-- The DELETE of a base, evaluated up to its text. -/
theorem exists_deleteStatement {d : Dialect} {base sql : String}
    (h : ((ofBase d base).bind fun q => q.deleteStatement.map fun f => (f.sql, f.params.length)) =
      .ok (sql, 0)) : ∃ q, ofBase d base = .ok q ∧ q.deleteStatement = .ok ⟨sql, []⟩ := by
  obtain ⟨q, hq, hdelete⟩ := Except.bind_eq_ok.mp h
  obtain ⟨⟨text, params⟩, hf, htext⟩ := Except.map_eq_ok.mp hdelete
  obtain ⟨rfl, hparams⟩ := Prod.mk.inj htext
  obtain rfl := List.length_eq_zero_iff.mp hparams
  exact ⟨q, hq, hf⟩

/-- A FROM behind the first clause is overlooked, so the rows of one table of a union are deleted.
A FROM behind a blank that is no ASCII character is overlooked too until the blank is trimmed. -/
theorem delete_of_overlooked_sources :
    (∃ q, ofBase .sqlite "SELECT b FROM a GROUP BY b UNION SELECT b FROM c" = .ok q ∧
      (Mark.sources "SELECT b FROM a GROUP BY b UNION SELECT b FROM c".toList).length = 2 ∧
      q.deleteStatement = .ok ⟨"DELETE FROM \"a\"", []⟩) ∧
    ∃ q, ofBase .sqlite "\u00a0FROM t" = .ok q ∧
      (Mark.sources "\u00a0FROM t".toList).length = 0 ∧
      q.deleteStatement = .ok ⟨"DELETE FROM \"t\"", []⟩ := by
  constructor
  · have hmade : ((ofBase .sqlite "SELECT b FROM a GROUP BY b UNION SELECT b FROM c").bind fun q =>
        q.deleteStatement.map fun f => (f.sql, f.params.length)) = .ok ("DELETE FROM \"a\"", 0) :=
      Except.eq_ok_of_toOption (by decide +kernel)
    obtain ⟨q, hq, hdelete⟩ := exists_deleteStatement hmade
    exact ⟨q, hq, by decide +kernel, hdelete⟩
  · have hmade : ((ofBase .sqlite "\u00a0FROM t").bind fun q =>
        q.deleteStatement.map fun f => (f.sql, f.params.length)) = .ok ("DELETE FROM \"t\"", 0) :=
      Except.eq_ok_of_toOption (by decide +kernel)
    obtain ⟨q, hq, hdelete⟩ := exists_deleteStatement hmade
    exact ⟨q, hq, by decide +kernel, hdelete⟩

end Query

end QueryChain
