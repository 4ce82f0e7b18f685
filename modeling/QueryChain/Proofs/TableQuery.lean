import QueryChain.Proofs.Chain
import QueryChain.Proofs.Levels
import QueryChain.Proofs.Trimming

/-!
The query of a table. Its base statement has one keyword, FROM, and a quoted name behind it, so the
whole of it is the head and there is no cut.
-/

namespace QueryChain

open Fragment (Worded ofText)
open Text

theorem Identifier.quiet_sql (i : Identifier) {n : Nat} {x : Context} (hx : x.AtLevel n) :
    x.Quiet i.sql.toList := by
  have hquoted : (x.next '"').quote = some '"' := by
    simp [Context.next, hx.quote, hx.comment]
  have hnot : '"' ∉ i.chars := fun h => ne_quote_of_isNameChar (i.safe _ h) rfl
  rw [i.toList_sql]
  refine ⟨.inr (by decide), ?_⟩
  rw [Context.quiet_append]
  exact ⟨Context.quiet_of_quote hquoted hnot, .inr (by decide), trivial⟩

theorem QualifiedName.quiet_sql (name : QualifiedName) {n : Nat} {x : Context} (hx : x.AtLevel n) :
    x.Quiet name.sql.toList := by
  rw [sql]
  generalize name.parts = is
  induction is generalizing x with
  | nil => trivial
  | cons i rest ih =>
    cases rest with
    | nil =>
      rw [List.map_singleton, String.intercalate_singleton]
      exact i.quiet_sql hx
    | cons j rest =>
      have hname := neutral_name i n x hx
      have hpoint : Neutral ".".toList := neutral_of_mem_statementWords (by decide)
      rw [List.map_cons, List.map_cons, String.intercalate_cons_cons, String.toList_append,
        String.toList_append, Context.quiet_append, Context.quiet_append, ← List.map_cons]
      refine ⟨⟨i.quiet_sql hx, .inr (by decide), trivial⟩, ih ?_⟩
      rw [Context.after_append]
      exact hpoint n _ hname

theorem Identifier.firm_sql (i : Identifier) : Firm i.sql :=
  Firm.around (a := "\"") (by decide) i.name (b := "\"") (by decide)

/-- A quoted name begins and ends with a quote. -/
theorem QualifiedName.firm_sql (name : QualifiedName) : Firm name.sql := by
  refine .intercalate "." (by simpa using name.nonempty) ?_
  intro text htext
  obtain ⟨i, -, rfl⟩ := List.mem_map.mp htext
  exact i.firm_sql

def tableBase (name : QualifiedName) : String :=
  "SELECT * FROM " ++ name.sql

theorem toList_tableBase (name : QualifiedName) :
    (tableBase name).toList =
      "SELECT * ".toList ++ (Keyword.source.text ++ ' ' :: name.sql.toList) := by
  rw [tableBase, String.toList_append]
  rfl

/-- FROM is the only keyword of the base statement, whatever follows. -/
theorem scan_tableBase_append (name : QualifiedName) (rest : List Char) :
    Mark.scan ((tableBase name).toList ++ rest) =
      ⟨.source, 9, 13⟩ :: Mark.scanFrom (({} : Context).after (tableBase name).toList)
        (tableBase name).toList.length rest := by
  -- No keyword begins before FROM, and none behind it.
  have hquiet : ({} : Context).Quiet "SELECT * ".toList := by decide
  have htop : (({} : Context).after "SELECT * ".toList).isTop = true := by decide
  have hlevel : ((({} : Context).after "SELECT * ".toList).after Keyword.source.text
      |>.next ' ').AtLevel 0 := by
    constructor <;> decide
  have hrest : ((({} : Context).after "SELECT * ".toList).after Keyword.source.text).Quiet
      (' ' :: name.sql.toList) :=
    ⟨.inr (by decide), name.quiet_sql hlevel⟩
  have hlength : 9 + Keyword.source.text.length = 13 := by decide
  have hfirst : "SELECT * ".toList.length = 9 := by decide
  rw [Mark.scan, toList_tableBase, List.append_assoc, Mark.scanFrom_append_of_quiet hquiet,
    List.append_assoc,
    Mark.scanFrom_keyword htop (Keyword.atFront?_text _ rfl) (Keyword.text_spelled _),
    Mark.scanFrom_append_of_quiet hrest, Context.after_append, Context.after_append, hfirst,
    Nat.zero_add, hlength, List.length_append, List.length_append, hfirst, ← Nat.add_assoc,
    hlength]

theorem scan_tableBase (name : QualifiedName) :
    Mark.scan (tableBase name).toList = [⟨.source, 9, 13⟩] := by
  have hscan := scan_tableBase_append name []
  rwa [List.append_nil] at hscan

theorem hasBack_tableBase (name : QualifiedName) : hasBack (tableBase name).toList = true := by
  rw [tableBase, String.toList_append]
  exact hasBack_append _ name.firm_sql.back

theorem trimChars_tableBase (name : QualifiedName) (post : List Char)
    (hpost : ∀ c ∈ post, isBlank c = true) :
    trimChars ((tableBase name).toList ++ post) = (tableBase name).toList := by
  have hfront : hasFront (tableBase name).toList = true := by
    rw [tableBase, String.toList_append]
    exact hasFront_append (by decide) _
  exact trimChars_around hfront (hasBack_tableBase name) [] post (by simp) hpost

/-- The query of a table begins with its base statement alone. -/
theorem Query.ofTable_of_parse {d : Dialect} {table : String} {name : QualifiedName}
    (hname : QualifiedName.parse table = .ok name) :
    Query.ofTable d table = .ok ⟨d, ⟨ofText (tableBase name), [], none, [], {}⟩⟩ := by
  have hsplit : splitBase (trimStatement (tableBase name).toList) =
      ((tableBase name).toList, []) := by
    rw [trimStatement_of_hasBack (hasBack_tableBase name), splitBase, scan_tableBase]
    rfl
  have htrim := trimChars_tableBase name [] (by simp)
  rw [List.append_nil] at htrim
  have hparse : Clauses.parse d.placeholder (tableBase name) [] =
      .ok ⟨ofText (tableBase name), [], none, [], {}⟩ := by
    rw [Clauses.parse, hsplit]
    simp only [takeSection, htrim, String.ofList_toList, List.take_nil]
    rfl
  rw [ofTable, hname]
  exact congrArg (Except.map _) hparse

theorem Query.ofTable_ok {d : Dialect} {table : String} {q : Query}
    (h : Query.ofTable d table = .ok q) :
    ∃ name, QualifiedName.parse table = .ok name ∧
      q = ⟨d, ⟨ofText (tableBase name), [], none, [], {}⟩⟩ := by
  cases hname : QualifiedName.parse table with
  | error e =>
    rw [ofTable, hname] at h
    cases h
  | ok name => exact ⟨name, rfl, Except.ok.inj (h.symm.trans (ofTable_of_parse hname))⟩

/-- What holds of all worded text holds of every section of the query of a table. -/
theorem Query.ofTable_everySection {d : Dialect} {table : String} {q : Query}
    (h : Query.ofTable d table = .ok q) {P : Fragment → Prop}
    (hP : ∀ f, Worded d.placeholder f → P f) : q.dialect = d ∧ q.clauses.EverySection P d := by
  obtain ⟨name, -, rfl⟩ := ofTable_ok h
  refine ⟨rfl, hP _ ?_, by simp, by simp, by simp⟩
  exact .append (.word (by decide)) (.qualifiedName (by decide) (by decide) name)

theorem Query.ofTable_chain {d : Dialect} {table : String} {q q' : Query} {ops : List Operation}
    (hq : Query.ofTable d table = .ok q) (h : q.chain ops = .ok q') {P : Fragment → Prop}
    (hP : ∀ f, Worded d.placeholder f → P f) : q'.dialect = d ∧ q'.clauses.EverySection P d := by
  obtain ⟨hdialect, hsections⟩ := ofTable_everySection hq hP
  subst hdialect
  exact ⟨chain_dialect h, hsections.chain hP h⟩

end QueryChain
