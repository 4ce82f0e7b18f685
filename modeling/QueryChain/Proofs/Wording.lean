import QueryChain.Proofs.Outcome
import QueryChain.Query.Basic
import QueryChain.Table

/-!
The grammar of the text that is written around the values and the base statement of a query: fixed
words, quoted names, placeholders, and parentheses around such text. Conditions that are built from
lookups, sort terms, groups, bounds and insertions all belong to it, so a lexical fact about them
is one induction over this grammar.
-/

namespace QueryChain

/-- The fixed words of the sections that chained calls add to a statement. No clause keyword is
among them. -/
def sectionWords : List String :=
  ["", " ", ", ", "1 = 0", " IS NULL", " IS NOT NULL", "=", ">", ">=", "<", "<=", " IN ", " LIKE ",
    " ILIKE ", " ESCAPE '\\'", "UPPER", " LIKE UPPER", "NOT ", " AND ", "ASC", "DESC",
    "SELECT NULL"]

/-- The fixed words of assembled statements, without the parentheses between them. Each of them
closes the quotes that it opens. -/
def statementWords : List String :=
  ["", " ", ".", ", ", "1 = 0", " IS NULL", " IS NOT NULL", "=", ">", ">=", "<", "<=", " IN ",
    " LIKE ", " ILIKE ", " ESCAPE '\\'", "UPPER", " LIKE UPPER", "NOT ", "ASC", "DESC",
    " LIMIT ", " LIMIT -1 OFFSET ", " OFFSET ", " OFFSET 0 ROWS", " ROWS", " FETCH NEXT ",
    " ROWS ONLY", "SELECT NULL", " WHERE ", " AND ", " GROUP BY ", " ORDER BY ", "SELECT * FROM ",
    "SELECT COUNT", "*", " AS query_count FROM ", " AS t", "DELETE FROM ", "UPDATE ", " SET ",
    " = ", "INSERT INTO ", " VALUES "]

theorem mem_statementWords_of_section {s : String} (h : s ∈ sectionWords) : s ∈ statementWords := by
  have hall : ∀ s ∈ sectionWords, s ∈ statementWords := by decide
  exact hall s h

attribute [ext] Fragment

theorem ne_quote_of_isNameChar {c : Char} (h : isNameChar c = true) : c ≠ '"' := by
  rintro rfl
  cases h

theorem Identifier.toList_sql (i : Identifier) : i.sql.toList = '"' :: (i.chars ++ ['"']) := by
  simp [sql, name]

theorem Identifier.check_ok {ε : Type} {empty : ε} {bad : Char → ε} {cs : List Char}
    {i : Identifier} (h : check empty bad cs = .ok i) : i.chars = cs := by
  rw [check] at h
  split at h
  · cases h
  · split at h
    · cases h
    · obtain rfl := Except.ok.inj h
      rfl

theorem Identifier.name_of_ofField {s : String} {i : Identifier} (h : ofField s = .ok i) :
    i.name = s := by
  rw [name, check_ok (Except.mapError_ok h), String.ofList_toList]

namespace Fragment

/-- Text made of the given words, quoted names, placeholders with their values, and parentheses
around such text. -/
inductive WordedIn (words : List String) (p : Placeholder) : Fragment → Prop
  | word {s : String} : s ∈ words → WordedIn words p (.ofText s)
  | name (i : Identifier) : WordedIn words p (.ofText i.sql)
  | bind (v : Value) : WordedIn words p (p.bind v)
  | enclosed {f : Fragment} :
      WordedIn words p f → WordedIn words p (.ofText "(" ++ f ++ .ofText ")")
  | append {f g : Fragment} : WordedIn words p f → WordedIn words p g → WordedIn words p (f ++ g)

abbrev Worded (p : Placeholder) : Fragment → Prop :=
  WordedIn statementWords p

@[simp] theorem sql_ofText (s : String) : (ofText s).sql = s := rfl

@[simp] theorem params_ofText (s : String) : (ofText s).params = [] := rfl

theorem ofText_append (a b : String) : ofText (a ++ b) = ofText a ++ ofText b := rfl

/-- A series with a separator in front is a lead, the first fragment and the series of the rest. -/
theorem series_cons_cons (lead sep : String) (f g : Fragment) (rest : List Fragment) :
    series lead sep (f :: g :: rest) = ofText lead ++ f ++ series sep sep (g :: rest) := rfl

theorem sql_series_cons (lead sep : String) (f : Fragment) (rest : List Fragment) :
    (series lead sep (f :: rest)).sql = lead ++ sep.intercalate ((f :: rest).map Fragment.sql) := by
  induction rest generalizing lead f with
  | nil =>
    rw [List.map_singleton, String.intercalate_singleton]
    exact String.append_empty
  | cons g rest ih =>
    rw [series_cons_cons, sql_append, ih, List.map_cons, List.map_cons, List.map_cons,
      String.intercalate_cons_cons]
    simp only [sql_append, sql_ofText, String.append_assoc]

theorem params_series (lead sep : String) (fs : List Fragment) :
    (series lead sep fs).params = fs.flatMap Fragment.params := by
  cases fs with
  | nil => rfl
  | cons f rest =>
    induction rest generalizing lead f with
    | nil => simp [series, empty]
    | cons g rest ih =>
      rw [series_cons_cons, params_append, ih, params_append, params_ofText, List.nil_append,
        ← List.flatMap_cons]

theorem sql_series_empty (sep : String) (fs : List Fragment) :
    (series "" sep fs).sql = sep.intercalate (fs.map Fragment.sql) := by
  cases fs with
  | nil => rfl
  | cons f rest => rw [sql_series_cons, String.empty_append]

namespace WordedIn

variable {words : List String} {p : Placeholder}

theorem congr {f g : Fragment} (h : WordedIn words p f) (hsql : f.sql = g.sql)
    (hparams : f.params = g.params) : WordedIn words p g := by
  obtain rfl := Fragment.ext hsql hparams
  exact h

theorem mono {words' : List String} (hwords : ∀ s ∈ words, s ∈ words') {f : Fragment}
    (h : WordedIn words p f) : WordedIn words' p f := by
  induction h with
  | word hs => exact .word (hwords _ hs)
  | name i => exact .name i
  | bind v => exact .bind v
  | enclosed _ ih => exact .enclosed ih
  | append _ _ ihf ihg => exact .append ihf ihg

theorem series (hempty : "" ∈ words) {lead sep : String} (hlead : lead ∈ words)
    (hsep : sep ∈ words) {fs : List Fragment} (hfs : ∀ f ∈ fs, WordedIn words p f) :
    WordedIn words p (.series lead sep fs) := by
  cases fs with
  | nil => exact .word hempty
  | cons f rest =>
    have hrest : ∀ gs : List Fragment, (∀ g ∈ gs, WordedIn words p g) →
        WordedIn words p (gs.foldr (fun g acc => ofText sep ++ g ++ acc) empty) := by
      intro gs hgs
      induction gs with
      | nil => exact .word hempty
      | cons g gs ih =>
        have hg : WordedIn words p (ofText sep ++ g) := .append (.word hsep) (hgs g (by simp))
        exact hg.append (ih fun x hx => hgs x (by simp [hx]))
    have hf : WordedIn words p (ofText lead ++ f) := .append (.word hlead) (hfs f (by simp))
    exact hf.append (hrest rest fun g hg => hfs g (by simp [hg]))

theorem intercalate (hempty : "" ∈ words) {sep : String} (hsep : sep ∈ words)
    {texts : List String} (h : ∀ s ∈ texts, WordedIn words p (.ofText s)) :
    WordedIn words p (.ofText (sep.intercalate texts)) := by
  induction texts with
  | nil =>
    rw [String.intercalate_nil]
    exact .word hempty
  | cons s rest ih =>
    cases rest with
    | nil =>
      rw [String.intercalate_singleton]
      exact h s (by simp)
    | cons t rest =>
      rw [String.intercalate_cons_cons, ofText_append, ofText_append]
      have hs : WordedIn words p (ofText s ++ ofText sep) := .append (h s (by simp)) (.word hsep)
      exact hs.append (ih fun x hx => h x (List.mem_cons_of_mem _ hx))

theorem names (hempty : "" ∈ words) (is : List Identifier) {sep : String} (hsep : sep ∈ words) :
    WordedIn words p (.ofText (sep.intercalate (is.map Identifier.sql))) := by
  apply intercalate hempty hsep
  intro s hs
  obtain ⟨i, -, rfl⟩ := List.mem_map.mp hs
  exact .name i

theorem bindAll (hempty : "" ∈ words) (hsep : ", " ∈ words) (vs : List Value) :
    WordedIn words p (p.bindAll vs) := by
  apply series hempty hempty hsep
  intro f hf
  obtain ⟨v, -, rfl⟩ := List.mem_map.mp hf
  exact .bind v

theorem qualifiedName (hempty : "" ∈ words) (hpoint : "." ∈ words) (n : QualifiedName) :
    WordedIn words p (.ofText n.sql) :=
  names hempty n.parts hpoint

end WordedIn

end Fragment

open Fragment (Worded WordedIn ofText)

/-! ### Bounds -/

namespace Dialect

theorem bound?_worded (d : Dialect) {keyword : String} (h : keyword ∈ statementWords)
    (n : Option Int64) : Worded d.placeholder (d.bound? keyword n) := by
  cases n with
  | none => exact .word (by decide)
  | some n => exact .append (.word h) (.bind _)

theorem bounds_worded (d : Dialect) (b : Bounds) (ordered : Bool) :
    Worded d.placeholder (d.bounds b ordered) := by
  obtain ⟨limit, offset⟩ := b
  cases d with
  | tsql =>
    by_cases hb : Bounds.isUnbounded ⟨limit, offset⟩ = true
    · simp only [bounds, hb, if_true]
      exact .word (by decide)
    · simp only [bounds, hb, Bool.false_eq_true, if_false]
      refine .append (.append ?_ ?_) ?_
      · cases ordered with
        | true => exact .word (by decide)
        | false =>
          have hnull : Worded Dialect.tsql.placeholder
              (ofText " ORDER BY " ++ (ofText "(" ++ ofText "SELECT NULL" ++ ofText ")")) :=
            .append (.word (by decide)) (.enclosed (.word (by decide)))
          exact hnull.congr (by decide) rfl
      · cases offset with
        | none => exact .word (by decide)
        | some n => exact .append (.append (.word (by decide)) (.bind _)) (.word (by decide))
      · cases limit with
        | none => exact .word (by decide)
        | some n => exact .append (.append (.word (by decide)) (.bind _)) (.word (by decide))
  | postgres => exact .append (bound?_worded _ (by decide) _) (bound?_worded _ (by decide) _)
  | sqlite =>
    cases limit with
    | none =>
      cases offset with
      | none => exact .append (bound?_worded _ (by decide) _) (bound?_worded _ (by decide) _)
      | some n => exact .append (.word (by decide)) (.bind _)
    | some m => exact .append (bound?_worded _ (by decide) _) (bound?_worded _ (by decide) _)

end Dialect

def Fragment.StartsIn (p : Char → Bool) (f : Fragment) : Prop :=
  ∀ c ∈ f.sql.toList.head?, p c = true

namespace Fragment.StartsIn

variable {p : Char → Bool}

theorem empty : Fragment.empty.StartsIn p := by
  intro c hc
  cases hc

theorem append {f g : Fragment} (hf : f.StartsIn p) (hg : g.StartsIn p) : (f ++ g).StartsIn p := by
  intro c hc
  rw [sql_append, String.toList_append, List.head?_append] at hc
  cases hhead : f.sql.toList.head? with
  | none =>
    rw [hhead] at hc
    exact hg c hc
  | some e =>
    rw [hhead] at hc
    exact hf c (hhead ▸ hc)

/-- What begins with a character of the class does so whatever follows. -/
theorem lead {s : String} (hs : s.toList.head?.any p = true) (f : Fragment) :
    (ofText s ++ f).StartsIn p := by
  intro e he
  rw [sql_append, sql_ofText, String.toList_append, List.head?_append] at he
  cases hhead : s.toList.head? with
  | none => simp [hhead] at hs
  | some c =>
    rw [hhead] at hs he
    obtain rfl := Option.some.inj he
    exact hs

theorem bound? (d : Dialect) {keyword : String} (hkeyword : keyword.toList.head?.any p = true)
    (n : Option Int64) : (d.bound? keyword n).StartsIn p := by
  cases n with
  | none => exact .empty
  | some n => exact .lead hkeyword _

/-- All bounds are led in by a space. -/
theorem bounds (hp : p ' ' = true) (d : Dialect) (b : Bounds) (ordered : Bool) :
    (d.bounds b ordered).StartsIn p := by
  have hspace {s : String} (hs : s.toList.head? = some ' ') : s.toList.head?.any p = true := by
    rw [hs]
    exact hp
  have hwords (s : String) (hs : s.toList.head? = some ' ') : (ofText s).StartsIn p := by
    intro c hc
    rw [sql_ofText, hs] at hc
    exact Option.some.inj hc ▸ hp
  obtain ⟨limit, offset⟩ := b
  cases d with
  | tsql =>
    by_cases hb : Bounds.isUnbounded ⟨limit, offset⟩ = true
    · simp only [Dialect.bounds, hb, if_true]
      exact .empty
    · simp only [Dialect.bounds, hb, Bool.false_eq_true, if_false]
      refine .append (.append ?_ ?_) ?_
      · cases ordered with
        | true => exact .empty
        | false => exact hwords _ (by decide)
      · cases offset with
        | none => exact hwords _ (by decide)
        | some n => exact .append (.lead (hspace (by decide)) _) (hwords _ (by decide))
      · cases limit with
        | none => exact .empty
        | some n => exact .append (.lead (hspace (by decide)) _) (hwords _ (by decide))
  | postgres =>
    exact .append (bound? _ (hspace (by decide)) _) (bound? _ (hspace (by decide)) _)
  | sqlite =>
    cases limit with
    | none =>
      cases offset with
      | none => exact .append (bound? _ (hspace (by decide)) _) (bound? _ (hspace (by decide)) _)
      | some n => exact .lead (hspace (by decide)) _
    | some m => exact .append (bound? _ (hspace (by decide)) _) (bound? _ (hspace (by decide)) _)

end Fragment.StartsIn

/-! ### Conditions -/

namespace Condition

/-- Whether a condition comes from lookups alone, with no text of a base statement in it. -/
def IsDerived : Condition → Prop
  | .given _ => False
  | .not c => c.IsDerived
  | _ => True

theorem exact_ok {field : Identifier} {v : Value} {c : Condition}
    (h : ofOperand field .exact v = .ok c) :
    v.isNull = true ∧ c = .isNull field ∨ v.isNull = false ∧ c = .compare field .eq v := by
  simp only [ofOperand] at h
  split at h
  · obtain rfl := Except.ok.inj h
    exact .inl ⟨‹_›, rfl⟩
  · split at h
    · cases h
    · obtain rfl := Except.ok.inj h
      exact .inr ⟨eq_false_of_ne_true ‹_›, rfl⟩

theorem oneOf_ok {field : Identifier} {v : Value} {c : Condition}
    (h : ofOperand field .oneOf v = .ok c) :
    ∃ vs, v.asList? = some vs ∧ c = if vs.isEmpty then .never else .oneOf field vs := by
  simp only [ofOperand] at h
  cases hvs : v.asList? with
  | none =>
    rw [hvs] at h
    cases h
  | some vs =>
    rw [hvs] at h
    refine ⟨vs, rfl, ?_⟩
    cases vs <;> exact (Except.ok.inj h).symm

theorem ofOperand_isDerived {field : Identifier} {lookup : Lookup} {operand : Value}
    {c : Condition} (h : ofOperand field lookup operand = .ok c) : c.IsDerived := by
  cases lookup with
  | exact => obtain ⟨-, rfl⟩ | ⟨-, rfl⟩ := exact_ok h <;> trivial
  | oneOf =>
    obtain ⟨vs, -, rfl⟩ := oneOf_ok h
    split <;> trivial
  | isNull =>
    obtain rfl := Except.ok.inj h
    split <;> trivial
  | gt | gte | lt | lte =>
    obtain rfl := Except.ok.inj h
    trivial
  | startsWith | endsWith | contains | iContains | iStartsWith | iEndsWith =>
    obtain rfl := Except.ok.inj h
    split <;> trivial

theorem ofLookup_ok {field : String} {lookup : Lookup} {operand : Value} {c : Condition}
    (h : ofLookup field lookup operand = .ok c) :
    ∃ i, Identifier.ofField field = .ok i ∧ ofOperand i lookup operand = .ok c := by
  rw [ofLookup] at h
  split at h
  · cases h
  · exact ⟨_, ‹_›, Except.mapError_ok h⟩

theorem ofLookup_isDerived {field : String} {lookup : Lookup} {operand : Value} {c : Condition}
    (h : ofLookup field lookup operand = .ok c) : c.IsDerived := by
  obtain ⟨i, -, hc⟩ := ofLookup_ok h
  exact ofOperand_isDerived hc

theorem write_like (d : Dialect) (field : Identifier) (ignoreCase : Bool) (pattern : String) :
    WordedIn sectionWords d.placeholder ((Condition.like field ignoreCase pattern).write d) := by
  have hescape : d.likeEscape ∈ sectionWords := by cases d <;> decide
  have hplain (word : String) (hword : word ∈ sectionWords) (tail : String)
      (htail : tail ∈ sectionWords) : WordedIn sectionWords d.placeholder
        ⟨field.sql ++ word ++ d.placeholder.token ++ tail, [.text pattern]⟩ :=
    .append (.append (.append (.name field) (.word hword)) (.bind (.text pattern))) (.word htail)
  cases ignoreCase with
  | false => exact hplain " LIKE " (by decide) _ hescape
  | true =>
    have hupper : WordedIn sectionWords d.placeholder
        (ofText "UPPER" ++ (ofText "(" ++ ofText field.sql ++ ofText ")") ++
          ofText " LIKE UPPER" ++
          (ofText "(" ++ d.placeholder.bind (.text pattern) ++ ofText ")") ++
          ofText d.likeEscape) :=
      .append (.append (.append (.append (.word (by decide)) (.enclosed (.name field)))
        (.word (by decide))) (.enclosed (.bind _))) (.word hescape)
    cases d with
    | postgres =>
      have h := hplain " ILIKE " (by decide) "" (by decide)
      rw [String.append_empty] at h
      exact h
    | tsql | sqlite =>
      refine hupper.congr ?_ rfl
      have hopen : "UPPER(" = "UPPER" ++ "(" := by decide
      have hbetween : ") LIKE UPPER(" = ")" ++ " LIKE UPPER" ++ "(" := by decide
      simp only [write, Dialect.ilike, Placeholder.bind, hopen, hbetween, Fragment.sql_append,
        Fragment.sql_ofText, String.append_assoc, if_true]

/-- A condition that comes from lookups is written in the words of the grammar. -/
theorem write_wordedIn (d : Dialect) {c : Condition} (h : c.IsDerived) :
    WordedIn sectionWords d.placeholder (c.write d) := by
  induction c with
  | never => exact .word (by decide)
  | isNull field | isNotNull field => exact .append (.name field) (.word (by decide))
  | compare field comparison operand =>
    have hop : comparison.operator ∈ sectionWords := by cases comparison <;> decide
    exact .append (.append (.append (.append (.name field) (.word (by decide))) (.word hop))
      (.word (by decide))) (.bind operand)
  | oneOf field operands =>
    have hin : WordedIn sectionWords d.placeholder (ofText field.sql ++ ofText " IN " ++
        (ofText "(" ++ d.placeholder.bindAll operands ++ ofText ")")) :=
      .append (.append (.name field) (.word (by decide)))
        (.enclosed (.bindAll (by decide) (by decide) operands))
    refine hin.congr ?_ ?_
    · have hopen : " IN (" = " IN " ++ "(" := by decide
      simp only [write, hopen, Fragment.sql_append, Fragment.sql_ofText, String.append_assoc]
    · simp [write]
  | like field ignoreCase pattern => exact write_like d field ignoreCase pattern
  | not c ih =>
    have hnot : WordedIn sectionWords d.placeholder
        (ofText "NOT " ++ (ofText "(" ++ c.write d ++ ofText ")")) :=
      .append (.word (by decide)) (.enclosed (ih h))
    refine hnot.congr ?_ ?_
    · have hopen : "NOT (" = "NOT " ++ "(" := by decide
      simp only [write, hopen, Fragment.sql_append, Fragment.sql_ofText, String.append_assoc]
    · simp [write]
  | given fragment => exact h.elim

end Condition

/-! ### Order, assignments and insertions -/

theorem SortKey.term_wordedIn {p : Placeholder} {k : SortKey} {s : String} (h : k.term = .ok s) :
    WordedIn sectionWords p (.ofText s) := by
  simp only [SortKey.term] at h
  split at h
  · cases h
  · obtain rfl := Except.ok.inj h
    have hdirection : k.direction.sql ∈ sectionWords := by cases k.direction <;> decide
    exact .append (.append (.name _) (.word (by decide))) (.word hdirection)

theorem Clauses.writeAssignment_worded (d : Dialect) (column : Identifier) (v : Value) :
    Worded d.placeholder (writeAssignment d column v) :=
  .append (.append (.name column) (.word (by decide))) (.bind v.toStorage)

/-- A placeholder for each value and a comma between them. -/
theorem Placeholder.sql_bindAll (p : Placeholder) (vs : List Value) :
    (p.bindAll vs).sql = ", ".intercalate (vs.map fun _ => p.token) := by
  rw [bindAll, Fragment.sql_series_empty, List.map_map]
  rfl

theorem Placeholder.params_bindAll (p : Placeholder) (vs : List Value) :
    (p.bindAll vs).params = vs := by
  rw [bindAll, Fragment.params_series, List.flatMap_map]
  exact List.flatMap_singleton' vs

theorem Table.insertSql_eq (d : Dialect) (table : QualifiedName) (columns : List QualifiedName) :
    insertSql d table columns =
      "INSERT INTO " ++ table.sql ++ " (" ++ ", ".intercalate (columns.map QualifiedName.sql) ++
        ") VALUES (" ++ ", ".intercalate (columns.map fun _ => d.placeholder.token) ++ ")" := rfl

/-- The text of an insertion with a value for each column is a worded one. -/
theorem Table.insertSql_worded (d : Dialect) (table : QualifiedName)
    (columns : List QualifiedName) (values : List Value) (h : columns.length = values.length) :
    Worded d.placeholder ⟨insertSql d table columns, values⟩ := by
  have hcolumns : Worded d.placeholder
      (ofText (", ".intercalate (columns.map QualifiedName.sql))) := by
    apply WordedIn.intercalate (by decide) (by decide)
    intro s hs
    obtain ⟨n, -, rfl⟩ := List.mem_map.mp hs
    exact .qualifiedName (by decide) (by decide) n
  have hmarks : columns.map (fun _ => d.placeholder.token) =
      values.map fun _ => d.placeholder.token := by
    rw [List.map_const', List.map_const', h]
  have hinsert : Worded d.placeholder (ofText "INSERT INTO " ++ ofText table.sql ++ ofText " " ++
      (ofText "(" ++ ofText (", ".intercalate (columns.map QualifiedName.sql)) ++ ofText ")") ++
      ofText " VALUES " ++ (ofText "(" ++ d.placeholder.bindAll values ++ ofText ")")) :=
    .append (.append (.append (.append (.append (.word (by decide))
      (.qualifiedName (by decide) (by decide) table)) (.word (by decide))) (.enclosed hcolumns))
      (.word (by decide))) (.enclosed (.bindAll (by decide) (by decide) values))
  refine hinsert.congr ?_ ?_
  · have hopen : " (" = " " ++ "(" := by decide
    have hbetween : ") VALUES (" = ")" ++ " VALUES " ++ "(" := by decide
    rw [insertSql_eq, hmarks, hopen, hbetween]
    simp only [Fragment.sql_append, Fragment.sql_ofText, Placeholder.sql_bindAll,
      String.append_assoc]
  · simp [Placeholder.params_bindAll]

end QueryChain
