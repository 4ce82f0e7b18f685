import QueryChain.Proofs.DefinitionTokens
import QueryChain.Proofs.Outcome
import QueryChain.Proofs.Quotation
import QueryChain.Proofs.Transcript
import QueryChain.Proofs.Trimming
import QueryChain.Proofs.Wording
import QueryChain.Table

/-!
The text of CREATE TABLE. Outside literals and quoted names it holds nothing but the characters of
words, parentheses, commas and blanks, whatever the definitions of the columns are.
-/

namespace QueryChain

open Text

/-! ### Vetted text -/

def isDefinitionChar (c : Char) : Bool :=
  isBlank c || isNameChar c || c ∈ ['(', ')', ',']

/-- Text of definition characters and closed literals, and of quoted names where there may be any. A
point stands between the parts of a name only. -/
inductive Vetted (named : Prop) : List Char → Prop
  | nil : Vetted named []
  | plain {c : Char} {rest : List Char} (h : isDefinitionChar c = true) (tail : Vetted named rest) :
    Vetted named (c :: rest)
  | literal {inner rest : List Char} (h : '\'' ∉ inner) (tail : Vetted named rest) :
    Vetted named ('\'' :: (inner ++ '\'' :: rest))
  | name (h : named) (n : QualifiedName) {rest : List Char} (tail : Vetted named rest) :
    Vetted named (n.sql.toList ++ rest)

namespace Vetted

variable {named : Prop}

theorem append {a b : List Char} (ha : Vetted named a) (hb : Vetted named b) :
    Vetted named (a ++ b) := by
  induction ha with
  | nil => exact hb
  | plain h _ ih => exact .plain h ih
  | literal h _ ih =>
    rw [List.cons_append, List.append_assoc, List.cons_append]
    exact .literal h ih
  | name h n _ ih =>
    rw [List.append_assoc]
    exact .name h n ih

theorem of_plain {cs : List Char} (h : ∀ c ∈ cs, isDefinitionChar c = true) : Vetted named cs := by
  induction cs with
  | nil => exact .nil
  | cons c cs ih =>
    obtain ⟨hc, hcs⟩ := List.forall_mem_cons.mp h
    exact .plain hc (ih hcs)

/-- A run of name characters before vetted text. -/
theorem run {c : Char} {chars rest : List Char} (hc : isNameChar c = true)
    (hchars : ∀ d ∈ chars, isNameChar d = true) (tail : Vetted named rest) :
    Vetted named (c :: (chars ++ rest)) := by
  have hplain : ∀ d ∈ c :: chars, isDefinitionChar d = true := by
    intro d hd
    have hname : isNameChar d = true := by
      obtain rfl | hd := List.mem_cons.mp hd
      · exact hc
      · exact hchars d hd
    rw [isDefinitionChar, hname, Bool.or_true, Bool.true_or]
  exact (of_plain hplain).append tail

theorem of_name (h : named) (n : QualifiedName) : Vetted named n.sql.toList := by
  have hname : Vetted named (n.sql.toList ++ []) := .name h n .nil
  rwa [List.append_nil] at hname

/-- Where there are no names there may be some. -/
theorem unnamed {cs : List Char} (h : Vetted False cs) : Vetted named cs := by
  induction h with
  | nil => exact .nil
  | plain h _ ih => exact .plain h ih
  | literal h _ ih => exact .literal h ih
  | name h => exact h.elim

theorem intercalate {sep : String} (hsep : Vetted named sep.toList) {texts : List String}
    (h : ∀ s ∈ texts, Vetted named s.toList) : Vetted named (sep.intercalate texts).toList := by
  induction texts with
  | nil => exact .nil
  | cons s rest ih =>
    obtain ⟨hs, hrest⟩ := List.forall_mem_cons.mp h
    cases rest with
    | nil =>
      rw [String.intercalate_singleton]
      exact hs
    | cons t rest =>
      rw [String.intercalate_cons_cons, String.toList_append, String.toList_append]
      exact (hs.append hsep).append (ih hrest)

/-! ### Blanks around vetted text -/

theorem of_blanks_front {blanks cs : List Char} (hblanks : ∀ c ∈ blanks, isBlank c = true)
    (h : Vetted False (blanks ++ cs)) : Vetted False cs := by
  induction blanks with
  | nil => exact h
  | cons c blanks ih =>
    obtain ⟨hc, hblanks⟩ := List.forall_mem_cons.mp hblanks
    generalize htext : c :: blanks ++ cs = text at h
    cases h with
    | nil => cases htext
    | plain _ tail =>
      obtain ⟨rfl, rfl⟩ := List.cons.inj htext
      exact ih hblanks tail
    | literal =>
      obtain ⟨rfl, -⟩ := List.cons.inj htext
      cases hc
    | name h => exact h.elim

/-- No blank at the end of a text closes a literal of it. -/
theorem of_blanks_back {blanks cs : List Char} (hblanks : ∀ c ∈ blanks, isBlank c = true)
    (h : Vetted False (cs ++ blanks)) : Vetted False cs := by
  have hquote : '\'' ∉ blanks := fun hmem => by
    have hblank := hblanks _ hmem
    cases hblank
  generalize htext : cs ++ blanks = text at h
  induction h generalizing cs with
  | nil =>
    obtain ⟨rfl, -⟩ := List.append_eq_nil_iff.mp htext
    exact .nil
  | @plain c rest h tail ih =>
    cases cs with
    | nil => exact .nil
    | cons d cs =>
      obtain ⟨rfl, hrest⟩ := List.cons.inj htext
      exact .plain h (ih hrest)
  | @literal inner rest h tail ih =>
    cases cs with
    | nil =>
      rw [List.nil_append] at htext
      exact absurd (htext ▸ List.mem_cons_self) hquote
    | cons d cs =>
      obtain ⟨rfl, hrest⟩ := List.cons.inj htext
      obtain ⟨more, hinner, hmore⟩ | ⟨more, rfl, hmore⟩ := List.append_eq_append_iff.mp hrest
      · exact absurd (hmore ▸ List.mem_append_right more List.mem_cons_self) hquote
      · cases more with
        | nil =>
          rw [List.nil_append] at hmore
          exact absurd (hmore ▸ List.mem_cons_self) hquote
        | cons e more =>
          obtain ⟨rfl, hback⟩ := List.cons.inj hmore
          exact .literal h (ih hback.symm)
  | name h => exact h.elim

theorem trimChars {cs : List Char} (h : Vetted False cs) : Vetted False (trimChars cs) := by
  obtain ⟨pre, post, hcs, hpre, hpost⟩ := exists_trimChars cs
  rw [hcs, List.append_assoc] at h
  exact (h.of_blanks_front hpre).of_blanks_back hpost

end Vetted

/-! ### How vetted text is scanned -/

theorem scan_identifier {marks : List Char} (hmarks : '"' ∈ marks) (i : Identifier)
    (rest : List Char) :
    Quotation.after marks none (i.sql.toList ++ rest) = Quotation.after marks none rest ∧
      Quotation.outside marks none (i.sql.toList ++ rest) = Quotation.outside marks none rest := by
  have hquote : '"' ∉ i.chars := fun hmem => ne_quote_of_isNameChar (i.safe _ hmem) rfl
  rw [i.toList_sql, List.cons_append, List.append_assoc, List.singleton_append]
  exact Quotation.read_quoted hmarks hquote rest

/-- Quoted names are passed over but for the points between their parts. -/
theorem scan_name {marks : List Char} (hmarks : '"' ∈ marks) (hpoint : '.' ∉ marks)
    (n : QualifiedName) (rest : List Char) :
    Quotation.after marks none (n.sql.toList ++ rest) = Quotation.after marks none rest ∧
      ∃ points, (∀ c ∈ points, c = '.') ∧
        Quotation.outside marks none (n.sql.toList ++ rest) =
          points ++ Quotation.outside marks none rest := by
  rw [QualifiedName.sql]
  generalize n.parts = parts
  induction parts with
  | nil => exact ⟨rfl, [], by simp, rfl⟩
  | cons i parts ih =>
    cases parts with
    | nil =>
      obtain ⟨hafter, houtside⟩ := scan_identifier hmarks i rest
      rw [List.map_singleton, String.intercalate_singleton]
      exact ⟨hafter, [], by simp, houtside⟩
    | cons j parts =>
      obtain ⟨hrest, points, hpoints, houtside⟩ := ih
      have htext : (".".intercalate ((i :: j :: parts).map Identifier.sql)).toList ++ rest =
          i.sql.toList ++ (['.'] ++
            ((".".intercalate ((j :: parts).map Identifier.sql)).toList ++ rest)) := by
        rw [List.map_cons, List.map_cons, String.intercalate_cons_cons, String.toList_append,
          String.toList_append, List.append_assoc, List.append_assoc]
        rfl
      obtain ⟨hname, hbehind⟩ := scan_identifier hmarks i
        (['.'] ++ ((".".intercalate ((j :: parts).map Identifier.sql)).toList ++ rest))
      have hfree : ∀ c ∈ ['.'], c ∉ marks := by simpa using hpoint
      obtain ⟨hdot, hdots⟩ := Quotation.read_free hfree
        ((".".intercalate ((j :: parts).map Identifier.sql)).toList ++ rest)
      rw [htext, hname, hdot, hrest, hbehind, hdots, houtside]
      exact ⟨rfl, '.' :: points, by simpa using hpoints, rfl⟩

/-- Vetted text closes its quotes, and outside of them stand definition characters and the points of
names. -/
theorem Vetted.scan {named : Prop} {cs : List Char} (h : Vetted named cs) (marks : List Char)
    (hliteral : '\'' ∈ marks) (hname : named → '"' ∈ marks)
    (hmarks : ∀ m ∈ marks, isDefinitionChar m = false ∧ m ≠ '.') :
    Quotation.after marks none cs = none ∧
      ∀ c ∈ Quotation.outside marks none cs, isDefinitionChar c = true ∨ (named ∧ c = '.') := by
  induction h with
  | nil => exact ⟨rfl, by simp [Quotation.outside]⟩
  | @plain c rest hc _ ih =>
    have hfree : ∀ d ∈ [c], d ∉ marks := by
      rw [List.forall_mem_singleton]
      intro hmem
      rw [(hmarks c hmem).1] at hc
      cases hc
    obtain ⟨hafter, houtside⟩ := Quotation.read_free hfree rest
    rw [List.singleton_append] at hafter houtside
    rw [hafter, houtside, List.singleton_append, List.forall_mem_cons]
    exact ⟨ih.1, .inl hc, ih.2⟩
  | @literal inner rest hinner _ ih =>
    obtain ⟨hafter, houtside⟩ := Quotation.read_quoted hliteral hinner rest
    rwa [hafter, houtside]
  | @name hnamed n rest _ ih =>
    have hpoint : '.' ∉ marks := fun hmem => (hmarks _ hmem).2 rfl
    obtain ⟨hafter, points, hpoints, houtside⟩ := scan_name (hname hnamed) hpoint n rest
    rw [hafter, houtside, List.forall_mem_append]
    exact ⟨ih.1, fun c hc => .inr ⟨hnamed, hpoints c hc⟩, ih.2⟩

/-! ### Accepted definitions -/

namespace ColumnDefinition

def Token.IsSafe : Token → Prop
  | .unclosed _ | .foreign _ => False
  | .opening | .closing | .comma | .number | .literal | .word _ => True

theorem check_eq_ok_iff {s : String} :
    check s = .ok () ↔ checkTokens .outside (lex s) = .ok () := by
  rw [check]
  split <;> simp_all

theorem safe_of_checkTokens {p : Place} {ts : List Token} (h : checkTokens p ts = .ok ()) :
    ∀ t ∈ ts, t.IsSafe := by
  induction ts generalizing p with
  | nil => simp
  | cons t ts ih =>
    rw [checkTokens] at h
    split at h
    · rename_i q hnext
      refine List.forall_mem_cons.mpr ⟨?_, ih h⟩
      cases t with
      | unclosed | foreign => cases hnext
      | _ => trivial
    · cases h

/-- Text of safe tokens is vetted. -/
theorem Reads.vetted {cs : List Char} {ts : List Token} (h : Reads cs ts)
    (hsafe : ∀ t ∈ ts, t.IsSafe) : Vetted False cs := by
  induction h with
  | nil => exact .nil
  | blank h _ ih => exact .plain (by simp [isDefinitionChar, h]) (ih hsafe)
  | opening _ ih | closing _ ih | comma _ ih =>
    exact .plain (by decide) (ih (List.forall_mem_cons.mp hsafe).2)
  | literal h _ ih => exact .literal h (ih (List.forall_mem_cons.mp hsafe).2)
  | unclosed => exact (hsafe _ List.mem_cons_self).elim
  | number first rest _ _ ih =>
    exact .run (isNameChar_of_isDigit first) (fun d hd => isNameChar_of_isDigit (rest d hd))
      (ih (List.forall_mem_cons.mp hsafe).2)
  | word first _ rest _ _ ih => exact .run first rest (ih (List.forall_mem_cons.mp hsafe).2)
  | foreign => exact (hsafe _ List.mem_cons_self).elim

theorem vetted_of_check {s : String} (h : check s = .ok ()) : Vetted False s.toList :=
  (reads_iff.mpr rfl).vetted (safe_of_checkTokens (check_eq_ok_iff.mp h))

end ColumnDefinition

/-! ### Creation of a table -/

def Peer.willing : Peer where
  rows := fun _ _ _ => .ok []
  affected := fun _ _ _ => .ok 0
  settled := fun _ => .ok ()

namespace Table

theorem columnLine_ok {column : String × String} {line : String}
    (h : columnLine column = .ok line) :
    ∃ n, QualifiedName.parse column.1 = .ok n ∧ ColumnDefinition.check column.2 = .ok () ∧
      line = n.sql ++ " " ++ trim column.2 := by
  obtain ⟨n, hn, h⟩ := Except.bind_eq_ok.mp h
  obtain ⟨⟨⟩, hcheck, h⟩ := Except.bind_eq_ok.mp h
  exact ⟨n, hn, hcheck, (Except.ok.inj h).symm⟩

/-- What is sent when a table is created. -/
theorem createSql_ok {table : String} {columns : List (String × String)} {sql : String}
    (h : createSql table columns = .ok sql) :
    ∃ name lines, QualifiedName.parse table = .ok name ∧ columns ≠ [] ∧
      List.Forall₂ (fun column line => columnLine column = .ok line) columns lines ∧
      sql = "CREATE TABLE IF NOT EXISTS " ++ name.sql ++ " (" ++ ", ".intercalate lines ++ ")" := by
  obtain ⟨name, hname, h⟩ := Except.bind_eq_ok.mp h
  split at h
  · cases h
  · rename_i hne
    obtain ⟨lines, hlines, h⟩ := Except.bind_eq_ok.mp h
    obtain rfl := Except.ok.inj h
    exact ⟨name, lines, hname, by simpa using hne, forall₂_of_mapM_ok hlines, rfl⟩

theorem columnLine_vetted {column : String × String} {line : String}
    (h : columnLine column = .ok line) : Vetted True line.toList := by
  obtain ⟨n, -, hcheck, rfl⟩ := columnLine_ok h
  have hname : Vetted True n.sql.toList := .of_name trivial n
  have hgap : Vetted True " ".toList := .of_plain (by decide)
  have hdefinition := (ColumnDefinition.vetted_of_check hcheck).trimChars
  have htrim : (trim column.2).toList = trimChars column.2.toList := String.toList_ofList
  rw [String.toList_append, String.toList_append, htrim]
  exact (hname.append hgap).append hdefinition.unnamed

theorem createSql_vetted {table : String} {columns : List (String × String)} {sql : String}
    (h : createSql table columns = .ok sql) : Vetted True sql.toList := by
  obtain ⟨name, lines, -, -, hlines, rfl⟩ := createSql_ok h
  have hline : ∀ line ∈ lines, Vetted True line.toList := by
    intro line hmem
    obtain ⟨column, -, hcolumn⟩ := exists_of_forall₂ hlines hmem
    exact columnLine_vetted hcolumn
  have hfront : Vetted True "CREATE TABLE IF NOT EXISTS ".toList := .of_plain (by decide)
  have hname : Vetted True name.sql.toList := .of_name trivial name
  have hopening : Vetted True " (".toList := .of_plain (by decide)
  have hbetween : Vetted True ", ".toList := .of_plain (by decide)
  have hclosing : Vetted True ")".toList := .of_plain (by decide)
  simp only [String.toList_append]
  exact (((hfront.append hname).append hopening).append (.intercalate hbetween hline)).append
    hclosing

/-- The exchanges with a peer over which a table is created. -/
def creation (p : Peer) (d : Dialect) (table : String) (columns : List (String × String)) :
    List Exchange :=
  (create p.connection d table columns ⟨[], []⟩).2.state

/-- The creation of a table executes its one statement. -/
theorem createSql_of_mem_creation {p : Peer} {d : Dialect} {table : String}
    {columns : List (String × String)} {sql : String} {params : List Value}
    {answer : Except String Nat}
    (h : .execute sql params answer ∈ creation p d table columns) :
    createSql table columns = .ok sql := by
  rw [creation, create] at h
  cases hsql : createSql table columns with
  | error e =>
    rw [hsql] at h
    cases h
  | ok text =>
    rw [hsql] at h
    let start : Journal (List Exchange) := ⟨[], [.statement "create_table" d.name text]⟩
    have hrun : .execute sql params answer ∈
        ((p.connection.execute text [] >>= fun _ => p.connection.commit) start).2.state := h
    cases hanswer : p.affected [] text [] with
    | error words =>
      have hexecute := p.execute_eq start text [] hanswer
      rw [Session.bind_of_error (congrArg Prod.fst hexecute), hexecute] at hrun
      obtain ⟨rfl, -⟩ := Exchange.execute.inj (List.mem_singleton.mp hrun)
      rfl
    | ok n =>
      have hexecute := p.execute_eq start text [] hanswer
      rw [Session.bind_of_ok (congrArg Prod.fst hexecute), hexecute, Peer.commit_eq] at hrun
      obtain hsent | hsent := List.mem_cons.mp hrun
      · obtain ⟨rfl, -⟩ := Exchange.execute.inj hsent
        rfl
      · cases List.mem_singleton.mp hsent

/-- An accepted definition closes its literals and holds nothing but definition characters outside
them. So no statement that creates a table holds, outside literals and quoted names, a character that
ends a statement, begins a comment or opens a quote. -/
theorem creation_vetted :
    (∀ definition, ColumnDefinition.check definition = .ok () →
      Quotation.after ['\''] none definition.toList = none ∧
        ∀ c ∈ Quotation.outside ['\''] none definition.toList, isDefinitionChar c = true) ∧
    ∀ (p : Peer) (d : Dialect) table columns sql params answer,
      .execute sql params answer ∈ creation p d table columns →
        Vetted True sql.toList ∧ Quotation.after ['\'', '"'] none sql.toList = none ∧
          ∀ c ∈ Quotation.outside ['\'', '"'] none sql.toList,
            (isDefinitionChar c = true ∨ c = '.') ∧ c ∉ [';', '-', '/', '*', '\'', '"'] := by
  refine ⟨?_, ?_⟩
  · intro definition h
    obtain ⟨hafter, houtside⟩ := (ColumnDefinition.vetted_of_check h).scan ['\'']
      (by decide) False.elim (by decide)
    exact ⟨hafter, fun c hc => (houtside c hc).resolve_right And.left⟩
  · intro p d table columns sql params answer h
    have hvetted := createSql_vetted (createSql_of_mem_creation h)
    obtain ⟨hafter, houtside⟩ := hvetted.scan ['\'', '"'] (by decide) (by decide) (by decide)
    refine ⟨hvetted, hafter, fun c hc => ?_⟩
    obtain hplain | ⟨-, rfl⟩ := houtside c hc
    · exact ⟨.inl hplain, not_mem_of_class hplain (by decide)⟩
    · exact ⟨.inr rfl, by decide⟩

/-- A literal may hold what may not stand outside of it. -/
theorem creation_vetted_of_literal :
    ∃ (p : Peer) (sql : String),
      sql = "CREATE TABLE IF NOT EXISTS \"shop\".\"item\" (\"a\" TEXT DEFAULT '\"); --')" ∧
      ColumnDefinition.check " TEXT DEFAULT '\"); --' " = .ok () ∧
      .execute sql [] (.ok 0) ∈
        creation p .sqlite "shop.item" [("a", " TEXT DEFAULT '\"); --' ")] ∧
      Vetted True sql.toList ∧ Quotation.after ['\'', '"'] none sql.toList = none := by
  let sql := "CREATE TABLE IF NOT EXISTS \"shop\".\"item\" (\"a\" TEXT DEFAULT '\"); --')"
  have hsent : .execute sql [] (.ok 0) ∈
      creation .willing .sqlite "shop.item" [("a", " TEXT DEFAULT '\"); --' ")] :=
    List.mem_cons_self
  obtain ⟨hvetted, hafter, -⟩ := creation_vetted.2 _ _ _ _ _ _ _ hsent
  exact ⟨.willing, sql, rfl, rfl, hsent, hvetted, hafter⟩

end Table

end QueryChain
