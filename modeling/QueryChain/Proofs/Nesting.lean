import Mathlib.Data.List.Infix
import QueryChain.Proofs.Vetting

/-!
The parentheses of CREATE TABLE. A definition may hold them in any order, so the list of columns is
closed by the last character of the statement alone exactly if the parentheses of all definitions,
taken together, are balanced.
-/

namespace QueryChain

open Text

/-! ### Parentheses outside quotes -/

def excess (ps : List Char) : Int :=
  (ps.count '(' : Int) - ps.count ')'

def sqlQuotes : List Char := ['\'', '"']

/-- How deep a text leads, its literals and quoted names left out. -/
def nesting (cs : List Char) : Int :=
  excess (Quotation.outside sqlQuotes none cs)

def parentheses (cs : List Char) : List Char :=
  (Quotation.outside sqlQuotes none cs).filter (· ∈ ['(', ')'])

/-- Whether parentheses close what they open and never close below their own level. -/
structure Balanced (ps : List Char) : Prop where
  level : ∀ front, front <+: ps → 0 ≤ excess front
  closed : excess ps = 0

instance (ps : List Char) : Decidable (Balanced ps) :=
  decidable_of_iff ((∀ front ∈ ps.inits, 0 ≤ excess front) ∧ excess ps = 0)
    ⟨fun h => ⟨fun front hfront => h.1 front ((List.mem_inits _ _).mpr hfront), h.2⟩,
      fun h => ⟨fun front hfront => h.level front ((List.mem_inits _ _).mp hfront), h.closed⟩⟩

/-- Whether the parenthesis behind `head` stays open up to the last character of a text, which closes
it. -/
def StaysOpen (head cs : List Char) : Prop :=
  ∃ body, cs = head ++ '(' :: (body ++ [')']) ∧
    (∀ front, front <+: body → 1 ≤ nesting (head ++ '(' :: front)) ∧ nesting cs = 0

theorem excess_append (a b : List Char) : excess (a ++ b) = excess a + excess b := by
  simp only [excess, List.count_append]
  omega

theorem excess_filter (cs : List Char) : excess (cs.filter (· ∈ ['(', ')'])) = excess cs := by
  rw [excess, excess, List.count_filter (by decide), List.count_filter (by decide)]

theorem nesting_eq (cs : List Char) : nesting cs = excess (parentheses cs) :=
  (excess_filter _).symm

theorem Balanced.append {a b : List Char} (ha : Balanced a) (hb : Balanced b) :
    Balanced (a ++ b) := by
  refine ⟨fun front hfront => ?_, ?_⟩
  · obtain hwithin | ⟨inner, rfl⟩ :=
      List.prefix_or_prefix_of_prefix hfront (List.prefix_append a b)
    · exact ha.level front hwithin
    · rw [excess_append, ha.closed, Int.zero_add]
      exact hb.level inner ((List.prefix_append_right_inj a).mp hfront)
  · rw [excess_append, ha.closed, hb.closed, Int.zero_add]

theorem Balanced.flatMap {α : Type} {xs : List α} {f : α → List Char}
    (h : ∀ x ∈ xs, Balanced (f x)) : Balanced (xs.flatMap f) := by
  induction xs with
  | nil =>
    refine ⟨fun front hfront => ?_, rfl⟩
    obtain rfl := List.prefix_nil.mp hfront
    exact Int.le_refl 0
  | cons x xs ih =>
    obtain ⟨hx, hxs⟩ := List.forall_mem_cons.mp h
    exact hx.append (ih hxs)

/-- A text nests like its parentheses. -/
theorem balanced_parentheses_iff (cs : List Char) :
    Balanced (parentheses cs) ↔ (∀ front, front <+: cs → 0 ≤ nesting front) ∧ nesting cs = 0 := by
  refine ⟨fun h => ⟨fun front hfront => ?_, ?_⟩, fun h => ⟨fun ps hps => ?_, ?_⟩⟩
  · obtain ⟨rest, rfl⟩ := hfront
    rw [nesting_eq]
    apply h.level
    rw [parentheses, parentheses, Quotation.outside_append]
    exact (List.prefix_append _ _).filter _
  · rw [nesting_eq]
    exact h.closed
  · obtain ⟨more, hmore⟩ := hps
    obtain ⟨a, b, hab, rfl, -⟩ := List.filter_eq_append_iff.mp hmore.symm
    obtain ⟨front, hfront, rfl⟩ := Quotation.exists_front_of_outside hab
    rw [excess_filter]
    exact h.1 front hfront
  · rw [← nesting_eq]
    exact h.2

/-! ### Parentheses of a statement -/

theorem parentheses_append {a : List Char} (ha : Vetted True a) (b : List Char) :
    parentheses (a ++ b) = parentheses a ++ parentheses b := by
  have hafter : Quotation.after sqlQuotes none a = none :=
    (ha.scan sqlQuotes (by decide) (by decide) (by decide)).1
  rw [parentheses, Quotation.outside_append, hafter, List.filter_append]
  rfl

theorem parentheses_eq_nil {cs : List Char} (h : ∀ c ∈ cs, c ∉ sqlQuotes ∧ c ∉ ['(', ')']) :
    parentheses cs = [] := by
  have hread := (Quotation.read_free (fun c hc => (h c hc).1) []).2
  rw [List.append_nil, Quotation.outside_nil, List.append_nil] at hread
  rw [parentheses, hread, List.filter_eq_nil_iff]
  exact fun c hc => by simpa using (h c hc).2

theorem parentheses_name (n : QualifiedName) : parentheses n.sql.toList = [] := by
  have hmarks : '"' ∈ sqlQuotes := by decide
  obtain ⟨-, points, hpoints, houtside⟩ := scan_name hmarks (by decide) n []
  rw [List.append_nil, Quotation.outside_nil, List.append_nil] at houtside
  rw [parentheses, houtside, List.filter_eq_nil_iff]
  intro c hc
  rw [hpoints c hc]
  decide

/-- Trimming takes no parenthesis away. -/
theorem parentheses_trimChars {cs : List Char} (h : Vetted False cs) :
    parentheses (trimChars cs) = parentheses cs := by
  have hblank {blanks : List Char} (hblanks : ∀ c ∈ blanks, isBlank c = true) :
      Vetted True blanks ∧ parentheses blanks = [] := by
    refine ⟨.of_plain fun c hc => by simp [isDefinitionChar, hblanks c hc], ?_⟩
    exact parentheses_eq_nil fun c hc =>
      ⟨not_mem_of_class (hblanks c hc) (by decide), not_mem_of_class (hblanks c hc) (by decide)⟩
  obtain ⟨pre, post, hcs, hpre, hpost⟩ := exists_trimChars cs
  have hpre := hblank hpre
  conv_rhs => rw [hcs]
  rw [List.append_assoc, parentheses_append hpre.1, parentheses_append h.trimChars.unnamed, hpre.2,
    (hblank hpost).2, List.nil_append, List.append_nil]

theorem parentheses_intercalate {sep : String} (hsep : Vetted True sep.toList)
    (hnone : parentheses sep.toList = []) {texts : List String}
    (h : ∀ s ∈ texts, Vetted True s.toList) :
    parentheses (sep.intercalate texts).toList = texts.flatMap fun s => parentheses s.toList := by
  induction texts with
  | nil => rfl
  | cons s rest ih =>
    obtain ⟨hs, hrest⟩ := List.forall_mem_cons.mp h
    cases rest with
    | nil => rw [String.intercalate_singleton, List.flatMap_singleton]
    | cons t rest =>
      rw [String.intercalate_cons_cons, String.toList_append, String.toList_append,
        parentheses_append (hs.append hsep), parentheses_append hs, hnone, List.append_nil,
        ih hrest]
      rfl

namespace Table

theorem parentheses_columnLine {column : String × String} {line : String}
    (h : columnLine column = .ok line) :
    parentheses line.toList = parentheses column.2.toList := by
  obtain ⟨n, -, hcheck, rfl⟩ := columnLine_ok h
  have hname : Vetted True n.sql.toList := .of_name trivial n
  have hgap : Vetted True " ".toList := .of_plain (by decide)
  have hnone : parentheses " ".toList = [] := rfl
  have htrim : (trim column.2).toList = trimChars column.2.toList := String.toList_ofList
  rw [String.toList_append, String.toList_append, htrim, parentheses_append (hname.append hgap),
    parentheses_append hname, parentheses_name, hnone, List.nil_append, List.nil_append,
    parentheses_trimChars (ColumnDefinition.vetted_of_check hcheck)]

/-- The columns of a table stand in parentheses behind its name. -/
theorem createSql_columns {table : String} {columns : List (String × String)} {sql : String}
    (h : createSql table columns = .ok sql) :
    ∃ head body, sql.toList = head ++ '(' :: (body ++ [')']) ∧ Vetted True head ∧
      parentheses head = [] ∧ Vetted True body ∧
      parentheses body = columns.flatMap fun column => parentheses column.2.toList := by
  obtain ⟨name, lines, -, -, hlines, rfl⟩ := createSql_ok h
  have hwords : Vetted True "CREATE TABLE IF NOT EXISTS ".toList := .of_plain (by decide)
  have hgap : Vetted True " ".toList := .of_plain (by decide)
  have hname : Vetted True name.sql.toList := .of_name trivial name
  have hbetween : Vetted True ", ".toList := .of_plain (by decide)
  have hline : ∀ line ∈ lines, Vetted True line.toList := by
    intro line hmem
    obtain ⟨column, -, hcolumn⟩ := exists_of_forall₂ hlines hmem
    exact columnLine_vetted hcolumn
  have hsame : (lines.map fun s => parentheses s.toList) =
      columns.map fun column => parentheses column.2.toList := by
    rw [← List.forall₂_eq_eq_eq, List.forall₂_map_left_iff, List.forall₂_map_right_iff]
    exact hlines.flip.imp fun _ _ => parentheses_columnLine
  refine ⟨"CREATE TABLE IF NOT EXISTS ".toList ++ name.sql.toList ++ " ".toList,
    (", ".intercalate lines).toList, ?_, (hwords.append hname).append hgap, ?_,
    .intercalate hbetween hline, ?_⟩
  · simp only [String.toList_append, List.append_assoc]
    rfl
  · have hnone : parentheses "CREATE TABLE IF NOT EXISTS ".toList = [] := rfl
    rw [parentheses_append (hwords.append hname), parentheses_append hwords, parentheses_name, hnone]
    rfl
  · rw [parentheses_intercalate hbetween rfl hline, List.flatMap_def, hsame, ← List.flatMap_def]

/-- A parenthesis behind text without any leads one level deeper. -/
theorem nesting_behind {head : List Char} (hhead : Vetted True head)
    (hnone : parentheses head = []) (cs : List Char) :
    nesting (head ++ '(' :: cs) = 1 + nesting cs := by
  have hopening : Vetted True ['('] := .of_plain (by decide)
  have hone : excess (parentheses ['(']) = 1 := rfl
  rw [nesting_eq, parentheses_append hhead, hnone, List.nil_append, ← List.singleton_append,
    parentheses_append hopening, excess_append, hone, nesting_eq]

theorem staysOpen_iff {head body : List Char} (hhead : Vetted True head)
    (hnone : parentheses head = []) (hbody : Vetted True body) :
    StaysOpen head (head ++ '(' :: (body ++ [')'])) ↔ Balanced (parentheses body) := by
  have hbehind := nesting_behind hhead hnone
  have hwhole : nesting (head ++ '(' :: (body ++ [')'])) = nesting body := by
    have hminus : excess (parentheses [')']) = -1 := rfl
    rw [hbehind, nesting_eq, parentheses_append hbody, excess_append, hminus, nesting_eq]
    omega
  rw [balanced_parentheses_iff, StaysOpen]
  constructor
  · rintro ⟨inner, htext, hlevel, hclosed⟩
    obtain rfl : body = inner := by simpa using htext
    refine ⟨fun front hfront => ?_, by rw [← hwhole, hclosed]⟩
    have hfront := hlevel front hfront
    rw [hbehind] at hfront
    omega
  · rintro ⟨hlevel, hclosed⟩
    refine ⟨body, rfl, fun front hfront => ?_, by rw [hwhole, hclosed]⟩
    have hfront := hlevel front hfront
    rw [hbehind]
    omega

/-- The parenthesis before the columns of a table is the first of the statement. It stays open up to
the last character, which closes it, exactly if the parentheses of the definitions, read one
definition after the other, are balanced; so it does if those of every definition are. -/
theorem creation_staysOpen_iff (p : Peer) (d : Dialect) (table : String)
    (columns : List (String × String)) (sql : String) (params : List Value)
    (answer : Except String Nat) (h : .execute sql params answer ∈ creation p d table columns) :
    ∃ head, head ++ ['('] <+: sql.toList ∧ parentheses head = [] ∧ nesting (head ++ ['(']) = 1 ∧
      (StaysOpen head sql.toList ↔
        Balanced (columns.flatMap fun column => parentheses column.2.toList)) ∧
      ((∀ column ∈ columns, Balanced (parentheses column.2.toList)) →
        StaysOpen head sql.toList) := by
  obtain ⟨head, body, hsql, hhead, hnone, hbody, hcolumns⟩ :=
    createSql_columns (createSql_of_mem_creation h)
  have hiff : StaysOpen head sql.toList ↔
      Balanced (columns.flatMap fun column => parentheses column.2.toList) := by
    rw [hsql, staysOpen_iff hhead hnone hbody, hcolumns]
  refine ⟨head, ⟨body ++ [')'], ?_⟩, hnone, nesting_behind hhead hnone [], hiff,
    fun hall => hiff.mpr (.flatMap hall)⟩
  rw [hsql, List.append_assoc, List.singleton_append]

/-- Parentheses that are opened in one definition may be closed in the next. -/
theorem creation_staysOpen_of_two_definitions :
    ∃ (p : Peer) (head : List Char) (sql : String),
      sql = "CREATE TABLE IF NOT EXISTS \"t\" (\"a\" CHECK (1, \"b\" ')' ))" ∧
      .execute sql [] (.ok 0) ∈
        creation p .sqlite "t" [("a", "CHECK (1"), ("b", "')' )")] ∧
      head ++ ['('] <+: sql.toList ∧ parentheses head = [] ∧ StaysOpen head sql.toList := by
  let sql := "CREATE TABLE IF NOT EXISTS \"t\" (\"a\" CHECK (1, \"b\" ')' ))"
  let columns := [("a", "CHECK (1"), ("b", "')' )")]
  have hsent : .execute sql [] (.ok 0) ∈ creation .willing .sqlite "t" columns := List.mem_cons_self
  have hparentheses : (columns.flatMap fun column => parentheses column.2.toList) = ['(', ')'] := rfl
  have hbalanced : Balanced ['(', ')'] := by decide
  obtain ⟨head, hfront, hnone, -, hiff, -⟩ :=
    creation_staysOpen_iff .willing .sqlite "t" columns _ _ _ hsent
  exact ⟨.willing, head, sql, rfl, hsent, hfront, hnone, hiff.mpr (hparentheses ▸ hbalanced)⟩

/-- A closing parenthesis in a definition closes the list of the columns. -/
theorem parenthesis_leaves_columns :
    ∃ (p : Peer) (sql : String),
      ColumnDefinition.check "TEXT)" = .ok () ∧ ¬ Balanced (parentheses "TEXT)".toList) ∧
      sql = "CREATE TABLE IF NOT EXISTS \"t\" (\"a\" TEXT))" ∧
      .execute sql [] (.ok 0) ∈ creation p .sqlite "t" [("a", "TEXT)")] ∧
      ∀ head, ¬ StaysOpen head sql.toList := by
  refine ⟨.willing, _, rfl, by decide, rfl, List.mem_cons_self, ?_⟩
  rintro head ⟨-, -, -, hclosed⟩
  revert hclosed
  decide

end Table

end QueryChain
