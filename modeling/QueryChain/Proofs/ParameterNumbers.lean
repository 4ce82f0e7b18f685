import QueryChain.Postgres.Rehearsal
import QueryChain.Proofs.Bindings
import QueryChain.Proofs.Composition
import QueryChain.Proofs.Numerals
import QueryChain.Proofs.Tokens
import QueryChain.Proofs.Transcript

/-!
The numbers that a server reads off a statement. A number that is written behind a dollar sign is
read back as long as no digit follows it, and no other number is read if the statement had no dollar
sign of its own. Every statement of a query of a table is such a text, so what is sent for it has
the numbers from one to the number of its parameters, in order.
-/

namespace QueryChain

open Fragment (Worded WordedIn ofText)
open Number

namespace Postgres

def parameterNumbers : List Char → List Nat
  | [] => []
  | c :: rest =>
    if c = '$' then Nat.ofDigitChars 10 (rest.takeWhile Char.isDigit) 0 :: parameterNumbers rest
    else parameterNumbers rest

/-- Whether the numbers of placeholders can be told from the text around them. -/
structure NumbersApart (cs : List Char) : Prop where
  dollar : '$' ∉ cs
  digit : ∀ d : Char, d.isDigit = true → ¬ ['%', 's', d] <:+: cs

theorem parameterNumbers_append {a : List Char} (h : '$' ∉ a) (b : List Char) :
    parameterNumbers (a ++ b) = parameterNumbers b := by
  induction a with
  | nil => rfl
  | cons c a ih =>
    rw [List.cons_append, parameterNumbers, if_neg (List.ne_of_not_mem_cons h).symm,
      ih (List.not_mem_of_not_mem_cons h)]

namespace NumbersApart

variable {a b cs : List Char}

theorem of_infix (h : NumbersApart cs) (ha : a <:+: cs) : NumbersApart a :=
  ⟨fun hmem => h.dollar (ha.subset hmem), fun d hd hmem => h.digit d hd (hmem.trans ha)⟩

theorem tail {c : Char} (h : NumbersApart (c :: cs)) : NumbersApart cs :=
  h.of_infix (List.suffix_cons c cs).isInfix

/-- Texts stay apart behind one another unless a digit, or an `s` that ends a placeholder, begins
the second one. -/
theorem append (ha : NumbersApart a) (hb : NumbersApart b)
    (hfront : '%' ∉ a ∨ ∀ c ∈ b.head?, c ≠ 's' ∧ c.isDigit = false) : NumbersApart (a ++ b) := by
  refine ⟨fun hmem => (List.mem_append.mp hmem).elim ha.dollar hb.dollar, fun d hd h => ?_⟩
  obtain h | h | ⟨front, back, hsplit, hsuffix, hprefix⟩ := List.infix_append_iff.mp h
  · exact ha.digit d hd h
  · exact hb.digit d hd h
  cases front with
  | nil => exact hb.digit d hd (hsplit ▸ hprefix.isInfix)
  | cons c front =>
    obtain ⟨rfl, htail⟩ : '%' = c ∧ ['s', d] = front ++ back := List.cons_eq_cons.mp hsplit
    cases back with
    | nil =>
      rw [List.append_nil] at hsplit
      exact ha.digit d hd (hsplit ▸ hsuffix.isInfix)
    | cons e back =>
      -- The placeholder ends in the first text or in the second one.
      have he : e = 's' ∨ e = d := by
        have hmem : e ∈ ['s', d] := htail ▸ List.mem_append_right front List.mem_cons_self
        simpa using hmem
      obtain ⟨rest, rfl⟩ := hprefix
      rcases hfront with hpercent | hfront
      · exact hpercent (hsuffix.subset List.mem_cons_self)
      · obtain ⟨hs, hdigit⟩ := hfront e rfl
        rcases he with rfl | rfl
        · exact hs rfl
        · rw [hdigit] at hd
          cases hd

end NumbersApart

namespace Token

/-- What is sent for a text begins with a digit only if the text does. -/
theorem Reads.takeWhile_sent {quote : Option Char} {cs : List Char} {ts : List Token}
    (h : Reads quote cs ts) (hfront : ∀ c ∈ cs.head?, c.isDigit = false) (n : Nat) :
    (sent n ts).takeWhile Char.isDigit = [] := by
  cases h with
  | nil => rfl
  | placeholder _ | percent _ => rfl
  | quoted _ | plain _ _ =>
    rw [sent, List.takeWhile_cons_of_neg]
    rw [hfront _ rfl]
    exact Bool.false_ne_true

/-- The numbers that are read are those that were given, in their order. -/
theorem Reads.parameterNumbers {quote : Option Char} {cs : List Char} {ts : List Token}
    (h : Reads quote cs ts) (hapart : NumbersApart cs) (n : Nat) :
    Postgres.parameterNumbers (sent n ts) = List.range' (n + 1) (ts.count .placeholder) := by
  induction h generalizing n with
  | nil => rfl
  | @quoted mark c _ _ _ ih =>
    have hc : c ≠ '$' := fun hc => hapart.dollar (hc ▸ List.mem_cons_self)
    rw [sent, Postgres.parameterNumbers, if_neg hc, ih hapart.tail,
      List.count_cons_of_ne (by simp)]
  | @placeholder cs ts htail ih =>
    have hdigits : ∀ d ∈ digitChars (n + 1), d.isDigit = true := fun _ => isDigit_of_mem_digitChars
    have hdollar : '$' ∉ digitChars (n + 1) := fun h => by cases hdigits _ h
    have hfront : ∀ d ∈ cs.head?, d.isDigit = false := by
      intro d hd
      obtain ⟨rest, rfl⟩ := List.head?_eq_some_iff.mp hd
      exact eq_false_of_ne_true fun hdigit =>
        hapart.digit d hdigit (List.infix_append [] ['%', 's', d] rest)
    have hnumber : Nat.ofDigitChars 10 (digitChars (n + 1)) 0 = n + 1 :=
      Nat.ofDigitChars_ten_toDigits
    rw [sent, Postgres.parameterNumbers, if_pos rfl, List.takeWhile_append_of_pos hdigits,
      htail.takeWhile_sent hfront, List.append_nil, hnumber, parameterNumbers_append hdollar,
      ih hapart.tail.tail, List.count_cons_self, List.range'_succ]
  | percent _ ih =>
    rw [sent, Postgres.parameterNumbers, if_neg (by decide), ih hapart.tail.tail,
      List.count_cons_of_ne (by simp)]
  | @plain c _ _ _ _ ih =>
    have hc : c ≠ '$' := fun hc => hapart.dollar (hc ▸ List.mem_cons_self)
    rw [sent, Postgres.parameterNumbers, if_neg hc, ih hapart.tail,
      List.count_cons_of_ne (by simp)]

end Token

end Postgres

open Postgres (parameterNumbers numberPlaceholders)

/-! ### Fragments -/

def isSignless (c : Char) : Bool :=
  c != '%' && c != '$'

/-- The characters that neither end a placeholder nor continue its number. -/
def isAloof (c : Char) : Bool :=
  c != 's' && !c.isDigit

def Signless (s : String) : Prop :=
  ∀ c ∈ s.toList, isSignless c = true

namespace Signless

theorem ofAll {s : String} (h : s.toList.all isSignless = true) : Signless s :=
  List.all_eq_true.mp h

theorem append {a b : String} (ha : Signless a) (hb : Signless b) : Signless (a ++ b) := by
  intro c hc
  rw [String.toList_append] at hc
  exact (List.mem_append.mp hc).elim (ha c) (hb c)

theorem name (i : Identifier) : Signless i.sql := by
  have hquote : Signless "\"" := .ofAll (by decide)
  have hname : Signless i.name := by
    intro c hc
    rw [Identifier.name, String.toList_ofList] at hc
    have hsafe := i.safe c hc
    have hne : c ≠ '%' ∧ c ≠ '$' := by
      constructor <;> rintro rfl <;> cases hsafe
    simp [isSignless, hne]
  exact (hquote.append hname).append hquote

/-- Worded text has such signs in placeholders only, and not in those that are question marks. -/
theorem of_worded {f : Fragment} (h : Worded .question f) : Signless f.sql := by
  induction h with
  | word hs =>
    have hwords : ∀ s ∈ statementWords, s.toList.all isSignless = true := by decide
    exact .ofAll (hwords _ hs)
  | name i => exact .name i
  | bind _ =>
    have htoken : "?".toList.all isSignless = true := by decide
    exact .ofAll htoken
  | enclosed _ ih => exact .append (.append (.ofAll (by decide)) ih) (.ofAll (by decide))
  | append _ _ ihf ihg => exact ihf.append ihg

end Signless

namespace Fragment

/-- Whether the numbers of a fragment's placeholders can be told from the text around them. -/
def NumbersApart (f : Fragment) : Prop :=
  Postgres.NumbersApart f.sql.toList

namespace NumbersApart

variable {f g : Fragment}

theorem of_signless (h : Signless f.sql) : f.NumbersApart := by
  constructor
  · intro hmem
    cases h _ hmem
  · intro d _ hmem
    cases h '%' (hmem.subset List.mem_cons_self)

theorem empty : Fragment.empty.NumbersApart :=
  of_signless (.ofAll (by decide))

theorem append (hf : f.NumbersApart) (hg : g.NumbersApart) (hstart : g.StartsIn isAloof) :
    (f ++ g).NumbersApart := by
  rw [NumbersApart, sql_append, String.toList_append]
  refine Postgres.NumbersApart.append hf hg (.inr fun c hc => ?_)
  simpa [isAloof] using hstart c hc

theorem behind {s : String} (hs : Signless s) (hf : f.NumbersApart) :
    (ofText s ++ f).NumbersApart := by
  have htext : (ofText s).NumbersApart := of_signless hs
  rw [NumbersApart, sql_append, String.toList_append]
  exact Postgres.NumbersApart.append htext hf (.inl fun h => by cases hs _ h)

theorem bind (v : Value) : (Placeholder.percent.bind v).NumbersApart := by
  have hdollar : '$' ∉ "%s".toList := by decide
  have hlength : "%s".toList.length = 2 := by decide
  refine ⟨hdollar, fun d _ h => ?_⟩
  have hle : 3 ≤ "%s".toList.length := h.length_le
  omega

end NumbersApart

end Fragment

/-! ### Pieces -/

def isOpener (s : String) : Bool :=
  s.toList.all isSignless && s.toList.head?.any isAloof

structure Piece.NumbersApart (x : Piece) : Prop where
  lead : Signless x.lead
  body : x.body.NumbersApart
  aloof : x.whole.StartsIn isAloof

namespace Piece

theorem NumbersApart.ofLead {lead : String} (hlead : isOpener lead = true) {body : Fragment}
    (hbody : body.NumbersApart) : NumbersApart ⟨lead, body⟩ := by
  rw [isOpener, Bool.and_eq_true] at hlead
  exact ⟨.ofAll hlead.1, hbody, .lead hlead.2 body⟩

theorem join_tail_numbersApart {ps : List Piece} (h : ∀ x ∈ ps, x.NumbersApart) :
    (join ps).NumbersApart ∧ (join ps).StartsIn isAloof := by
  induction ps with
  | nil => exact ⟨.empty, .empty⟩
  | cons x rest ih =>
    obtain ⟨hx, hrest⟩ := List.forall_mem_cons.mp h
    obtain ⟨hapart, haloof⟩ := ih hrest
    exact ⟨(Fragment.NumbersApart.behind hx.lead hx.body).append hapart haloof,
      hx.aloof.append haloof⟩

/-- No placeholder stands before the body of the first piece, which may therefore begin with a
digit. -/
theorem join_numbersApart {lead : String} {body : Fragment} {rest : List Piece}
    (hlead : lead.toList.all isSignless = true) (hbody : body.NumbersApart)
    (hrest : ∀ x ∈ rest, x.NumbersApart) : (join (⟨lead, body⟩ :: rest)).NumbersApart := by
  obtain ⟨hapart, haloof⟩ := join_tail_numbersApart hrest
  exact (Fragment.NumbersApart.behind (.ofAll hlead) hbody).append hapart haloof

theorem series_numbersApart {lead sep : String} (hlead : isOpener lead = true)
    (hsep : isOpener sep = true) {fs : List Fragment} (h : ∀ f ∈ fs, f.NumbersApart) :
    ∀ x ∈ series lead sep fs, x.NumbersApart := by
  rintro ⟨words, body⟩ hx
  obtain ⟨rfl | rfl, hbody⟩ := mem_series hx
  · exact .ofLead hlead (h _ hbody)
  · exact .ofLead hsep (h _ hbody)

end Piece

theorem Fragment.NumbersApart.bindAll (vs : List Value) :
    (Placeholder.percent.bindAll vs).NumbersApart := by
  rw [Placeholder.bindAll, ← Piece.join_series]
  cases vs with
  | nil => exact .empty
  | cons v vs =>
    refine Piece.join_numbersApart (by decide) (.bind v) ?_
    apply Piece.series_numbersApart (by decide) (by decide)
    intro f hf
    obtain ⟨w, -, rfl⟩ := List.mem_map.mp hf
    exact .bind w

/-! ### Sections -/

theorem Fragment.NumbersApart.enclosed {lead : String} (hlead : Signless lead) {f : Fragment}
    (hf : f.NumbersApart) : (ofText lead ++ f ++ ofText ")").NumbersApart := by
  have hclose : (ofText ")").StartsIn isAloof := by
    intro c hc
    obtain rfl := Option.some.inj hc
    decide
  exact (behind hlead hf).append (.of_signless (.ofAll (by decide))) hclose

theorem Condition.write_numbersApart {c : Condition} (h : c.IsDerived) :
    (c.write .postgres).NumbersApart := by
  induction c with
  | never => exact .of_signless (.ofAll (by decide))
  | isNull field | isNotNull field =>
    exact .of_signless (.append (.name field) (.ofAll (by decide)))
  | compare field comparison operand =>
    have hop : comparison.operator.toList.all isSignless = true := by cases comparison <;> decide
    exact .behind (.append (.append (.append (.name field) (.ofAll (by decide))) (.ofAll hop))
      (.ofAll (by decide))) (.bind operand)
  | oneOf field operands =>
    exact .enclosed (.append (.name field) (.ofAll (by decide))) (.bindAll operands)
  | like field ignoreCase pattern =>
    have hplain (word : String) (hword : Signless word) :
        (ofText (field.sql ++ word) ++ Placeholder.percent.bind (.text pattern)).NumbersApart :=
      .behind (.append (.name field) hword) (.bind _)
    cases ignoreCase with
    | false =>
      show Postgres.NumbersApart (field.sql ++ " LIKE " ++ "%s" ++ "").toList
      rw [String.append_empty]
      exact hplain " LIKE " (.ofAll (by decide))
    | true => exact hplain " ILIKE " (.ofAll (by decide))
  | not c ih => exact .enclosed (.ofAll (by decide)) (ih h)
  | given fragment => exact h.elim

theorem Clauses.writeAssignment_numbersApart (column : Identifier) (v : Value) :
    (writeAssignment .postgres column v).NumbersApart :=
  .behind (.append (.name column) (.ofAll (by decide))) (.bind _)

theorem Dialect.bounds_numbersApart (b : Bounds) (ordered : Bool) :
    (Dialect.postgres.bounds b ordered).NumbersApart := by
  have hbound (keyword : String) (hkeyword : Signless keyword) (n : Option Int64) :
      (Dialect.postgres.bound? keyword n).NumbersApart := by
    cases n with
    | none => exact .empty
    | some n => exact .behind hkeyword (.bind _)
  exact (hbound _ (.ofAll (by decide)) b.limit).append (hbound _ (.ofAll (by decide)) b.offset)
    (.bound? _ (by decide) _)

/-! ### Statements -/

namespace Clauses

variable {name : QualifiedName} {c : Clauses}

theorem OnTable.numbersApart (hc : c.OnTable name) :
    c.EverySection (·.NumbersApart) .postgres := by
  constructor
  · have htable : Worded .question (ofText (tableBase name)) :=
      .append (.word (by decide)) (.qualifiedName (by decide) (by decide) name)
    exact hc.head ▸ .of_signless (.of_worded htable)
  · exact fun x hx => Condition.write_numbersApart (hc.conditions x hx)
  · intro g hg
    obtain ⟨columns, -, rfl⟩ := hc.groupBy g hg
    exact .of_signless (.of_worded (.names (by decide) columns (by decide)))
  · intro t ht
    obtain ⟨k, s, hs, rfl⟩ := hc.orderBy t ht
    have hterm : Worded .question (ofText s) :=
      (SortKey.term_wordedIn hs).mono fun _ => mem_statementWords_of_section
    exact .of_signless (.of_worded hterm)

theorem section_numbersApart {x : Piece} (h : x.lead ∈ sectionLeads ∧ x.body.NumbersApart) :
    x.NumbersApart := by
  have hleads : ∀ lead ∈ sectionLeads, isOpener lead = true := by decide
  exact .ofLead (hleads x.lead h.1) h.2

theorem boundsPieces_numbersApart (c : Clauses) :
    ∀ x ∈ c.boundsPieces .postgres, x.NumbersApart := by
  intro x hx
  rw [boundsPieces] at hx
  split at hx
  · cases hx
  · obtain rfl := List.mem_singleton.mp hx
    have hlead : Signless "" := .ofAll (by decide)
    have haloof : (Dialect.postgres.bounds c.bounds (!c.orderBy.isEmpty)).StartsIn isAloof :=
      .bounds (by decide) _ _ _
    refine ⟨hlead, Dialect.bounds_numbersApart c.bounds (!c.orderBy.isEmpty), ?_⟩
    rw [Piece.whole]
    exact (Fragment.empty_append _).symm ▸ haloof

end Clauses

/-- What is said of the sections of a query holds of its statements as a whole. -/
theorem Query.Issues.numbersApart {q : Query} {f : Fragment} (hdialect : q.dialect = .postgres)
    (hsections : q.clauses.EverySection (·.NumbersApart) .postgres) (h : q.Issues f) :
    f.NumbersApart := by
  have hconditions : ∀ x ∈ q.clauses.conditionPieces .postgres, x.NumbersApart :=
    fun x hx => Clauses.section_numbersApart (Clauses.mem_conditionPieces hsections hx)
  have hgroup : ∀ x ∈ q.clauses.groupPieces, x.NumbersApart :=
    fun x hx => Clauses.section_numbersApart (Clauses.mem_groupPieces hsections hx)
  have horder : ∀ x ∈ q.clauses.orderPieces, x.NumbersApart :=
    fun x hx => Clauses.section_numbersApart (Clauses.mem_orderPieces hsections hx)
  cases h with
  | select =>
    rw [Query.select, hdialect, Clauses.select_eq_join]
    refine Piece.join_numbersApart (by decide) hsections.head ?_
    simp only [Clauses.tailPieces, List.forall_mem_append]
    exact ⟨⟨⟨hconditions, hgroup⟩, horder⟩, Clauses.boundsPieces_numbersApart _⟩
  | count =>
    rw [countStatement, hdialect, Clauses.count_eq_join]
    refine Piece.join_numbersApart (by decide) hsections.head ?_
    simp only [List.forall_mem_append, List.forall_mem_singleton]
    exact ⟨⟨hconditions, hgroup⟩, .ofLead (by decide) .empty⟩
  | delete h =>
    rw [deleteStatement, hdialect] at h
    obtain ⟨table, htable, rfl⟩ := Clauses.delete_eq_join h
    exact Piece.join_numbersApart (by decide)
      (.of_signless (.of_worded (Clauses.target_worded htable))) hconditions
  | update h =>
    obtain ⟨assignments, h, -⟩ := updateStatement_ok h
    rw [hdialect] at h
    obtain ⟨table, htable, -, rfl⟩ := Clauses.update_eq_join h
    refine Piece.join_numbersApart (by decide)
      (.of_signless (.of_worded (Clauses.target_worded htable))) ?_
    rw [List.forall_mem_append]
    refine ⟨?_, hconditions⟩
    apply Piece.series_numbersApart (by decide) (by decide)
    intro f hf
    obtain ⟨⟨column, v⟩, -, rfl⟩ := List.mem_map.mp hf
    exact Clauses.writeAssignment_numbersApart column v

/-- A statement of aligned sections has a placeholder for each of its parameters. -/
theorem Query.Issues.count_placeholders {q : Query} {f : Fragment}
    (hsections : q.clauses.EverySection (·.Aligned q.dialect.placeholder) q.dialect)
    (h : q.Issues f) : q.dialect.placeholder.count f.sql = f.params.length := by
  cases h with
  | select => exact (Clauses.select_composed hsections).total
  | count => exact (Clauses.count_composed hsections).total
  | delete h =>
    obtain ⟨table, htable, rfl⟩ := Clauses.delete_eq_join h
    exact (Clauses.delete_composed hsections htable).total
  | update h =>
    obtain ⟨table, assignments, -, -, hcomposed⟩ := updateStatement_composed hsections h
    exact hcomposed.total

namespace Postgres

open Placeholder (percent)
open Token (Reads source sent exists_reads begins_plain)

namespace Rehearsal

def KeepsSql {α : Type} (m : Session Received α) : Prop :=
  ∀ j, (m j).2.state.sql = j.state.sql

theorem answer_snd {α : Type} (r : Rehearsal) (m : Message) (a : α) (j : Journal Received) :
    (r.answer m a j).2 = j := by
  rw [answer]
  split <;> rfl

theorem sql_bind {α β : Type} {f : α → Session Received β} (hf : ∀ a, KeepsSql (f a))
    (m : Session Received α) (j : Journal Received) :
    (m.bind f j).2.state.sql = (m j).2.state.sql := by
  cases h : (m j).1 with
  | ok a => exact (congrArg (·.2.state.sql) (Session.bind_of_ok h f)).trans (hf a _)
  | error e => exact congrArg (·.2.state.sql) (Session.bind_of_error h f)

theorem keepsSql_ofExcept {α : Type} (m : Except Failure α) : KeepsSql (Session.ofExcept m) :=
  fun j => by rw [Session.ofExcept_snd]

theorem keepsSql_runWith (r : Rehearsal) (p : Prepared) (params : List Value) :
    KeepsSql (r.server.runWith p params) := by
  have hrun (bytes : List (Option Bytes)) : KeepsSql (r.server.run p bytes) := fun j => by
    rw [server, answer_snd]
  intro j
  rw [Server.runWith, sql_bind hrun, keepsSql_ofExcept]

/-- However the server answers, it was sent the statement with its numbers. -/
theorem sql_received (r : Rehearsal) (sql : String) (params : List Value) (j : Journal Received) :
    (r.server.connection.query sql params j).2.state.sql = some (numberPlaceholders sql) ∧
      (r.server.connection.execute sql params j).2.state.sql = some (numberPlaceholders sql) := by
  have hprepare : (r.server.prepare (numberPlaceholders sql) j).2.state.sql =
      some (numberPlaceholders sql) := by
    rw [server, answer_snd]
  have hrun {α : Type} {f : Reply → Session Received α} (hf : ∀ reply, KeepsSql (f reply))
      (p : Prepared) : KeepsSql ((r.server.runWith p params).bind f) := fun j => by
    rw [sql_bind hf, keepsSql_runWith]
  constructor
  · refine (sql_bind (fun p => ?_) _ j).trans hprepare
    exact hrun (fun _ => keepsSql_ofExcept _) p
  · refine (sql_bind (fun p => ?_) _ j).trans hprepare
    exact hrun (fun _ _ => rfl) p

end Rehearsal

/-- The numbers in a text whose own signs are all placeholders count them through. -/
theorem parameterNumbers_numberPlaceholders {s : String} (h : NumbersApart s.toList) :
    parameterNumbers (numberPlaceholders s).toList = List.range' 1 (percent.count s) := by
  obtain ⟨ts, hts⟩ := exists_reads none s.toList
  rw [numberPlaceholders, hts.numberChars, String.toList_ofList, hts.parameterNumbers h,
    Placeholder.count, hts.countFrom (begins_plain _)]

/-- What is numbered is what is counted. A text has one reading into characters that stand for
themselves, as all within quotes do, placeholders and doubled percent signs. The placeholders of
every front of that reading are counted, and they are sent as the numbers from one on, in their
order, with single percent signs and everything else as it was. For a statement of a query of a
table the server is sent the numbers from one to the number of its parameters and no others. -/
theorem numberPlaceholders_counted :
    (∀ s : String, ∃ ts, Reads none s.toList ts ∧ (∀ ts', Reads none s.toList ts' → ts' = ts) ∧
      ts.flatMap source = s.toList ∧
      (∀ front back, ts = front ++ back →
        percent.count (String.ofList (front.flatMap source)) = front.count .placeholder) ∧
      percent.count s = ts.count .placeholder ∧
      numberPlaceholders s = String.ofList (sent 0 ts)) ∧
    ∀ (table : String) (q q' : Query) (ops : List Operation) (f : Fragment),
      Query.ofTable .postgres table = .ok q → q.chain ops = .ok q' → q'.Issues f →
      percent.count f.sql = f.params.length ∧
        parameterNumbers (numberPlaceholders f.sql).toList = List.range' 1 f.params.length ∧
        ∀ (r : Rehearsal) (j : Journal Received),
          (r.server.connection.query f.sql f.params j).2.state.sql =
            some (numberPlaceholders f.sql) ∧
          (r.server.connection.execute f.sql f.params j).2.state.sql =
            some (numberPlaceholders f.sql) := by
  constructor
  · intro s
    obtain ⟨ts, h⟩ := exists_reads none s.toList
    refine ⟨ts, h, fun ts' h' => h'.unique h, h.flatMap_source, ?_,
      h.countFrom (begins_plain _), ?_⟩
    · rintro front back rfl
      rw [Placeholder.count, String.toList_ofList]
      exact h.front.countFrom (begins_plain _)
    · rw [numberPlaceholders, h.numberChars]
  · intro table q q' ops f hq hops h
    obtain ⟨hdialect, hsections⟩ := Query.ofTable_chain hq hops fun f hf => hf.aligned
    obtain ⟨-, name, htable⟩ := Query.chain_onTable hq hops
    have hcount : percent.count f.sql = f.params.length := by
      rw [← hdialect] at hsections
      have hissued := h.count_placeholders hsections
      rwa [hdialect] at hissued
    refine ⟨hcount, ?_, fun r j => r.sql_received f.sql f.params j⟩
    rw [parameterNumbers_numberPlaceholders (h.numbersApart hdialect htable.numbersApart), hcount]

/-- A text with quotes and runs of percent signs, and a chain that tests for membership in nothing
between two placeholders. -/
theorem numberPlaceholders_counted_of_runs :
    (∃ ts, Reads none "%%s '%s' %%%s %".toList ts ∧ ts.flatMap source = "%%s '%s' %%%s %".toList ∧
      percent.count "%%s '%s' %%%s %" = ts.count .placeholder ∧
      numberPlaceholders "%%s '%s' %%%s %" = String.ofList (sent 0 ts)) ∧
    percent.count "%%s '%s' %%%s %" = 1 ∧
    numberPlaceholders "%%s '%s' %%%s %" = "%s '%s' %$1 %" ∧
    ∃ q q', Query.ofTable .postgres "t" = .ok q ∧
      q.chain [.filter [("a", .int 1), ("b__in", .list []), ("c__in", .list [.int 2, .int 3])],
        .limit 4] = .ok q' ∧
      numberPlaceholders q'.select.sql =
        "SELECT * FROM \"t\" WHERE \"a\" = $1 AND 1 = 0 AND \"c\" IN ($2, $3) LIMIT $4" ∧
      parameterNumbers (numberPlaceholders q'.select.sql).toList = [1, 2, 3, 4] := by
  refine ⟨?_, by decide, by decide +kernel, ?_⟩
  · obtain ⟨ts, h, -, hsource, -, hcount, hsent⟩ := numberPlaceholders_counted.1 "%%s '%s' %%%s %"
    exact ⟨ts, h, hsource, hcount, hsent⟩
  · obtain ⟨q, q', hq, hops, hsql⟩ : ∃ q q', Query.ofTable .postgres "t" = .ok q ∧
        q.chain [.filter [("a", .int 1), ("b__in", .list []), ("c__in", .list [.int 2, .int 3])],
          .limit 4] = .ok q' ∧
        q'.select =
          ⟨"SELECT * FROM \"t\" WHERE \"a\" = %s AND 1 = 0 AND \"c\" IN (%s, %s) LIMIT %s",
            [.int 1, .int 2, .int 3, .int 4]⟩ :=
      ⟨⟨.postgres, ⟨.ofText "SELECT * FROM \"t\"", [], none, [], {}⟩⟩, _, by rfl, by rfl, by rfl⟩
    have hsent := (numberPlaceholders_counted.2 "t" q q' _ _ hq hops .select).2.1
    refine ⟨q, q', hq, hops, ?_, ?_⟩
    · rw [hsql]
      decide +kernel
    · rw [hsent, hsql]
      rfl

end Postgres

end QueryChain
