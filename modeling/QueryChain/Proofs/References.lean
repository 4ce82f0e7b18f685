import QueryChain.Proofs.Vetting

/-!
Words of accepted definitions. A word that is no keyword belongs to a REFERENCES clause. The rule is
that it stands directly behind the word REFERENCES, or in the list that is opened directly behind the
table; the check passes over commas, numbers, literals and closing parentheses in both places.
-/

namespace QueryChain.ColumnDefinition

/-! ### Where words may stand -/

def IsReferences (chars : List Char) : Prop :=
  String.ofList (chars.map Char.toUpper) = "REFERENCES"

def IsKeyword (chars : List Char) : Prop :=
  IsReferences chars ∨ String.ofList (chars.map Char.toUpper) ∈ definitionWords

/-- Whether a token leaves the place in a REFERENCES clause as it is before a list of columns. -/
def Token.IsIdle : Token → Prop
  | .closing | .comma | .number | .literal => True
  | .opening | .word _ | .unclosed _ | .foreign _ => False

/-- Whether tokens end in the word REFERENCES and a gap behind it. -/
def BehindReferences (gap before : List Token) : Prop :=
  (∀ t ∈ gap, t.IsIdle) ∧
    ∃ front chars, IsReferences chars ∧ before = front ++ .word chars :: gap

/-- Whether tokens end in REFERENCES, a gap, its table and a second gap. -/
def BehindTable (gap next before : List Token) : Prop :=
  (∀ t ∈ next, t.IsIdle) ∧
    ∃ front chars, BehindReferences gap front ∧ before = front ++ .word chars :: next

/-- Whether tokens end within a list that is opened behind a table, with no parenthesis inside of
it. -/
def InColumns (gap next before : List Token) : Prop :=
  ∃ front inside, BehindTable gap next front ∧ before = front ++ .opening :: inside ∧
    ∀ t ∈ inside, t ≠ .opening ∧ t ≠ .closing

/-- Whether tokens end within a list that is opened directly behind a table that stands directly
behind REFERENCES. -/
def Listed (before : List Token) : Prop :=
  ∃ front inside, BehindTable [] [] front ∧ before = front ++ .opening :: inside ∧
    ∀ pre, pre <+: inside → pre.count .closing ≤ pre.count .opening

/-- Whether every word among some tokens is a keyword, a table directly behind REFERENCES or one of
the columns in the list directly behind it. -/
def FollowsRule (ts : List Token) : Prop :=
  ∀ before chars rest, ts = before ++ .word chars :: rest →
    IsKeyword chars ∨ BehindReferences [] before ∨ Listed before

/-- Whether no gap stands before a word that is no keyword. -/
def Tight (ts : List Token) : Prop :=
  ∀ before chars rest, ts = before ++ .word chars :: rest → ¬ IsKeyword chars →
    (∀ gap, BehindReferences gap before → gap = []) ∧
      ∀ gap next, InColumns gap next before → gap = [] ∧ next = []

def OneReferences (ts : List Token) : Prop :=
  ∀ front chars rest front' chars' rest', ts = front ++ .word chars :: rest →
    ts = front' ++ .word chars' :: rest' → IsReferences chars → IsReferences chars' → front = front'

/-! ### The check -/

def Place.Behind : Place → List Token → Prop
  | .outside, _ => True
  | .table, before => ∃ gap, BehindReferences gap before
  | .behindTable, before => ∃ gap next, BehindTable gap next before
  | .columns, before => ∃ gap next, InColumns gap next before

theorem BehindReferences.concat {gap before : List Token} (h : BehindReferences gap before)
    {t : Token} (ht : t.IsIdle) : BehindReferences (gap ++ [t]) (before ++ [t]) := by
  obtain ⟨hgap, front, chars, hchars, rfl⟩ := h
  refine ⟨List.forall_mem_append.mpr ⟨hgap, by simpa using ht⟩, front, chars, hchars, ?_⟩
  rw [List.append_assoc, List.cons_append]

theorem BehindTable.concat {gap next before : List Token} (h : BehindTable gap next before)
    {t : Token} (ht : t.IsIdle) : BehindTable gap (next ++ [t]) (before ++ [t]) := by
  obtain ⟨hnext, front, chars, hfront, rfl⟩ := h
  refine ⟨List.forall_mem_append.mpr ⟨hnext, by simpa using ht⟩, front, chars, hfront, ?_⟩
  rw [List.append_assoc, List.cons_append]

theorem InColumns.concat {gap next before : List Token} (h : InColumns gap next before) {t : Token}
    (ht : t ≠ .opening ∧ t ≠ .closing) : InColumns gap next (before ++ [t]) := by
  obtain ⟨front, inside, hfront, rfl, hinside⟩ := h
  refine ⟨front, inside ++ [t], hfront, ?_, List.forall_mem_append.mpr ⟨hinside, by simpa using ht⟩⟩
  rw [List.append_assoc, List.cons_append]

/-- A token that is idle keeps what is known. -/
theorem Place.Behind.idle {p : Place} {before : List Token} (h : p.Behind before) {t : Token}
    (ht : t.IsIdle) (hcolumns : p = .columns → t ≠ .closing) : p.Behind (before ++ [t]) := by
  cases p with
  | outside => trivial
  | table => exact h.imp' _ fun _ h => h.concat ht
  | behindTable =>
    obtain ⟨gap, next, h⟩ := h
    exact ⟨gap, _, h.concat ht⟩
  | columns =>
    obtain ⟨gap, next, h⟩ := h
    have hopening : t ≠ .opening := by
      rintro rfl
      exact ht
    exact ⟨gap, next, h.concat ⟨hopening, hcolumns rfl⟩⟩

theorem Place.Behind.next {p q : Place} {before : List Token} {t : Token} (h : p.Behind before)
    (hnext : p.next t = .ok q) : q.Behind (before ++ [t]) := by
  cases t with
  | opening =>
    obtain rfl := Except.ok.inj hnext
    split
    · rename_i hp
      subst hp
      obtain ⟨gap, next, h⟩ := h
      exact ⟨gap, next, before, [], h, rfl, by simp⟩
    · trivial
  | closing =>
    obtain rfl := Except.ok.inj hnext
    split
    · trivial
    · rename_i hp
      exact h.idle trivial fun hcolumns => absurd hcolumns hp
  | comma | number | literal =>
    obtain rfl := Except.ok.inj hnext
    exact h.idle trivial fun _ => by simp
  | unclosed | foreign => cases hnext
  | word chars =>
    cases p with
    | table =>
      obtain rfl := Except.ok.inj hnext
      obtain ⟨gap, h⟩ := h
      exact ⟨gap, [], by simp, before, chars, h, rfl⟩
    | columns =>
      obtain rfl := Except.ok.inj hnext
      obtain ⟨gap, next, h⟩ := h
      exact ⟨gap, next, h.concat (by simp)⟩
    | outside | behindTable =>
      simp only [Place.next] at hnext
      split at hnext
      · rename_i hword
        obtain rfl := Except.ok.inj hnext
        exact ⟨[], by simp, before, chars, hword, rfl⟩
      · split at hnext
        · obtain rfl := Except.ok.inj hnext
          trivial
        · cases hnext

/-- Whatever tokens are checked, something is known where the check of the others begins. -/
theorem exists_behind {p : Place} {before front rest : List Token} (hp : p.Behind before)
    (h : checkTokens p (front ++ rest) = .ok ()) :
    ∃ q : Place, q.Behind (before ++ front) ∧ checkTokens q rest = .ok () := by
  induction front generalizing p before with
  | nil => exact ⟨p, by rwa [List.append_nil], h⟩
  | cons t front ih =>
    rw [List.cons_append, checkTokens] at h
    split at h
    · rename_i q hnext
      obtain ⟨r, hr, hrest⟩ := ih (hp.next hnext) h
      refine ⟨r, ?_, hrest⟩
      rwa [List.append_assoc, List.singleton_append] at hr
    · cases h

/-- A word that is no keyword is accepted as a table or a column only. -/
theorem Place.of_next_word {p q : Place} {chars : List Char} (h : p.next (.word chars) = .ok q) :
    IsKeyword chars ∨ p = .table ∨ p = .columns := by
  cases p with
  | table => exact .inr (.inl rfl)
  | columns => exact .inr (.inr rfl)
  | outside | behindTable =>
    simp only [Place.next] at h
    split at h
    · exact .inl (.inl ‹_›)
    · split at h
      · exact .inl (.inr ‹_›)
      · cases h

/-- Where the words of an accepted definition stand. -/
theorem places_of_checkTokens {before rest : List Token} {chars : List Char}
    (h : checkTokens .outside (before ++ .word chars :: rest) = .ok ()) :
    IsKeyword chars ∨ (∃ gap, BehindReferences gap before) ∨
      ∃ gap next, InColumns gap next before := by
  have houtside : Place.outside.Behind [] := trivial
  obtain ⟨p, hp, hword⟩ := exists_behind houtside h
  rw [List.nil_append] at hp
  rw [checkTokens] at hword
  split at hword
  · rename_i q hnext
    obtain hkeyword | rfl | rfl := Place.of_next_word hnext
    · exact .inl hkeyword
    · exact .inr (.inl hp)
    · exact .inr (.inr hp)
  · cases hword

theorem InColumns.listed {before : List Token} (h : InColumns [] [] before) : Listed before := by
  obtain ⟨front, inside, hfront, rfl, hinside⟩ := h
  refine ⟨front, inside, hfront, rfl, fun pre hpre => ?_⟩
  have hnone : pre.count .closing = 0 :=
    List.count_eq_zero.mpr fun hmem => (hinside _ (hpre.subset hmem)).2 rfl
  omega

theorem followsRule_of_tight {ts : List Token} (h : checkTokens .outside ts = .ok ())
    (htight : Tight ts) : FollowsRule ts := by
  intro before chars rest hts
  by_cases hkeyword : IsKeyword chars
  · exact .inl hkeyword
  obtain ⟨hgap, hgaps⟩ := htight before chars rest hts hkeyword
  subst hts
  obtain hword | ⟨gap, htable⟩ | ⟨gap, next, hcolumns⟩ := places_of_checkTokens h
  · exact .inl hword
  · exact .inr (.inl (hgap gap htable ▸ htable))
  · obtain ⟨rfl, rfl⟩ := hgaps gap next hcolumns
    exact .inr (.inr hcolumns.listed)

/-! ### A single clause -/

theorem Listed.exists_eq {before : List Token} (h : Listed before) :
    ∃ front chars table inside, IsReferences chars ∧
      before = front ++ .word chars :: .word table :: .opening :: inside := by
  obtain ⟨_, inside, ⟨-, _, table, ⟨-, front, chars, hchars, rfl⟩, rfl⟩, rfl, -⟩ := h
  exact ⟨front, chars, table, inside, hchars, by simp⟩

theorem InColumns.exists_eq {gap next before : List Token} (h : InColumns gap next before) :
    (∀ t ∈ gap, t.IsIdle) ∧ (∀ t ∈ next, t.IsIdle) ∧ ∃ front chars table inside,
      IsReferences chars ∧
        before = front ++ .word chars :: (gap ++ .word table :: (next ++ .opening :: inside)) := by
  obtain ⟨_, inside, ⟨hnext, _, table, ⟨hgap, front, chars, hchars, rfl⟩, rfl⟩, rfl, -⟩ := h
  exact ⟨hgap, hnext, front, chars, table, inside, hchars, by simp⟩

/-- Two clauses before a word are one if REFERENCES stands at one place. -/
theorem OneReferences.cons_inj {before rest front front' tail tail' : List Token}
    {chars chars' : List Char} (h : OneReferences (before ++ rest))
    (hfront : before = front ++ .word chars :: tail) (hchars : IsReferences chars)
    (hfront' : before = front' ++ .word chars' :: tail') (hchars' : IsReferences chars') :
    tail = tail' := by
  obtain rfl := h front chars (tail ++ rest) front' chars' (tail' ++ rest)
    (by rw [hfront, List.append_assoc, List.cons_append])
    (by rw [hfront', List.append_assoc, List.cons_append]) hchars hchars'
  exact (List.cons.inj (List.append_cancel_left (hfront.symm.trans hfront'))).2

/-- Idle tokens before one that is not are those that a list begins with. -/
theorem eq_nil_of_idle {gap tail tail' : List Token} {t t' : Token} (hgap : ∀ t ∈ gap, t.IsIdle)
    (ht' : ¬ t'.IsIdle) (h : gap ++ t :: tail = t' :: tail') : gap = [] := by
  cases gap with
  | nil => rfl
  | cons x gap =>
    obtain rfl : x = t' := (List.cons.inj h).1
    exact absurd (hgap x List.mem_cons_self) ht'

/-- In a definition with a single clause a gap breaks the rule. -/
theorem tight_of_followsRule {ts : List Token} (hone : OneReferences ts) (h : FollowsRule ts) :
    Tight ts := by
  rintro before chars rest rfl hword
  have hruled := (h before chars rest rfl).resolve_left hword
  refine ⟨fun gap hgap => ?_, fun gap next hcolumns => ?_⟩
  · obtain ⟨hidle, front, word, hchars, hbefore⟩ := hgap
    obtain ⟨-, front', word', hchars', hbefore'⟩ | hlisted := hruled
    · exact hone.cons_inj hbefore hchars hbefore' hchars'
    · obtain ⟨front', word', table, inside, hchars', hbefore'⟩ := hlisted.exists_eq
      have htail := hone.cons_inj hbefore hchars hbefore' hchars'
      exact (hidle (.word table) (htail ▸ List.mem_cons_self)).elim
  · obtain ⟨hgap, hnext, front, word, table, inside, hchars, hbefore⟩ := hcolumns.exists_eq
    obtain ⟨-, front', word', hchars', hbefore'⟩ | hlisted := hruled
    · have htail := hone.cons_inj hbefore hchars hbefore' hchars'
      simp at htail
    · obtain ⟨front', word', table', inside', hchars', hbefore'⟩ := hlisted.exists_eq
      have htail := hone.cons_inj hbefore hchars hbefore' hchars'
      obtain rfl := eq_nil_of_idle hgap id htail
      have hlist := (List.cons.inj htail).2
      exact ⟨rfl, eq_nil_of_idle hnext id hlist⟩

/-- In an accepted definition a word that is no keyword is the first behind REFERENCES, up to idle
tokens, or stands in a list that is opened behind such a table, up to idle tokens. Where there are no
such tokens the rule holds that the table stands directly behind REFERENCES and the list directly
behind the table; in a definition with a single clause it holds only there. -/
theorem words_of_accepted (definition : String) (ts : List Token)
    (hreads : Reads definition.toList ts) (h : check definition = .ok ()) :
    (∀ before chars rest, ts = before ++ .word chars :: rest →
      IsKeyword chars ∨ (∃ gap, BehindReferences gap before) ∨
        ∃ gap next, InColumns gap next before) ∧
    (Tight ts → FollowsRule ts) ∧
    (OneReferences ts → (FollowsRule ts ↔ Tight ts)) := by
  have hchecked : checkTokens .outside ts = .ok () := by
    rwa [check_eq_ok_iff, reads_iff.mp hreads] at h
  refine ⟨?_, followsRule_of_tight hchecked, fun hone =>
    ⟨tight_of_followsRule hone, followsRule_of_tight hchecked⟩⟩
  rintro before chars rest rfl
  exact places_of_checkTokens hchecked

/-- A table and the list of its columns. -/
theorem words_of_accepted_list :
    check "REFERENCES owner (id)" = .ok () ∧
      ∃ ts, Reads "REFERENCES owner (id)".toList ts ∧ FollowsRule ts := by
  let ts : List Token :=
    [.word "REFERENCES".toList, .word "owner".toList, .opening, .word "id".toList, .closing]
  have hreads : Reads "REFERENCES owner (id)".toList ts := reads_iff.mpr rfl
  refine ⟨rfl, ts, hreads, (words_of_accepted _ _ hreads rfl).2.1 ?_⟩
  intro before chars rest hts hword
  have hlength : before.length ≤ 4 := by
    have htotal : ts.length = 5 := rfl
    rw [hts, List.length_append, List.length_cons] at htotal
    omega
  have hfront : before <+: ts.take 4 := List.prefix_take_iff.mpr ⟨⟨_, hts.symm⟩, hlength⟩
  have hnone : ∀ t ∈ ts.take 4, ¬ t.IsIdle := by simp [ts, Token.IsIdle]
  have hidle : ∀ gap : List Token, (∀ t ∈ gap, t.IsIdle) → gap ⊆ before → gap = [] :=
    fun gap hgap hsub => List.eq_nil_iff_forall_not_mem.mpr fun t ht =>
      hnone t (hfront.subset (hsub ht)) (hgap t ht)
  refine ⟨fun gap hgap => ?_, fun gap next hcolumns => ?_⟩
  · obtain ⟨hgap, front, word, -, rfl⟩ := hgap
    exact hidle gap hgap (by simp)
  · obtain ⟨hgap, hnext, front, word, table, inside, -, rfl⟩ := hcolumns.exists_eq
    exact ⟨hidle gap hgap fun t ht => by simp [ht], hidle next hnext fun t ht => by simp [ht]⟩

/-- Behind a comma that ends a clause any word is accepted in a list. -/
theorem comma_before_list :
    check "INTEGER REFERENCES owner, (evil)" = .ok () ∧
      ∃ ts, Reads "INTEGER REFERENCES owner, (evil)".toList ts ∧ ¬ FollowsRule ts := by
  let before : List Token :=
    [.word "INTEGER".toList, .word "REFERENCES".toList, .word "owner".toList, .comma, .opening]
  have hlex : lex "INTEGER REFERENCES owner, (evil)" =
      before ++ .word "evil".toList :: [.closing] := rfl
  refine ⟨rfl, _, reads_iff.mpr hlex, fun h => ?_⟩
  obtain hkeyword | ⟨-, front, chars, -, hbefore⟩ | hlisted := h before _ _ rfl
  · revert hkeyword
    unfold IsKeyword IsReferences
    decide
  · have hlast := congrArg List.getLast? hbefore
    simp [before] at hlast
  · obtain ⟨front, chars, table, inside, -, hbefore⟩ := hlisted.exists_eq
    have hlength := congrArg List.length hbefore
    simp only [before, List.length_cons, List.length_append, List.length_nil] at hlength
    -- No two words stand directly before the parenthesis.
    rcases front with _ | ⟨a, _ | ⟨b, _ | ⟨c, front⟩⟩⟩
    · simp [before] at hbefore
    · simp [before] at hbefore
    · simp [before] at hbefore
    · rw [List.length_cons, List.length_cons, List.length_cons] at hlength
      omega

end QueryChain.ColumnDefinition
