import QueryChain.Proofs.TableQuery

/-!
What may stand in a statement outside its parameters: identifiers between double quotes, and text
that cannot end a statement, comment out the rest of it or open a literal.
-/

namespace QueryChain

open Fragment (Worded ofText)

/-- Whether `c` may stand before `rest` outside quotes: it is no quote and no semicolon, and opens
no comment with the character behind it. -/
def isHarmless (c : Char) (rest : List Char) : Bool :=
  !(c ∈ ['"', '\'', ';']) && !(c == '-' && rest.head? == some '-') &&
    !(c == '/' && rest.head? == some '*')

/-- Text whose double-quoted segments are identifiers and which is harmless outside them, but for
the literal of one backslash. -/
inductive Guarded : List Char → Prop
  | nil : Guarded []
  | segment {cs rest : List Char} (nonempty : cs ≠ []) (safe : ∀ c ∈ cs, isNameChar c = true)
      (tail : Guarded rest) : Guarded ('"' :: (cs ++ '"' :: rest))
  | backslash {rest : List Char} (tail : Guarded rest) : Guarded ('\'' :: '\\' :: '\'' :: rest)
  | outside {c : Char} {rest : List Char} (harmless : isHarmless c rest = true)
      (tail : Guarded rest) : Guarded (c :: rest)

/-- Whether no comment begins with the last character of a text, whatever follows. -/
def Settled (cs : List Char) : Prop :=
  ∀ c ∈ cs.getLast?, c ≠ '-' ∧ c ≠ '/'

instance (cs : List Char) : Decidable (Settled cs) :=
  inferInstanceAs (Decidable (∀ c ∈ cs.getLast?, c ≠ '-' ∧ c ≠ '/'))

theorem isHarmless_append {c : Char} {rest : List Char} (h : isHarmless c rest = true)
    (hc : rest = [] → c ≠ '-' ∧ c ≠ '/') (cs : List Char) : isHarmless c (rest ++ cs) = true := by
  cases rest with
  | nil =>
    obtain ⟨hdash, hslash⟩ := hc rfl
    simpa [isHarmless, hdash, hslash] using h
  | cons d rest => exact h

theorem Settled.suffix {a b : List Char} (h : Settled (a ++ b)) : Settled b := by
  intro c hc
  apply h c
  rw [List.getLast?_append, hc]
  rfl

theorem Guarded.append {a b : List Char} (ha : Guarded a) (hlast : Settled a) (hb : Guarded b) :
    Guarded (a ++ b) := by
  induction ha with
  | nil => exact hb
  | @segment cs rest nonempty safe _ ih =>
    have hsplit : '"' :: (cs ++ '"' :: rest) = '"' :: cs ++ ['"'] ++ rest := by simp
    rw [hsplit] at hlast
    have h := Guarded.segment nonempty safe (ih hlast.suffix)
    simpa only [List.cons_append, List.append_assoc] using h
  | @backslash rest _ ih =>
    have hrest : Settled rest := Settled.suffix (a := ['\'', '\\', '\'']) hlast
    exact .backslash (ih hrest)
  | @outside c rest harmless _ ih =>
    -- Only the last character could open a comment with what follows.
    have hrest : Settled rest := Settled.suffix (a := [c]) hlast
    refine .outside (isHarmless_append harmless ?_ b) (ih hrest)
    rintro rfl
    exact hlast c rfl

theorem Settled.append {a b : List Char} (ha : Settled a) (hb : Settled b) : Settled (a ++ b) := by
  intro c hc
  rw [List.getLast?_append] at hc
  cases hlast : b.getLast? with
  | none =>
    rw [hlast] at hc
    exact ha c hc
  | some d =>
    rw [hlast] at hc
    exact hb c (hlast ▸ hc)

/-! ### Worded text -/

def isPlain : List Char → Bool
  | [] => true
  | c :: rest => isHarmless c rest && isPlain rest

theorem guarded_of_isPlain {cs : List Char} (h : isPlain cs = true) : Guarded cs := by
  induction cs with
  | nil => exact .nil
  | cons c rest ih =>
    rw [isPlain, Bool.and_eq_true] at h
    exact .outside h.1 (ih h.2)

theorem guarded_of_mem_statementWords {s : String} (hs : s ∈ statementWords) :
    Guarded s.toList ∧ Settled s.toList := by
  have hwords : ∀ s ∈ statementWords,
      (isPlain s.toList = true ∨ s = " ESCAPE '\\'") ∧ Settled s.toList := by
    decide
  obtain ⟨hplain | rfl, hsettled⟩ := hwords s hs
  · exact ⟨guarded_of_isPlain hplain, hsettled⟩
  · have hescape : Guarded " ESCAPE ".toList := guarded_of_isPlain (by decide)
    exact ⟨hescape.append (by decide) (.backslash .nil), hsettled⟩

theorem Fragment.Worded.guarded {p : Placeholder} {f : Fragment} (h : Worded p f) :
    Guarded f.sql.toList ∧ Settled f.sql.toList := by
  induction h with
  | word hs => exact guarded_of_mem_statementWords hs
  | name i =>
    rw [sql_ofText, i.toList_sql]
    refine ⟨.segment i.nonempty i.safe .nil, ?_⟩
    intro c hc
    rw [← List.cons_append, List.getLast?_concat] at hc
    obtain rfl := Option.some.inj hc
    decide
  | bind v =>
    have htoken : isPlain p.token.toList = true ∧ Settled p.token.toList := by
      cases p <;> decide
    exact ⟨guarded_of_isPlain htoken.1, htoken.2⟩
  | @enclosed f _ ih =>
    have hopen : Guarded "(".toList := guarded_of_isPlain (by decide)
    have hclose : Guarded ")".toList := guarded_of_isPlain (by decide)
    rw [sql_append, sql_append, String.toList_append, String.toList_append]
    refine ⟨?_, ?_⟩
    · exact (hopen.append (by decide) ih.1).append (Settled.append (by decide) ih.2) hclose
    · exact (Settled.append (by decide) ih.2).append (by decide)
  | append _ _ ihf ihg =>
    rw [sql_append, String.toList_append]
    exact ⟨ihf.1.append ihf.2 ihg.1, ihf.2.append ihg.2⟩

end QueryChain
