import QueryChain.Proofs.Scanning
import QueryChain.Proofs.Wording

/-!
Text that leaves the lexical context as it was: outside quotes and comments, and at the same depth
of parentheses. All worded text is of this kind.
-/

namespace QueryChain

namespace Context

/-- Whether a position is outside quotes, comments and all parentheses but `n`. -/
structure AtLevel (n : Nat) (x : Context) : Prop where
  quote : x.quote = none
  comment : x.comment = false
  depth : x.depth = n

instance (n : Nat) (x : Context) : Decidable (x.AtLevel n) :=
  decidable_of_iff (x.quote = none ∧ x.comment = false ∧ x.depth = n)
    ⟨fun h => ⟨h.1, h.2.1, h.2.2⟩, fun h => ⟨h.quote, h.comment, h.depth⟩⟩

end Context

/-- Whether a text leads from every position outside quotes and comments to one of the same
level. -/
def Neutral (cs : List Char) : Prop :=
  ∀ (n : Nat) (x : Context), x.AtLevel n → (x.after cs).AtLevel n

theorem Neutral.append {a b : List Char} (ha : Neutral a) (hb : Neutral b) : Neutral (a ++ b) := by
  intro n x hx
  rw [Context.after_append]
  exact hb n _ (ha n x hx)

theorem Neutral.enclosed {cs : List Char} (h : Neutral cs) : Neutral ('(' :: (cs ++ [')'])) := by
  intro n x hx
  obtain ⟨quote, comment, dash, depth, inWord⟩ := x
  obtain ⟨rfl, rfl, rfl⟩ := hx
  -- The inner text is read one level deeper.
  have hopen : (Context.next ⟨none, false, dash, depth, inWord⟩ '(').AtLevel (depth + 1) :=
    ⟨rfl, rfl, rfl⟩
  obtain ⟨hquote, hcomment, hdepth⟩ := h _ _ hopen
  rw [Context.after_cons, Context.after_append, Context.after_cons, Context.after_nil]
  generalize (Context.next ⟨none, false, dash, depth, inWord⟩ '(').after cs = y at *
  obtain ⟨quote', comment', dash', depth', inWord'⟩ := y
  obtain rfl := hquote
  obtain rfl := hcomment
  obtain rfl := hdepth
  exact ⟨rfl, rfl, rfl⟩

namespace Context

/-- Characters other than parentheses are read alike at every depth. -/
theorem next_depth {c : Char} (h : c ≠ '(' ∧ c ≠ ')') (x : Context) (n : Nat) :
    ({ x with depth := n } : Context).next c = { x.next c with depth := n } := by
  obtain ⟨quote, comment, dash, depth, inWord⟩ := x
  cases quote with
  | some q => rfl
  | none =>
    simp only [next, h.1, h.2, if_false]
    repeat' split
    all_goals rfl

theorem after_depth {cs : List Char} (h : ∀ c ∈ cs, c ≠ '(' ∧ c ≠ ')') (x : Context) (n : Nat) :
    ({ x with depth := n } : Context).after cs = { x.after cs with depth := n } := by
  induction cs generalizing x with
  | nil => rfl
  | cons c cs ih =>
    rw [after_cons, next_depth (h c List.mem_cons_self),
      ih fun d hd => h d (List.mem_cons_of_mem _ hd), after_cons]

end Context

/-- Whether text without parentheses is neutral is seen at depth zero. -/
theorem neutral_of_flat {cs : List Char} (hflat : ∀ c ∈ cs, c ≠ '(' ∧ c ≠ ')')
    (hzero : ∀ dash inWord : Bool, (Context.after ⟨none, false, dash, 0, inWord⟩ cs).quote = none ∧
      (Context.after ⟨none, false, dash, 0, inWord⟩ cs).comment = false) : Neutral cs := by
  intro n x hx
  obtain ⟨quote, comment, dash, depth, inWord⟩ := x
  obtain ⟨rfl, rfl, rfl⟩ := hx
  obtain ⟨hquote, hcomment⟩ := hzero dash inWord
  have hdepth := Context.after_depth hflat ⟨none, false, dash, 0, inWord⟩ depth
  rw [hdepth]
  exact ⟨hquote, hcomment, rfl⟩

theorem neutral_of_mem_statementWords {s : String} (hs : s ∈ statementWords) :
    Neutral s.toList := by
  have hflat : ∀ s ∈ statementWords, ∀ c ∈ s.toList, c ≠ '(' ∧ c ≠ ')' := by decide
  have hzero : ∀ s ∈ statementWords, ∀ dash inWord : Bool,
      (Context.after ⟨none, false, dash, 0, inWord⟩ s.toList).quote = none ∧
        (Context.after ⟨none, false, dash, 0, inWord⟩ s.toList).comment = false := by
    decide
  exact neutral_of_flat (hflat s hs) (hzero s hs)

theorem neutral_token (p : Placeholder) : Neutral p.token.toList := by
  apply neutral_of_flat
  · cases p <;> decide
  · cases p <;> decide

theorem neutral_name (i : Identifier) : Neutral i.sql.toList := by
  have hinner (cs : List Char) (hcs : ∀ c ∈ cs, isNameChar c = true) (n : Nat) (x : Context)
      (hquote : x.quote = some '"') (hcomment : x.comment = false) (hdepth : x.depth = n) :
      (x.after (cs ++ ['"'])).AtLevel n := by
    induction cs generalizing x with
    | nil =>
      rw [List.nil_append, Context.after_cons, Context.next_quoted hquote]
      exact ⟨rfl, hcomment, hdepth⟩
    | cons c cs ih =>
      have hc := ne_quote_of_isNameChar (hcs c List.mem_cons_self)
      rw [List.cons_append, Context.after_cons, Context.next_quoted hquote, if_neg hc]
      exact ih (fun d hd => hcs d (List.mem_cons_of_mem _ hd)) _ rfl hcomment hdepth
  intro n x hx
  obtain ⟨quote, comment, dash, depth, inWord⟩ := x
  obtain ⟨rfl, rfl, rfl⟩ := hx
  rw [i.toList_sql, Context.after_cons]
  exact hinner i.chars i.safe depth _ rfl rfl rfl

/-- Worded text leaves the level as it was. -/
theorem Fragment.Worded.neutral {p : Placeholder} {f : Fragment} (h : Worded p f) :
    Neutral f.sql.toList := by
  induction h with
  | word hs => exact neutral_of_mem_statementWords hs
  | name i => exact neutral_name i
  | bind v => exact neutral_token p
  | @enclosed f _ ih =>
    have htext : (ofText "(" ++ f ++ ofText ")").sql.toList = '(' :: (f.sql.toList ++ [')']) := by
      simp
    rw [htext]
    exact ih.enclosed
  | append _ _ ihf ihg =>
    rw [sql_append, String.toList_append]
    exact ihf.append ihg

end QueryChain
