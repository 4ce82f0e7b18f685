import QueryChain.Proofs.Levels
import QueryChain.Proofs.Sections
import QueryChain.Proofs.Trimming

/-!
How the sections of a base statement end. Cut off and trimmed, a section of a statement that closes
its quotes and parentheses closes its own; only a line comment may be left open, since the line feed
that ends it is trimmed away.
-/

namespace QueryChain

open Text

theorem isOrdinary_of_isFiller {c : Char} (h : isFiller c = true) : isOrdinary c = true := by
  have hnot : c ∉ ['\'', '"', '(', ')', '-'] := not_mem_of_class h (by decide)
  rw [isOrdinary, decide_eq_false hnot]
  rfl

namespace Context

structure Closed (x : Context) : Prop where
  quote : x.quote = none
  depth : x.depth = 0

/-- What later contexts depend on: everything but whether a word goes on. -/
def forget (x : Context) : Context :=
  { x with inWord := false }

theorem after_cons_forget {x y : Context} (h : x.forget = y.forget) (c : Char) (cs : List Char) :
    x.after (c :: cs) = y.after (c :: cs) := by
  have hnext : x.next c = y.next c := by
    rw [← next_inWord x false c, ← next_inWord y false c]
    exact congrArg (·.next c) h
  rw [after_cons, after_cons, hnext]

theorem after_forget {x y : Context} (h : x.forget = y.forget) (cs : List Char) :
    (x.after cs).forget = (y.after cs).forget := by
  cases cs with
  | nil => exact h
  | cons c cs => exact congrArg forget (after_cons_forget h c cs)

/-! ### Fillers -/

theorem quote_next_comment {x : Context} (hq : x.quote = none) (hc : x.comment = true) (c : Char) :
    (x.next c).quote = none ∧ (x.next c).depth = x.depth := by
  simp [next, hq, hc]

/-- No filler closes a quote that a text has opened. -/
theorem isFiller_of_quote {x : Context} (hx : ∀ q ∈ x.quote, isFiller q = false) (cs : List Char) :
    ∀ q ∈ (x.after cs).quote, isFiller q = false := by
  induction cs generalizing x with
  | nil => exact hx
  | cons c cs ih =>
    apply ih
    intro q hq
    cases hquote : x.quote with
    | some mark =>
      rw [next_quoted hquote] at hq
      dsimp only at hq
      split at hq
      · cases hq
      · exact hx q (hquote ▸ hq)
    | none =>
      cases hcomment : x.comment with
      | true =>
        rw [(quote_next_comment hquote hcomment c).1] at hq
        cases hq
      | false =>
        rw [quote_next hquote hcomment] at hq
        split at hq
        · obtain rfl := Option.some.inj hq
          rcases ‹c = '\'' ∨ c = '"'› with rfl | rfl <;> decide
        · cases hq

theorem after_filler {x : Context} (hx : ∀ q ∈ x.quote, isFiller q = false) {cs : List Char}
    (h : ∀ c ∈ cs, isFiller c = true) :
    (x.after cs).quote = x.quote ∧ (x.after cs).depth = x.depth := by
  induction cs generalizing x with
  | nil => exact ⟨rfl, rfl⟩
  | cons c cs ih =>
    have hc := h c List.mem_cons_self
    have hnext : (x.next c).quote = x.quote ∧ (x.next c).depth = x.depth := by
      cases hquote : x.quote with
      | some mark =>
        rw [next_quoted hquote]
        exact ⟨if_neg (isFiller_ne hc (hx mark hquote)), rfl⟩
      | none =>
        cases hcomment : x.comment with
        | true => exact quote_next_comment hquote hcomment c
        | false =>
          rw [next_ordinary hquote hcomment (isOrdinary_of_isFiller hc)]
          exact ⟨hquote, rfl⟩
    have hrest : ∀ q ∈ (x.next c).quote, isFiller q = false := hnext.1 ▸ hx
    obtain ⟨hquote, hdepth⟩ := ih hrest fun d hd => h d (List.mem_cons_of_mem _ hd)
    exact ⟨hquote.trans hnext.1, hdepth.trans hnext.2⟩

/-- Fillers in front change nothing. -/
theorem forget_after_filler {x : Context} (hx : x.forget = {}) {cs : List Char}
    (h : ∀ c ∈ cs, isFiller c = true) : (x.after cs).forget = {} := by
  induction cs generalizing x with
  | nil => exact hx
  | cons c cs ih =>
    have hquote : x.quote = none := congrArg quote hx
    have hcomment : x.comment = false := congrArg comment hx
    have hdepth : x.depth = 0 := congrArg depth hx
    apply ih _ fun d hd => h d (List.mem_cons_of_mem _ hd)
    rw [next_ordinary hquote hcomment (isOrdinary_of_isFiller (h c List.mem_cons_self)), forget,
      hquote, hcomment, hdepth]

/-- A text that is trimmed at both ends has the quotes and parentheses open that it had before. -/
theorem after_trimChars (cs : List Char) :
    (({} : Context).after (trimChars cs)).quote = (({} : Context).after cs).quote ∧
      (({} : Context).after (trimChars cs)).depth = (({} : Context).after cs).depth := by
  obtain ⟨pre, post, hcs, hpre, hpost⟩ := exists_trimChars cs
  -- Blanks in front leave the start as it is; those behind may end a comment, but nothing else.
  have hpre (c : Char) (hc : c ∈ pre) : isFiller c = true := isFiller_of_isBlank (hpre c hc)
  have hpost (c : Char) (hc : c ∈ post) : isFiller c = true := isFiller_of_isBlank (hpost c hc)
  have hstart : (({} : Context).after pre).forget = ({} : Context).forget :=
    forget_after_filler rfl hpre
  have hsame := after_forget hstart (trimChars cs)
  have hquotes := isFiller_of_quote (x := {}) (by simp) (pre ++ trimChars cs)
  obtain ⟨hquote, hdepth⟩ := after_filler hquotes hpost
  rw [← after_append, ← hcs, after_append] at hquote hdepth
  exact ⟨(congrArg quote hsame).symm.trans hquote.symm,
    (congrArg depth hsame).symm.trans hdepth.symm⟩

end Context

/-! ### Sections -/

/-- At the top level nothing is open. -/
theorem Context.ends_of_isTop {R : Option Char → Nat → Prop} (hR : R none 0) (x : Context)
    (hx : x.isTop = true) : R x.quote x.depth := by
  obtain ⟨hquote, -, hdepth, -⟩ := isTop_iff.mp hx
  rwa [hquote, hdepth]

/-- What holds of the open quote and parentheses at the top level and at the end of a text holds at
the end of each of its sections. -/
theorem Cuts.ends {R : Option Char → Nat → Prop} (hR : R none 0) {p : Placeholder} {x : Context}
    {cs : List Char} {cuts : List Cut} {params : List Value} (h : Cuts x cs cuts)
    (hend : R (x.after cs).quote (x.after cs).depth) : ∀ f ∈ sections p cuts params,
      R (({} : Context).after f.sql.toList).quote (({} : Context).after f.sql.toList).depth := by
  induction h generalizing params with
  | nil => simp [sections]
  | @cons x k word body tail cuts top spelled ends rest ih =>
    rw [Context.after_append] at hend
    have hbody := rest.start (P := fun x => R x.quote x.depth) (Context.ends_of_isTop hR) hend
    have hstart : (x.after word).forget = ({} : Context).forget := by
      rw [spelled.after top]
      rfl
    intro f hf
    rcases List.mem_cons.mp hf with rfl | hf
    · obtain ⟨hquote, hdepth⟩ := Context.after_trimChars body
      have hsame := Context.after_forget hstart body
      rw [← Context.after_append] at hsame
      rw [takeSection, String.toList_ofList, hquote, hdepth]
      exact congrArg₂ R (congrArg Context.quote hsame) (congrArg Context.depth hsame) ▸ hbody
    · exact ih hend f hf

/-! ### Conditions of a base -/

/-- Whether a position is read as another one, at most one parenthesis deeper. -/
structure Context.Within (x y : Context) : Prop where
  quote : y.quote = x.quote
  comment : y.comment = x.comment
  dash : y.dash = x.dash
  above : x.depth ≤ y.depth
  below : y.depth ≤ x.depth + 1

theorem Context.Within.next {x y : Context} (h : x.Within y) (c : Char) :
    (x.next c).Within (y.next c) := by
  obtain ⟨quote, comment, dash, depth, inWord⟩ := x
  obtain ⟨quote', comment', dash', depth', inWord'⟩ := y
  obtain ⟨rfl, rfl, rfl, habove, hbelow⟩ := h
  dsimp only at habove hbelow
  cases quote' with
  | some q => exact ⟨rfl, rfl, rfl, habove, hbelow⟩
  | none =>
    simp only [Context.next]
    by_cases hcomment : comment' = true
    · rw [if_pos hcomment, if_pos hcomment]
      exact ⟨rfl, rfl, rfl, habove, hbelow⟩
    · rw [if_neg hcomment, if_neg hcomment]
      by_cases hquote : c = '\'' ∨ c = '"'
      · rw [if_pos hquote, if_pos hquote]
        exact ⟨rfl, rfl, rfl, habove, hbelow⟩
      · rw [if_neg hquote, if_neg hquote]
        by_cases hopen : c = '('
        · rw [if_pos hopen, if_pos hopen]
          exact ⟨rfl, rfl, rfl, by dsimp only; omega, by dsimp only; omega⟩
        · rw [if_neg hopen, if_neg hopen]
          by_cases hclose : c = ')'
          · rw [if_pos hclose, if_pos hclose]
            exact ⟨rfl, rfl, rfl, by dsimp only; omega, by dsimp only; omega⟩
          · rw [if_neg hclose, if_neg hclose]
            split <;> exact ⟨rfl, rfl, rfl, habove, hbelow⟩

theorem Context.Within.after {x y : Context} (h : x.Within y) (cs : List Char) :
    (x.after cs).Within (y.after cs) := by
  induction cs generalizing x y with
  | nil => exact h
  | cons c cs ih => exact ih (h.next c)

/-- Whether a text closes its quotes, and its parentheses too if no comment is open at its end. -/
structure Fragment.Sealed (f : Fragment) : Prop where
  quote : (({} : Context).after f.sql.toList).quote = none
  depth : (({} : Context).after f.sql.toList).comment = false →
    (({} : Context).after f.sql.toList).depth = 0

namespace Fragment

theorem sealed_of_closed {f : Fragment} (h : (({} : Context).after f.sql.toList).Closed) :
    f.Sealed :=
  ⟨h.quote, fun _ => h.depth⟩

theorem Worded.sealed {p : Placeholder} {f : Fragment} (h : Worded p f) : f.Sealed := by
  obtain ⟨hquote, -, hdepth⟩ := h.neutral 0 {} ⟨rfl, rfl, rfl⟩
  exact ⟨hquote, fun _ => hdepth⟩

theorem after_enclosed (f : Fragment) :
    ({} : Context).after (ofText "(" ++ f ++ ofText ")").sql.toList =
      ((({} : Context).next '(').after f.sql.toList).next ')' := by
  have htext : (ofText "(" ++ f ++ ofText ")").sql.toList = '(' :: (f.sql.toList ++ [')']) := by
    simp
  rw [htext, Context.after_cons, Context.after_append]
  rfl

/-- Within parentheses a text is read as it is read alone, one level deeper. -/
theorem within_enclosed (f : Fragment) : (({} : Context).after f.sql.toList).Within
    ((({} : Context).next '(').after f.sql.toList) := by
  have hopen : ({} : Context).Within (({} : Context).next '(') := by
    constructor <;> decide
  exact hopen.after f.sql.toList

theorem quote_enclosed {f : Fragment} (h : (({} : Context).after f.sql.toList).quote = none) :
    (({} : Context).after (ofText "(" ++ f ++ ofText ")").sql.toList).quote = none := by
  have hquote := (within_enclosed f).quote.trans h
  rw [after_enclosed]
  cases hcomment : ((({} : Context).next '(').after f.sql.toList).comment with
  | true => exact (Context.quote_next_comment hquote hcomment ')').1
  | false =>
    rw [Context.quote_next hquote hcomment]
    decide

/-- A closed text in parentheses; an open comment swallows the last of them. -/
theorem sealed_enclosed {f : Fragment} (h : (({} : Context).after f.sql.toList).Closed) :
    (ofText "(" ++ f ++ ofText ")").Sealed := by
  refine ⟨quote_enclosed h.quote, fun hopen => ?_⟩
  obtain ⟨hquote, -, -, -, hbelow⟩ := within_enclosed f
  rw [h.quote] at hquote
  rw [h.depth] at hbelow
  rw [after_enclosed] at hopen ⊢
  generalize (({} : Context).next '(').after f.sql.toList = y at hquote hbelow hopen ⊢
  have hcomment : y.comment = false := by
    cases hc : y.comment with
    | true => simp [Context.next, hquote, hc] at hopen
    | false => rfl
  have hdepth : (y.next ')').depth = y.depth - 1 := by simp [Context.next, hquote, hcomment]
  omega

end Fragment

/-- What holds of the open quote and parentheses at the top level and at the end of a base statement
holds at the end of each of its sections. -/
theorem Clauses.parse_ends {R : Option Char → Nat → Prop} (hR : R none 0) {P : Fragment → Prop}
    (hP : ∀ f : Fragment,
      R (({} : Context).after f.sql.toList).quote (({} : Context).after f.sql.toList).depth →
        P f ∧ P (.ofText "(" ++ f ++ .ofText ")"))
    {d : Dialect} {p : Placeholder} {base : String} {params : List Value} {c : Clauses}
    (h : Clauses.parse p base params = .ok c)
    (hend : R (({} : Context).after base.toList).quote (({} : Context).after base.toList).depth) :
    c.EverySection P d := by
  obtain ⟨post, hbase, hpost⟩ := exists_trimStatement base.toList
  obtain ⟨rest, hsplit, hcuts⟩ := splitBase_cuts (trimStatement base.toList)
  have hquotes := Context.isFiller_of_quote (x := {}) (by simp) (trimStatement base.toList)
  obtain ⟨hquote, hdepth⟩ := Context.after_filler hquotes hpost
  rw [← Context.after_append, ← hbase] at hquote hdepth
  rw [hquote, hdepth, hsplit, Context.after_append] at hend
  apply Clauses.EverySection.parse _ _ h
  · have hhead :=
      hcuts.start (P := fun x => R x.quote x.depth) (Context.ends_of_isTop hR) hend
    obtain ⟨hquote, hdepth⟩ := Context.after_trimChars (splitBase (trimStatement base.toList)).1
    refine (hP _ ?_).1
    rwa [takeSection, String.toList_ofList, hquote, hdepth]
  · exact fun f hf => hP f (hcuts.ends hR hend f hf)

/-- The sections of a base statement that closes its quotes and parentheses. -/
theorem Clauses.parse_sealed {d : Dialect} {p : Placeholder} {base : String} {params : List Value}
    {c : Clauses} (h : Clauses.parse p base params = .ok c)
    (hend : (({} : Context).after base.toList).Closed) : c.EverySection Fragment.Sealed d := by
  apply Clauses.parse_ends (R := fun quote depth => quote = none ∧ depth = 0) ⟨rfl, rfl⟩ _ h
    ⟨hend.quote, hend.depth⟩
  intro f hf
  exact ⟨Fragment.sealed_of_closed ⟨hf.1, hf.2⟩, Fragment.sealed_enclosed ⟨hf.1, hf.2⟩⟩

/-- The sections of a base statement that closes its quotes. -/
theorem Clauses.parse_unquoted {d : Dialect} {p : Placeholder} {base : String}
    {params : List Value} {c : Clauses} (h : Clauses.parse p base params = .ok c)
    (hend : (({} : Context).after base.toList).quote = none) :
    c.EverySection (fun f => (({} : Context).after f.sql.toList).quote = none) d :=
  Clauses.parse_ends (R := fun quote _ => quote = none) rfl
    (fun _ hf => ⟨hf, Fragment.quote_enclosed hf⟩) h hend

end QueryChain
