import QueryChain.Proofs.Places
import QueryChain.Proofs.Sections

/-!
Fragments whose placeholders match their parameters. All worded text is such a fragment, and so is
every section of a base statement without comments whose quotes are closed.
-/

namespace QueryChain

open Placeholder (Place isStill isClear)
open Text

/-- Whether a text, read alone, has a placeholder for each parameter and closes its quotes. -/
structure Fragment.Aligned (p : Placeholder) (f : Fragment) : Prop where
  count : p.count f.sql = f.params.length
  closed : (Place.plain.after f.sql.toList).quote? = none

namespace Fragment

variable {p : Placeholder}

theorem Aligned.append {f g : Fragment} (hf : Aligned p f) (hg : Aligned p g)
    (hclear : ∀ c ∈ g.sql.toList.head?, isClear c = true) : Aligned p (f ++ g) := by
  obtain ⟨hcount, hclosed⟩ := Placeholder.countFrom_clearFront p hf.closed hclear
  constructor
  · rw [sql_append, params_append, Placeholder.count, String.toList_append,
      Placeholder.countFrom_append, hcount, List.length_append]
    exact congrArg₂ (· + ·) hf.count hg.count
  · rw [sql_append, String.toList_append, Place.after_append, hclosed]
    exact hg.closed

theorem Aligned.behind {lead : String} (hlead : ∀ c ∈ lead.toList, isStill c = true) {f : Fragment}
    (hf : Aligned p f) : Aligned p (ofText lead ++ f) := by
  obtain ⟨hcount, hafter⟩ := Placeholder.still_plain p hlead
  constructor
  · rw [sql_append, params_append, sql_ofText, Placeholder.count, String.toList_append,
      Placeholder.countFrom_append, hcount, hafter, Nat.zero_add]
    exact hf.count
  · rw [sql_append, sql_ofText, String.toList_append, Place.after_append, hafter]
    exact hf.closed

theorem Aligned.enclosed {f : Fragment} (hf : Aligned p f) :
    Aligned p (ofText "(" ++ f ++ ofText ")") := by
  have hclose : Aligned p (ofText ")") := by
    constructor
    · cases p <;> rfl
    · decide
  exact (hf.behind (by decide)).append hclose (by decide)

theorem name_plain (p : Placeholder) (i : Identifier) :
    p.countFrom .plain i.sql.toList = 0 ∧ Place.plain.after i.sql.toList = .plain := by
  have hinner (cs : List Char) (hcs : ∀ c ∈ cs, isNameChar c = true) :
      p.countFrom (.quoted '"') (cs ++ ['"']) = 0 ∧
        (Place.quoted '"').after (cs ++ ['"']) = .plain := by
    induction cs with
    | nil => cases p <;> decide
    | cons c cs ih =>
      have hc := ne_quote_of_isNameChar (hcs c List.mem_cons_self)
      have hnext : (Place.quoted '"').next c = .quoted '"' := if_neg hc
      have hends : p.endsAt (.quoted '"') c = false := rfl
      rw [List.cons_append, Placeholder.countFrom, Place.after_cons, hnext, hends]
      simpa using ih fun d hd => hcs d (List.mem_cons_of_mem _ hd)
  obtain ⟨hcount, hafter⟩ := hinner i.chars i.safe
  have hends : p.endsAt .plain '"' = false := by cases p <;> decide
  have hnext : Place.plain.next '"' = .quoted '"' := by decide
  rw [i.toList_sql, Placeholder.countFrom, Place.after_cons, hnext, hends, hcount, hafter]
  exact ⟨rfl, rfl⟩

/-- Worded text leads from a plain place to a plain place and has a placeholder for each of its
parameters. -/
theorem Worded.plain {f : Fragment} (h : Worded p f) :
    p.countFrom .plain f.sql.toList = f.params.length ∧
      Place.plain.after f.sql.toList = .plain := by
  induction h with
  | @word s hs =>
    have hwords : ∀ s ∈ statementWords, p.countFrom .plain s.toList = 0 ∧
        Place.plain.after s.toList = .plain := by
      cases p <;> decide
    exact hwords s hs
  | name i => exact name_plain p i
  | bind v =>
    have htoken : p.countFrom .plain p.token.toList = 1 ∧
        Place.plain.after p.token.toList = .plain := by
      cases p <;> decide
    exact htoken
  | @enclosed f _ ih =>
    obtain ⟨hcount, hafter⟩ := ih
    simp only [sql_append, sql_ofText, params_append, params_ofText, String.toList_append,
      Place.after_append, Placeholder.countFrom_append, List.nil_append, List.append_nil]
    have hopen : p.countFrom .plain "(".toList = 0 := by cases p <;> decide
    have hclose : p.countFrom .plain ")".toList = 0 := by cases p <;> decide
    have hopened : Place.plain.after "(".toList = .plain := by decide
    rw [hopened, hafter, hcount, hopen, hclose, Nat.zero_add, Nat.add_zero]
    exact ⟨rfl, by decide⟩
  | @append f g _ _ ihf ihg =>
    rw [sql_append, params_append, String.toList_append, Place.after_append,
      Placeholder.countFrom_append, ihf.1, ihf.2, ihg.1, ihg.2, List.length_append]
    exact ⟨rfl, rfl⟩

theorem Worded.aligned {f : Fragment} (h : Worded p f) : Aligned p f := by
  refine ⟨h.plain.1, ?_⟩
  rw [h.plain.2]
  rfl

end Fragment

/-! ### Sections of a base -/

/-- Trimming takes away no placeholder and leaves no quote open that was closed. -/
theorem Placeholder.countFrom_trimChars (p : Placeholder) (cs : List Char) :
    p.countFrom .plain (trimChars cs) = p.countFrom .plain cs ∧
      (Place.plain.after (trimChars cs)).quote? = (Place.plain.after cs).quote? := by
  obtain ⟨pre, post, hcs, hpre, hpost⟩ := exists_trimChars cs
  have hpre (c : Char) (hc : c ∈ pre) : isStill c = true :=
    isStill_of_isFiller (isFiller_of_isBlank (hpre c hc))
  have hpost (c : Char) (hc : c ∈ post) : isFiller c = true := isFiller_of_isBlank (hpost c hc)
  obtain ⟨hcount, hplain⟩ := still_plain p hpre
  have hopen : ∀ q ∈ Place.plain.quote?, isFiller q = false := by simp [Place.quote?]
  have hquote := Place.isFiller_of_quote? hopen (trimChars cs)
  have hall : p.countFrom .plain cs =
      p.countFrom .plain pre + p.countFrom (Place.plain.after pre) (trimChars cs) +
        p.countFrom (Place.plain.after (pre ++ trimChars cs)) post := by
    rw [← countFrom_append, ← countFrom_append, ← hcs]
  constructor
  · rw [hall, hcount, hplain, countFrom_filler p _ hpost, Nat.zero_add, Nat.add_zero]
  · have hafter : Place.plain.after cs = (Place.plain.after (trimChars cs)).after post := by
      conv_lhs => rw [hcs, Place.after_append, Place.after_append, hplain]
    rw [hafter, Place.quote?_filler hquote hpost]

theorem takeSection_aligned {p : Placeholder} {cs : List Char} {params : List Value}
    (hcount : p.countFrom .plain cs ≤ params.length)
    (hclosed : (Place.plain.after cs).quote? = none) :
    (takeSection p cs params).1.Aligned p := by
  obtain ⟨htrim, hquote⟩ := p.countFrom_trimChars cs
  constructor
  · rw [takeSection, Placeholder.count, String.toList_ofList, htrim, List.length_take,
      Nat.min_eq_left hcount]
  · rw [takeSection, String.toList_ofList, hquote]
    exact hclosed

/-- The parameters that a section leaves are enough for the rest. -/
theorem takeSection_rest {p : Placeholder} {cs : List Char} {params : List Value} {n : Nat}
    (hcount : p.countFrom .plain cs + n ≤ params.length) :
    n ≤ (takeSection p cs params).2.length := by
  rw [takeSection, List.length_drop]
  omega

/-- The sections of cuts that have parameters enough. -/
theorem Cuts.aligned {p : Placeholder} {x : Context} {place : Place} {cs : List Char}
    {cuts : List Cut} {params : List Value} (h : Cuts x cs cuts) (hplace : place.quote? = x.quote)
    (hopen : x.Uncommented cs) (hend : (x.after cs).quote = none)
    (hcount : p.countFrom place cs ≤ params.length) :
    ∀ f ∈ sections p cuts params, f.Aligned p := by
  induction h generalizing place params with
  | nil => simp [sections]
  | @cons x k word body tail cuts top spelled ends rest ih =>
    have hquote : place.quote? = none := hplace.trans (Context.isTop_iff.mp top).1
    obtain ⟨hword, hplain⟩ := spelled.countFrom p hquote
    rw [Context.after_append] at hend
    rw [Placeholder.countFrom_append, Placeholder.countFrom_append, Place.after_append, hword,
      hplain, Nat.zero_add] at hcount
    -- Behind its keyword a body is read as it is read alone.
    have hbody : (Place.plain.after body).quote? = (x.after (word ++ body)).quote := by
      rw [← hplain, ← Place.after_append]
      exact Context.quote?_after hopen.front hplace
    intro f hf
    rcases List.mem_cons.mp hf with rfl | hf
    · apply takeSection_aligned
      · exact Nat.le_trans (Nat.le_add_right _ _) hcount
      · rw [hbody]
        exact rest.quote hend
    · exact ih hbody hopen.rest hend (takeSection_rest hcount) f hf

/-- Every section of a base statement has a placeholder for each of its parameters, if the whole
statement has, all quotes are closed and no comment is open anywhere. -/
theorem Clauses.parse_aligned {d : Dialect} {p : Placeholder} {base : String} {params : List Value}
    {c : Clauses} (h : Clauses.parse p base params = .ok c)
    (hcount : p.count base = params.length)
    (hopen : ({} : Context).Uncommented base.toList)
    (hquote : (({} : Context).after base.toList).quote = none) :
    c.EverySection (·.Aligned p) d := by
  obtain ⟨post, hbase, hpost⟩ := exists_trimStatement base.toList
  obtain ⟨rest, hsplit, hcuts⟩ := splitBase_cuts (trimStatement base.toList)
  have hplain : ∀ q ∈ Place.plain.quote?, isFiller q = false := by simp [Place.quote?]
  have hstart : Place.plain.quote? = ({} : Context).quote := rfl
  -- What the statement is trimmed of counts nothing and closes no quote.
  have hopen' : ({} : Context).Uncommented (trimStatement base.toList) := (hbase ▸ hopen).front
  have hquote' : (({} : Context).after (trimStatement base.toList)).quote = none := by
    rw [← Context.quote?_after hopen' hstart,
      ← Place.quote?_filler (Place.isFiller_of_quote? hplain _) hpost, ← Place.after_append,
      ← hbase, Context.quote?_after hopen hstart]
    exact hquote
  rw [Placeholder.count, hbase, Placeholder.countFrom_append,
    Placeholder.countFrom_filler p _ hpost, Nat.add_zero, hsplit,
    Placeholder.countFrom_append] at hcount
  rw [hsplit] at hopen'
  rw [hsplit, Context.after_append] at hquote'
  have hhead : (Place.plain.after (splitBase (trimStatement base.toList)).1).quote? =
      (({} : Context).after (splitBase (trimStatement base.toList)).1).quote :=
    Context.quote?_after hopen'.front hstart
  apply Clauses.EverySection.parse _ _ h
  · apply takeSection_aligned
    · omega
    · rw [hhead]
      exact hcuts.quote hquote'
  · intro f hf
    have hf : f.Aligned p := hcuts.aligned hhead hopen'.rest hquote'
      (takeSection_rest (Nat.le_of_eq hcount)) f hf
    exact ⟨hf, hf.enclosed⟩

end QueryChain
