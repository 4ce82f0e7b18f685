import QueryChain.Proofs.TableQuery

/-!
Text without given words, such as the clause keywords. What departs from every one of them before it
ends is none, whatever follows it, and the sections that chained calls add to a statement are made
of words that do, quoted names, placeholders and parentheses.
-/

namespace QueryChain

open Fragment (Worded WordedIn ofText)

namespace Keyword

/-- Whether a text has another letter than `word` somewhere before one of them ends. -/
def departs : List Char → List Char → Bool
  | w :: word, c :: cs => c.toUpper != w || departs word cs
  | _, _ => false

theorem afterWord?_of_departs {word cs : List Char} (h : departs word cs = true)
    (rest : List Char) : afterWord? word (cs ++ rest) = none := by
  induction word generalizing cs with
  | nil => cases h
  | cons w word ih =>
    cases cs with
    | nil => cases h
    | cons c cs =>
      rw [departs, Bool.or_eq_true, bne_iff_ne] at h
      rw [List.cons_append, afterWord?]
      split
      · rename_i heq
        exact ih (h.resolve_left (not_not_intro heq))
      · rfl

theorem departs_append {word a : List Char} (h : departs word a = true) (b : List Char) :
    departs word (a ++ b) = true := by
  induction word generalizing a with
  | nil => cases h
  | cons w word ih =>
    cases a with
    | nil => cases h
    | cons c a =>
      rw [departs, Bool.or_eq_true] at h
      rw [List.cons_append, departs, Bool.or_eq_true]
      exact h.imp_right ih

def departsAll (words : List (List Char)) (cs : List Char) : Bool :=
  words.all (departs · cs)

theorem departsAll_append {words : List (List Char)} {a : List Char}
    (h : departsAll words a = true) (b : List Char) : departsAll words (a ++ b) = true := by
  rw [departsAll, List.all_eq_true] at h ⊢
  exact fun w hw => departs_append (h w hw) b

def Opening (words : List (List Char)) : Prop :=
  ∀ w ∈ words, w.head?.any (· ∈ ['F', 'W', 'G', 'O', 'L']) = true

instance (words : List (List Char)) : Decidable (Opening words) :=
  inferInstanceAs (Decidable (∀ w ∈ words, _))

theorem Opening.departsAll {words : List (List Char)} (h : Opening words) {c : Char}
    (hc : isOpener c = false) (cs : List Char) : departsAll words (c :: cs) = true := by
  rw [Keyword.departsAll, List.all_eq_true]
  intro w hw
  have hopen := h w hw
  cases w with
  | nil => cases hopen
  | cons w word =>
    have hne : c.toUpper ≠ w := by
      rintro rfl
      exact absurd hopen (ne_true_of_eq_false hc)
    simp [departs, hne]

def misses (cs : List Char) : Bool :=
  all.all fun k => departs k.words.1 cs

def openings : List (List Char) :=
  all.map (·.words.1)

theorem misses_eq_departsAll (cs : List Char) : misses cs = departsAll openings cs := by
  rw [misses, departsAll, openings, List.all_map]
  rfl

theorem after?_of_departs {k : Keyword} {cs : List Char} (h : departs k.words.1 cs = true)
    (rest : List Char) : k.after? (cs ++ rest) = none := by
  have hfirst := afterWord?_of_departs h rest
  rw [after?]
  generalize k.words = words at hfirst
  obtain ⟨first, _ | ⟨s, second⟩⟩ := words
  · exact hfirst
  · simp only at hfirst ⊢
    rw [hfirst]

theorem atFront?_of_misses {cs : List Char} (h : misses cs = true) (rest : List Char) :
    atFront? (cs ++ rest) = none := by
  rw [misses, List.all_eq_true] at h
  rw [atFront?, List.findSome?_eq_none_iff]
  intro k hk
  rw [after?_of_departs (h k hk), Option.map_none]

end Keyword

/-! ### Text that lacks words -/

namespace Context

/-- Whether none of the words stands within a text that is read in the context, whatever follows
it. In quiet text nothing opens such a word; here what opens one does not go on as one. -/
def Lacks (words : List (List Char)) (x : Context) : List Char → Prop
  | [] => True
  | c :: cs =>
    (x.isTop = false ∨ Keyword.departsAll words (c :: cs) = true) ∧ (x.next c).Lacks words cs

instance decidableLacks (words : List (List Char)) :
    ∀ (x : Context) (cs : List Char), Decidable (x.Lacks words cs)
  | _, [] => inferInstanceAs (Decidable True)
  | x, c :: cs =>
    have := decidableLacks words (x.next c) cs
    inferInstanceAs (Decidable ((x.isTop = false ∨ Keyword.departsAll words (c :: cs) = true) ∧
      (x.next c).Lacks words cs))

theorem Lacks.append {words : List (List Char)} {x : Context} {a b : List Char}
    (ha : x.Lacks words a) (hb : (x.after a).Lacks words b) : x.Lacks words (a ++ b) := by
  induction a generalizing x with
  | nil => exact hb
  | cons c a ih => exact ⟨ha.1.imp_right fun h => Keyword.departsAll_append h b, ih ha.2 hb⟩

theorem Quiet.lacks {words : List (List Char)} (hwords : Keyword.Opening words) {x : Context}
    {cs : List Char} (h : x.Quiet cs) : x.Lacks words cs := by
  induction cs generalizing x with
  | nil => trivial
  | cons c cs ih => exact ⟨h.1.imp_right fun hc => hwords.departsAll hc cs, ih h.2⟩

theorem isTop_of_depth {x : Context} (h : x.isTop = false) (hx : x.depth = 0) (n : Nat) :
    ({ x with depth := n } : Context).isTop = false := by
  obtain ⟨quote, comment, dash, depth, inWord⟩ := x
  obtain rfl := hx
  cases n with
  | zero => exact h
  | succ n => simp [isTop]

/-- What text without parentheses lacks at the top level it lacks at every level. -/
theorem Lacks.depth {words : List (List Char)} {cs : List Char}
    (hflat : ∀ c ∈ cs, c ≠ '(' ∧ c ≠ ')') {x : Context} (h : x.Lacks words cs) (hx : x.depth = 0)
    (n : Nat) : ({ x with depth := n } : Context).Lacks words cs := by
  induction cs generalizing x with
  | nil => trivial
  | cons c cs ih =>
    have hc := hflat c List.mem_cons_self
    refine ⟨h.1.imp_left fun htop => isTop_of_depth htop hx n, ?_⟩
    have hdepth : (x.next c).depth = 0 := by
      have hnext := next_depth hc x 0
      rw [← hx] at hnext
      exact (congrArg Context.depth hnext).trans hx
    rw [next_depth hc]
    exact ih (fun d hd => hflat d (List.mem_cons_of_mem _ hd)) h.2 hdepth

end Context

/-- Whether a text lacks the words wherever it is read outside quotes and comments. -/
def LacksWords (words : List (List Char)) (cs : List Char) : Prop :=
  ∀ (n : Nat) (x : Context), x.AtLevel n → x.Lacks words cs

namespace LacksWords

variable {words : List (List Char)}

theorem ofFlat {cs : List Char} (hflat : ∀ c ∈ cs, c ≠ '(' ∧ c ≠ ')')
    (hzero : ∀ dash inWord : Bool, Context.Lacks words ⟨none, false, dash, 0, inWord⟩ cs) :
    LacksWords words cs := by
  intro n x hx
  obtain ⟨quote, comment, dash, depth, inWord⟩ := x
  obtain ⟨rfl, rfl, rfl⟩ := hx
  exact Context.Lacks.depth hflat (hzero dash inWord) rfl depth

theorem append {a b : List Char} (ha : LacksWords words a) (hneutral : Neutral a)
    (hb : LacksWords words b) : LacksWords words (a ++ b) :=
  fun n x hx => (ha n x hx).append (hb n _ (hneutral n x hx))

theorem enclosed (hwords : Keyword.Opening words) {cs : List Char} (h : LacksWords words cs) :
    LacksWords words ('(' :: (cs ++ [')'])) := by
  intro n x hx
  obtain ⟨quote, comment, dash, depth, inWord⟩ := x
  obtain ⟨rfl, rfl, rfl⟩ := hx
  have hopen : (Context.next ⟨none, false, dash, depth, inWord⟩ '(').AtLevel (depth + 1) :=
    ⟨rfl, rfl, rfl⟩
  exact ⟨.inr (hwords.departsAll (by decide) _),
    (h _ _ hopen).append ⟨.inr (hwords.departsAll (by decide) _), trivial⟩⟩

theorem token (hwords : Keyword.Opening words) (p : Placeholder) :
    LacksWords words p.token.toList := by
  intro n x hx
  apply Context.Quiet.lacks hwords
  apply Context.quiet_of_isOpener
  cases p <;> decide

end LacksWords

/-- Text in the words of sections is neutral, and it lacks the words that these lack. -/
theorem Fragment.WordedIn.lacksWords {words : List (List Char)} (hwords : Keyword.Opening words)
    (hzero : ∀ s ∈ sectionWords, ∀ dash inWord : Bool,
      Context.Lacks words ⟨none, false, dash, 0, inWord⟩ s.toList)
    {p : Placeholder} {f : Fragment} (h : WordedIn sectionWords p f) :
    Neutral f.sql.toList ∧ LacksWords words f.sql.toList := by
  refine ⟨Worded.neutral (h.mono fun _ hs => mem_statementWords_of_section hs), ?_⟩
  induction h with
  | word hs =>
    have hflat : ∀ s ∈ sectionWords, ∀ c ∈ s.toList, c ≠ '(' ∧ c ≠ ')' := by decide
    exact .ofFlat (hflat _ hs) (hzero _ hs)
  | name i => exact fun n x hx => (i.quiet_sql hx).lacks hwords
  | bind v => exact .token hwords p
  | @enclosed f _ ih =>
    have htext : (ofText "(" ++ f ++ ofText ")").sql.toList = '(' :: (f.sql.toList ++ [')']) := by
      simp
    rw [htext]
    exact ih.enclosed hwords
  | @append f g hf _ ihf ihg =>
    have hneutral := Worded.neutral (hf.mono fun _ hs => mem_statementWords_of_section hs)
    rw [sql_append, String.toList_append]
    exact ihf.append hneutral ihg

/-! ### Silent text -/

namespace Context

/-- Whether no keyword stands within a text that is read in the context, whatever follows it. -/
def Silent (x : Context) : List Char → Prop
  | [] => True
  | c :: cs => (x.isTop = false ∨ Keyword.misses (c :: cs) = true) ∧ (x.next c).Silent cs

theorem silent_iff_lacks {x : Context} {cs : List Char} :
    x.Silent cs ↔ x.Lacks Keyword.openings cs := by
  induction cs generalizing x with
  | nil => exact Iff.rfl
  | cons c cs ih => rw [Silent, Lacks, ih, Keyword.misses_eq_departsAll]

instance decidableSilent : ∀ (x : Context) (cs : List Char), Decidable (x.Silent cs)
  | _, [] => inferInstanceAs (Decidable True)
  | x, c :: cs =>
    have := decidableSilent (x.next c) cs
    inferInstanceAs (Decidable ((x.isTop = false ∨ Keyword.misses (c :: cs) = true) ∧
      (x.next c).Silent cs))

theorem silent_append {x : Context} {a b : List Char} (ha : x.Silent a)
    (hb : (x.after a).Silent b) : x.Silent (a ++ b) :=
  silent_iff_lacks.mpr ((silent_iff_lacks.mp ha).append (silent_iff_lacks.mp hb))

end Context

theorem Mark.scanFrom_append_of_silent {x : Context} {a : List Char} (h : x.Silent a) (n : Nat)
    (b : List Char) : scanFrom x n (a ++ b) = scanFrom (x.after a) (n + a.length) b := by
  induction a generalizing x n with
  | nil => rfl
  | cons c a ih =>
    have hnone : x.isTop = false ∨ Keyword.atFront? (c :: (a ++ b)) = none :=
      h.1.imp_right fun hmiss => Keyword.atFront?_of_misses hmiss b
    rw [List.cons_append, scanFrom_cons_of_none hnone, ih h.2, List.length_cons,
      Context.after_cons, Nat.add_assoc, Nat.add_comm 1]

/-- Whether a text holds no keyword wherever it is read outside quotes and comments. -/
def Hushed (cs : List Char) : Prop :=
  ∀ (n : Nat) (x : Context), x.AtLevel n → x.Silent cs

/-- Text in the words of sections is neutral and holds no keyword. -/
theorem Fragment.WordedIn.hushed {p : Placeholder} {f : Fragment}
    (h : WordedIn sectionWords p f) : Neutral f.sql.toList ∧ Hushed f.sql.toList := by
  have hopening : Keyword.Opening Keyword.openings := by decide
  obtain ⟨hneutral, hlacks⟩ := h.lacksWords hopening (by decide)
  exact ⟨hneutral, fun n x hx => Context.silent_iff_lacks.mpr (hlacks n x hx)⟩

end QueryChain
