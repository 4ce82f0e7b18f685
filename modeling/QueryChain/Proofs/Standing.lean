import QueryChain.Proofs.Silence
import QueryChain.Proofs.Sources

/-!
Where given words stand in a text: the positions at the top level where one of them begins in any
case and ends as a word. They are those of the parts of the text wherever no word goes on across
the border, and none are gained in parentheses.
-/

namespace QueryChain

open Text

namespace Keyword

def anyAtFront (words : List (List Char)) (cs : List Char) : Bool :=
  words.any fun w => (afterWord? w cs).isSome

def Capital (words : List (List Char)) : Prop :=
  ∀ w ∈ words, w ≠ [] ∧ ∀ l ∈ w, l.isUpper = true

instance (words : List (List Char)) : Decidable (Capital words) :=
  inferInstanceAs (Decidable (∀ w ∈ words, w ≠ [] ∧ ∀ l ∈ w, l.isUpper = true))

theorem isWordChar_of_toUpper {c l : Char} (h : c.toUpper = l) (hl : l.isUpper = true) :
    isWordChar c = true := by
  subst h
  exact isWordChar_of_isLetter hl

/-- What follows a text does not matter to a word at its front, unless a word goes on there. -/
theorem afterWord?_append {word : List Char} (hword : ∀ l ∈ word, l.isUpper = true)
    (a : List Char) {b : List Char} (hb : startsWord b = false) :
    afterWord? word (a ++ b) = (afterWord? word a).map (· ++ b) := by
  induction word generalizing a with
  | nil =>
    have hsame : startsWord (a ++ b) = startsWord a := by
      cases a with
      | nil => exact hb
      | cons c a => rfl
    simp only [afterWord?, hsame]
    split <;> rfl
  | cons l word ih =>
    obtain ⟨hl, hword⟩ := List.forall_mem_cons.mp hword
    cases a with
    | nil =>
      cases b with
      | nil => rfl
      | cons c b =>
        have hne : c.toUpper ≠ l := fun h =>
          ne_true_of_eq_false hb (isWordChar_of_toUpper h hl)
        simp [afterWord?, hne]
    | cons c a =>
      simp only [List.cons_append, afterWord?]
      split
      · exact ih hword a
      · rfl

theorem anyAtFront_append {words : List (List Char)} (hwords : Capital words) (a : List Char)
    {b : List Char} (hb : startsWord b = false) :
    anyAtFront words (a ++ b) = anyAtFront words a := by
  rw [anyAtFront, anyAtFront, Bool.eq_iff_iff, List.any_eq_true, List.any_eq_true]
  refine exists_congr fun w => and_congr_right fun hw => ?_
  rw [afterWord?_append (hwords w hw).2 a hb, Option.isSome_map]

theorem anyAtFront_of_startsWord {words : List (List Char)} (hwords : Capital words)
    {cs : List Char} (hcs : startsWord cs = false) : anyAtFront words cs = false := by
  have happend := anyAtFront_append hwords [] hcs
  rw [List.nil_append] at happend
  rw [happend, anyAtFront, List.any_eq_false]
  intro w hw
  obtain ⟨l, word, rfl⟩ := List.exists_cons_of_ne_nil (hwords w hw).1
  simp [afterWord?]

theorem anyAtFront_of_departsAll {words : List (List Char)} {cs : List Char}
    (h : departsAll words cs = true) : anyAtFront words cs = false := by
  rw [departsAll, List.all_eq_true] at h
  rw [anyAtFront, List.any_eq_false]
  intro w hw
  have hnone := afterWord?_of_departs (h w hw) []
  rw [List.append_nil] at hnone
  simp [hnone]

end Keyword

namespace Context

/-- The positions at the top level of a text where one of the words stands. -/
def standing (words : List (List Char)) : Context → List Char → List Nat
  | _, [] => []
  | x, c :: cs =>
    (if x.isTop && Keyword.anyAtFront words (c :: cs) then [0] else []) ++
      ((x.next c).standing words cs).map (· + 1)

variable {words : List (List Char)}

theorem standing_cons_of_not {x : Context} {c : Char} {cs : List Char}
    (h : x.isTop = false ∨ Keyword.anyAtFront words (c :: cs) = false) :
    x.standing words (c :: cs) = ((x.next c).standing words cs).map (· + 1) := by
  rcases h with h | h <;> simp [standing, h]

theorem lt_length_of_mem_standing {x : Context} {cs : List Char} {p : Nat}
    (h : p ∈ x.standing words cs) : p < cs.length := by
  induction cs generalizing x p with
  | nil => cases h
  | cons c cs ih =>
    rw [standing, List.mem_append] at h
    rcases h with h | h
    · split at h
      · obtain rfl := List.mem_singleton.mp h
        simp
      · cases h
    · obtain ⟨q, hq, rfl⟩ := List.mem_map.mp h
      simpa using ih hq

theorem standing_eq_nil_of_lacks {x : Context} {cs : List Char} (h : x.Lacks words cs) :
    x.standing words cs = [] := by
  induction cs generalizing x with
  | nil => rfl
  | cons c cs ih =>
    rw [standing_cons_of_not (h.1.imp_right Keyword.anyAtFront_of_departsAll), ih h.2]
    rfl

/-! ### A text and its parts -/

theorem standing_append_of_startsWord (hwords : Keyword.Capital words) (x : Context)
    (a : List Char) {b : List Char} (hb : Keyword.startsWord b = false) :
    x.standing words (a ++ b) =
      x.standing words a ++ ((x.after a).standing words b).map (a.length + ·) := by
  induction a generalizing x with
  | nil => simp [standing]
  | cons c a ih =>
    have hfront : Keyword.anyAtFront words (c :: (a ++ b)) = Keyword.anyAtFront words (c :: a) :=
      Keyword.anyAtFront_append hwords (c :: a) hb
    have hshift : (fun p => p + 1) ∘ (a.length + ·) = ((c :: a).length + ·) := by
      funext p
      simp only [Function.comp_apply, List.length_cons]
      omega
    rw [List.cons_append, standing, standing, hfront, ih, List.map_append, List.map_map, hshift,
      after_cons, List.append_assoc]

/-- Where no word goes on across the border of two texts, the words of both stand in the whole. -/
theorem standing_append (hwords : Keyword.Capital words) {x : Context} {a b : List Char}
    (h : Keyword.startsWord b = false ∨ (x.after a).inWord = false) :
    x.standing words (a ++ b) =
      x.standing words a ++ ((x.after a).standing words b).map (a.length + ·) := by
  rcases h with hb | ha
  · exact standing_append_of_startsWord hwords x a hb
  · rcases List.eq_nil_or_concat a with rfl | ⟨front, c, rfl⟩
    · simp [standing]
    · -- The last character of the first text belongs to no word.
      rw [List.concat_eq_append, after_append, after_cons, after_nil, inWord_next] at ha
      have hstarts (cs : List Char) : Keyword.startsWord (c :: cs) = false := ha
      have hskip (y : Context) (cs : List Char) :
          y.standing words (c :: cs) = ((y.next c).standing words cs).map (· + 1) :=
        standing_cons_of_not (.inr (Keyword.anyAtFront_of_startsWord hwords (hstarts cs)))
      have hshift : (front.length + ·) ∘ (fun p => p + 1) = ((front ++ [c]).length + ·) := by
        funext p
        simp only [Function.comp_apply, List.length_append, List.length_singleton]
        omega
      rw [List.concat_eq_append, List.append_assoc, List.singleton_append,
        standing_append_of_startsWord hwords x front (hstarts b), hskip, List.map_map, hshift,
        standing_append_of_startsWord hwords x front (hstarts []), hskip, after_append]
      simp [standing]

theorem standing_of_wordless (hwords : Keyword.Capital words) (x : Context) {cs : List Char}
    (h : ∀ c ∈ cs, Keyword.isWordChar c = false) : x.standing words cs = [] := by
  induction cs generalizing x with
  | nil => rfl
  | cons c cs ih =>
    obtain ⟨hc, hcs⟩ := List.forall_mem_cons.mp h
    rw [standing_cons_of_not (.inr (Keyword.anyAtFront_of_startsWord hwords hc)), ih _ hcs]
    rfl

/-- Whether a word goes on does not matter to a text that begins with none. -/
theorem standing_of_forget (hwords : Keyword.Capital words) {x y : Context}
    (h : x.forget = y.forget) {cs : List Char} (hcs : Keyword.startsWord cs = false) :
    x.standing words cs = y.standing words cs := by
  cases cs with
  | nil => rfl
  | cons c cs =>
    have hfront := Keyword.anyAtFront_of_startsWord hwords hcs
    have hnext : x.next c = y.next c := by
      rw [← next_inWord x false c, ← next_inWord y false c]
      exact congrArg (·.next c) h
    rw [standing_cons_of_not (.inr hfront), standing_cons_of_not (.inr hfront), hnext]

theorem after_wordless_blanks {pre : List Char}
    (h : ∀ c ∈ pre, isBlank c = true ∧ Keyword.isWordChar c = false) :
    ({} : Context).after pre = {} := by
  have hforget : (({} : Context).after pre).forget = {} :=
    forget_after_filler rfl fun c hc => isFiller_of_isBlank (h c hc).1
  have hword : (({} : Context).after pre).inWord = false := by
    rcases List.eq_nil_or_concat pre with rfl | ⟨front, c, rfl⟩
    · rfl
    · rw [List.concat_eq_append, after_append, after_cons, after_nil, inWord_next]
      exact (h c (by simp)).2
  generalize ({} : Context).after pre = x at hforget hword
  obtain ⟨quote, comment, dash, depth, inWord⟩ := x
  obtain rfl := hword
  exact hforget

/-- Blanks around a text that belong to no word move the words of the text and add none. -/
theorem standing_around (hwords : Keyword.Capital words) {pre post : List Char} (cs : List Char)
    (hpre : ∀ c ∈ pre, isBlank c = true ∧ Keyword.isWordChar c = false)
    (hpost : ∀ c ∈ post, Keyword.isWordChar c = false) :
    ({} : Context).standing words (pre ++ cs ++ post) =
      (({} : Context).standing words cs).map (pre.length + ·) := by
  have hend : Keyword.startsWord post = false := by
    cases post with
    | nil => rfl
    | cons c post => exact hpost c List.mem_cons_self
  have hstart := after_wordless_blanks hpre
  rw [standing_append hwords (.inl hend), standing_append hwords (.inr (by rw [hstart])),
    standing_of_wordless hwords _ fun c hc => (hpre c hc).2,
    standing_of_wordless hwords _ hpost, hstart]
  simp

/-- Trimming moves the words of a text whose blanks belong to no word. -/
theorem exists_standing_trimChars {cs : List Char}
    (hblank : ∀ c ∈ cs, isBlank c = true → Keyword.isWordChar c = false) :
    ∃ n, ∀ words, Keyword.Capital words →
      ({} : Context).standing words cs =
        (({} : Context).standing words (trimChars cs)).map (n + ·) := by
  obtain ⟨pre, post, hcs, hpre, hpost⟩ := exists_trimChars cs
  refine ⟨pre.length, fun words hwords => ?_⟩
  have hpre (c : Char) (hc : c ∈ pre) : isBlank c = true ∧ Keyword.isWordChar c = false :=
    ⟨hpre c hc, hblank c (by rw [hcs]; simp [hc]) (hpre c hc)⟩
  have hpost (c : Char) (hc : c ∈ post) : Keyword.isWordChar c = false :=
    hblank c (by rw [hcs]; simp [hc]) (hpost c hc)
  conv_lhs => rw [hcs]
  exact standing_around hwords (trimChars cs) hpre hpost

/-! ### Within parentheses -/

/-- One parenthesis deeper no word stands that does not stand there without it. -/
theorem Within.standing_subset {x y : Context} (h : x.Within y) (hword : y.inWord = x.inWord)
    (cs : List Char) : y.standing words cs ⊆ x.standing words cs := by
  induction cs generalizing x y with
  | nil => exact List.Subset.refl _
  | cons c cs ih =>
    have hnext : (y.next c).inWord = (x.next c).inWord := by rw [inWord_next, inWord_next]
    have htop (hy : y.isTop = true) : x.isTop = true := by
      obtain ⟨hquote, hcomment, hdepth, hinWord⟩ := isTop_iff.mp hy
      have habove := h.above
      exact isTop_iff.mpr ⟨h.quote.symm.trans hquote, h.comment.symm.trans hcomment, by omega,
        hword.symm.trans hinWord⟩
    intro p hp
    rw [standing, List.mem_append] at hp ⊢
    refine hp.imp (fun hp => ?_) (fun hp => List.map_subset _ (ih (h.next c) hnext) hp)
    split at hp
    · rename_i hcond
      rw [Bool.and_eq_true] at hcond
      rwa [if_pos (by rw [htop hcond.1, hcond.2, Bool.and_self])]
    · cases hp

theorem within_succ (n : Nat) : ({ depth := n } : Context).Within { depth := n + 1 } :=
  ⟨rfl, rfl, rfl, Nat.le_succ n, Nat.le_refl _⟩

/-- A text without the words has none of them at any depth either. -/
theorem standing_at_depth {cs : List Char} (h : ({} : Context).standing words cs = []) (n : Nat) :
    ({ depth := n } : Context).standing words cs = [] := by
  induction n with
  | zero => exact h
  | succ n ih =>
    have hsub : ({ depth := n + 1 } : Context).standing words cs ⊆
        ({ depth := n } : Context).standing words cs :=
      (within_succ n).standing_subset rfl cs
    rw [ih] at hsub
    exact List.subset_nil.mp hsub

/-- But for parentheses, what a text leaves open does not depend on the depth at which it is read. -/
theorem after_at_depth (cs : List Char) (n : Nat) :
    (({ depth := n } : Context).after cs).quote = (({} : Context).after cs).quote ∧
      (({ depth := n } : Context).after cs).comment = (({} : Context).after cs).comment := by
  induction n with
  | zero => exact ⟨rfl, rfl⟩
  | succ n ih =>
    have hwithin := (within_succ n).after cs
    exact ⟨hwithin.quote.trans ih.1, hwithin.comment.trans ih.2⟩

end Context

/-! ### The first FROM -/

theorem Keyword.atFront?_of_source {cs tail : List Char}
    (h : Keyword.source.after? cs = some tail) : atFront? cs = some (.source, tail) := by
  rw [atFront?, all, List.findSome?_cons, h]
  rfl

theorem Keyword.ne_source_of_atFront? {cs tail : List Char} {k : Keyword}
    (h : atFront? cs = some (k, tail)) (hsource : Keyword.source.after? cs = none) :
    k ≠ .source := by
  rintro rfl
  obtain ⟨k, -, hk⟩ := List.exists_of_findSome?_eq_some h
  obtain ⟨rest, hafter, hpair⟩ := Option.map_eq_some_iff.mp hk
  obtain ⟨rfl, -⟩ := Prod.mk.inj hpair
  rw [hsource] at hafter
  cases hafter

namespace Mark

def sourceWords : List (List Char) :=
  [Keyword.source.words.1]

theorem anyAtFront_sourceWords (cs : List Char) :
    Keyword.anyAtFront sourceWords cs = (Keyword.source.after? cs).isSome := by
  simp [Keyword.anyAtFront, sourceWords, Keyword.after?, Keyword.words]

theorem start_sources (cs : List Char) :
    (sources cs).map Mark.start = ({} : Context).standing sourceWords cs := by
  have hscan (x : Context) (n : Nat) : ((scanFrom x n cs).filter (·.keyword == .source)).map
      Mark.start = (x.standing sourceWords cs).map (n + ·) := by
    induction cs generalizing x n with
    | nil => rfl
    | cons c cs ih =>
      have hshift : (n + ·) ∘ (fun p => p + 1) = (n + 1 + ·) := by
        funext p
        simp only [Function.comp_apply]
        omega
      rw [scanFrom, List.filter_append, List.map_append, ih, Context.standing, List.map_append,
        List.map_map, hshift, anyAtFront_sourceWords]
      congr 1
      -- Only a FROM at this very place counts, and it goes before all other keywords.
      cases x.isTop with
      | false => rfl
      | true =>
        cases hsource : Keyword.source.after? (c :: cs) with
        | some tail => simp [Keyword.atFront?_of_source hsource]
        | none =>
          cases hfront : Keyword.atFront? (c :: cs) with
          | none => simp
          | some found =>
            have hne := Keyword.ne_source_of_atFront? hfront hsource
            simp [hne]
  rw [sources, scan, hscan]
  simp

/-- The first FROM of a text ends four letters behind its start. -/
theorem fromEnd_scan (cs : List Char) :
    fromEnd (scan cs) = ((({} : Context).standing sourceWords cs).head?.map (· + 4)).getD 0 := by
  rw [← start_sources, fromEnd, ← List.head?_filter, List.head?_map, Option.map_map, ← sources]
  cases hhead : (sources cs).head? with
  | none => rfl
  | some m =>
    obtain ⟨front, word, tail, -, hsource, rfl⟩ := exists_isSource (List.mem_of_mem_head? hhead)
    have hlength : word.length = 4 := by
      have hmap := congrArg List.length hsource.spelled
      rwa [List.length_map] at hmap
    simp [hlength]

end Mark

end QueryChain
