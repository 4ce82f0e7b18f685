import Mathlib.Data.List.Infix
import QueryChain.Text.Case

/-!
Lower case of the parts of a text. A capital sigma reads otherwise at the end of a word than inside
of it, so a text that stands in another one need not stand in its lower-case form. It does as long
as its sigmas read there as they do alone, and whether they do so wherever it stands can be read
off the text itself.
-/

namespace QueryChain

namespace Text

/-! ### Parts of a text -/

/-- What one character becomes between others, those before it nearest first. -/
def lowerAt (before after : List Char) (c : Char) : List Char :=
  if c = 'Σ' then [if isFinalSigma before after then 'ς' else 'σ']
  else if c = 'İ' then ['i', '\u0307']
  else [lowerChar c]

def lowerBetween (before after : List Char) : List Char → List Char
  | [] => []
  | c :: rest => lowerAt before (rest ++ after) c ++ lowerBetween (c :: before) after rest

theorem lowerAfter_cons (before rest : List Char) (c : Char) :
    lowerAfter before (c :: rest) = lowerAt before rest c ++ lowerAfter (c :: before) rest := rfl

theorem lowerAfter_append (before cs rest : List Char) :
    lowerAfter before (cs ++ rest) =
      lowerBetween before rest cs ++ lowerAfter (cs.reverse ++ before) rest := by
  induction cs generalizing before with
  | nil => rfl
  | cons c cs ih =>
    rw [List.cons_append, lowerAfter_cons, ih, lowerBetween, List.append_assoc,
      List.reverse_cons, List.append_assoc, List.singleton_append]

theorem lowerBetween_append (before after a b : List Char) :
    lowerBetween before after (a ++ b) =
      lowerBetween before (b ++ after) a ++ lowerBetween (a.reverse ++ before) after b := by
  induction a generalizing before with
  | nil => rfl
  | cons c a ih =>
    rw [List.cons_append, lowerBetween, ih, lowerBetween, List.append_assoc, List.append_assoc,
      List.reverse_cons, List.append_assoc, List.singleton_append]

/-- A text that stands alone. -/
theorem lowerChars_eq (cs : List Char) : lowerChars cs = lowerBetween [] [] cs := by
  have happend := lowerAfter_append [] cs []
  rwa [List.append_nil, lowerAfter, List.append_nil] at happend

/-- A text in which a needle stands. -/
theorem lowerChars_around (pre needle post : List Char) :
    lowerChars (pre ++ needle ++ post) =
      lowerBetween [] (needle ++ post) pre ++ lowerBetween pre.reverse post needle ++
        lowerBetween (pre ++ needle).reverse [] post := by
  rw [lowerChars_eq, lowerBetween_append, lowerBetween_append]
  simp only [List.append_nil]

theorem lowerAt_of_ne {c : Char} (h : c ≠ 'Σ') (before after before' after' : List Char) :
    lowerAt before after c = lowerAt before' after' c := by
  rw [lowerAt, lowerAt, if_neg h, if_neg h]

theorem lowerAt_sigma_iff {before after before' after' : List Char} :
    lowerAt before after 'Σ' = lowerAt before' after' 'Σ' ↔
      isFinalSigma before after = isFinalSigma before' after' := by
  simp only [lowerAt, if_true]
  cases isFinalSigma before after <;> cases isFinalSigma before' after' <;> decide

theorem length_lowerAt (before after before' after' : List Char) (c : Char) :
    (lowerAt before after c).length = (lowerAt before' after' c).length := by
  by_cases hc : c = 'Σ'
  · subst hc
    rfl
  · rw [lowerAt_of_ne hc]

theorem length_lowerBetween (before after before' after' cs : List Char) :
    (lowerBetween before after cs).length = (lowerBetween before' after' cs).length := by
  induction cs generalizing before before' with
  | nil => rfl
  | cons c cs ih =>
    rw [lowerBetween, lowerBetween, List.length_append, List.length_append,
      length_lowerAt before _ before' (cs ++ after'), ih _ (c :: before')]

/-- Between other characters a text becomes something else if and only if one of its sigmas
does. -/
theorem lowerBetween_eq_iff {before after before' after' cs : List Char} :
    lowerBetween before after cs = lowerBetween before' after' cs ↔
      ∀ a b, cs = a ++ 'Σ' :: b →
        isFinalSigma (a.reverse ++ before) (b ++ after) =
          isFinalSigma (a.reverse ++ before') (b ++ after') := by
  induction cs generalizing before before' with
  | nil => simp [lowerBetween]
  | cons c cs ih =>
    rw [lowerBetween, lowerBetween]
    constructor
    · intro h
      obtain ⟨hfront, hrest⟩ := List.append_inj h (length_lowerAt ..)
      rintro (_ | ⟨d, a⟩) b heq
      · obtain ⟨rfl, rfl⟩ := List.cons.inj heq
        exact lowerAt_sigma_iff.mp hfront
      · obtain ⟨rfl, rfl⟩ := List.cons.inj heq
        simpa using ih.mp hrest a b rfl
    · intro h
      have hfront : lowerAt before (cs ++ after) c = lowerAt before' (cs ++ after') c := by
        by_cases hc : c = 'Σ'
        · subst hc
          exact lowerAt_sigma_iff.mpr (h [] cs rfl)
        · exact lowerAt_of_ne hc ..
      rw [hfront, ih.mpr]
      rintro a b rfl
      simpa using h (c :: a) b rfl

/-! ### Sigmas of a needle -/

/-- Whether every sigma of a needle reads between `pre` and `post` as it does alone. -/
def SigmasKept (pre post needle : List Char) : Prop :=
  ∀ a b, needle = a ++ 'Σ' :: b →
    isFinalSigma (a.reverse ++ pre.reverse) (b ++ post) = isFinalSigma a.reverse b

theorem sigmasKept_iff {pre post needle : List Char} :
    SigmasKept pre post needle ↔ lowerBetween pre.reverse post needle = lowerChars needle := by
  rw [lowerChars_eq, lowerBetween_eq_iff]
  simp only [List.append_nil]
  exact Iff.rfl

/-- Whether a text between two others lies where it may, given whether there may be text before
it and behind it. -/
def Between (before after : Bool) (pre post : List Char) : Prop :=
  (before = false → pre = []) ∧ (after = false → post = [])

/-- Whether no text around a needle can change how its sigmas read, given whether there may be text
before it and behind it. A sigma that ends a word of the needle must not be able to go on, and one
that begins the needle must not be able to end a word. -/
def SigmasSettled (before after : Bool) (needle : List Char) : Prop :=
  ∀ a b, needle = a ++ 'Σ' :: b →
    (after = true → b.all isCaseIgnorable = true → meetsCased a.reverse = false) ∧
    (before = true → a.all isCaseIgnorable = true → meetsCased b = true)

theorem meetsCased_cons (c : Char) (cs : List Char) :
    meetsCased (c :: cs) = if isCaseIgnorable c then meetsCased cs else isCased c := by
  rw [meetsCased, List.dropWhile_cons]
  cases isCaseIgnorable c <;> rfl

theorem meetsCased_append (a b : List Char) :
    meetsCased (a ++ b) = if a.all isCaseIgnorable then meetsCased b else meetsCased a := by
  induction a with
  | nil => rfl
  | cons c a ih =>
    rw [List.cons_append, meetsCased_cons, meetsCased_cons, ih, List.all_cons]
    cases isCaseIgnorable c <;> rfl

theorem meetsCased_of_all {cs : List Char} (h : cs.all isCaseIgnorable = true) :
    meetsCased cs = false := by
  have happend := meetsCased_append cs []
  rwa [List.append_nil, if_pos h] at happend

/-- The sigmas of a settled needle read alike wherever it may stand. -/
theorem SigmasSettled.sigmasKept {before after : Bool} {pre post needle : List Char}
    (h : SigmasSettled before after needle) (hplace : Between before after pre post) :
    SigmasKept pre post needle := by
  intro a b heq
  obtain ⟨hend, hstart⟩ := h a b heq
  rw [isFinalSigma, isFinalSigma, meetsCased_append, meetsCased_append, List.all_reverse]
  by_cases ha : a.all isCaseIgnorable = true
  · rw [if_pos ha, meetsCased_of_all (List.all_reverse.trans ha), Bool.false_and]
    cases before with
    | false =>
      rw [hplace.1 rfl]
      rfl
    | true =>
      have hb := hstart rfl ha
      have hall : ¬ b.all isCaseIgnorable = true := by
        intro hall
        rw [meetsCased_of_all hall] at hb
        cases hb
      rw [if_neg hall, hb, Bool.not_true, Bool.and_false]
  · rw [if_neg ha]
    by_cases hb : b.all isCaseIgnorable = true
    · rw [if_pos hb, meetsCased_of_all hb]
      cases after with
      | false =>
        rw [hplace.2 rfl]
        rfl
      | true =>
        rw [hend rfl hb]
        rfl
    · rw [if_neg hb]

/-! ### Sigmas that change -/

/-- The two small sigmas share out what does not depend on the text around. -/
theorem count_sigmas (before after before' after' cs : List Char) :
    (lowerBetween before after cs).count 'ς' + (lowerBetween before after cs).count 'σ' =
      (lowerBetween before' after' cs).count 'ς' +
        (lowerBetween before' after' cs).count 'σ' := by
  induction cs generalizing before before' with
  | nil => rfl
  | cons c cs ih =>
    have hfront : (lowerAt before (cs ++ after) c).count 'ς' +
          (lowerAt before (cs ++ after) c).count 'σ' =
        (lowerAt before' (cs ++ after') c).count 'ς' +
          (lowerAt before' (cs ++ after') c).count 'σ' := by
      by_cases hc : c = 'Σ'
      · subst hc
        simp only [lowerAt, if_true]
        cases isFinalSigma before (cs ++ after) <;>
          cases isFinalSigma before' (cs ++ after') <;> decide
      · rw [lowerAt_of_ne hc]
    simp only [lowerBetween, List.count_append]
    have hrest := ih (c :: before) (c :: before')
    omega

/-- Where every sigma that is final here is final there, no fewer final sigmas are written there. -/
theorem count_final_le {before after before' after' cs : List Char}
    (h : ∀ a b, cs = a ++ 'Σ' :: b → isFinalSigma (a.reverse ++ before) (b ++ after) = true →
      isFinalSigma (a.reverse ++ before') (b ++ after') = true) :
    (lowerBetween before after cs).count 'ς' ≤ (lowerBetween before' after' cs).count 'ς' := by
  induction cs generalizing before before' with
  | nil => exact Nat.le_refl _
  | cons c cs ih =>
    rw [lowerBetween, lowerBetween, List.count_append, List.count_append]
    apply Nat.add_le_add
    · by_cases hc : c = 'Σ'
      · subst hc
        have hfirst := h [] cs rfl
        simp only [List.reverse_nil, List.nil_append] at hfirst
        simp only [lowerAt, if_true]
        cases hfinal : isFinalSigma before (cs ++ after) with
        | false => exact Nat.zero_le _
        | true => rw [hfirst hfinal]
      · rw [lowerAt_of_ne hc]
    · apply ih
      rintro a b rfl
      simpa using h (c :: a) b rfl

/-- There are more of them if some sigma is final there alone. -/
theorem count_final_lt {before after before' after' a b : List Char}
    (h : ∀ a' b', a ++ 'Σ' :: b = a' ++ 'Σ' :: b' →
      isFinalSigma (a'.reverse ++ before) (b' ++ after) = true →
      isFinalSigma (a'.reverse ++ before') (b' ++ after') = true)
    (hhere : isFinalSigma (a.reverse ++ before) (b ++ after) = false)
    (hthere : isFinalSigma (a.reverse ++ before') (b ++ after') = true) :
    (lowerBetween before after (a ++ 'Σ' :: b)).count 'ς' <
      (lowerBetween before' after' (a ++ 'Σ' :: b)).count 'ς' := by
  have hfront : (lowerBetween before ('Σ' :: b ++ after) a).count 'ς' ≤
      (lowerBetween before' ('Σ' :: b ++ after') a).count 'ς' := by
    apply count_final_le
    rintro a' b' rfl
    simpa using h a' (b' ++ 'Σ' :: b) (by simp)
  have hback : (lowerBetween ('Σ' :: (a.reverse ++ before)) after b).count 'ς' ≤
      (lowerBetween ('Σ' :: (a.reverse ++ before')) after' b).count 'ς' := by
    apply count_final_le
    rintro a' b' rfl
    simpa using h (a ++ 'Σ' :: a') b' (by simp)
  have hsmall : (lowerAt (a.reverse ++ before) (b ++ after) 'Σ').count 'ς' = 0 := by
    rw [lowerAt, if_pos rfl, hhere]
    decide
  have hfinal : (lowerAt (a.reverse ++ before') (b ++ after') 'Σ').count 'ς' = 1 := by
    rw [lowerAt, if_pos rfl, hthere]
    decide
  simp only [lowerBetween_append, lowerBetween, List.count_append, hsmall, hfinal]
  omega

theorem meetsCased_letter : meetsCased ['A'] = true := by
  decide +kernel

/-- A letter behind the needle goes on with a word that would end in a sigma. -/
theorem not_infix_of_letter_behind {a b : List Char} (hcased : meetsCased a.reverse = true)
    (hb : b.all isCaseIgnorable = true) :
    ¬ lowerChars (a ++ 'Σ' :: b) <:+: lowerChars (a ++ 'Σ' :: b ++ ['A']) := by
  intro hfound
  have hlast (before : List Char) : (lowerBetween before [] ['A']).count 'ς' = 0 := by
    have hlower : lowerBetween before [] ['A'] = ['a'] := rfl
    rw [hlower]
    decide
  have hle := hfound.sublist.count_le 'ς'
  rw [lowerChars_eq, lowerChars_eq, lowerBetween_append _ _ _ ['A'], List.count_append, hlast,
    Nat.add_zero, List.append_nil] at hle
  refine Nat.not_lt.mpr hle (count_final_lt ?_ ?_ ?_)
  · intro a' b' _ hfinal
    simp only [isFinalSigma, meetsCased_append b', meetsCased_letter, Bool.and_eq_true,
      Bool.not_eq_true', List.append_nil] at hfinal ⊢
    split at hfinal
    · simp at hfinal
    · exact hfinal
  · rw [isFinalSigma, meetsCased_append b, if_pos hb, meetsCased_letter]
    exact Bool.and_false _
  · rw [isFinalSigma, List.append_nil, List.append_nil, hcased, meetsCased_of_all hb]
    rfl

/-- A letter before the needle makes a word that ends in a sigma at its front. -/
theorem not_infix_of_letter_before {a b : List Char} (ha : a.all isCaseIgnorable = true)
    (hcased : meetsCased b = false) :
    ¬ lowerChars (a ++ 'Σ' :: b) <:+: lowerChars ('A' :: (a ++ 'Σ' :: b)) := by
  intro hfound
  have hle := hfound.sublist.count_le 'σ'
  have hfirst : lowerChars ('A' :: (a ++ 'Σ' :: b)) =
      'a' :: lowerBetween ['A'] [] (a ++ 'Σ' :: b) := by
    rw [lowerChars_eq]
    rfl
  have hother : List.count 'σ' ('a' :: lowerBetween ['A'] [] (a ++ 'Σ' :: b)) =
      List.count 'σ' (lowerBetween ['A'] [] (a ++ 'Σ' :: b)) :=
    List.count_cons_of_ne (by decide)
  rw [hfirst, lowerChars_eq, hother] at hle
  have hsum := count_sigmas [] [] ['A'] [] (a ++ 'Σ' :: b)
  have hlt : (lowerBetween [] [] (a ++ 'Σ' :: b)).count 'ς' <
      (lowerBetween ['A'] [] (a ++ 'Σ' :: b)).count 'ς' := by
    apply count_final_lt
    · intro a' b' _ hfinal
      simp only [isFinalSigma, meetsCased_append a'.reverse, meetsCased_letter, Bool.and_eq_true,
        List.append_nil] at hfinal ⊢
      split
      · exact ⟨rfl, hfinal.2⟩
      · exact hfinal
    · rw [isFinalSigma, List.append_nil, meetsCased_of_all (List.all_reverse.trans ha)]
      rfl
    · rw [isFinalSigma, meetsCased_append, if_pos (List.all_reverse.trans ha), meetsCased_letter,
        List.append_nil, hcased]
      rfl
  omega

/-- A needle is settled if and only if its lower-case form stands in that of every text in which it
may stand. -/
theorem sigmasSettled_iff {before after : Bool} {needle : List Char} :
    SigmasSettled before after needle ↔ ∀ pre post, Between before after pre post →
      lowerChars needle <:+: lowerChars (pre ++ needle ++ post) := by
  constructor
  · intro h pre post hplace
    rw [lowerChars_around, sigmasKept_iff.mp (h.sigmasKept hplace)]
    exact List.infix_append _ _ _
  · rintro h a b rfl
    constructor
    · rintro rfl hb
      by_contra hcased
      refine not_infix_of_letter_behind (eq_true_of_ne_false hcased) hb ?_
      simpa using h [] ['A'] ⟨fun _ => rfl, fun h => absurd h (by decide)⟩
    · rintro rfl ha
      by_contra hcased
      refine not_infix_of_letter_before ha (eq_false_of_ne_true hcased) ?_
      simpa using h ['A'] [] ⟨fun h => absurd h (by decide), fun _ => rfl⟩

end Text

end QueryChain
