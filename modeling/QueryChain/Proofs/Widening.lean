import QueryChain.Proofs.Lowering
import QueryChain.Records.Selection

/-!
Pattern lookups with and without regard to case. A lookup that ignores the case looks for the
lower-case needle in the lower-case text. So it matches wherever the lookup that minds the case
does, unless a capital sigma of the needle reads otherwise in the text than in the needle alone.
-/

namespace QueryChain

open Text

namespace Predicate

variable {l : Lookup} {before after : Bool}

/-- A pattern lookup holds where the text around the needle is where its wildcards are. -/
theorem textMatches_iff (h : l.wildcards? = some (before, after)) {text needle : List Char} :
    textMatches l text needle = true ↔
      ∃ pre post, text = pre ++ needle ++ post ∧ Between before after pre post := by
  cases l with
  | startsWith | iStartsWith =>
    cases h
    rw [textMatches, decide_eq_true_iff]
    constructor
    · rintro ⟨post, rfl⟩
      exact ⟨[], post, rfl, fun _ => rfl, fun h => absurd h (by decide)⟩
    · rintro ⟨pre, post, rfl, hpre, -⟩
      rw [hpre rfl]
      exact List.prefix_append needle post
  | endsWith | iEndsWith =>
    cases h
    rw [textMatches, decide_eq_true_iff]
    constructor
    · rintro ⟨pre, rfl⟩
      exact ⟨pre, [], (List.append_nil _).symm, fun h => absurd h (by decide), fun _ => rfl⟩
    · rintro ⟨pre, post, rfl, -, hpost⟩
      rw [hpost rfl, List.append_nil]
      exact List.suffix_append pre needle
  | contains | iContains =>
    cases h
    show occursIn needle text = true ↔ _
    rw [occursIn_iff]
    constructor
    · rintro ⟨pre, post, rfl⟩
      exact ⟨pre, post, rfl, fun h => absurd h (by decide), fun h => absurd h (by decide)⟩
    · rintro ⟨pre, post, rfl, -, -⟩
      exact List.infix_append pre needle post
  | exact | oneOf | isNull | gt | gte | lt | lte => cases h

/-- Whether a needle stands somewhere in a text, where it may, with all its sigmas kept. -/
def Kept (before after : Bool) (text needle : List Char) : Prop :=
  ∃ pre post, text = pre ++ needle ++ post ∧ Between before after pre post ∧
    SigmasKept pre post needle

theorem textMatches_of_kept (h : l.wildcards? = some (before, after)) {text needle : List Char}
    (hkept : Kept before after text needle) :
    textMatches l (lowerChars text) (lowerChars needle) = true := by
  obtain ⟨pre, post, rfl, ⟨hpre, hpost⟩, hkept⟩ := hkept
  rw [lowerChars_around, sigmasKept_iff.mp hkept]
  refine (textMatches_iff h).mpr ⟨_, _, rfl, fun hbefore => ?_, fun hafter => ?_⟩
  · rw [hpre hbefore]
    rfl
  · rw [hpost hafter]
    rfl

/-- Where the needle can stand in one place only, its sigmas are kept there if its lower-case form
is found. -/
theorem kept_of_textMatches {l' : Lookup} (h : l.wildcards? = some (before, after))
    (h' : l'.wildcards? = some (before, after)) (hanchored : before = false ∨ after = false)
    {text needle : List Char} (hmatch : textMatches l text needle = true)
    (hlower : textMatches l' (lowerChars text) (lowerChars needle) = true) :
    Kept before after text needle := by
  obtain ⟨pre, post, rfl, hpre, hpost⟩ := (textMatches_iff h).mp hmatch
  obtain ⟨pre', post', heq, hpre', hpost'⟩ := (textMatches_iff h').mp hlower
  refine ⟨pre, post, rfl, ⟨hpre, hpost⟩, sigmasKept_iff.mpr ?_⟩
  have hlength : (lowerBetween pre.reverse post needle).length = (lowerChars needle).length := by
    rw [lowerChars_eq, length_lowerBetween]
  rw [lowerChars_around] at heq
  rcases hanchored with hbefore | hafter
  · rw [hpre' hbefore, hpre hbefore, List.append_assoc, List.append_assoc] at heq
    rw [hpre hbefore] at hlength ⊢
    exact List.append_inj_left heq hlength
  · rw [hpost' hafter, hpost hafter, lowerBetween, List.append_nil, List.append_nil,
      List.append_nil] at heq
    rw [hpost hafter] at hlength ⊢
    exact List.append_inj_right' heq hlength

/-- Whether a needle is found in every text in which it stands. -/
theorem sigmasSettled_iff_textMatches {l' : Lookup} (h : l.wildcards? = some (before, after))
    (h' : l'.wildcards? = some (before, after)) {needle : List Char} :
    SigmasSettled before after needle ↔ ∀ text, textMatches l text needle = true →
      textMatches l' (lowerChars text) (lowerChars needle) = true := by
  constructor
  · intro hsettled text hmatch
    obtain ⟨pre, post, htext, hplace⟩ := (textMatches_iff h).mp hmatch
    exact textMatches_of_kept h' ⟨pre, post, htext, hplace, hsettled.sigmasKept hplace⟩
  · intro hall
    rw [sigmasSettled_iff]
    intro pre post hplace
    have hmatch := hall (pre ++ needle ++ post) ((textMatches_iff h).mpr ⟨pre, post, rfl, hplace⟩)
    obtain ⟨pre', post', heq, -⟩ := (textMatches_iff h').mp hmatch
    exact ⟨pre', post', heq.symm⟩

end Predicate

namespace Selection

variable {α : Type} [Record α] {l l' : Lookup} {before after : Bool}

/-- A pattern lookup compares the texts of the coerced value and operand, in lower case if it
ignores the case. -/
theorem satisfies_pattern (hl : l.wildcards? = some (before, after)) (s : Selection α) (record : α)
    (field : String) (operand : Value) :
    s.satisfies record ⟨field, l, operand, false⟩ = true ↔
      ((s.value record field).isNull = false ∧
        (s.registry.coerce field operand).isNull = false) ∧
      Predicate.textMatches l
        (if l.ignoresCase then lowerChars (s.value record field).toText.toList
          else (s.value record field).toText.toList)
        (if l.ignoresCase then lowerChars (s.registry.coerce field operand).toText.toList
          else (s.registry.coerce field operand).toText.toList) = true := by
  have hpattern : s.satisfies record ⟨field, l, operand, false⟩ =
      Predicate.patternMatches l (s.value record field) (s.registry.coerce field operand) := by
    rw [satisfies, Bool.bne_false]
    cases l with
    | startsWith | iStartsWith | endsWith | iEndsWith | contains | iContains => rfl
    | exact | oneOf | isNull | gt | gte | lt | lte => cases hl
  rw [hpattern, Predicate.patternMatches]
  simp

/-- A match that minds the case, and the lookup with the same wildcards that ignores it. That one
matches too if the needle stands somewhere in the text with all its sigmas kept, and if the needle
can stand in one place only, it matches in no other case. The needles for which this holds in every
text are the settled ones. -/
theorem widened_iff (hl : l.wildcards? = some (before, after))
    (hl' : l'.wildcards? = some (before, after)) (hcase : l.ignoresCase = false)
    (hfold : l'.ignoresCase = true) :
    (∀ (s : Selection α) (record : α) (field : String) (operand : Value),
      s.satisfies record ⟨field, l, operand, false⟩ = true →
      let text := (s.value record field).toText.toList
      let needle := (s.registry.coerce field operand).toText.toList
      (Predicate.Kept before after text needle →
        s.satisfies record ⟨field, l', operand, false⟩ = true) ∧
      (before = false ∨ after = false → s.satisfies record ⟨field, l', operand, false⟩ = true →
        Predicate.Kept before after text needle)) ∧
    ∀ needle : List Char, SigmasSettled before after needle ↔
      ∀ text, Predicate.textMatches l text needle = true →
        Predicate.textMatches l' (lowerChars text) (lowerChars needle) = true := by
  refine ⟨?_, fun needle => Predicate.sigmasSettled_iff_textMatches hl hl'⟩
  intro s record field operand hmatch
  rw [satisfies_pattern hl, hcase] at hmatch
  rw [satisfies_pattern hl', hfold]
  obtain ⟨hpresent, hmatch⟩ := hmatch
  constructor
  · exact fun hkept => ⟨hpresent, Predicate.textMatches_of_kept hl' hkept⟩
  · exact fun hanchored hlower => Predicate.kept_of_textMatches hl hl' hanchored hmatch hlower.2

/-- The sigmas of a needle inside of a word, which are none at its end for the needle alone
either. -/
theorem widened_iff_of_inner_sigma :
    let s : Selection Row := { items := [] }
    let record : Row := ⟨[("a", .text "ΟΔΥΣΣΕΥΣ")]⟩
    s.satisfies record ⟨"a", .startsWith, .text "ΟΔΥΣΣΕ", false⟩ = true ∧
      s.satisfies record ⟨"a", .iStartsWith, .text "ΟΔΥΣΣΕ", false⟩ = true := by
  intro s record
  have hmatch : s.satisfies record ⟨"a", .startsWith, .text "ΟΔΥΣΣΕ", false⟩ = true := by
    decide +kernel
  have hwidened := @widened_iff Row _ .startsWith .iStartsWith false true rfl rfl rfl rfl
  refine ⟨hmatch, (hwidened.1 s record "a" (.text "ΟΔΥΣΣΕ") hmatch).1 ?_⟩
  refine ⟨[], "ΥΣ".toList, by decide, ⟨fun _ => rfl, fun h => absurd h (by decide)⟩, ?_⟩
  exact sigmasKept_iff.mpr (by decide +kernel)

/-- A word goes on behind a needle that ends in a sigma, and one goes before a sigma that is a
needle of its own: the lookups that mind the case match, and those that ignore it do not. -/
theorem sigma_at_edge_narrows :
    let s : Selection Row := { items := [] }
    let inside : Row := ⟨[("a", .text "ΑΣΑ")]⟩
    let atEnd : Row := ⟨[("a", .text "ΑΣ")]⟩
    (s.satisfies inside ⟨"a", .startsWith, .text "ΑΣ", false⟩ = true ∧
      s.satisfies inside ⟨"a", .iStartsWith, .text "ΑΣ", false⟩ = false) ∧
    (s.satisfies inside ⟨"a", .contains, .text "ΑΣ", false⟩ = true ∧
      s.satisfies inside ⟨"a", .iContains, .text "ΑΣ", false⟩ = false) ∧
    (s.satisfies atEnd ⟨"a", .endsWith, .text "Σ", false⟩ = true ∧
      s.satisfies atEnd ⟨"a", .iEndsWith, .text "Σ", false⟩ = false) := by
  decide +kernel

end Selection

end QueryChain
