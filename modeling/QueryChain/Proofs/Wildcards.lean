import Mathlib.Data.List.Infix
import QueryChain.Records.Selection

/-!
What the patterns of LIKE match. In a pattern `%` stands for any text and `_` for any one
character, a backslash makes the character behind it stand for itself, and so does every other
character. A needle whose wildcards are escaped stands for itself alone, also where it ends in a
backslash before a wildcard, so a pattern matches a text where the lookup holds in memory.
-/

namespace QueryChain

namespace Pattern

/-- A part of a pattern: any text, or one character of some sort. -/
inductive Piece
  | run
  | char (accepts : Char → Bool)

namespace Piece

def exact (c : Char) : Piece :=
  .char (· == c)

def ofChar (c : Char) : Piece :=
  if c = '%' then .run
  else if c = '_' then .char fun _ => true
  else exact c

/-- Whether a text consists of the given pieces. -/
def fits : List Piece → List Char → Bool
  | [], text => text.isEmpty
  | .run :: rest, text => text.tails.any fun tail => fits rest tail
  | .char _ :: _, [] => false
  | .char accepts :: rest, c :: text => accepts c && fits rest text

end Piece

/-- The pieces of a pattern, given whether a backslash stands before it. A backslash that ends the
pattern stands for itself. -/
def piecesFrom (escaped : Bool) : List Char → List Piece
  | [] => if escaped then [.exact '\\'] else []
  | c :: rest =>
    if escaped then .exact c :: piecesFrom false rest
    else if c = '\\' then piecesFrom true rest
    else .ofChar c :: piecesFrom false rest

/-- Whether a text matches a pattern. -/
def admits (pattern text : String) : Bool :=
  Piece.fits (piecesFrom false pattern.toList) text.toList

/-! ### Pieces of escaped needles -/

/-- What is escaped stands for itself, whatever comes behind it. -/
theorem piecesFrom_escapeChars (needle rest : List Char) :
    piecesFrom false (escapeChars needle ++ rest) =
      needle.map .exact ++ piecesFrom false rest := by
  induction needle with
  | nil => rfl
  | cons c needle ih =>
    have hstep : escapeChars (c :: needle) ++ rest =
        (if isSpecial c then ['\\', c] else [c]) ++ (escapeChars needle ++ rest) := by
      simp only [escapeChars, List.flatMap_cons, List.append_assoc]
    rw [hstep, List.map_cons, List.cons_append, ← ih]
    cases hspecial : isSpecial c with
    | true => simp [piecesFrom]
    | false =>
      have hplain : c ≠ '\\' ∧ c ≠ '%' ∧ c ≠ '_' := by
        simpa [isSpecial, and_assoc] using hspecial
      simp [piecesFrom, Piece.ofChar, hplain]

theorem piecesFrom_wildcard (after : Bool) :
    piecesFrom false (if after then ['%'] else []) = if after then [.run] else [] := by
  cases after <;> simp [piecesFrom, Piece.ofChar]

/-- The pieces of the pattern for a needle: the needle, with any text where the wildcards are. -/
theorem pieces_pattern (before after : Bool) (needle : List Char) :
    piecesFrom false ((if before then ['%'] else []) ++ escapeChars needle ++
        (if after then ['%'] else [])) =
      (if before then [.run] else []) ++ needle.map .exact ++ (if after then [.run] else []) := by
  have hneedle := piecesFrom_escapeChars needle (if after then ['%'] else [])
  rw [piecesFrom_wildcard] at hneedle
  cases before with
  | false => exact hneedle
  | true => simp [piecesFrom, Piece.ofChar, hneedle]

/-! ### Texts of pieces -/

namespace Piece

theorem fits_run {rest : List Piece} {text : List Char} :
    fits (.run :: rest) text = true ↔ ∃ tail, tail <:+ text ∧ fits rest tail = true := by
  simp [fits]

def isChar : Piece → Bool
  | run => false
  | char _ => true

variable {ps rest : List Piece} {text : List Char}

/-- Single characters match a part in front, of their number. -/
theorem fits_append (h : ∀ p ∈ ps, p.isChar = true) :
    fits (ps ++ rest) text = true ↔
      ∃ front tail, text = front ++ tail ∧ fits ps front = true ∧ fits rest tail = true := by
  induction ps generalizing text with
  | nil =>
    constructor
    · exact fun hrest => ⟨[], text, rfl, rfl, hrest⟩
    · rintro ⟨front, tail, rfl, hfront, htail⟩
      rwa [List.isEmpty_iff.mp hfront]
  | cons p ps ih =>
    obtain ⟨hp, hps⟩ := List.forall_mem_cons.mp h
    cases p with
    | run => cases hp
    | char accepts =>
      rw [List.cons_append]
      constructor
      · intro hfits
        cases text with
        | nil => cases hfits
        | cons c text =>
          rw [fits, Bool.and_eq_true] at hfits
          obtain ⟨front, tail, rfl, hfront, htail⟩ := (ih hps).mp hfits.2
          exact ⟨c :: front, tail, rfl, by rw [fits, hfits.1, hfront, Bool.and_self], htail⟩
      · rintro ⟨front, tail, rfl, hfront, htail⟩
        cases front with
        | nil => cases hfront
        | cons c front =>
          rw [fits, Bool.and_eq_true] at hfront
          rw [List.cons_append, fits, hfront.1, Bool.true_and]
          exact (ih hps).mpr ⟨front, tail, rfl, hfront.2, htail⟩

theorem length_of_fits (h : ∀ p ∈ ps, p.isChar = true) (hfits : fits ps text = true) :
    text.length = ps.length := by
  induction ps generalizing text with
  | nil =>
    obtain rfl := List.isEmpty_iff.mp hfits
    rfl
  | cons p ps ih =>
    obtain ⟨hp, hps⟩ := List.forall_mem_cons.mp h
    cases p with
    | run => cases hp
    | char accepts =>
      cases text with
      | nil => cases hfits
      | cons c text =>
        rw [fits, Bool.and_eq_true] at hfits
        rw [List.length_cons, ih hps hfits.2, List.length_cons]

theorem isChar_exact (needle : List Char) : ∀ p ∈ needle.map exact, p.isChar = true :=
  List.forall_mem_map.mpr fun _ _ => rfl

theorem fits_exact {needle text : List Char} :
    fits (needle.map .exact) text = true ↔ text = needle := by
  induction needle generalizing text with
  | nil => simp [fits]
  | cons c needle ih => cases text <;> simp [exact, fits, ih]

/-- Any text may end a text. -/
theorem fits_last_run (text : List Char) : fits [.run] text = true :=
  fits_run.mpr ⟨[], List.nil_suffix, rfl⟩

theorem fits_at_front (h : ∀ p ∈ ps, p.isChar = true) :
    fits (ps ++ [.run]) text = true ↔ ∃ part, part <+: text ∧ fits ps part = true := by
  rw [fits_append h]
  simp only [fits_last_run, and_true]
  constructor
  · rintro ⟨front, tail, rfl, hfront⟩
    exact ⟨front, List.prefix_append front tail, hfront⟩
  · rintro ⟨front, ⟨tail, rfl⟩, hfront⟩
    exact ⟨front, tail, rfl, hfront⟩

theorem fits_inside (h : ∀ p ∈ ps, p.isChar = true) :
    fits (.run :: (ps ++ [.run])) text = true ↔ ∃ part, part <:+: text ∧ fits ps part = true := by
  simp only [fits_run, fits_at_front h, List.infix_iff_prefix_suffix]
  constructor
  · rintro ⟨tail, htail, part, hpart, hfits⟩
    exact ⟨part, ⟨tail, hpart, htail⟩, hfits⟩
  · rintro ⟨part, ⟨tail, hpart, htail⟩, hfits⟩
    exact ⟨tail, htail, part, hpart, hfits⟩

end Piece

end Pattern

/-! ### Lookups -/

namespace Lookup

open Pattern

/-- Single characters with any text around them where a lookup has wildcards match the texts in
which they match a part that stands where the lookup says. -/
theorem fits_wildcards {l : Lookup} {before after : Bool}
    (h : l.wildcards? = some (before, after)) {ps : List Pattern.Piece}
    (hps : ∀ p ∈ ps, p.isChar = true) (text : List Char) :
    Piece.fits ((if before then [.run] else []) ++ ps ++ (if after then [.run] else [])) text =
        true ↔
      ∃ part, Predicate.textMatches l text part = true ∧ Piece.fits ps part = true := by
  cases l with
  | startsWith | iStartsWith =>
    cases h
    simp only [Predicate.textMatches, decide_eq_true_eq]
    exact Piece.fits_at_front hps
  | endsWith | iEndsWith =>
    cases h
    simp only [Predicate.textMatches, decide_eq_true_eq, if_true, Bool.false_eq_true, if_false,
      List.append_nil]
    exact Piece.fits_run
  | contains | iContains =>
    cases h
    simp only [Predicate.textMatches, Predicate.occursIn_iff]
    exact Piece.fits_inside hps
  | exact | oneOf | isNull | gt | gte | lt | lte => cases h

theorem exists_pattern {l : Lookup} {before after : Bool}
    (h : l.wildcards? = some (before, after)) (needle : String) :
    ∃ pattern, l.pattern? needle = some pattern ∧
      pattern.toList = (if before then ['%'] else []) ++ escapeChars needle.toList ++
        (if after then ['%'] else []) := by
  refine ⟨_, congrArg (Option.map _) h, ?_⟩
  cases before <;> cases after <;> simp [escape]

theorem admits_pattern_iff {l : Lookup} (h : l.isPattern = true) (needle text : String) :
    ∃ pattern, l.pattern? needle = some pattern ∧
      (admits pattern text = true ↔
        Predicate.textMatches l text.toList needle.toList = true) := by
  obtain ⟨⟨before, after⟩, hwildcards⟩ := Option.isSome_iff_exists.mp h
  obtain ⟨pattern, hsome, hpattern⟩ := exists_pattern hwildcards needle
  refine ⟨pattern, hsome, ?_⟩
  rw [admits, hpattern, pieces_pattern, fits_wildcards hwildcards (Piece.isChar_exact _)]
  simp [Piece.fits_exact]

/-- A lookup by a pattern that minds the case holds of a text in memory if and only if its pattern
matches the text. -/
theorem pattern_matches_iff {l : Lookup} (hpattern : l.isPattern = true)
    (hcase : l.ignoresCase = false) (needle text : String) :
    ∃ pattern, l.pattern? needle = some pattern ∧
      (admits pattern text = true ↔
        Predicate.patternMatches l (.text text) (.text needle) = true) := by
  obtain ⟨pattern, hsome, hadmits⟩ := admits_pattern_iff hpattern needle text
  refine ⟨pattern, hsome, hadmits.trans ?_⟩
  simp [Predicate.patternMatches, Value.isNull, Value.toText, Libraries.toText, hcase]

/-- A needle of wildcards that ends in a backslash, next to the wildcard of the pattern. -/
theorem pattern_matches_iff_of_wildcards :
    ∃ pattern, Lookup.contains.pattern? "%_\\" = some pattern ∧ pattern = "%\\%\\_\\\\%" ∧
      admits pattern "a%_\\b" = true ∧ admits pattern "aXY\\b" = false := by
  obtain ⟨pattern, hsome, hfound⟩ := pattern_matches_iff (l := .contains) rfl rfl "%_\\" "a%_\\b"
  obtain ⟨pattern', hsome', hmissed⟩ :=
    pattern_matches_iff (l := .contains) rfl rfl "%_\\" "aXY\\b"
  obtain rfl := Option.some.inj (hsome.symm.trans hsome')
  refine ⟨pattern, hsome, (Option.some.inj hsome).symm.trans ?_, hfound.mpr ?_, ?_⟩
  · decide
  · decide
  · rw [Bool.eq_false_iff, ne_eq, hmissed]
    decide

end Lookup

end QueryChain
