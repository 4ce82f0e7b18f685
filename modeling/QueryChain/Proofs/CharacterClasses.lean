import QueryChain.Filter.Condition
import QueryChain.Proofs.Wildcards

/-!
Patterns with classes of characters, as T-SQL reads them. There a bracket opens a class, which ends
at the next closing bracket and stands for one character. A needle is escaped without regard to
brackets, so its pattern matches literally if and only if no class is opened in the needle: what
matches a class is shorter than the needle it comes from.
-/

namespace QueryChain

namespace Pattern

/-- A character of a pattern, and whether a backslash before it makes it stand for itself. -/
structure Symbol where
  char : Char
  literal : Bool
  deriving DecidableEq

namespace Symbol

def opening : Symbol :=
  ⟨'[', false⟩

def closing : Symbol :=
  ⟨']', false⟩

def ofPattern : List Char → List Symbol
  | '\\' :: c :: rest => ⟨c, true⟩ :: ofPattern rest
  | c :: rest => ⟨c, false⟩ :: ofPattern rest
  | [] => []

def holds (c : Char) : List Symbol → Bool
  | low :: ⟨'-', false⟩ :: high :: rest => low.char ≤ c && c ≤ high.char || holds c rest
  | member :: rest => c == member.char || holds c rest
  | [] => false

def classAccepts (c : Char) : List Symbol → Bool
  | ⟨'^', false⟩ :: members => !holds c members
  | members => holds c members

/-- What a symbol stands for outside of classes. A bracket that is not closed opens none; it stands
for itself if `lone` is true, and for nothing if not. -/
def piece (lone : Bool) (s : Symbol) : Piece :=
  if s.literal then .exact s.char
  else if s.char = '[' then .char fun c => lone && c == '['
  else .ofChar s.char

/-- The pieces of a pattern. The second argument is the part of a class that was read behind an
opening bracket, if one is open. -/
def pieces (lone : Bool) : Option (List Symbol) → List Symbol → List Piece
  | none, [] => []
  | none, s :: rest =>
    if s = opening then pieces lone (some []) rest else s.piece lone :: pieces lone none rest
  | some members, [] => (opening :: members).map (piece lone)
  | some members, s :: rest =>
    if s = closing then .char (classAccepts · members) :: pieces lone none rest
    else pieces lone (some (members ++ [s])) rest

end Symbol

/-- Whether a text matches a pattern whose brackets hold classes. -/
def admitsWithClasses (lone : Bool) (pattern text : String) : Bool :=
  Piece.fits (Symbol.pieces lone none (Symbol.ofPattern pattern.toList)) text.toList

/-! ### Pieces of symbols -/

namespace Symbol

variable {lone : Bool}

/-- Pieces are no more than their symbols. -/
theorem length_pieces_le (lone : Bool) (syms : List Symbol) (members? : Option (List Symbol)) :
    (pieces lone members? syms).length ≤
      (members?.elim 0 fun members => members.length + 1) + syms.length := by
  induction syms generalizing members? with
  | nil => cases members? <;> simp [pieces]
  | cons s rest ih =>
    cases members? with
    | none =>
      have hclosed := ih none
      have hopen := ih (some [])
      simp only [Option.elim, List.length_nil] at hclosed hopen
      rw [pieces]
      split <;> simp only [Option.elim, List.length_cons] <;> omega
    | some members =>
      have hclosed := ih none
      have hopen := ih (some (members ++ [s]))
      simp only [Option.elim, List.length_append, List.length_singleton] at hclosed hopen
      rw [pieces]
      split <;> simp only [Option.elim, List.length_cons] <;> omega

/-- A class that is closed is one piece. -/
theorem length_pieces_closed (lone : Bool) {syms : List Symbol} (h : closing ∈ syms)
    (members : List Symbol) :
    (pieces lone (some members) syms).length ≤ syms.length := by
  induction syms generalizing members with
  | nil => cases h
  | cons s rest ih =>
    rw [pieces]
    split
    · have hrest := length_pieces_le lone rest none
      simp only [Option.elim, List.length_cons] at hrest ⊢
      omega
    · rename_i hs
      have hrest := ih ((List.mem_cons.mp h).resolve_left (Ne.symm hs)) (members ++ [s])
      rw [List.length_cons]
      omega

/-- A pattern with a class has fewer pieces than symbols. -/
theorem length_pieces_lt (lone : Bool) {syms : List Symbol}
    (h : [opening, closing].Sublist syms) :
    (pieces lone none syms).length < syms.length := by
  induction syms with
  | nil => cases h
  | cons s rest ih =>
    rw [pieces, List.length_cons]
    split
    · rename_i hs
      have hclosing : closing ∈ rest := by
        rcases List.sublist_cons_iff.mp h with hrest | ⟨tail, htail, hrest⟩
        · exact hrest.mem (by simp)
        · obtain ⟨-, rfl⟩ := List.cons.inj htail
          exact List.singleton_sublist.mp hrest
      have := length_pieces_closed lone hclosing []
      omega
    · rename_i hs
      have hrest : [opening, closing].Sublist rest := by
        rcases List.sublist_cons_iff.mp h with hrest | ⟨tail, htail, -⟩
        · exact hrest
        · exact absurd (List.cons.inj htail).1.symm hs
      have := ih hrest
      rw [List.length_cons]
      omega

theorem pieces_unclosed {syms : List Symbol} (h : closing ∉ syms) (members : List Symbol) :
    pieces lone (some members) syms = (opening :: (members ++ syms)).map (piece lone) := by
  induction syms generalizing members with
  | nil => rw [pieces, List.append_nil]
  | cons s rest ih =>
    rw [List.mem_cons, not_or] at h
    rw [pieces, if_neg (Ne.symm h.1), ih h.2, List.append_assoc, List.singleton_append]

/-- Without a class every symbol is a piece. -/
theorem pieces_of_no_class {syms : List Symbol} (h : ¬ [opening, closing].Sublist syms) :
    pieces lone none syms = syms.map (piece lone) := by
  induction syms with
  | nil => rfl
  | cons s rest ih =>
    rw [pieces]
    split
    · rename_i hs
      subst hs
      have hclosing : closing ∉ rest := fun hmem =>
        h (List.cons_sublist_cons.mpr (List.singleton_sublist.mpr hmem))
      rw [pieces_unclosed hclosing, List.nil_append]
    · rw [ih fun hrest => h (hrest.cons s), List.map_cons]

/-- A wildcard at the end of a pattern is one, also behind a bracket that is not closed. -/
theorem pieces_wildcard (syms : List Symbol) (members? : Option (List Symbol)) :
    pieces lone members? (syms ++ [⟨'%', false⟩]) = pieces lone members? syms ++ [.run] := by
  induction syms generalizing members? with
  | nil =>
    cases members? with
    | none => rfl
    | some members =>
      have hwildcard : (⟨'%', false⟩ : Symbol) ≠ closing := by decide
      simp only [List.nil_append, pieces, if_neg hwildcard]
      rw [← List.cons_append, List.map_append]
      rfl
  | cons s rest ih =>
    cases members? with
    | none =>
      rw [List.cons_append, pieces, pieces, ih, ih]
      split <;> rfl
    | some members =>
      rw [List.cons_append, pieces, pieces, ih, ih]
      split <;> rfl

theorem isChar_pieces {syms : List Symbol} (h : ∀ s ∈ syms, (s.piece lone).isChar = true)
    (members? : Option (List Symbol))
    (hmembers : ∀ members ∈ members?, ∀ s ∈ members, (s.piece lone).isChar = true) :
    ∀ p ∈ pieces lone members? syms, p.isChar = true := by
  induction syms generalizing members? with
  | nil =>
    cases members? with
    | none => nofun
    | some members =>
      exact List.forall_mem_map.mpr (List.forall_mem_cons.mpr ⟨rfl, hmembers members rfl⟩)
  | cons s rest ih =>
    obtain ⟨hs, hrest⟩ := List.forall_mem_cons.mp h
    cases members? with
    | none =>
      rw [pieces]
      split
      · exact ih hrest (some []) (by simp)
      · exact List.forall_mem_cons.mpr ⟨hs, ih hrest none nofun⟩
    | some members =>
      rw [pieces]
      split
      · exact List.forall_mem_cons.mpr ⟨rfl, ih hrest none nofun⟩
      · refine ih hrest _ fun _ hmem => ?_
        obtain rfl := Option.some.inj hmem
        exact List.forall_mem_append.mpr
          ⟨hmembers members rfl, List.forall_mem_singleton.mpr hs⟩

/-! ### Symbols of escaped needles -/

def ofNeedle (c : Char) : Symbol :=
  ⟨c, isSpecial c⟩

theorem ofPattern_escapeChars (needle rest : List Char) :
    ofPattern (escapeChars needle ++ rest) = needle.map ofNeedle ++ ofPattern rest := by
  induction needle with
  | nil => rfl
  | cons c needle ih =>
    have hstep : escapeChars (c :: needle) ++ rest =
        (if isSpecial c then ['\\', c] else [c]) ++ (escapeChars needle ++ rest) := by
      simp only [escapeChars, List.flatMap_cons, List.append_assoc]
    rw [hstep, List.map_cons, List.cons_append, ← ih, ofNeedle]
    cases hspecial : isSpecial c with
    | true => rfl
    | false =>
      have hplain : c ≠ '\\' := by
        rintro rfl
        cases hspecial
      rw [if_neg Bool.false_ne_true, List.singleton_append, ofPattern]
      exact fun d tail hc _ => hplain hc

/-- A bracket apart, an escaped character stands for itself. -/
theorem piece_ofNeedle (c : Char) :
    (ofNeedle c).piece lone = if c = '[' then .char fun d => lone && d == '[' else .exact c := by
  rw [piece, ofNeedle]
  split
  · rename_i hspecial
    have hbracket : c ≠ '[' := by
      rintro rfl
      cases hspecial
    rw [if_neg hbracket]
  · rename_i hspecial
    have hplain : c ≠ '%' ∧ c ≠ '_' := by
      constructor <;> rintro rfl <;> exact hspecial rfl
    rw [Piece.ofChar, if_neg hplain.1, if_neg hplain.2]

theorem isChar_pieces_ofNeedle (lone : Bool) (needle : List Char) :
    ∀ p ∈ pieces lone none (needle.map ofNeedle), p.isChar = true := by
  refine isChar_pieces (List.forall_mem_map.mpr fun c _ => ?_) none nofun
  rw [piece_ofNeedle]
  split <;> rfl

theorem sublist_ofNeedle {needle : List Char} :
    [opening, closing].Sublist (needle.map ofNeedle) ↔ ['[', ']'].Sublist needle := by
  constructor
  · intro h
    obtain ⟨chars, hchars, heq⟩ := List.sublist_map_iff.mp h
    have hmap := congrArg (List.map char) heq
    rw [List.map_map] at hmap
    obtain rfl : ['[', ']'] = chars := hmap.trans (List.map_id chars)
    exact hchars
  · exact fun h => h.map ofNeedle

end Symbol

/-! ### Needles that match literally -/

theorem Piece.not_fits_of_mem {ps : List Piece} (h : .char (fun _ => false) ∈ ps)
    (text : List Char) : fits ps text = false := by
  induction ps generalizing text with
  | nil => cases h
  | cons p ps ih =>
    cases p with
    | run =>
      have hmem := (List.mem_cons.mp h).resolve_left nofun
      simp [fits, ih hmem]
    | char accepts =>
      cases text with
      | nil => rfl
      | cons c text =>
        rw [fits]
        rcases List.mem_cons.mp h with heq | hmem
        · obtain rfl := Piece.char.inj heq
          rfl
        · rw [ih hmem, Bool.and_false]

namespace Symbol

/-- The pieces of an escaped needle match the needle alone if and only if it opens no class. -/
theorem fits_needle_iff (lone : Bool) (needle : List Char) :
    (∀ part, Piece.fits (pieces lone none (needle.map ofNeedle)) part = true ↔ part = needle) ↔
      if lone then ¬ ['[', ']'].Sublist needle else '[' ∉ needle := by
  constructor
  · intro h
    have hfits := (h needle).mpr rfl
    have hlength := Piece.length_of_fits (isChar_pieces_ofNeedle lone needle) hfits
    have hclass : ¬ [opening, closing].Sublist (needle.map ofNeedle) := by
      intro hsublist
      have hlt := length_pieces_lt lone hsublist
      rw [List.length_map] at hlt
      omega
    cases lone with
    | true => exact mt sublist_ofNeedle.mpr hclass
    | false =>
      intro hmem
      rw [pieces_of_no_class hclass] at hfits
      have hbracket := List.mem_map_of_mem (f := piece false)
        (List.mem_map_of_mem (f := ofNeedle) hmem)
      rw [Piece.not_fits_of_mem hbracket] at hfits
      cases hfits
  · intro h part
    have hclass : ¬ ['[', ']'].Sublist needle := by
      cases lone with
      | true => exact h
      | false => exact fun hsublist => h (hsublist.mem (by simp))
    have hexact : (needle.map ofNeedle).map (piece lone) = needle.map .exact := by
      rw [List.map_map]
      refine List.map_congr_left fun c hc => (piece_ofNeedle c).trans ?_
      split
      · subst c
        cases lone with
        | true => rfl
        | false => exact absurd hc h
      · rfl
    rw [pieces_of_no_class (mt sublist_ofNeedle.mp hclass), hexact]
    exact Piece.fits_exact

/-- The pieces of the pattern for a needle: those of the escaped needle, with any text where the
wildcards are. -/
theorem pieces_pattern (lone before after : Bool) (needle : List Char) :
    pieces lone none (ofPattern ((if before then ['%'] else []) ++ escapeChars needle ++
        (if after then ['%'] else []))) =
      (if before then [.run] else []) ++ pieces lone none (needle.map ofNeedle) ++
        (if after then [.run] else []) := by
  have hneedle : pieces lone none (ofPattern (escapeChars needle ++
        (if after then ['%'] else []))) =
      pieces lone none (needle.map ofNeedle) ++ (if after then [.run] else []) := by
    rw [ofPattern_escapeChars]
    cases after with
    | true => exact pieces_wildcard _ none
    | false => simp [ofPattern]
  cases before with
  | false => exact hneedle
  | true =>
    have hwildcard (rest : List Char) :
        pieces lone none (ofPattern ('%' :: rest)) = .run :: pieces lone none (ofPattern rest) := by
      simp [ofPattern, pieces, opening, piece, Piece.ofChar]
    simp only [if_true, List.cons_append, List.nil_append, hwildcard]
    rw [hneedle]

end Symbol

end Pattern

/-! ### Lookups -/

namespace Lookup

open Pattern

theorem textMatches_self (l : Lookup) (text : List Char) :
    Predicate.textMatches l text text = true := by
  cases l with
  | startsWith | iStartsWith => exact decide_eq_true List.prefix_rfl
  | endsWith | iEndsWith => exact decide_eq_true List.suffix_rfl
  | _ => exact Predicate.occursIn_iff.mpr List.infix_rfl

theorem infix_of_textMatches {l : Lookup} {text needle : List Char}
    (h : Predicate.textMatches l text needle = true) : needle <:+: text := by
  cases l with
  | startsWith | iStartsWith => exact (of_decide_eq_true h).isInfix
  | endsWith | iEndsWith => exact (of_decide_eq_true h).isInfix
  | _ => exact Predicate.occursIn_iff.mp h

/-- Single characters between the wildcards of a lookup match like a needle if and only if the
needle alone matches them. -/
theorem literal_iff {l : Lookup} {before after : Bool} (h : l.wildcards? = some (before, after))
    {ps : List Pattern.Piece} (hps : ∀ p ∈ ps, p.isChar = true) (needle : List Char) :
    (∀ text, Piece.fits ((if before then [.run] else []) ++ ps ++ (if after then [.run] else []))
        text = true ↔ Predicate.textMatches l text needle = true) ↔
      ∀ part, Piece.fits ps part = true ↔ part = needle := by
  constructor
  · intro hall
    have hneedle {part : List Char} (hpart : Piece.fits ps part = true) : needle <:+: part :=
      infix_of_textMatches ((hall part).mp
        ((fits_wildcards h hps part).mpr ⟨part, l.textMatches_self part, hpart⟩))
    obtain ⟨own, hown, hfits⟩ := (fits_wildcards h hps needle).mp
      ((hall needle).mpr (l.textMatches_self needle))
    obtain rfl : own = needle := (infix_of_textMatches hown).eq_of_length
      (Nat.le_antisymm (infix_of_textMatches hown).length_le (hneedle hfits).length_le)
    intro part
    constructor
    · intro hpart
      refine ((hneedle hpart).eq_of_length ?_).symm
      rw [Piece.length_of_fits hps hpart, Piece.length_of_fits hps hfits]
    · rintro rfl
      exact hfits
  · intro hexact text
    rw [fits_wildcards h hps]
    simp [hexact]

/-- The condition of a pattern lookup that minds the case binds the pattern of its needle. -/
theorem write_pattern {l : Lookup} (hcase : l.ignoresCase = false) {needle pattern : String}
    (h : l.pattern? needle = some pattern) {field : String} {i : Identifier}
    (hfield : Identifier.ofField field = .ok i) (d : Dialect) :
    (Condition.ofLookup field l (.text needle)).map (Condition.write d) =
      .ok ⟨d.like i.sql, [.text pattern]⟩ := by
  have htext : (Value.text needle).toText = needle := rfl
  rw [Condition.ofLookup, hfield]
  cases l with
  | startsWith | endsWith | contains =>
    simp [Condition.ofOperand, Value.isNull, htext, h, ignoresCase, Condition.write,
      Except.mapError, Except.map]
  | iStartsWith | iEndsWith | iContains => cases hcase
  | exact | oneOf | isNull | gt | gte | lt | lte => cases h

/-- In a dialect with classes of characters the pattern of a lookup that minds the case matches
every text as the lookup does in memory if and only if the needle opens no class: it has no bracket,
or, where a bracket that is not closed stands for itself, none that is closed. -/
theorem tsql_literal_iff {l : Lookup} (hpattern : l.isPattern = true)
    (hcase : l.ignoresCase = false) {field : String} {i : Identifier}
    (hfield : Identifier.ofField field = .ok i) (needle : String) (lone : Bool) :
    ∃ pattern,
      (Condition.ofLookup field l (.text needle)).map (Condition.write .tsql) =
        .ok ⟨i.sql ++ " LIKE ? ESCAPE '\\'", [.text pattern]⟩ ∧
      ((∀ text, admitsWithClasses lone pattern text = true ↔
          Predicate.textMatches l text.toList needle.toList = true) ↔
        if lone then ¬ ['[', ']'].Sublist needle.toList else '[' ∉ needle.toList) := by
  obtain ⟨⟨before, after⟩, hwildcards⟩ := Option.isSome_iff_exists.mp hpattern
  obtain ⟨pattern, hsome, hchars⟩ := exists_pattern hwildcards needle
  refine ⟨pattern, (write_pattern hcase hsome hfield .tsql).trans ?_, ?_⟩
  · simp only [Dialect.like, String.append_assoc]
    rfl
  · rw [← Symbol.fits_needle_iff,
      ← literal_iff hwildcards (Symbol.isChar_pieces_ofNeedle lone needle.toList),
      ← Symbol.pieces_pattern, ← hchars]
    constructor
    · intro h text
      simpa [admitsWithClasses] using h (String.ofList text)
    · exact fun h text => h text.toList

/-- A needle of the other characters that mean something inside a class. -/
theorem tsql_literal_iff_of_dashes :
    ∃ pattern,
      (Condition.ofLookup "a" .startsWith (.text "z-^]%")).map (Condition.write .tsql) =
        .ok ⟨"\"a\" LIKE ? ESCAPE '\\'", [.text pattern]⟩ ∧
      ∀ text, admitsWithClasses false pattern text = true ↔ "z-^]%".toList <+: text.toList := by
  have hfield : Identifier.ofField "a" = .ok ⟨['a'], by decide, by decide⟩ := rfl
  obtain ⟨pattern, hwrite, hliteral⟩ :=
    tsql_literal_iff (l := .startsWith) rfl rfl hfield "z-^]%" false
  refine ⟨pattern, hwrite, fun text => ?_⟩
  rw [hliteral.mpr (by decide) text]
  exact decide_eq_true_iff

/-- A needle with brackets is read as a class: another text matches, and the needle does not. -/
theorem tsql_reads_brackets :
    (Condition.ofKey "a__startswith" (.text "[a]")).map (Condition.write .tsql) =
        .ok ⟨"\"a\" LIKE ? ESCAPE '\\'", [.text "[a]%"]⟩ ∧
      (∀ lone, admitsWithClasses lone "[a]%" "abc" = true ∧
        admitsWithClasses lone "[a]%" "[a]" = false) ∧
      ¬ "[a]".toList <+: "abc".toList := by
  refine ⟨?_, ?_, ?_⟩
  · rfl
  · decide
  · decide

end Lookup

end QueryChain
