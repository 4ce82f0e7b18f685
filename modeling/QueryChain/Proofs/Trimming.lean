import Mathlib.Data.List.TakeWhile
import QueryChain.Sql.Base

/-!
What the trims take away: a text is its trimmed form with fillers around it, and no filler opens or
closes a quote, a parenthesis or a placeholder.
-/

namespace QueryChain

def isFiller (c : Char) : Bool :=
  Text.isBlank c || c == ';'

theorem isFiller_of_isBlank {c : Char} (h : Text.isBlank c = true) : isFiller c = true := by
  rw [isFiller, h, Bool.true_or]

/-- A filler is none of the characters that scanners of SQL text react to. -/
theorem isFiller_ne {c d : Char} (h : isFiller c = true) (hd : isFiller d = false) : c ≠ d := by
  rintro rfl
  rw [h] at hd
  cases hd

namespace Text

theorem exists_dropEndWhile (p : Char → Bool) (cs : List Char) :
    ∃ post, cs = dropEndWhile p cs ++ post ∧ ∀ c ∈ post, p c = true := by
  refine ⟨(cs.reverse.takeWhile p).reverse, ?_, ?_⟩
  · rw [dropEndWhile, ← List.reverse_append, List.takeWhile_append_dropWhile, List.reverse_reverse]
  · intro c hc
    have hall := List.all_takeWhile (p := p) (l := cs.reverse)
    exact List.all_eq_true.mp hall c (List.mem_reverse.mp hc)

theorem exists_trimEndChars (cs : List Char) :
    ∃ post, cs = trimEndChars cs ++ post ∧ ∀ c ∈ post, isBlank c = true :=
  exists_dropEndWhile isBlank cs

theorem exists_trimChars (cs : List Char) :
    ∃ pre post, cs = pre ++ trimChars cs ++ post ∧
      (∀ c ∈ pre, isBlank c = true) ∧ ∀ c ∈ post, isBlank c = true := by
  obtain ⟨post, hpost, hblank⟩ := exists_trimEndChars (cs.dropWhile isBlank)
  refine ⟨cs.takeWhile isBlank, post, ?_, ?_, hblank⟩
  · have hcs := List.takeWhile_append_dropWhile (p := isBlank) (l := cs)
    rw [hpost, ← List.append_assoc] at hcs
    exact hcs.symm
  · exact fun c hc => List.all_eq_true.mp List.all_takeWhile c hc

end Text

open Text

theorem exists_trimStatement (cs : List Char) :
    ∃ post, cs = trimStatement cs ++ post ∧ ∀ c ∈ post, isFiller c = true := by
  obtain ⟨blanks, hblanks, hb⟩ := exists_trimEndChars cs
  obtain ⟨semis, hsemis, hs⟩ := exists_dropEndWhile (· == ';') (trimEndChars cs)
  obtain ⟨inner, hinner, hi⟩ := exists_trimEndChars (dropEndWhile (· == ';') (trimEndChars cs))
  refine ⟨inner ++ semis ++ blanks, ?_, ?_⟩
  · calc cs = trimEndChars cs ++ blanks := hblanks
      _ = dropEndWhile (· == ';') (trimEndChars cs) ++ semis ++ blanks := by rw [← hsemis]
      _ = trimStatement cs ++ inner ++ semis ++ blanks := by
        rw [trimStatement, ← hinner]
      _ = trimStatement cs ++ (inner ++ semis ++ blanks) := by simp only [List.append_assoc]
  · intro c hc
    simp only [List.mem_append] at hc
    rcases hc with (hc | hc) | hc
    · exact isFiller_of_isBlank (hi c hc)
    · simp [isFiller, hs c hc]
    · exact isFiller_of_isBlank (hb c hc)

/-! ### Texts that no trim changes -/

def hasFront (cs : List Char) : Bool :=
  cs.head?.any (!isFiller ·)

def hasBack (cs : List Char) : Bool :=
  cs.getLast?.any (!isFiller ·)

theorem hasFront_append {a : List Char} (h : hasFront a = true) (b : List Char) :
    hasFront (a ++ b) = true := by
  cases a with
  | nil => cases h
  | cons c a => exact h

theorem hasBack_append (a : List Char) {b : List Char} (h : hasBack b = true) :
    hasBack (a ++ b) = true := by
  rw [hasBack] at h ⊢
  rw [List.getLast?_append]
  cases hlast : b.getLast? with
  | none => simp [hlast] at h
  | some c => rwa [hlast] at h

/-- Whether no trim changes a text. -/
structure Firm (s : String) : Prop where
  front : hasFront s.toList = true
  back : hasBack s.toList = true

instance (s : String) : Decidable (Firm s) :=
  decidable_of_iff (hasFront s.toList = true ∧ hasBack s.toList = true)
    ⟨fun h => ⟨h.1, h.2⟩, fun h => ⟨h.front, h.back⟩⟩

namespace Firm

theorem append {a b : String} (ha : hasFront a.toList = true) (hb : hasBack b.toList = true) :
    Firm (a ++ b) := by
  refine ⟨?_, ?_⟩
  · rw [String.toList_append]
    exact hasFront_append ha _
  · rw [String.toList_append]
    exact hasBack_append _ hb

theorem around {a b : String} (ha : Firm a) (middle : String) (hb : Firm b) :
    Firm (a ++ middle ++ b) := by
  refine append ?_ hb.back
  rw [String.toList_append]
  exact hasFront_append ha.front _

theorem intercalate (sep : String) {texts : List String} (hne : texts ≠ [])
    (h : ∀ s ∈ texts, Firm s) : Firm (sep.intercalate texts) := by
  induction texts with
  | nil => exact absurd rfl hne
  | cons s rest ih =>
    obtain ⟨hs, hrest⟩ := List.forall_mem_cons.mp h
    cases rest with
    | nil =>
      rw [String.intercalate_singleton]
      exact hs
    | cons t rest =>
      rw [String.intercalate_cons_cons]
      exact hs.around sep (ih (List.cons_ne_nil t rest) hrest)

theorem isEmpty {s : String} (h : Firm s) : s.isEmpty = false := by
  have hne : s ≠ "" := by
    rintro rfl
    exact absurd h.front (by decide)
  exact eq_false_of_ne_true (mt String.isEmpty_iff.mp hne)

end Firm

namespace Text

theorem dropWhile_append_of_fixed {p : Char → Bool} {b : List Char} (hb : b.dropWhile p = b)
    (a : List Char) : (a ++ b).dropWhile p = a.dropWhile p ++ b := by
  rw [List.dropWhile_append, hb]
  split
  · rename_i hempty
    rw [List.isEmpty_iff.mp hempty, List.nil_append]
  · rfl

/-- What is trimmed off the end does not reach beyond a character that is not trimmed. -/
theorem dropEndWhile_append {p : Char → Bool} (hp : ∀ c, p c = true → isFiller c = true)
    {cs : List Char} (hcs : hasBack cs = true) (post : List Char) :
    dropEndWhile p (cs ++ post) = cs ++ dropEndWhile p post := by
  have hfixed : cs.reverse.dropWhile p = cs.reverse := by
    rcases List.eq_nil_or_concat cs with rfl | ⟨front, c, rfl⟩
    · rfl
    · have hc : p c = false := by
        have hback : isFiller c = false := by simpa [hasBack] using hcs
        exact eq_false_of_ne_true (mt (hp c) (ne_true_of_eq_false hback))
      simp [hc]
  rw [dropEndWhile, List.reverse_append, dropWhile_append_of_fixed hfixed, List.reverse_append,
    List.reverse_reverse, dropEndWhile]

theorem trimStatement_append {cs : List Char} (h : hasBack cs = true) (post : List Char) :
    trimStatement (cs ++ post) = cs ++ trimStatement post := by
  have hblank : ∀ c, isBlank c = true → isFiller c = true := fun _ => isFiller_of_isBlank
  have hsemi (c : Char) (hc : (c == ';') = true) : isFiller c = true := by simp [isFiller, hc]
  rw [trimStatement, trimEndChars, trimEndChars, dropEndWhile_append hblank h,
    dropEndWhile_append hsemi h, dropEndWhile_append hblank h]
  rfl

theorem trimStatement_of_hasBack {cs : List Char} (h : hasBack cs = true) :
    trimStatement cs = cs := by
  have htrim := trimStatement_append h []
  rwa [List.append_nil, show trimStatement [] = [] from rfl, List.append_nil] at htrim

/-- Trimming takes the blanks away that stand around a text. -/
theorem trimChars_around {cs : List Char} (hfront : hasFront cs = true) (hback : hasBack cs = true)
    (pre post : List Char) (hpre : ∀ c ∈ pre, isBlank c = true)
    (hpost : ∀ c ∈ post, isBlank c = true) : trimChars (pre ++ cs ++ post) = cs := by
  cases cs with
  | nil => cases hfront
  | cons c cs =>
    have hc : isBlank c = false := by
      have hfront : isFiller c = false := by simpa [hasFront] using hfront
      exact eq_false_of_ne_true (mt isFiller_of_isBlank (ne_true_of_eq_false hfront))
    rw [trimChars, List.append_assoc, List.dropWhile_append_of_pos hpre, List.cons_append,
      List.dropWhile_cons_of_neg (by simp [hc]), ← List.cons_append]
    have hnone : dropEndWhile isBlank post = [] := by
      rw [dropEndWhile, List.reverse_eq_nil_iff, List.dropWhile_eq_nil_iff]
      exact fun d hd => hpost d (List.mem_reverse.mp hd)
    rw [trimEndChars, dropEndWhile_append (fun _ => isFiller_of_isBlank) hback, hnone,
      List.append_nil]

end Text

end QueryChain
