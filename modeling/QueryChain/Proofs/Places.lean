import QueryChain.Proofs.Scanning
import QueryChain.Proofs.Trimming
import QueryChain.Proofs.Wording

/-!
How placeholders are counted over a text that is put together: counts add up as long as no text
ends within quotes and none begins with a letter that a percent sign before it would make a
placeholder.
-/

namespace QueryChain

namespace Placeholder

def Place.after (place : Place) (cs : List Char) : Place :=
  cs.foldl Place.next place

def Place.quote? : Place → Option Char
  | .quoted mark => some mark
  | .plain | .percentSign => none

namespace Place

@[simp] theorem after_nil (place : Place) : place.after [] = place := rfl

@[simp] theorem after_cons (place : Place) (c : Char) (cs : List Char) :
    place.after (c :: cs) = (place.next c).after cs := rfl

theorem after_append (place : Place) (a b : List Char) :
    place.after (a ++ b) = (place.after a).after b := by
  rw [after, List.foldl_append]
  rfl

theorem eq_of_quote? {place : Place} (h : place.quote? = none) :
    place = .plain ∨ place = .percentSign := by
  cases place with
  | plain => exact .inl rfl
  | percentSign => exact .inr rfl
  | quoted mark => cases h

theorem quote?_next {place : Place} (h : place.quote? = none) (c : Char) :
    (place.next c).quote? = if c = '\'' ∨ c = '"' then some c else none := by
  have hbehind : (behind c).quote? = if c = '\'' ∨ c = '"' then some c else none := by
    rw [behind]
    split
    · rfl
    · split <;> rfl
  rcases eq_of_quote? h with rfl | rfl
  · exact hbehind
  · by_cases hc : c = '%'
    · subst hc
      rfl
    · rw [next, if_neg hc, hbehind]

theorem quote?_next_quoted {place : Place} {q : Char} (h : place.quote? = some q) (c : Char) :
    (place.next c).quote? = if c = q then none else some q := by
  cases place with
  | plain | percentSign => cases h
  | quoted mark =>
    obtain rfl := Option.some.inj h
    rw [next]
    split <;> rfl

/-- Behind a quoted character no percent sign waits for its pair. -/
theorem next_quoted_ne {place : Place} {q : Char} (h : place.quote? = some q) (c : Char) :
    place.next c ≠ .percentSign := by
  cases place with
  | plain | percentSign => cases h
  | quoted mark =>
    rw [next]
    split <;> simp

end Place

theorem countFrom_append (p : Placeholder) (place : Place) (a b : List Char) :
    p.countFrom place (a ++ b) = p.countFrom place a + p.countFrom (place.after a) b := by
  induction a generalizing place with
  | nil => simp [countFrom]
  | cons c a ih =>
    rw [List.cons_append, countFrom, ih, countFrom, Place.after_cons, Nat.add_assoc]

/-! ### Characters that count nothing -/

/-- The characters that neither end a placeholder nor open a quote or a percent sign, unless a
percent sign stands before them. -/
def isStill (c : Char) : Bool :=
  !(c ∈ ['?', '%', '\'', '"'])

/-- The characters that do so in no place. -/
def isClear (c : Char) : Bool :=
  isStill c && c != 's'

theorem isStill_ne {c : Char} (h : isStill c = true) :
    c ≠ '?' ∧ c ≠ '%' ∧ c ≠ '\'' ∧ c ≠ '"' := by
  simpa [isStill] using h

theorem Place.next_still {place : Place} (hplace : place.quote? = none) {c : Char}
    (h : isStill c = true) : place.next c = .plain := by
  obtain ⟨-, hpercent, hsingle, hdouble⟩ := isStill_ne h
  rcases eq_of_quote? hplace with rfl | rfl <;> simp [next, behind, hpercent, hsingle, hdouble]

theorem endsAt_still (p : Placeholder) {c : Char} (h : isStill c = true) :
    p.endsAt .plain c = false := by
  cases p <;> simp [endsAt, (isStill_ne h).1]

theorem endsAt_clear (p : Placeholder) (place : Place) {c : Char} (h : isClear c = true) :
    p.endsAt place c = false := by
  simp only [isClear, Bool.and_eq_true, bne_iff_ne] at h
  cases p <;> cases place <;> simp [endsAt, (isStill_ne h.1).1, h.2]

theorem still_plain (p : Placeholder) {cs : List Char} (h : ∀ c ∈ cs, isStill c = true) :
    p.countFrom .plain cs = 0 ∧ Place.plain.after cs = .plain := by
  induction cs with
  | nil => exact ⟨rfl, rfl⟩
  | cons c cs ih =>
    have hc := h c List.mem_cons_self
    rw [countFrom, endsAt_still p hc, Place.after_cons, Place.next_still rfl hc]
    simpa using ih fun d hd => h d (List.mem_cons_of_mem _ hd)

/-- Outside quotes a text with a clear front is read as if it stood alone. -/
theorem countFrom_clearFront (p : Placeholder) {place : Place} (hplace : place.quote? = none)
    {cs : List Char} (h : ∀ c ∈ cs.head?, isClear c = true) :
    p.countFrom place cs = p.countFrom .plain cs ∧
      (place.after cs).quote? = (Place.plain.after cs).quote? := by
  cases cs with
  | nil => exact ⟨rfl, hplace⟩
  | cons c cs =>
    have hclear : isClear c = true := h c rfl
    have hstill : isStill c = true := by
      simp only [isClear, Bool.and_eq_true] at hclear
      exact hclear.1
    -- Behind the first character both readings are in the same place.
    rw [countFrom, countFrom, endsAt_clear p _ hclear, endsAt_clear p _ hclear, Place.after_cons,
      Place.after_cons, Place.next_still hplace hstill, Place.next_still rfl hstill]
    exact ⟨rfl, rfl⟩

/-! ### Fillers and keywords -/

theorem isClear_of_isFiller {c : Char} (h : isFiller c = true) : isClear c = true := by
  have hnot : c ∉ ['?', '%', '\'', '"'] := not_mem_of_class h (by decide)
  have hs : c ≠ 's' := isFiller_ne h (by decide)
  rw [isClear, isStill, decide_eq_false hnot]
  simpa using hs

theorem isStill_of_isFiller {c : Char} (h : isFiller c = true) : isStill c = true := by
  have hclear := isClear_of_isFiller h
  simp only [isClear, Bool.and_eq_true] at hclear
  exact hclear.1

theorem isStill_of_isLetter {c : Char} (h : Keyword.isLetter c = true) : isStill c = true := by
  have hnot : c ∉ ['?', '%', '\'', '"'] := not_mem_of_class h (by decide)
  rw [isStill, decide_eq_false hnot]
  rfl

theorem countFrom_filler (p : Placeholder) (place : Place) {cs : List Char}
    (h : ∀ c ∈ cs, isFiller c = true) : p.countFrom place cs = 0 := by
  induction cs generalizing place with
  | nil => rfl
  | cons c cs ih =>
    rw [countFrom, endsAt_clear p place (isClear_of_isFiller (h c List.mem_cons_self)),
      ih _ fun d hd => h d (List.mem_cons_of_mem _ hd)]
    rfl

/-- No filler closes a quote that a text has opened. -/
theorem Place.isFiller_of_quote? {place : Place} (hplace : ∀ q ∈ place.quote?, isFiller q = false)
    (cs : List Char) : ∀ q ∈ (place.after cs).quote?, isFiller q = false := by
  induction cs generalizing place with
  | nil => exact hplace
  | cons c cs ih =>
    apply ih
    intro q hq
    cases hquote : place.quote? with
    | none =>
      rw [quote?_next hquote] at hq
      split at hq
      · obtain rfl := Option.some.inj hq
        rcases ‹c = '\'' ∨ c = '"'› with rfl | rfl <;> decide
      · cases hq
    | some mark =>
      rw [quote?_next_quoted hquote] at hq
      split at hq
      · cases hq
      · exact hplace q (hquote ▸ hq)

theorem Place.quote?_filler {place : Place} (hplace : ∀ q ∈ place.quote?, isFiller q = false)
    {cs : List Char} (h : ∀ c ∈ cs, isFiller c = true) :
    (place.after cs).quote? = place.quote? := by
  induction cs generalizing place with
  | nil => rfl
  | cons c cs ih =>
    have hc := h c List.mem_cons_self
    have hnext : (place.next c).quote? = place.quote? := by
      cases hquote : place.quote? with
      | none => rw [next_still hquote (isStill_of_isFiller hc)]; rfl
      | some mark =>
        rw [quote?_next_quoted hquote, if_neg (isFiller_ne hc (hplace mark hquote))]
    have hrest : ∀ q ∈ (place.next c).quote?, isFiller q = false := hnext ▸ hplace
    rw [after_cons, ih hrest fun d hd => h d (List.mem_cons_of_mem _ hd), hnext]

end Placeholder

/-- A keyword outside quotes is read over, whatever stands before it. -/
theorem Keyword.Spelled.countFrom {k : Keyword} {word : List Char} (h : k.Spelled word)
    (p : Placeholder) {place : Placeholder.Place} (hplace : place.quote? = none) :
    p.countFrom place word = 0 ∧ place.after word = .plain := by
  obtain ⟨hall, ⟨c, rest, rfl, hopener⟩, -⟩ := h.letters
  have hstill : ∀ d ∈ c :: rest, Placeholder.isStill d = true := by
    intro d hd
    rcases hall d hd with hletter | hblank
    · exact Placeholder.isStill_of_isLetter hletter
    · exact Placeholder.isStill_of_isFiller
        (isFiller_of_isBlank (Text.isBlank_of_isAsciiBlank hblank))
  have hclear : Placeholder.isClear c = true := by
    have hs : c ≠ 's' := by
      rintro rfl
      revert hopener
      decide
    simp [Placeholder.isClear, hstill c List.mem_cons_self, hs]
  obtain ⟨hcount, hafter⟩ :=
    Placeholder.still_plain p fun d hd => hstill d (List.mem_cons_of_mem c hd)
  rw [Placeholder.countFrom, Placeholder.Place.after_cons, Placeholder.endsAt_clear p _ hclear,
    Placeholder.Place.next_still hplace (hstill c List.mem_cons_self), hcount]
  exact ⟨rfl, hafter⟩

/-! ### Places and contexts -/

namespace Context

/-- Whether no line comment is open in a text that is read in the context. -/
def Uncommented (x : Context) (cs : List Char) : Prop :=
  ∀ pre, pre <+: cs → (x.after pre).comment = false

theorem Uncommented.here {x : Context} {cs : List Char} (h : x.Uncommented cs) :
    x.comment = false :=
  h [] List.nil_prefix

theorem Uncommented.front {x : Context} {a b : List Char} (h : x.Uncommented (a ++ b)) :
    x.Uncommented a :=
  fun pre hpre => h pre (hpre.trans (List.prefix_append a b))

theorem Uncommented.rest {x : Context} {a b : List Char} (h : x.Uncommented (a ++ b)) :
    (x.after a).Uncommented b := by
  intro pre hpre
  rw [← after_append]
  exact h _ ((List.prefix_append_right_inj a).mpr hpre)

/-- Text without dashes opens no comment. -/
theorem uncommented_of_not_mem {x : Context} (hx : x.comment = false) {cs : List Char}
    (h : '-' ∉ cs) : x.Uncommented cs := by
  induction cs generalizing x with
  | nil =>
    intro pre hpre
    obtain rfl := List.prefix_nil.mp hpre
    exact hx
  | cons c cs ih =>
    have hc : c ≠ '-' := fun hc => h (hc ▸ List.mem_cons_self)
    have hnext : (x.next c).comment = false := by
      simp only [next, hx, hc, Bool.false_eq_true, if_false]
      repeat' split
      all_goals rfl
    intro pre hpre
    cases pre with
    | nil => exact hx
    | cons d pre =>
      obtain ⟨rfl, hrest⟩ := List.cons_prefix_cons.mp hpre
      exact ih hnext (fun hmem => h (List.mem_cons_of_mem _ hmem)) pre hrest

/-- Outside comments the scanner of keywords and the reader of placeholders see the same quote behind
one more character. -/
theorem quote?_next {x : Context} (hx : x.comment = false) {place : Placeholder.Place}
    (hplace : place.quote? = x.quote) (c : Char) : (place.next c).quote? = (x.next c).quote := by
  cases hquote : x.quote with
  | none => rw [quote_next hquote hx, Placeholder.Place.quote?_next (hplace.trans hquote)]
  | some q => rw [next_quoted hquote, Placeholder.Place.quote?_next_quoted (hplace.trans hquote)]

/-- Without comments the scanner of keywords and the reader of placeholders see the same quotes. -/
theorem quote?_after {x : Context} {cs : List Char} (h : x.Uncommented cs)
    {place : Placeholder.Place} (hplace : place.quote? = x.quote) :
    (place.after cs).quote? = (x.after cs).quote := by
  induction cs generalizing x place with
  | nil => exact hplace
  | cons c cs ih =>
    have hrest : (x.next c).Uncommented cs := h.rest (a := [c])
    exact ih hrest (quote?_next h.here hplace c)

end Context

end QueryChain
