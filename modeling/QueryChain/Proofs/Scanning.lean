import QueryChain.Sql.Keyword

/-!
How the keyword scanner goes over a text: what a keyword at the front of a text looks like, which
characters leave the context as it is, and which stretches of a text hold no keyword.
-/

namespace QueryChain

open Text

/-- What is asked of the characters of a text is decided by going through the text, not through all
the characters there are. -/
instance (priority := 1100) decidableChars (P : Char → Prop) [DecidablePred P] (cs : List Char) :
    Decidable (∀ c ∈ cs, P c) :=
  List.decidableBAll P cs

instance (priority := 1100) decidableChar? (P : Char → Prop) [DecidablePred P] (c? : Option Char) :
    Decidable (∀ c ∈ c?, P c) :=
  Option.decidableForallMem c?

/-- A character of a class is not among characters outside it. -/
theorem not_mem_of_class {p : Char → Bool} {c : Char} (h : p c = true) {cs : List Char}
    (hcs : ∀ d ∈ cs, p d = false) : c ∉ cs := by
  intro hc
  rw [hcs c hc] at h
  cases h

namespace Keyword

/-- Whether `word` is a spelling of the keyword: its letters in any case, and blanks between the
words if there are two. -/
def Spelled (k : Keyword) (word : List Char) : Prop :=
  ∃ a gap b, word = a ++ gap ++ b ∧ a.map Char.toUpper = k.words.1 ∧
    (∀ c ∈ gap, isAsciiBlank c = true) ∧ b.map Char.toUpper = k.words.2 ∧
    (gap = [] ↔ k.words.2 = [])

theorem afterWord?_ok {word cs tail : List Char} (h : afterWord? word cs = some tail) :
    ∃ v, cs = v ++ tail ∧ v.map Char.toUpper = word ∧ startsWord tail = false := by
  induction word generalizing cs with
  | nil =>
    simp only [afterWord?] at h
    split at h
    · cases h
    · obtain rfl := Option.some.inj h
      exact ⟨[], rfl, rfl, by simpa using ‹¬startsWord cs = true›⟩
  | cons w word ih =>
    cases cs with
    | nil => cases h
    | cons c cs =>
      simp only [afterWord?] at h
      split at h
      · obtain ⟨v, rfl, hv, htail⟩ := ih h
        refine ⟨c :: v, rfl, ?_, htail⟩
        rw [List.map_cons, hv, ‹c.toUpper = w›]
      · cases h

theorem after?_ok {k : Keyword} {cs tail : List Char} (h : k.after? cs = some tail) :
    ∃ word, k.Spelled word ∧ cs = word ++ tail ∧ startsWord tail = false := by
  rcases hwords : k.words with ⟨first, _ | ⟨s, second⟩⟩
  · rw [after?, hwords] at h
    obtain ⟨a, rfl, ha, htail⟩ := afterWord?_ok h
    exact ⟨a, ⟨a, [], [], by simp, by rw [hwords, ha], by simp, by simp [hwords], by simp [hwords]⟩,
      rfl, htail⟩
  · simp only [after?, hwords] at h
    split at h
    · rename_i c rest hfirst
      split at h
      · obtain ⟨a, rfl, ha, -⟩ := afterWord?_ok hfirst
        obtain ⟨b, hb, hsecond, htail⟩ := afterWord?_ok h
        have hrest := List.takeWhile_append_dropWhile (p := isAsciiBlank) (l := rest)
        refine ⟨a ++ (c :: rest.takeWhile isAsciiBlank) ++ b,
          ⟨a, c :: rest.takeWhile isAsciiBlank, b, rfl, ?_, ?_, ?_, ?_⟩, ?_, htail⟩
        · rw [ha, hwords]
        · intro d hd
          rcases List.mem_cons.mp hd with rfl | hd
          · assumption
          · exact List.all_eq_true.mp List.all_takeWhile d hd
        · rw [hsecond, hwords]
        · simp [hwords]
        · rw [hb] at hrest
          simp [hrest]
      · cases h
    · cases h

theorem atFront?_ok {k : Keyword} {cs tail : List Char} (h : atFront? cs = some (k, tail)) :
    ∃ word, k.Spelled word ∧ cs = word ++ tail ∧ startsWord tail = false := by
  obtain ⟨k', -, hk'⟩ := List.exists_of_findSome?_eq_some h
  cases hafter : k'.after? cs with
  | none => simp [hafter] at hk'
  | some rest =>
    simp only [hafter, Option.map_some, Option.some.injEq, Prod.mk.injEq] at hk'
    obtain ⟨rfl, rfl⟩ := hk'
    exact after?_ok hafter

def isOpener (c : Char) : Bool :=
  c.toUpper ∈ ['F', 'W', 'G', 'O', 'L']

theorem atFront?_eq_none {c : Char} (h : isOpener c = false) (cs : List Char) :
    atFront? (c :: cs) = none := by
  simp only [isOpener, List.mem_cons, List.not_mem_nil, or_false, decide_eq_false_iff_not,
    not_or] at h
  obtain ⟨hf, hw, hg, ho, hl⟩ := h
  simp [atFront?, all, after?, words, afterWord?, hf, hw, hg, ho, hl]

def isLetter (c : Char) : Bool :=
  c.toUpper.isUpper

theorem isAlpha_of_isLetter {c : Char} (h : isLetter c = true) : c.isAlpha = true := by
  show (c.isUpper || c.isLower) = true
  by_cases hlower : c.isLower = true
  · simp [hlower]
  · have hrange : ¬('a'.val ≤ c.val ∧ c.val ≤ 'z'.val) := by
      rintro ⟨hge, hle⟩
      exact hlower (Bool.and_eq_true_iff.mpr ⟨decide_eq_true hge, decide_eq_true hle⟩)
    have hupper : c.toUpper = c := dif_neg hrange
    rw [isLetter, hupper] at h
    simp [h]

theorem isWordChar_of_isLetter {c : Char} (h : isLetter c = true) : isWordChar c = true := by
  simp [isWordChar, Char.isAlphanum, isAlpha_of_isLetter h]

theorem isLetter_of_map {cs word : List Char} (h : cs.map Char.toUpper = word)
    (hword : ∀ w ∈ word, w.isUpper = true) : ∀ c ∈ cs, isLetter c = true := by
  intro c hc
  exact hword _ (h ▸ List.mem_map_of_mem hc)

theorem words_isUpper (k : Keyword) :
    (∀ w ∈ k.words.1, w.isUpper = true) ∧ ∀ w ∈ k.words.2, w.isUpper = true := by
  cases k <;> decide

end Keyword

/-- Whether the scanner takes no notice of the character outside quotes and comments, except for
whether it belongs to a word. -/
def isOrdinary (c : Char) : Bool :=
  !(c ∈ ['\'', '"', '(', ')', '-'])

namespace Context

@[simp] theorem after_nil (x : Context) : x.after [] = x := rfl

@[simp] theorem after_cons (x : Context) (c : Char) (cs : List Char) :
    x.after (c :: cs) = (x.next c).after cs := rfl

theorem isTop_iff {x : Context} :
    x.isTop = true ↔ x.quote = none ∧ x.comment = false ∧ x.depth = 0 ∧ x.inWord = false := by
  simp [isTop, and_assoc]

/-- The next context does not depend on whether a word goes on. -/
theorem next_inWord (x : Context) (b : Bool) (c : Char) :
    ({ x with inWord := b } : Context).next c = x.next c := rfl

theorem next_quoted {x : Context} {q : Char} (h : x.quote = some q) (c : Char) :
    x.next c = { x with quote := if c = q then none else some q, dash := false,
                        inWord := Keyword.isWordChar c } := by
  simp only [next, h]

theorem quote_next {x : Context} (hq : x.quote = none) (hc : x.comment = false) (c : Char) :
    (x.next c).quote = if c = '\'' ∨ c = '"' then some c else none := by
  simp only [next, hq, hc]
  by_cases hquote : c = '\'' ∨ c = '"'
  · simp [hquote]
  · simp only [hquote, if_false]
    repeat' split
    all_goals rfl

theorem next_ordinary {x : Context} (hq : x.quote = none) (hc : x.comment = false) {c : Char}
    (h : isOrdinary c = true) :
    x.next c = { x with dash := false, inWord := Keyword.isWordChar c } := by
  simp only [isOrdinary, List.mem_cons, List.not_mem_nil, or_false, Bool.not_eq_true',
    decide_eq_false_iff_not, not_or] at h
  obtain ⟨h1, h2, h3, h4, h5⟩ := h
  simp [next, hq, hc, h1, h2, h3, h4, h5]

/-- Behind ordinary characters, of which `c` is the last. -/
theorem after_ordinary {x : Context} (hq : x.quote = none) (hc : x.comment = false)
    {cs : List Char} {c : Char} (hcs : ∀ d ∈ cs, isOrdinary d = true) (h : isOrdinary c = true) :
    x.after (cs ++ [c]) = { x with dash := false, inWord := Keyword.isWordChar c } := by
  induction cs generalizing x with
  | nil => exact next_ordinary hq hc h
  | cons d cs ih =>
    have hd := next_ordinary hq hc (hcs d List.mem_cons_self)
    rw [List.cons_append, after_cons, hd]
    rw [ih (by exact hq) (by exact hc) fun e he => hcs e (List.mem_cons_of_mem _ he)]

end Context

/-! ### Keywords in their context -/

namespace Keyword

theorem isOrdinary_of_isLetter {c : Char} (h : isLetter c = true) : isOrdinary c = true := by
  have hnot : c ∉ ['\'', '"', '(', ')', '-'] := not_mem_of_class h (by decide)
  rw [isOrdinary, decide_eq_false hnot]
  rfl

theorem isAsciiBlank_facts {c : Char} (h : isAsciiBlank c = true) :
    isOrdinary c = true ∧ isOpener c = false := by
  simp only [isAsciiBlank, Bool.or_eq_true, beq_iff_eq] at h
  have hc : c = ' ' ∨ c = '\t' ∨ c = '\n' ∨ c = '\x0c' ∨ c = '\r' := by
    rcases h with (((h | h) | h) | h) | h
    · exact .inl h
    · exact .inr (.inl h)
    · exact .inr (.inr (.inl h))
    · exact .inr (.inr (.inr (.inl (Char.toNat_inj.mp h))))
    · exact .inr (.inr (.inr (.inr h)))
  rcases hc with rfl | rfl | rfl | rfl | rfl <;> decide

/-- A keyword is a letter that opens it, ordinary characters, and a letter at the end. -/
theorem Spelled.letters {k : Keyword} {word : List Char} (h : k.Spelled word) :
    (∀ c ∈ word, isLetter c = true ∨ isAsciiBlank c = true) ∧
      (∃ c rest, word = c :: rest ∧ isOpener c = true) ∧
      ∃ front c, word = front ++ [c] ∧ isLetter c = true := by
  obtain ⟨a, gap, b, rfl, ha, hgap, hb, hempty⟩ := h
  have hla := isLetter_of_map ha (words_isUpper k).1
  have hlb := isLetter_of_map hb (words_isUpper k).2
  refine ⟨?_, ?_, ?_⟩
  · intro c hc
    simp only [List.mem_append] at hc
    rcases hc with (hc | hc) | hc
    · exact .inl (hla c hc)
    · exact .inr (hgap c hc)
    · exact .inl (hlb c hc)
  · cases a with
    | nil => cases k <;> simp [words] at ha
    | cons c a =>
      refine ⟨c, a ++ gap ++ b, rfl, ?_⟩
      cases k <;> simp [words] at ha <;> simp [isOpener, ha.1]
  · -- The last letter is that of the second word, if there is one.
    rcases List.eq_nil_or_concat b with rfl | ⟨front, c, rfl⟩
    · have hgap0 : gap = [] := hempty.mpr (by simpa using hb.symm)
      subst hgap0
      rcases List.eq_nil_or_concat a with rfl | ⟨front, c, rfl⟩
      · cases k <;> simp [words] at ha
      · exact ⟨front, c, by simp, hla c (by simp)⟩
    · exact ⟨a ++ gap ++ front, c, by simp, hlb c (by simp)⟩

theorem Spelled.isOrdinary {k : Keyword} {word : List Char} (h : k.Spelled word) :
    ∀ c ∈ word, isOrdinary c = true := by
  intro c hc
  rcases h.letters.1 c hc with hletter | hblank
  · exact isOrdinary_of_isLetter hletter
  · exact (isAsciiBlank_facts hblank).1

theorem Spelled.after {k : Keyword} {word : List Char} (h : k.Spelled word) {x : Context}
    (hx : x.isTop = true) : x.after word = { inWord := true } := by
  obtain ⟨hq, hc, hd, -⟩ := Context.isTop_iff.mp hx
  obtain ⟨front, c, hword, hletter⟩ := h.letters.2.2
  have hordinary := h.isOrdinary
  rw [hword] at hordinary ⊢
  rw [Context.after_ordinary hq hc (fun d hd => hordinary d (by simp [hd])) (hordinary c (by simp)),
    isWordChar_of_isLetter hletter, hq, hc, hd]

end Keyword

/-! ### Stretches without keywords -/

namespace Context

/-- Whether no keyword begins within a text that is read in the context, whatever follows it. -/
def Quiet (x : Context) : List Char → Prop
  | [] => True
  | c :: cs => (x.isTop = false ∨ Keyword.isOpener c = false) ∧ (x.next c).Quiet cs

instance decidableQuiet : ∀ (x : Context) (cs : List Char), Decidable (x.Quiet cs)
  | _, [] => inferInstanceAs (Decidable True)
  | x, c :: cs =>
    have := decidableQuiet (x.next c) cs
    inferInstanceAs (Decidable ((x.isTop = false ∨ Keyword.isOpener c = false) ∧
      (x.next c).Quiet cs))

theorem quiet_append {x : Context} {a b : List Char} :
    x.Quiet (a ++ b) ↔ x.Quiet a ∧ (x.after a).Quiet b := by
  induction a generalizing x with
  | nil => simp [Quiet]
  | cons c a ih => simp [Quiet, ih, and_assoc]

theorem quiet_of_isOpener {x : Context} {cs : List Char}
    (h : ∀ c ∈ cs, Keyword.isOpener c = false) : x.Quiet cs := by
  induction cs generalizing x with
  | nil => trivial
  | cons c cs ih =>
    exact ⟨.inr (h c List.mem_cons_self), ih fun d hd => h d (List.mem_cons_of_mem _ hd)⟩

theorem inWord_next (x : Context) (c : Char) : (x.next c).inWord = Keyword.isWordChar c := by
  simp only [next]
  split
  · rfl
  · repeat' split
    all_goals rfl

theorem quiet_of_inWord {x : Context} {cs : List Char} (hx : x.inWord = true)
    (h : ∀ c ∈ cs, Keyword.isWordChar c = true) : x.Quiet cs := by
  induction cs generalizing x with
  | nil => trivial
  | cons c cs ih =>
    refine ⟨.inl (by simp [isTop, hx]), ih ?_ fun d hd => h d (List.mem_cons_of_mem _ hd)⟩
    rw [inWord_next, h c List.mem_cons_self]

/-- Within quotes there are no keywords. -/
theorem quiet_of_quote {x : Context} {q : Char} {cs : List Char} (hx : x.quote = some q)
    (h : q ∉ cs) : x.Quiet cs := by
  induction cs generalizing x with
  | nil => trivial
  | cons c cs ih =>
    simp only [List.mem_cons, not_or] at h
    refine ⟨.inl (by simp [isTop, hx]), ih ?_ h.2⟩
    rw [next_quoted hx]
    exact if_neg (Ne.symm h.1)

end Context

theorem Keyword.Spelled.quiet {k : Keyword} {c : Char} {rest : List Char}
    (h : k.Spelled (c :: rest)) (x : Context) : (x.next c).Quiet rest := by
  obtain ⟨a, gap, b, hword, ha, hgap, hb, hempty⟩ := h
  have hla := isLetter_of_map ha (words_isUpper k).1
  have hlb := isLetter_of_map hb (words_isUpper k).2
  cases a with
  | nil => cases k <;> simp [words] at ha
  | cons d a =>
    obtain ⟨rfl, rfl⟩ : c = d ∧ rest = a ++ gap ++ b := by simpa using hword
    rw [Context.quiet_append, Context.quiet_append]
    -- No keyword begins within a word, and no blank opens one.
    refine ⟨⟨?_, ?_⟩, ?_⟩
    · apply Context.quiet_of_inWord
      · rw [Context.inWord_next, isWordChar_of_isLetter (hla c List.mem_cons_self)]
      · exact fun e he => isWordChar_of_isLetter (hla e (List.mem_cons_of_mem _ he))
    · apply Context.quiet_of_isOpener
      intro e he
      exact (isAsciiBlank_facts (hgap e he)).2
    · -- The second word is BY, whose first letter opens no keyword.
      cases b with
      | nil => trivial
      | cons e b =>
        refine ⟨.inr ?_, ?_⟩
        · cases k <;> simp [words] at hb <;> simp [isOpener, hb.1]
        · apply Context.quiet_of_inWord
          · rw [Context.inWord_next, isWordChar_of_isLetter (hlb e List.mem_cons_self)]
          · exact fun d hd => isWordChar_of_isLetter (hlb d (List.mem_cons_of_mem _ hd))

/-! ### Keywords as they are written -/

namespace Keyword

def text (k : Keyword) : List Char :=
  match k.words with
  | (first, []) => first
  | (first, second) => first ++ ' ' :: second

theorem text_spelled (k : Keyword) : k.Spelled k.text := by
  have hone (h : k.words.2 = []) : k.Spelled k.text := by
    refine ⟨k.text, [], [], by simp, ?_, by simp, by simp [h], by simp [h]⟩
    cases k <;> first | decide | cases h
  have htwo (h : k.words.2 = ['B', 'Y']) : k.Spelled k.text := by
    refine ⟨k.words.1, [' '], ['B', 'Y'], ?_, ?_, by decide, by rw [h]; decide, by simp [h]⟩
    · cases k <;> first | decide | cases h
    · cases k <;> decide
  cases k with
  | groupBy | orderBy => exact htwo rfl
  | source | condition | limit | offset => exact hone rfl

theorem afterWord?_of_map {word v tail : List Char} (hv : v.map Char.toUpper = word)
    (h : startsWord tail = false) : afterWord? word (v ++ tail) = some tail := by
  subst hv
  induction v with
  | nil => simp [afterWord?, h]
  | cons c v ih =>
    rw [List.map_cons, List.cons_append, afterWord?, if_pos rfl]
    exact ih

theorem after?_text (k : Keyword) {tail : List Char} (h : startsWord tail = false) :
    k.after? (k.text ++ tail) = some tail := by
  have hupper : k.words.1.map Char.toUpper = k.words.1 ∧
      k.words.2.map Char.toUpper = k.words.2 := by
    cases k <;> decide
  have hfull : ∀ c ∈ k.words.2, isAsciiBlank c = false := by
    cases k <;> decide
  rw [text, after?]
  generalize k.words = words at hupper hfull
  obtain ⟨first, _ | ⟨s, second⟩⟩ := words
  · exact afterWord?_of_map hupper.1 h
  · have hfirst : afterWord? first (first ++ ' ' :: (s :: second ++ tail)) =
        some (' ' :: (s :: second ++ tail)) :=
      afterWord?_of_map hupper.1 rfl
    have hsecond : (s :: second ++ tail).dropWhile isAsciiBlank = s :: second ++ tail := by
      simp [hfull s List.mem_cons_self]
    simp only [List.append_assoc, List.cons_append] at hfirst hsecond ⊢
    rw [hfirst]
    show afterWord? (s :: second) ((s :: (second ++ tail)).dropWhile isAsciiBlank) = some tail
    rw [hsecond]
    exact afterWord?_of_map hupper.2 h

theorem atFront?_text (k : Keyword) {tail : List Char} (h : startsWord tail = false) :
    atFront? (k.text ++ tail) = some (k, tail) := by
  have hother : ∀ k', k' ≠ k → k'.after? (k.text ++ tail) = none := by
    intro k' hne
    cases k <;> cases k' <;> first | rfl | exact absurd rfl hne
  have hself := k.after?_text h
  rw [atFront?, all]
  cases k <;> simp [hother, hself]

/-! ### Changes that keywords survive -/

def afterBlanks? : List Char → Option (List Char)
  | c :: rest => if isAsciiBlank c then some (rest.dropWhile isAsciiBlank) else none
  | [] => none

/-- Whether a change of texts changes what follows words and blanks, and nothing else about them. -/
structure Respects (f : List Char → List Char) : Prop where
  word : ∀ word : List Char, (∀ l ∈ word, l.isUpper = true) →
    ∀ cs, afterWord? word (f cs) = (afterWord? word cs).map f
  blanks : ∀ cs, afterBlanks? (f cs) = (afterBlanks? cs).map f

theorem after?_eq (k : Keyword) (cs : List Char) :
    k.after? cs = if k.words.2 = [] then afterWord? k.words.1 cs
      else ((afterWord? k.words.1 cs).bind afterBlanks?).bind (afterWord? k.words.2) := by
  rw [after?]
  generalize k.words = words
  obtain ⟨first, _ | ⟨s, second⟩⟩ := words
  · rw [if_pos rfl]
  · rw [if_neg (List.cons_ne_nil s second)]
    simp only
    cases afterWord? first cs with
    | none => rfl
    | some tail =>
      cases tail with
      | nil => rfl
      | cons c rest => cases hblank : isAsciiBlank c <;> simp [afterBlanks?, hblank]

namespace Respects

variable {f : List Char → List Char} (h : Respects f)
include h

theorem after? (k : Keyword) (cs : List Char) : k.after? (f cs) = (k.after? cs).map f := by
  obtain ⟨hfirst, hsecond⟩ := words_isUpper k
  rw [after?_eq, after?_eq, h.word _ hfirst]
  split
  · rfl
  · cases afterWord? k.words.1 cs with
    | none => rfl
    | some tail =>
      rw [Option.map_some, Option.bind_some, Option.bind_some, h.blanks]
      cases afterBlanks? tail with
      | none => rfl
      | some rest => exact h.word _ hsecond rest

theorem atFront? (cs : List Char) :
    atFront? (f cs) = (atFront? cs).map fun found => (found.1, f found.2) := by
  rw [Keyword.atFront?, Keyword.atFront?]
  induction all with
  | nil => rfl
  | cons k rest ih =>
    rw [List.findSome?_cons, List.findSome?_cons, h.after?]
    cases k.after? cs with
    | some tail => rfl
    | none => exact ih

end Respects

end Keyword

/-! ### Marks -/

namespace Mark

theorem scanFrom_cons_of_none {x : Context} {c : Char} {cs : List Char}
    (h : x.isTop = false ∨ Keyword.atFront? (c :: cs) = none) (n : Nat) :
    scanFrom x n (c :: cs) = scanFrom (x.next c) (n + 1) cs := by
  rcases h with h | h <;> simp [scanFrom, h]

theorem scanFrom_append_of_quiet {x : Context} {a : List Char} (h : x.Quiet a) (n : Nat)
    (b : List Char) : scanFrom x n (a ++ b) = scanFrom (x.after a) (n + a.length) b := by
  induction a generalizing x n with
  | nil => rfl
  | cons c a ih =>
    have hnone : x.isTop = false ∨ Keyword.atFront? (c :: (a ++ b)) = none :=
      h.1.imp id fun hopener => Keyword.atFront?_eq_none hopener _
    rw [List.cons_append, scanFrom_cons_of_none hnone, ih h.2, List.length_cons,
      Context.after_cons, Nat.add_assoc, Nat.add_comm 1]

/-- A keyword at the top level is marked, and scanning goes on behind it. -/
theorem scanFrom_keyword {x : Context} (hx : x.isTop = true) {k : Keyword} {word tail : List Char}
    (hfront : Keyword.atFront? (word ++ tail) = some (k, tail)) (hword : k.Spelled word) (n : Nat) :
    scanFrom x n (word ++ tail) =
      ⟨k, n, n + word.length⟩ :: scanFrom (x.after word) (n + word.length) tail := by
  obtain ⟨-, ⟨c, rest, rfl, -⟩, -⟩ := hword.letters
  have hlength : (rest ++ tail).length + 1 - tail.length = rest.length + 1 := by
    rw [List.length_append]
    omega
  rw [List.cons_append] at hfront
  rw [List.cons_append, scanFrom, scanFrom_append_of_quiet (hword.quiet x)]
  simp only [hx, if_true, hfront, hlength, List.singleton_append, List.length_cons,
    Context.after_cons, Nat.add_assoc, Nat.add_comm 1]

theorem mem_scanFrom_append {x : Context} {n : Nat} {a b : List Char} {m : Mark}
    (h : m ∈ scanFrom (x.after a) (n + a.length) b) : m ∈ scanFrom x n (a ++ b) := by
  induction a generalizing x n with
  | nil => exact h
  | cons c a ih =>
    rw [List.cons_append, scanFrom]
    apply List.mem_append_right
    apply ih
    rwa [List.length_cons, Context.after_cons, Nat.add_comm a.length, ← Nat.add_assoc] at h

end Mark

end QueryChain
