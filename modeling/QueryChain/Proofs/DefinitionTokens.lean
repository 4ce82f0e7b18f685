import QueryChain.Proofs.Scanning
import QueryChain.Sql.ColumnDefinition

/-!
How a column definition is read into tokens. The lexer goes character by character; here a text is
cut into whole tokens, of which words and numbers are as long as they can be. There is one such
reading of every text, the one of the lexer.
-/

namespace QueryChain

open Text

/-! ### Classes of characters -/

theorem isBlank_of_isNameChar {c : Char} (h : isNameChar c = true) : isBlank c = false := by
  have hrange : c.toNat = 95 ∨ (48 ≤ c.toNat ∧ c.toNat ≤ 57) ∨ (65 ≤ c.toNat ∧ c.toNat ≤ 90) ∨
      (97 ≤ c.toNat ∧ c.toNat ≤ 122) := by
    rw [isNameChar, Bool.or_eq_true, beq_iff_eq] at h
    obtain rfl | hchar := h
    · exact .inl rfl
    · have hcodes : ((decide (65 ≤ c.val ∧ c.val ≤ 90) ||
          (decide (97 ≤ c.val) && decide (c.val ≤ 122))) ||
          (decide (48 ≤ c.val) && decide (c.val ≤ 57))) = true := hchar
      simp only [Bool.or_eq_true, Bool.and_eq_true, decide_eq_true_eq,
        UInt32.le_iff_toNat_le] at hcodes
      obtain (hupper | hlower) | hdigit := hcodes
      · exact .inr (.inr (.inl hupper))
      · exact .inr (.inr (.inr hlower))
      · exact .inr (.inl hdigit)
  rw [← Bool.not_eq_true]
  intro hblank
  simp only [isBlank, Bool.or_eq_true, Bool.and_eq_true, decide_eq_true_eq, beq_iff_eq] at hblank
  omega

theorem isNameChar_of_isDigit {c : Char} (h : c.isDigit = true) : isNameChar c = true := by
  have halphanum : (c.isAlpha || c.isDigit) = true := by rw [h, Bool.or_true]
  rw [isNameChar, Bool.or_eq_true]
  exact .inr halphanum

namespace ColumnDefinition

/-- The signs that stand for themselves in a definition, and the quote. -/
def signs : List Char := ['(', ')', ',', '\'']

def isForeign (c : Char) : Bool :=
  !(isBlank c || c ∈ signs || isNameChar c)

theorem not_mem_signs_of_isNameChar {c : Char} (h : isNameChar c = true) : c ∉ signs :=
  not_mem_of_class h (by decide)

/-! ### Readings -/

inductive Reads : List Char → List Token → Prop
  | nil : Reads [] []
  | blank {c : Char} {cs : List Char} {ts : List Token} (h : isBlank c = true)
    (tail : Reads cs ts) : Reads (c :: cs) ts
  | opening {cs : List Char} {ts : List Token} (tail : Reads cs ts) :
    Reads ('(' :: cs) (.opening :: ts)
  | closing {cs : List Char} {ts : List Token} (tail : Reads cs ts) :
    Reads (')' :: cs) (.closing :: ts)
  | comma {cs : List Char} {ts : List Token} (tail : Reads cs ts) : Reads (',' :: cs) (.comma :: ts)
  | literal {inner cs : List Char} {ts : List Token} (h : '\'' ∉ inner) (tail : Reads cs ts) :
    Reads ('\'' :: (inner ++ '\'' :: cs)) (.literal :: ts)
  | unclosed {inner : List Char} (h : '\'' ∉ inner) :
    Reads ('\'' :: inner) [.unclosed ('\'' :: inner)]
  | number {c : Char} {digits cs : List Char} {ts : List Token} (first : c.isDigit = true)
    (rest : ∀ d ∈ digits, d.isDigit = true) (stop : ∀ d ∈ cs.head?, d.isDigit = false)
    (tail : Reads cs ts) : Reads (c :: (digits ++ cs)) (.number :: ts)
  | word {c : Char} {chars cs : List Char} {ts : List Token} (first : isNameChar c = true)
    (letter : c.isDigit = false) (rest : ∀ d ∈ chars, isNameChar d = true)
    (stop : ∀ d ∈ cs.head?, isNameChar d = false) (tail : Reads cs ts) :
    Reads (c :: (chars ++ cs)) (.word (c :: chars) :: ts)
  | foreign {c : Char} {cs : List Char} {ts : List Token} (h : isForeign c = true)
    (tail : Reads cs ts) : Reads (c :: cs) (.foreign c :: ts)

/-- A front of characters of a class, up to one that is not of it. -/
theorem exists_run (p : Char → Bool) (cs : List Char) :
    ∃ run rest, cs = run ++ rest ∧ (∀ d ∈ run, p d = true) ∧ ∀ d ∈ rest.head?, p d = false := by
  refine ⟨cs.takeWhile p, cs.dropWhile p, List.takeWhile_append_dropWhile.symm, ?_, ?_⟩
  · exact fun d hd => List.all_eq_true.mp List.all_takeWhile d hd
  · intro d hd
    have hnot := List.head?_dropWhile_not p cs
    rw [Option.mem_def.mp hd] at hnot
    simpa using hnot

/-- Every text can be read. -/
theorem exists_reads (cs : List Char) : ∃ ts, Reads cs ts := by
  induction hn : cs.length using Nat.strongRecOn generalizing cs with
  | ind n ih =>
    cases cs with
    | nil => exact ⟨[], .nil⟩
    | cons c cs =>
      rw [List.length_cons] at hn
      have htail : ∃ ts, Reads cs ts := ih cs.length (by omega) cs rfl
      by_cases hblank : isBlank c = true
      · exact htail.imp fun _ => .blank hblank
      by_cases hsign : c ∈ signs
      · simp only [signs, List.mem_cons, List.not_mem_nil, or_false] at hsign
        obtain rfl | rfl | rfl | rfl := hsign
        · exact htail.imp' _ fun _ => .opening
        · exact htail.imp' _ fun _ => .closing
        · exact htail.imp' _ fun _ => .comma
        · by_cases hquote : '\'' ∈ cs
          · obtain ⟨inner, rest, rfl, hinner⟩ := List.eq_append_cons_of_mem hquote
            rw [List.length_append, List.length_cons] at hn
            exact (ih rest.length (by omega) rest rfl).imp' _ fun _ => .literal hinner
          · exact ⟨_, .unclosed hquote⟩
      by_cases hname : isNameChar c = true
      · by_cases hdigit : c.isDigit = true
        · obtain ⟨digits, rest, rfl, hdigits, hstop⟩ := exists_run Char.isDigit cs
          rw [List.length_append] at hn
          exact (ih rest.length (by omega) rest rfl).imp' _ fun _ => .number hdigit hdigits hstop
        · obtain ⟨chars, rest, rfl, hchars, hstop⟩ := exists_run isNameChar cs
          rw [List.length_append] at hn
          exact (ih rest.length (by omega) rest rfl).imp' _ fun _ =>
            .word hname (eq_false_of_ne_true hdigit) hchars hstop
      · have hforeign : isForeign c = true := by simp [isForeign, hblank, hsign, hname]
        exact htail.imp' _ fun _ => .foreign hforeign

/-! ### The lexer -/

theorem lexFrom_nothing_cons (c : Char) (cs : List Char) :
    lexFrom .nothing (c :: cs) = (start c).1 ++ lexFrom (start c).2 cs := rfl

theorem start_blank {c : Char} (h : isBlank c = true) : start c = ([], .nothing) :=
  if_pos h

theorem start_of_not {c : Char} (hblank : isBlank c = false) (hsign : c ∉ signs) :
    start c = if c.isDigit then ([], .number) else if isNameChar c then ([], .word [c])
      else ([.foreign c], .nothing) := by
  simp only [signs, List.mem_cons, List.not_mem_nil, or_false, not_or] at hsign
  obtain ⟨hopening, hclosing, hcomma, hquote⟩ := hsign
  rw [start, if_neg (ne_true_of_eq_false hblank), if_neg hopening, if_neg hclosing, if_neg hcomma,
    if_neg hquote]

theorem start_name {c : Char} (h : isNameChar c = true) :
    start c = if c.isDigit then ([], .number) else ([], .word [c]) := by
  rw [start_of_not (isBlank_of_isNameChar h) (not_mem_signs_of_isNameChar h), if_pos h]

theorem start_foreign {c : Char} (h : isForeign c = true) : start c = ([.foreign c], .nothing) := by
  simp only [isForeign, Bool.not_eq_true', Bool.or_eq_false_iff, decide_eq_false_iff_not] at h
  obtain ⟨⟨hblank, hsign⟩, hname⟩ := h
  have hdigit : ¬ c.isDigit = true := fun hdigit => by
    rw [isNameChar_of_isDigit hdigit] at hname
    cases hname
  rw [start_of_not hblank hsign, if_neg hdigit, if_neg (ne_true_of_eq_false hname)]

/-- A character that does not go on with what is pending is read behind it. -/
theorem lexFrom_stop {p : Pending} {cs : List Char}
    (h : ∀ c ∈ cs.head?, advance p c = (p.finish ++ (start c).1, (start c).2)) :
    lexFrom p cs = p.finish ++ lexFrom .nothing cs := by
  cases cs with
  | nil => rw [lexFrom, lexFrom, Pending.finish, List.append_nil]
  | cons c cs => rw [lexFrom, h c rfl, lexFrom_nothing_cons, List.append_assoc]

theorem lexFrom_number {digits cs : List Char} (h : ∀ d ∈ digits, d.isDigit = true)
    (stop : ∀ d ∈ cs.head?, d.isDigit = false) :
    lexFrom .number (digits ++ cs) = .number :: lexFrom .nothing cs := by
  induction digits with
  | nil =>
    rw [List.nil_append, lexFrom_stop]
    · rfl
    · exact fun c hc => if_neg (ne_true_of_eq_false (stop c hc))
  | cons d digits ih =>
    obtain ⟨hd, hdigits⟩ := List.forall_mem_cons.mp h
    rw [List.cons_append, lexFrom, advance, if_pos hd, ih hdigits, List.nil_append]

theorem lexFrom_word (acc : List Char) {chars cs : List Char}
    (h : ∀ d ∈ chars, isNameChar d = true) (stop : ∀ d ∈ cs.head?, isNameChar d = false) :
    lexFrom (.word acc) (chars ++ cs) = .word (acc.reverse ++ chars) :: lexFrom .nothing cs := by
  induction chars generalizing acc with
  | nil =>
    rw [List.nil_append, lexFrom_stop]
    · rw [Pending.finish, List.singleton_append, List.append_nil]
    · exact fun c hc => if_neg (ne_true_of_eq_false (stop c hc))
  | cons d chars ih =>
    obtain ⟨hd, hchars⟩ := List.forall_mem_cons.mp h
    rw [List.cons_append, lexFrom, advance, if_pos hd, ih _ hchars, List.nil_append,
      List.reverse_cons, List.append_assoc, List.singleton_append]

theorem lexFrom_literal (acc : List Char) {inner : List Char} (h : '\'' ∉ inner) (cs : List Char) :
    lexFrom (.literal acc) (inner ++ '\'' :: cs) = .literal :: lexFrom .nothing cs := by
  induction inner generalizing acc with
  | nil => rfl
  | cons c inner ih =>
    obtain ⟨hc, hinner⟩ := not_or.mp (mt List.mem_cons.mpr h)
    rw [List.cons_append, lexFrom, advance, if_neg (Ne.symm hc), ih _ hinner, List.nil_append]

theorem lexFrom_unclosed (acc : List Char) {inner : List Char} (h : '\'' ∉ inner) :
    lexFrom (.literal acc) inner = [.unclosed (acc.reverse ++ inner)] := by
  induction inner generalizing acc with
  | nil => rw [lexFrom, Pending.finish, List.append_nil]
  | cons c inner ih =>
    obtain ⟨hc, hinner⟩ := not_or.mp (mt List.mem_cons.mpr h)
    rw [lexFrom, advance, if_neg (Ne.symm hc), ih _ hinner, List.nil_append, List.reverse_cons,
      List.append_assoc, List.singleton_append]

/-- The lexer follows every reading. -/
theorem Reads.lexFrom_eq {cs : List Char} {ts : List Token} (h : Reads cs ts) :
    lexFrom .nothing cs = ts := by
  induction h with
  | nil => rfl
  | blank h _ ih => rw [lexFrom_nothing_cons, start_blank h, ih, List.nil_append]
  | opening _ ih | closing _ ih | comma _ ih => exact congrArg (_ :: ·) ih
  | @literal inner cs ts h _ ih =>
    rw [lexFrom_nothing_cons]
    exact (lexFrom_literal ['\''] h cs).trans (congrArg (_ :: ·) ih)
  | @unclosed inner h => exact lexFrom_unclosed ['\''] h
  | number first rest stop _ ih =>
    rw [lexFrom_nothing_cons, start_name (isNameChar_of_isDigit first), if_pos first,
      lexFrom_number rest stop, ih, List.nil_append]
  | word first letter rest stop _ ih =>
    rw [lexFrom_nothing_cons, start_name first, if_neg (ne_true_of_eq_false letter),
      lexFrom_word _ rest stop, ih, List.nil_append, List.reverse_singleton, List.singleton_append]
  | foreign h _ ih => rw [lexFrom_nothing_cons, start_foreign h, ih, List.singleton_append]

/-- The tokens of a definition are those of the lexer. -/
theorem reads_iff {s : String} {ts : List Token} : Reads s.toList ts ↔ lex s = ts := by
  refine ⟨Reads.lexFrom_eq, ?_⟩
  rintro rfl
  obtain ⟨ts, h⟩ := exists_reads s.toList
  have hlex : lex s = ts := h.lexFrom_eq
  rwa [hlex]

end ColumnDefinition

end QueryChain
