import QueryChain.Proofs.Scanning

/-!
Text with quotes in it. Which characters are quotes is a parameter. A reader goes over the text with
the quote that is open, if there is one; what it passes outside quotes is what a database reads as
words and signs.
-/

namespace QueryChain.Quotation

variable (marks : List Char)

def behind : Option Char → Char → Option Char
  | some mark, c => if c = mark then none else some mark
  | none, c => if c ∈ marks then some c else none

def after (quote : Option Char) (cs : List Char) : Option Char :=
  cs.foldl (behind marks) quote

/-- The characters of a text that stand outside quotes, the quotes themselves left out. -/
def outside : Option Char → List Char → List Char
  | _, [] => []
  | some mark, c :: rest => outside (behind marks (some mark) c) rest
  | none, c :: rest => if c ∈ marks then outside (some c) rest else c :: outside none rest

variable {marks}

@[simp] theorem after_nil (quote : Option Char) : after marks quote [] = quote := rfl

@[simp] theorem after_cons (quote : Option Char) (c : Char) (cs : List Char) :
    after marks quote (c :: cs) = after marks (behind marks quote c) cs := rfl

theorem after_append (quote : Option Char) (a b : List Char) :
    after marks quote (a ++ b) = after marks (after marks quote a) b :=
  List.foldl_append

@[simp] theorem outside_nil (quote : Option Char) : outside marks quote [] = [] := by
  cases quote <;> rfl

theorem outside_cons (quote : Option Char) (c : Char) (cs : List Char) :
    outside marks quote (c :: cs) = outside marks quote [c] ++
      outside marks (behind marks quote c) cs := by
  cases quote with
  | some mark => rw [outside, outside, outside_nil, List.nil_append]
  | none =>
    rw [outside, outside, behind]
    split
    · rw [outside_nil, List.nil_append]
    · rw [outside_nil, List.singleton_append]

theorem outside_append (quote : Option Char) (a b : List Char) :
    outside marks quote (a ++ b) =
      outside marks quote a ++ outside marks (after marks quote a) b := by
  induction a generalizing quote with
  | nil => rw [List.nil_append, outside_nil, List.nil_append, after_nil]
  | cons c a ih =>
    rw [List.cons_append, outside_cons, ih, outside_cons quote c a, after_cons, List.append_assoc]

/-- Text without quotes stands outside them as it is. -/
theorem read_free {cs : List Char} (h : ∀ c ∈ cs, c ∉ marks) (rest : List Char) :
    after marks none (cs ++ rest) = after marks none rest ∧
      outside marks none (cs ++ rest) = cs ++ outside marks none rest := by
  induction cs with
  | nil => exact ⟨rfl, rfl⟩
  | cons c cs ih =>
    obtain ⟨hc, hcs⟩ := List.forall_mem_cons.mp h
    obtain ⟨hafter, houtside⟩ := ih hcs
    rw [List.cons_append, after_cons, behind, if_neg hc, outside, if_neg hc, houtside]
    exact ⟨hafter, rfl⟩

/-- Behind an open quote nothing stands outside up to its next occurrence, which closes it. -/
theorem read_open {mark : Char} {inner : List Char} (h : mark ∉ inner) (rest : List Char) :
    after marks (some mark) (inner ++ mark :: rest) = after marks none rest ∧
      outside marks (some mark) (inner ++ mark :: rest) = outside marks none rest := by
  induction inner with
  | nil =>
    rw [List.nil_append, after_cons, outside, behind, if_pos rfl]
    exact ⟨rfl, rfl⟩
  | cons c inner ih =>
    obtain ⟨hc, hinner⟩ := not_or.mp (mt List.mem_cons.mpr h)
    rw [List.cons_append, after_cons, outside, behind, if_neg (Ne.symm hc)]
    exact ih hinner

/-- A quoted text is passed over. -/
theorem read_quoted {mark : Char} (hmark : mark ∈ marks) {inner : List Char} (h : mark ∉ inner)
    (rest : List Char) :
    after marks none (mark :: (inner ++ mark :: rest)) = after marks none rest ∧
      outside marks none (mark :: (inner ++ mark :: rest)) = outside marks none rest := by
  rw [after_cons, outside, behind, if_pos hmark, if_pos hmark]
  exact read_open h rest

theorem outside_singleton (quote : Option Char) (c : Char) :
    outside marks quote [c] = [] ∨ outside marks quote [c] = [c] := by
  cases quote with
  | some mark =>
    rw [outside, outside_nil]
    exact .inl rfl
  | none =>
    rw [outside]
    split
    · exact .inl (outside_nil _)
    · exact .inr rfl

/-- What stands outside quotes in front of other such characters comes from a front of the text. -/
theorem exists_front_of_outside {quote : Option Char} {cs a b : List Char}
    (h : outside marks quote cs = a ++ b) :
    ∃ front, front <+: cs ∧ outside marks quote front = a := by
  induction cs generalizing quote a with
  | nil =>
    rw [outside_nil] at h
    obtain ⟨rfl, -⟩ := List.append_eq_nil_iff.mp h.symm
    exact ⟨[], List.nil_prefix, outside_nil quote⟩
  | cons c cs ih =>
    cases a with
    | nil => exact ⟨[], List.nil_prefix, outside_nil quote⟩
    | cons d a =>
      rw [outside_cons] at h
      have hsingle : outside marks quote [c] = [] ∨ outside marks quote [c] = [c] :=
        outside_singleton quote c
      obtain hc | hc := hsingle
      · rw [hc, List.nil_append] at h
        obtain ⟨front, hfront, houtside⟩ := ih h
        refine ⟨c :: front, List.cons_prefix_cons.mpr ⟨rfl, hfront⟩, ?_⟩
        rw [outside_cons, hc, List.nil_append, houtside]
      · rw [hc, List.singleton_append, List.cons_append, List.cons.injEq] at h
        obtain ⟨front, hfront, houtside⟩ := ih h.2
        refine ⟨c :: front, List.cons_prefix_cons.mpr ⟨rfl, hfront⟩, ?_⟩
        rw [outside_cons, hc, List.singleton_append, houtside, h.1]

end QueryChain.Quotation
