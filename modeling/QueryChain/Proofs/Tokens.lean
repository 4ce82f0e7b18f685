import QueryChain.Postgres.Placeholder
import QueryChain.Proofs.Places

/-!
How the text of a statement is read into placeholders, doubled percent signs and characters that
stand for themselves. The reader that counts placeholders and the one that numbers them both follow
this one reading, so they agree on every text: what is counted, and nothing else, is numbered.
-/

namespace QueryChain.Postgres

open Number
open Placeholder (Place)

inductive Token
  | kept (c : Char)
  | placeholder
  | percent
  deriving DecidableEq

namespace Token

def source : Token → List Char
  | kept c => [c]
  | placeholder => ['%', 's']
  | percent => ['%', '%']

/-- How the parts are sent, behind `n` placeholders. -/
def sent : Nat → List Token → List Char
  | _, [] => []
  | n, kept c :: rest => c :: sent n rest
  | n, placeholder :: rest => '$' :: (digitChars (n + 1) ++ sent (n + 1) rest)
  | n, percent :: rest => '%' :: sent n rest

def quoteBehind : Option Char → Char → Option Char
  | some mark, c => if c = mark then none else some mark
  | none, c => if c = '\'' ∨ c = '"' then some c else none

/-- Whether a percent sign before a text stands for itself. -/
def Lone (cs : List Char) : Prop :=
  ∀ c ∈ cs.head?, c ≠ 's' ∧ c ≠ '%'

/-- The parts of a text behind an open quote, if there is one. Within quotes every character stands
for itself. -/
inductive Reads : Option Char → List Char → List Token → Prop
  | nil {quote : Option Char} : Reads quote [] []
  | quoted {mark c : Char} {cs : List Char} {ts : List Token}
    (tail : Reads (quoteBehind (some mark) c) cs ts) : Reads (some mark) (c :: cs) (kept c :: ts)
  | placeholder {cs : List Char} {ts : List Token} (tail : Reads none cs ts) :
    Reads none ('%' :: 's' :: cs) (.placeholder :: ts)
  | percent {cs : List Char} {ts : List Token} (tail : Reads none cs ts) :
    Reads none ('%' :: '%' :: cs) (.percent :: ts)
  | plain {c : Char} {cs : List Char} {ts : List Token} (lone : c = '%' → Lone cs)
    (tail : Reads (quoteBehind none c) cs ts) : Reads none (c :: cs) (kept c :: ts)

theorem lone_iff {cs : List Char} :
    Lone cs ↔ (∀ rest, cs ≠ 's' :: rest) ∧ ∀ rest, cs ≠ '%' :: rest := by
  cases cs with
  | nil => simp [Lone]
  | cons c rest => simp [Lone]

theorem Lone.front {a cs : List Char} (h : Lone cs) (ha : a <+: cs) : Lone a := by
  intro c hc
  obtain ⟨rest, rfl⟩ := ha
  exact h c (by rw [List.head?_append, hc, Option.some_or]; rfl)

/-- Every text can be read. -/
theorem exists_reads (quote : Option Char) (cs : List Char) : ∃ ts, Reads quote cs ts := by
  -- The cases of the numbering are those of the reading, whatever the number.
  fun_induction numberChars quote 0 cs with
  | case1 => exact ⟨[], .nil⟩
  | case2 _ _ _ _ ih => exact ih.imp' _ fun _ h => .quoted h
  | case3 _ _ ih => exact ih.imp' _ fun _ h => .placeholder h
  | case4 _ _ ih => exact ih.imp' _ fun _ h => .percent h
  | case5 n c rest hs hpercent ih =>
    refine ih.imp' _ fun _ h => .plain (fun hc => lone_iff.mpr ?_) h
    exact ⟨fun tail => hs tail hc, fun tail => hpercent tail hc⟩

/-- A text can be read in one way only. -/
theorem Reads.unique {quote : Option Char} {cs : List Char} {ts ts' : List Token}
    (h : Reads quote cs ts) (h' : Reads quote cs ts') : ts = ts' := by
  induction h generalizing ts' with
  | nil =>
    cases h'
    rfl
  | quoted _ ih =>
    cases h' with
    | quoted tail => rw [ih tail]
  | placeholder _ ih =>
    cases h' with
    | placeholder tail => rw [ih tail]
    | plain lone _ => exact absurd rfl (lone rfl 's' rfl).1
  | percent _ ih =>
    cases h' with
    | percent tail => rw [ih tail]
    | plain lone _ => exact absurd rfl (lone rfl '%' rfl).2
  | plain lone _ ih =>
    cases h' with
    | placeholder tail => exact absurd rfl (lone rfl 's' rfl).1
    | percent tail => exact absurd rfl (lone rfl '%' rfl).2
    | plain _ tail => rw [ih tail]

theorem Reads.flatMap_source {quote : Option Char} {cs : List Char} {ts : List Token}
    (h : Reads quote cs ts) : ts.flatMap source = cs := by
  induction h with
  | nil => rfl
  | quoted _ ih | placeholder _ ih | percent _ ih | plain _ _ ih =>
    rw [List.flatMap_cons, ih]
    rfl

theorem Reads.numberChars {quote : Option Char} {cs : List Char} {ts : List Token}
    (h : Reads quote cs ts) (n : Nat) : Postgres.numberChars quote n cs = sent n ts := by
  induction h generalizing n with
  | nil => rfl
  | quoted _ ih =>
    rw [Postgres.numberChars, sent, ← ih]
    rfl
  | placeholder _ ih => rw [Postgres.numberChars, sent, ih, List.cons_append]
  | percent _ ih => rw [Postgres.numberChars, sent, ih]
  | @plain c cs _ lone _ ih =>
    rw [Postgres.numberChars, sent, ← ih]
    · rfl
    · exact fun rest hc => (lone_iff.mp (lone hc)).1 rest
    · exact fun rest hc => (lone_iff.mp (lone hc)).2 rest

/-! ### Counted placeholders -/

/-- Whether a place is one behind an open quote, if there is one, at which the text that follows is
read from its beginning. -/
def Begins (quote : Option Char) (place : Place) (cs : List Char) : Prop :=
  place.quote? = quote ∧ (place = .percentSign → Lone cs)

theorem eq_percent_of_next {place : Place} {c : Char} (h : place.next c = .percentSign) :
    c = '%' := by
  by_contra hc
  have hbehind : Place.behind c ≠ .percentSign := by
    rw [Place.behind, if_neg hc]
    split <;> simp
  cases place with
  | plain => exact hbehind h
  | percentSign => exact hbehind ((if_neg hc).symm.trans h)
  | quoted mark =>
    rw [Place.next] at h
    split at h <;> cases h

/-- A character that stands for itself ends no placeholder. -/
theorem Begins.kept {place : Place} {quote : Option Char} {c : Char} {cs : List Char}
    (h : Begins quote place (c :: cs)) (hlone : quote = none → c = '%' → Lone cs) :
    Placeholder.percent.endsAt place c = false ∧
      Begins (quoteBehind quote c) (place.next c) cs := by
  obtain ⟨hquote, hfront⟩ := h
  cases quote with
  | some mark =>
    refine ⟨?_, Place.quote?_next_quoted hquote c, fun hnext => ?_⟩
    · cases place with
      | plain | percentSign => cases hquote
      | quoted _ => rfl
    · exact absurd hnext (Place.next_quoted_ne hquote c)
  | none =>
    refine ⟨?_, Place.quote?_next hquote c, fun hnext => hlone rfl (eq_percent_of_next hnext)⟩
    rcases Place.eq_of_quote? hquote with rfl | rfl
    · rfl
    · exact beq_eq_false_iff_ne.mpr (hfront rfl c rfl).1

/-- A percent sign that does not stand for itself stands behind no other one. -/
theorem Begins.eq_plain {place : Place} {c : Char} {cs : List Char}
    (h : Begins none place ('%' :: c :: cs)) : place = .plain := by
  rcases Place.eq_of_quote? h.1 with rfl | rfl
  · rfl
  · exact absurd rfl (h.2 rfl '%' rfl).2

theorem begins_plain (cs : List Char) : Begins none .plain cs :=
  ⟨rfl, fun h => by cases h⟩

/-- The placeholders of a text are counted as it is read. -/
theorem Reads.countFrom {quote : Option Char} {cs : List Char} {ts : List Token}
    (h : Reads quote cs ts) {place : Place} (hplace : Begins quote place cs) :
    Placeholder.percent.countFrom place cs = ts.count .placeholder := by
  induction h generalizing place with
  | nil => rfl
  | quoted _ ih =>
    obtain ⟨hends, hnext⟩ := hplace.kept (fun h => by cases h)
    rw [Placeholder.countFrom, hends, ih hnext, List.count_cons_of_ne (by simp)]
    exact Nat.zero_add _
  | @placeholder cs ts _ ih =>
    obtain rfl := hplace.eq_plain
    have hcount : Placeholder.percent.countFrom .plain ('%' :: 's' :: cs) =
        0 + (1 + Placeholder.percent.countFrom .plain cs) := rfl
    rw [hcount, ih (begins_plain cs), List.count_cons_self, Nat.zero_add, Nat.add_comm]
  | @percent cs ts _ ih =>
    obtain rfl := hplace.eq_plain
    have hcount : Placeholder.percent.countFrom .plain ('%' :: '%' :: cs) =
        0 + (0 + Placeholder.percent.countFrom .plain cs) := rfl
    rw [hcount, ih (begins_plain cs), List.count_cons_of_ne (by simp), Nat.zero_add, Nat.zero_add]
  | plain lone _ ih =>
    obtain ⟨hends, hnext⟩ := hplace.kept (fun _ => lone)
    rw [Placeholder.countFrom, hends, ih hnext, List.count_cons_of_ne (by simp)]
    exact Nat.zero_add _

/-- The parts at the front of a text are read alike without what comes behind them. -/
theorem Reads.front {quote : Option Char} {cs : List Char} {front back : List Token}
    (h : Reads quote cs (front ++ back)) : Reads quote (front.flatMap source) front := by
  induction front generalizing quote cs with
  | nil => exact .nil
  | cons t front ih =>
    cases h with
    | quoted tail => exact .quoted (ih tail)
    | placeholder tail => exact .placeholder (ih tail)
    | percent tail => exact .percent (ih tail)
    | plain lone tail =>
      have hsource : (front ++ back).flatMap source = _ := tail.flatMap_source
      rw [List.flatMap_append] at hsource
      exact .plain (fun hc => (lone hc).front ⟨_, hsource⟩) (ih tail)

end Token

end QueryChain.Postgres
