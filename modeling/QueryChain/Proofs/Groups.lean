import QueryChain.Proofs.Division
import QueryChain.Proofs.Levels
import QueryChain.Proofs.Nesting
import QueryChain.Proofs.Standing

/-!
Literals, quoted names and groups in parentheses. The scanner passes over them: it finds the
keywords in front of such a group and those behind it, whatever the group holds, and a base
statement is divided in the same way around all of them.
-/

namespace QueryChain

open Text

/-! ### A text and what follows it -/

namespace Keyword

/-- Whether a text begins with no character that a keyword may go on with. -/
def Parts (cs : List Char) : Prop :=
  ∀ c ∈ cs.head?, isWordChar c = false ∧ isAsciiBlank c = false

theorem Parts.startsWord {cs : List Char} (h : Parts cs) : startsWord cs = false := by
  cases cs with
  | nil => rfl
  | cons c cs => exact (h c rfl).1

theorem Parts.dropWhile {b : List Char} (h : Parts b) (a : List Char) :
    (a ++ b).dropWhile isAsciiBlank = a.dropWhile isAsciiBlank ++ b := by
  apply dropWhile_append_of_fixed
  cases b with
  | nil => rfl
  | cons c b => rw [List.dropWhile_cons_of_neg (by simp [(h c rfl).2])]

theorem Parts.respects {b : List Char} (h : Parts b) : Respects (· ++ b) where
  word _ hword a := afterWord?_append hword a h.startsWord
  blanks a := by
    cases a with
    | nil =>
      cases b with
      | nil => rfl
      | cons c b => simp [afterBlanks?, (h c rfl).2]
    | cons c a =>
      rw [List.cons_append, afterBlanks?, afterBlanks?, h.dropWhile]
      split <;> rfl

end Keyword

namespace Mark

def shift (n : Nat) (m : Mark) : Mark :=
  ⟨m.keyword, n + m.start, n + m.stop⟩

theorem scanFrom_add (x : Context) (n m : Nat) (cs : List Char) :
    scanFrom x (n + m) cs = (scanFrom x m cs).map (shift n) := by
  induction cs generalizing x m with
  | nil => rfl
  | cons c cs ih =>
    rw [scanFrom, scanFrom, List.map_append, Nat.add_assoc, ih]
    congr 1
    cases x.isTop with
    | false => rfl
    | true =>
      cases Keyword.atFront? (c :: cs) with
      | none => rfl
      | some found => simp [shift, Nat.add_assoc]

theorem scanFrom_append (x : Context) (n : Nat) (a : List Char) {b : List Char}
    (hb : Keyword.Parts b) :
    scanFrom x n (a ++ b) = scanFrom x n a ++ scanFrom (x.after a) (n + a.length) b := by
  induction a generalizing x n with
  | nil => rfl
  | cons c a ih =>
    have hfront := hb.respects.atFront? (c :: a)
    rw [List.cons_append] at hfront
    rw [List.cons_append, scanFrom, scanFrom, ih, List.append_assoc, Context.after_cons,
      List.length_cons, Nat.add_assoc, Nat.add_comm 1, hfront]
    congr 1
    cases x.isTop with
    | false => rfl
    | true =>
      cases Keyword.atFront? (c :: a) with
      | none => rfl
      | some found =>
        -- A keyword that begins in `a` ends in it and keeps its place.
        have hlength : (a ++ b).length + 1 - (found.2 ++ b).length =
            a.length + 1 - found.2.length := by
          simp only [List.length_append]
          omega
        simp only [if_true, Option.map_some, List.length_cons, hlength]

end Mark

/-! ### Groups -/

theorem mem_sqlQuotes {c : Char} : c ∈ sqlQuotes ↔ c = '\'' ∨ c = '"' := by
  rw [sqlQuotes, List.mem_pair]

/-- Whether a text is a literal or a quoted name, or a group in parentheses. A group in parentheses
closes its quotes and its parentheses, and outside quotes no comment begins in it. -/
inductive IsGroup : List Char → Prop
  | quoted {mark : Char} {body : List Char} (quote : mark ∈ sqlQuotes) (free : mark ∉ body) :
      IsGroup (mark :: (body ++ [mark]))
  | enclosed {inner : List Char} (closed : Quotation.after sqlQuotes none inner = none)
      (balanced : Balanced (parentheses inner))
      (uncommented : ∀ a b, inner = a ++ '-' :: '-' :: b →
        Quotation.after sqlQuotes none a ≠ none) :
      IsGroup ('(' :: (inner ++ [')']))

namespace Context

/-- One more character outside quotes and comments. -/
theorem next_outside {x : Context} (hquote : x.quote = none) (hcomment : x.comment = false)
    (c : Char) :
    x.next c = { quote := if c = '\'' ∨ c = '"' then some c else none,
                 comment := c == '-' && x.dash, dash := c == '-' && !x.dash,
                 depth := if c = '(' then x.depth + 1 else if c = ')' then x.depth - 1 else x.depth,
                 inWord := Keyword.isWordChar c } := by
  by_cases hdash : c = '-'
  · subst hdash
    simp [next, hquote, hcomment]
  · have hne : (c == '-') = false := beq_eq_false_iff_ne.mpr hdash
    simp only [next, hquote, hcomment, hne, Bool.false_and]
    grind

/-- What a context within parentheses keeps track of: the quotes and the parentheses of the text
behind them, and whether a dash of it stands last. -/
structure Follows (x : Context) (cs : List Char) : Prop where
  quote : x.quote = Quotation.after sqlQuotes none cs
  comment : x.comment = false
  depth : (x.depth : Int) = 1 + nesting cs
  dash : x.dash = true → ∃ front, cs = front ++ ['-'] ∧ Quotation.after sqlQuotes none front = none

theorem excess_singleton (c : Char) :
    excess [c] = if c = '(' then 1 else if c = ')' then -1 else 0 := by
  rw [excess, List.count_singleton, List.count_singleton]
  grind

/-- Behind an open quote one more character leads no deeper. -/
theorem nesting_concat (cs : List Char) (c : Char) :
    nesting (cs ++ [c]) = nesting cs +
      if Quotation.after sqlQuotes none cs = none then excess [c] else 0 := by
  rw [nesting, Quotation.outside_append, excess_append, nesting]
  congr 1
  cases Quotation.after sqlQuotes none cs with
  | some mark =>
    rw [if_neg (by simp), Quotation.outside, Quotation.outside_nil]
    rfl
  | none =>
    rw [if_pos rfl, Quotation.outside]
    split
    · rename_i hmark
      -- A quote is no parenthesis.
      rw [Quotation.outside_nil]
      rcases mem_sqlQuotes.mp hmark with rfl | rfl <;> rfl
    · rw [Quotation.outside_nil]

theorem Follows.next {x : Context} {cs : List Char} (h : x.Follows cs) {c : Char}
    (hlevel : 0 ≤ nesting (cs ++ [c]))
    (huncommented : ∀ front, cs ++ [c] = front ++ ['-', '-'] →
      Quotation.after sqlQuotes none front ≠ none) :
    (x.next c).Follows (cs ++ [c]) := by
  have hbehind : Quotation.after sqlQuotes none (cs ++ [c]) =
      Quotation.behind sqlQuotes x.quote c := by
    rw [Quotation.after_append, ← h.quote]
    rfl
  have hnesting := nesting_concat cs c
  rw [← h.quote] at hnesting
  cases hquote : x.quote with
  | some q =>
    rw [hquote] at hbehind
    rw [if_neg (by simp [hquote]), Int.add_zero] at hnesting
    rw [next_quoted hquote]
    exact ⟨hbehind.symm, h.comment, by rw [hnesting, ← h.depth], fun hdash => by cases hdash⟩
  | none =>
    rw [if_pos hquote, excess_singleton] at hnesting
    rw [next_outside hquote h.comment]
    refine ⟨?quotes, ?comments, ?depths, ?dashes⟩
    case quotes =>
      rw [hbehind, hquote]
      simp [Quotation.behind, sqlQuotes]
    case comments =>
      rw [← Bool.not_eq_true, Bool.and_eq_true, beq_iff_eq]
      rintro ⟨rfl, hdash⟩
      obtain ⟨front, rfl, hfront⟩ := h.dash hdash
      exact huncommented front (List.append_assoc front ['-'] ['-']) hfront
    case depths =>
      have hdepth := h.depth
      dsimp only
      by_cases hopen : c = '('
      · rw [if_pos hopen] at hnesting ⊢
        omega
      · rw [if_neg hopen] at hnesting ⊢
        by_cases hclose : c = ')'
        · rw [if_pos hclose] at hnesting ⊢
          omega
        · rw [if_neg hclose] at hnesting ⊢
          omega
    case dashes =>
      rw [Bool.and_eq_true, beq_iff_eq]
      rintro ⟨rfl, -⟩
      exact ⟨cs, rfl, h.quote.symm.trans hquote⟩

/-- Within parentheses no keyword begins before they are closed. -/
theorem Follows.run {x : Context} {front rest : List Char} (h : x.Follows front)
    (hlevel : ∀ a, a <+: front ++ rest → 0 ≤ nesting a)
    (huncommented : ∀ a b, front ++ rest = a ++ '-' :: '-' :: b →
      Quotation.after sqlQuotes none a ≠ none) :
    x.Quiet rest ∧ (x.after rest).Follows (front ++ rest) := by
  induction rest generalizing x front with
  | nil =>
    rw [List.append_nil]
    exact ⟨trivial, h⟩
  | cons c rest ih =>
    rw [List.append_cons] at hlevel huncommented ⊢
    have hnext : (x.next c).Follows (front ++ [c]) := by
      refine h.next (hlevel _ (List.prefix_append _ _)) fun a ha => huncommented a rest ?_
      rw [ha]
      simp
    obtain ⟨hquiet, hfollows⟩ := ih hnext hlevel huncommented
    -- The first parenthesis is still open here.
    have hdeep : x.isTop = false := by
      have hdepth := h.depth
      have hfront := hlevel front ((List.prefix_append _ _).trans (List.prefix_append _ _))
      have hne : x.depth ≠ 0 := by omega
      simp [isTop, hne]
    exact ⟨⟨.inl hdeep, hquiet⟩, hfollows⟩

/-- Behind an open quote its next occurrence closes it. -/
theorem after_quoted {x : Context} {mark : Char} (hx : x.quote = some mark) {body : List Char}
    (h : mark ∉ body) :
    x.after (body ++ [mark]) = { x with quote := none, dash := false,
                                        inWord := Keyword.isWordChar mark } := by
  induction body generalizing x with
  | nil => rw [List.nil_append, after_cons, after_nil, next_quoted hx, if_pos rfl]
  | cons c body ih =>
    obtain ⟨hc, hbody⟩ := not_or.mp (mt List.mem_cons.mpr h)
    rw [List.cons_append, after_cons, next_quoted hx, if_neg (Ne.symm hc), ih rfl hbody]

theorem AtLevel.quoted {x : Context} (h : x.AtLevel 0) {mark : Char} (hmark : mark ∈ sqlQuotes)
    {body : List Char} (hfree : mark ∉ body) :
    x.Quiet (mark :: (body ++ [mark])) ∧ x.after (mark :: (body ++ [mark])) = {} := by
  obtain ⟨quote, comment, dash, depth, inWord⟩ := x
  obtain ⟨rfl, rfl, rfl⟩ := h
  have hplain : Keyword.isOpener mark = false ∧ Keyword.isWordChar mark = false ∧
      Context.next ⟨none, false, dash, 0, inWord⟩ mark = { quote := some mark } := by
    rcases mem_sqlQuotes.mp hmark with rfl | rfl <;> exact ⟨rfl, rfl, rfl⟩
  obtain ⟨hopener, hword, hnext⟩ := hplain
  rw [after_cons, hnext, after_quoted rfl hfree, hword]
  refine ⟨⟨.inr hopener, ?_⟩, rfl⟩
  rw [hnext, quiet_append]
  exact ⟨quiet_of_quote rfl hfree, .inr hopener, trivial⟩

theorem AtLevel.enclosed {x : Context} (h : x.AtLevel 0) {inner : List Char}
    (hclosed : Quotation.after sqlQuotes none inner = none)
    (hbalanced : Balanced (parentheses inner))
    (huncommented : ∀ a b, inner = a ++ '-' :: '-' :: b → Quotation.after sqlQuotes none a ≠ none) :
    x.Quiet ('(' :: (inner ++ [')'])) ∧ x.after ('(' :: (inner ++ [')'])) = {} := by
  obtain ⟨quote, comment, dash, depth, inWord⟩ := x
  obtain ⟨rfl, rfl, rfl⟩ := h
  obtain ⟨hlevel, hzero⟩ := (balanced_parentheses_iff inner).mp hbalanced
  have hbegin : (Context.next ⟨none, false, dash, 0, inWord⟩ '(').Follows [] :=
    ⟨rfl, rfl, rfl, fun hdash => by cases hdash⟩
  obtain ⟨hquiet, hfollows⟩ := hbegin.run hlevel huncommented
  rw [List.nil_append] at hfollows
  refine ⟨⟨.inr rfl, quiet_append.mpr ⟨hquiet, .inr rfl, trivial⟩⟩, ?_⟩
  -- The last parenthesis closes the first one.
  rw [after_cons, after_append]
  generalize (Context.next ⟨none, false, dash, 0, inWord⟩ '(').after inner = y at hfollows
  obtain ⟨quote, comment, dash, depth, inWord⟩ := y
  obtain rfl : quote = none := hfollows.quote.trans hclosed
  obtain rfl : comment = false := hfollows.comment
  obtain rfl : depth = 1 := by
    have hdepth := hfollows.depth
    rw [hzero] at hdepth
    exact Int.ofNat.inj hdepth
  rfl

/-- No keyword begins within a group, and behind it the text goes on as if it began there. -/
theorem AtLevel.group {x : Context} (h : x.AtLevel 0) {g : List Char} (hg : IsGroup g) :
    x.Quiet g ∧ x.after g = {} := by
  cases hg with
  | quoted quote free => exact h.quoted quote free
  | enclosed closed balanced uncommented => exact h.enclosed closed balanced uncommented

end Context

namespace IsGroup

theorem hasBack {g : List Char} (hg : IsGroup g) (pre : List Char) :
    hasBack (pre ++ g) = true := by
  apply hasBack_append
  cases hg with
  | @quoted mark body hmark _ =>
    have hfiller : isFiller mark = false := by
      rcases mem_sqlQuotes.mp hmark with rfl | rfl <;> rfl
    exact hasBack_append (mark :: body) (by simp [QueryChain.hasBack, hfiller])
  | @enclosed inner => exact hasBack_append ('(' :: inner) rfl

theorem parts {g : List Char} (hg : IsGroup g) (post : List Char) : Keyword.Parts (g ++ post) := by
  intro c hc
  cases hg with
  | quoted hmark =>
    obtain rfl := Option.some.inj hc
    rcases mem_sqlQuotes.mp hmark with rfl | rfl <;> exact ⟨rfl, rfl⟩
  | enclosed =>
    obtain rfl := Option.some.inj hc
    exact ⟨rfl, rfl⟩

end IsGroup

/-! ### Marks around a group -/

namespace Mark

variable {pre g : List Char}

theorem scan_around (h : (({} : Context).after pre).AtLevel 0) (hg : IsGroup g)
    (post : List Char) :
    scan (pre ++ g ++ post) = scan pre ++ (scan post).map (shift (pre ++ g).length) := by
  obtain ⟨hquiet, hafter⟩ := h.group hg
  rw [List.append_assoc, scan, scanFrom_append {} 0 pre (hg.parts post),
    scanFrom_append_of_quiet hquiet, hafter, Nat.zero_add, ← List.length_append]
  exact congrArg (scan pre ++ ·) (scanFrom_add {} (pre ++ g).length 0 post)

theorem inBytes_append {a : List Char} {m : Mark} (hstart : m.start ≤ a.length)
    (hstop : m.stop ≤ a.length) (b : List Char) : inBytes (a ++ b) m = inBytes a m := by
  rw [inBytes, List.take_append_of_le_length hstart, List.take_append_of_le_length hstop]
  rfl

theorem inBytes_shift (a b : List Char) (m : Mark) :
    inBytes (a ++ b) (shift a.length m) = shift (byteLength a) (inBytes b m) := by
  simp only [inBytes, shift, List.take_length_add_append, byteLength_append]

/-- The marks around a group in bytes. -/
theorem scan_octets_around (h : (({} : Context).after pre).AtLevel 0) (hg : IsGroup g)
    (post : List Char) :
    scan (octets (pre ++ g ++ post)) =
      scan (octets pre) ++ (scan (octets post)).map (shift (byteLength (pre ++ g))) := by
  rw [scan_octets, scan_octets, scan_octets, scan_around h hg, List.map_append, List.map_map,
    List.map_map]
  congr 1
  · refine List.map_congr_left fun m hm => ?_
    obtain ⟨hword, hend⟩ := bounds_of_mem_scan hm
    rw [List.append_assoc, inBytes_append (by omega) hend]
  · exact List.map_congr_left fun m _ => inBytes_shift (pre ++ g) post m

/-! ### Divisions around a group -/

/-- The parts of a text together with those of the text behind it: the last part of the one goes on
with the head of the other. -/
def attach : List Char → List Cut → List Char × List Cut → List Char × List Cut
  | head, [], behind => (head ++ behind.1, behind.2)
  | head, cut :: cuts, behind =>
    let rest := attach cut.body cuts behind
    (head, ⟨cut.keyword, cut.word, rest.1⟩ :: rest.2)

section Divisions

variable {n : Nat} {ms ms' : List Mark} {a b head head' : List Char} {cuts cuts' : List Cut}

theorem Divides.behind (h : Divides (n + a.length) ms b head cuts) :
    Divides n ms (a ++ b) (a ++ head) cuts := by
  cases h with
  | nil => exact .nil n (a ++ b)
  | @cons _ _ word rest body k ms cuts behind =>
    have hplace : n + a.length + head.length = n + (a ++ head).length := by
      rw [List.length_append, Nat.add_assoc]
    rw [hplace] at behind ⊢
    rw [← List.append_assoc]
    exact .cons behind

theorem Divides.attach (h : Divides n ms a head cuts)
    (h' : Divides (n + a.length) ms' b head' cuts') :
    Divides n (ms ++ ms') (a ++ b) (attach head cuts (head', cuts')).1
      (attach head cuts (head', cuts')).2 := by
  induction h with
  | nil => exact h'.behind
  | @cons n gap word rest body k ms cuts behind ih =>
    have hplace : n + (gap ++ (word ++ rest)).length =
        n + gap.length + word.length + rest.length := by
      simp only [List.length_append]
      omega
    rw [hplace] at h'
    rw [List.append_assoc, List.append_assoc]
    exact .cons (ih h')

theorem Divides.shift (k : Nat) (h : Divides n ms a head cuts) :
    Divides (k + n) (ms.map (shift k)) a head cuts := by
  induction h with
  | nil n cs => exact .nil (k + n) cs
  | cons behind ih =>
    rw [← Nat.add_assoc, ← Nat.add_assoc] at ih
    rw [List.map_cons, Mark.shift, ← Nat.add_assoc, ← Nat.add_assoc, ← Nat.add_assoc]
    exact .cons ih

end Divisions

def past (position n : Nat) (m : Mark) : Mark :=
  if m.start < position then m else shift n m

theorem map_past_scan {ms : List Mark} (h : ms ⊆ scan pre) (n : Nat) :
    ms.map (past pre.length n) = ms := by
  refine (List.map_congr_left fun m hm => ?_).trans (List.map_id ms)
  obtain ⟨hword, hend⟩ := bounds_of_mem_scan (h hm)
  exact if_pos (Nat.lt_of_lt_of_le hword hend)

theorem map_past_shift (position n : Nat) (ms : List Mark) :
    (ms.map (shift position)).map (past position n) = ms.map (shift (n + position)) := by
  rw [List.map_map]
  refine List.map_congr_left fun m _ => ?_
  have hnot : ¬ position + m.start < position := by omega
  simp [past, shift, hnot, Nat.add_assoc]

/-- Characters between two texts do not change which of their marks open a clause. -/
theorem clauses_map_past (pre post : List Char) (n : Nat) :
    clauses ((scan pre ++ (scan post).map (shift pre.length)).map (past pre.length n)) =
      (clauses (scan pre ++ (scan post).map (shift pre.length))).map (past pre.length n) := by
  have hwords : ∀ m ∈ scan pre ++ (scan post).map (shift pre.length),
      m.start < m.stop ∧ (m.start < pre.length → m.stop ≤ pre.length) := by
    intro m hm
    rcases List.mem_append.mp hm with hm | hm
    · obtain ⟨hword, hend⟩ := bounds_of_mem_scan hm
      exact ⟨hword, fun _ => hend⟩
    · obtain ⟨m', hm', rfl⟩ := List.mem_map.mp hm
      obtain ⟨hword, -⟩ := bounds_of_mem_scan hm'
      simp only [shift]
      omega
  refine clauses_map (fun m => ?_) fun m hm m' hm' => ?_
  · rw [past]
    split <;> rfl
  · obtain ⟨hword, hfront⟩ := hwords m hm
    obtain ⟨hword', hfront'⟩ := hwords m' hm'
    rw [past, past]
    split <;> split <;> simp only [shift] <;> omega

/-- Which marks in front of a group and behind it open a clause does not depend on the group. -/
theorem exists_clauses_around (pre post : List Char) :
    ∃ before behind, List.Sublist before (scan pre) ∧ List.Sublist behind (scan post) ∧
      ∀ n, clauses (scan pre ++ (scan post).map (shift (n + pre.length))) =
        before ++ behind.map (shift (n + pre.length)) := by
  have hsub : (clauses (scan pre ++ (scan post).map (shift pre.length))).Sublist
      (scan pre ++ (scan post).map (shift pre.length)) :=
    (firsts_sublist _ _).trans List.filter_sublist
  obtain ⟨before, _, hclauses, hbefore, hshifted⟩ := List.sublist_append_iff.mp hsub
  obtain ⟨behind, hbehind, rfl⟩ := List.sublist_map_iff.mp hshifted
  refine ⟨before, behind, hbefore, hbehind, fun n => ?_⟩
  -- The marks around `n` characters are those around none, moved.
  have hpast := clauses_map_past pre post n
  rwa [hclauses, List.map_append, List.map_append, map_past_scan (List.Subset.refl _),
    map_past_scan hbefore.subset, map_past_shift, map_past_shift] at hpast

/-- The parts of a statement in front of a group and behind it do not depend on the group. -/
theorem exists_splitBase_around {pre : List Char} (h : (({} : Context).after pre).AtLevel 0)
    (post : List Char) :
    ∃ before behind : List Char × List Cut,
      before.1 ++ (before.2.flatMap fun cut => cut.word ++ cut.body) = pre ∧
      behind.1 ++ (behind.2.flatMap fun cut => cut.word ++ cut.body) = post ∧
      ∀ g, IsGroup g →
        splitBase (pre ++ g ++ post) = attach before.1 before.2 (g ++ behind.1, behind.2) := by
  obtain ⟨ms, ms', hms, hms', hclauses⟩ := exists_clauses_around pre post
  obtain ⟨head, cuts, hbefore⟩ := ((scanFrom_placed {} 0 pre).sublist hms).exists_divides
  obtain ⟨head', cuts', hbehind⟩ := ((scanFrom_placed {} 0 post).sublist hms').exists_divides
  refine ⟨(head, cuts), (head', cuts'), hbefore.text.symm, hbehind.text.symm, fun g hg => ?_⟩
  have hshift := hbehind.shift (0 + pre.length + g.length)
  rw [Nat.add_zero] at hshift
  have hdivides := hbefore.attach hshift.behind
  apply Divides.splitBase_eq
  rw [scan_around h hg, List.length_append, Nat.add_comm pre.length, hclauses, List.append_assoc,
    Nat.add_comm g.length]
  rwa [Nat.zero_add] at hdivides

end Mark

open Mark in
/-- The scanner passes over literals, quoted names and groups in parentheses. Where such a group
stands behind a text that leaves no quote, comment or parenthesis open, the keywords of the whole
are those of this text and those of what follows the group, in characters as in bytes. So a base
statement falls into the same parts around all such groups: the group stands within one of them,
and all else is divided as the texts in front of it and behind it are. -/
theorem groups_passed_over {pre : List Char} (h : (({} : Context).after pre).AtLevel 0)
    (post : List Char) :
    (∀ g, IsGroup g →
      scan (pre ++ g ++ post) = scan pre ++ (scan post).map (shift (pre ++ g).length) ∧
      scan (octets (pre ++ g ++ post)) =
        scan (octets pre) ++ (scan (octets post)).map (shift (byteLength (pre ++ g)))) ∧
    ∃ before behind : List Char × List Cut,
      before.1 ++ (before.2.flatMap fun cut => cut.word ++ cut.body) = pre ∧
      behind.1 ++ (behind.2.flatMap fun cut => cut.word ++ cut.body) = trimStatement post ∧
      ∀ g, IsGroup g →
        splitBase (trimStatement (pre ++ g ++ post)) =
          attach before.1 before.2 (g ++ behind.1, behind.2) := by
  refine ⟨fun g hg => ⟨scan_around h hg post, scan_octets_around h hg post⟩, ?_⟩
  obtain ⟨before, behind, hpre, hpost, hsplit⟩ := exists_splitBase_around h (trimStatement post)
  refine ⟨before, behind, hpre, hpost, fun g hg => ?_⟩
  rw [trimStatement_append (hg.hasBack pre), hsplit g hg]

theorem groups_passed_over_subquery :
    (({} : Context).after "SELECT a FROM t WHERE b = ".toList).AtLevel 0 ∧
      IsGroup "(SELECT MAX(c) FROM u WHERE d = ')é')".toList ∧
      Mark.scan ("SELECT a FROM t WHERE b = ".toList ++
        "(SELECT MAX(c) FROM u WHERE d = ')é')".toList ++ " ORDER BY a".toList) =
          [⟨.source, 9, 13⟩, ⟨.condition, 16, 21⟩, ⟨.orderBy, 64, 72⟩] ∧
      Mark.scan (octets ("SELECT a FROM t WHERE b = ".toList ++
        "(SELECT MAX(c) FROM u WHERE d = ')é')".toList ++ " ORDER BY a".toList)) =
          [⟨.source, 9, 13⟩, ⟨.condition, 16, 21⟩, ⟨.orderBy, 65, 73⟩] := by
  have hlevel : (({} : Context).after "SELECT a FROM t WHERE b = ".toList).AtLevel 0 := by decide
  have hnone : '-' ∉ "SELECT MAX(c) FROM u WHERE d = ')é'".toList := by decide
  have hparts : "(SELECT MAX(c) FROM u WHERE d = ')é')".toList =
      '(' :: ("SELECT MAX(c) FROM u WHERE d = ')é'".toList ++ [')']) := by decide
  have hgroup : IsGroup "(SELECT MAX(c) FROM u WHERE d = ')é')".toList := by
    rw [hparts]
    exact .enclosed (by decide) (by decide) fun a b hab => absurd (hab ▸ by simp) hnone
  obtain ⟨hchars, hbytes⟩ := (groups_passed_over hlevel " ORDER BY a".toList).1 _ hgroup
  refine ⟨hlevel, hgroup, ?_, ?_⟩
  · rw [hchars]
    decide
  · rw [hbytes]
    decide

end QueryChain
