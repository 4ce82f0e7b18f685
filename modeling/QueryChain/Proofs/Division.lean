import Mathlib.Data.List.Nodup
import QueryChain.Proofs.Octets

/-!
A base statement is divided without loss. The marks that open its clauses are the first of each
keyword behind the first FROM, put in order. They stand apart from each other and begin and end
between characters, so every slice of the text that they call for exists, and head, keywords and
bodies put together are the text.
-/

namespace QueryChain

open Text

namespace Mark

/-! ### The marks that open a clause -/

def firstOf? (marks : List Mark) (k : Keyword) : Option Mark :=
  marks.find? fun m => m.keyword == k && decide (fromEnd marks ≤ m.start)

def selected (marks : List Mark) : List Mark :=
  (([.condition, .groupBy, .orderBy, .limit, .offset] : List Keyword).filterMap
    (firstOf? marks)).mergeSort fun m m' => decide (m.start ≤ m'.start)

theorem keyword_of_firstOf? {ms : List Mark} {k : Keyword} {m : Mark} (h : firstOf? ms k = some m) :
    m.keyword = k := by
  have hholds := List.find?_some h
  rw [Bool.and_eq_true] at hholds
  exact beq_iff_eq.mp hholds.1

/-- What is kept of each keyword that is not yet seen is its first mark. -/
theorem mem_firsts_iff {seen : List Keyword} {ms : List Mark} {m : Mark} :
    m ∈ firsts seen ms ↔ m.keyword ∉ seen ∧ ms.find? (·.keyword == m.keyword) = some m := by
  induction ms generalizing seen with
  | nil => simp [firsts]
  | cons a ms ih =>
    rw [firsts, List.find?_cons]
    by_cases hsame : a.keyword = m.keyword
    · rw [hsame, beq_self_eq_true]
      by_cases hseen : m.keyword ∈ seen
      · rw [if_pos hseen, ih]
        simp [hseen]
      · rw [if_neg hseen, List.mem_cons, ih]
        simp [hseen, eq_comm]
    · rw [beq_eq_false_iff_ne.mpr hsame]
      by_cases hseen : a.keyword ∈ seen
      · rw [if_pos hseen, ih]
      · have hne : m ≠ a := fun heq => hsame (congrArg keyword heq).symm
        rw [if_neg hseen, List.mem_cons, ih, List.mem_cons, not_or]
        simp [hne, Ne.symm hsame]

theorem mem_selected_iff {ms : List Mark} {m : Mark} : m ∈ selected ms ↔ m ∈ clauses ms := by
  have hkinds : m.keyword ∈ ([.condition, .groupBy, .orderBy, .limit, .offset] : List Keyword) ↔
      m.keyword ∉ ([.source] : List Keyword) := by
    cases m.keyword <;> decide
  have hfirst : (ms.filter (fromEnd ms ≤ ·.start)).find? (·.keyword == m.keyword) =
      firstOf? ms m.keyword := by
    rw [List.find?_filter, firstOf?]
    congr 1
    funext m'
    rw [Bool.decide_and, Bool.decide_eq_true, Bool.decide_eq_true, Bool.and_comm]
  rw [selected, List.mem_mergeSort, List.mem_filterMap, clauses, mem_firsts_iff, hfirst, ← hkinds]
  constructor
  · rintro ⟨k, hk, hm⟩
    obtain rfl := keyword_of_firstOf? hm
    exact ⟨hk, hm⟩
  · exact fun h => ⟨m.keyword, h.1, h.2⟩

theorem selected_eq_clauses {ms : List Mark} (h : ms.Pairwise (·.start < ·.start)) :
    selected ms = clauses ms := by
  have hclauses : (clauses ms).Pairwise (·.start < ·.start) :=
    (h.filter _).sublist (firsts_sublist _ _)
  have hstarts : ((clauses ms).map start).Nodup :=
    List.pairwise_map.mpr (hclauses.imp Nat.ne_of_lt)
  have hsorted : (selected ms).Pairwise (·.start ≤ ·.start) := by
    refine List.Pairwise.imp of_decide_eq_true (List.pairwise_mergeSort ?_ ?_ _)
    · intro a b c hab hbc
      exact decide_eq_true (Nat.le_trans (of_decide_eq_true hab) (of_decide_eq_true hbc))
    · intro a b
      rw [Bool.or_eq_true, decide_eq_true_eq, decide_eq_true_eq]
      exact Nat.le_total a.start b.start
  have hnodup : (selected ms).Nodup := by
    rw [selected, (List.mergeSort_perm _ _).nodup_iff]
    refine List.Nodup.filterMap (fun k k' m hm hm' => ?_) (by decide)
    exact (keyword_of_firstOf? hm).symm.trans (keyword_of_firstOf? hm')
  refine List.Perm.eq_of_pairwise (fun a b ha hb hab hba => ?_) hsorted
    (hclauses.imp Nat.le_of_lt)
    ((List.perm_ext_iff_of_nodup hnodup hstarts.of_map).mpr fun m => mem_selected_iff)
  exact List.inj_on_of_nodup_map hstarts (mem_selected_iff.mp ha) hb (Nat.le_antisymm hab hba)

theorem firsts_map {f : Mark → Mark} (hkeyword : ∀ m, (f m).keyword = m.keyword)
    (seen : List Keyword) (ms : List Mark) :
    firsts seen (ms.map f) = (firsts seen ms).map f := by
  induction ms generalizing seen with
  | nil => rfl
  | cons m ms ih =>
    rw [List.map_cons, firsts, firsts, hkeyword]
    split
    · exact ih seen
    · rw [ih, List.map_cons]

/-- The same marks open a clause in two texts if the same marks are behind the same others. -/
theorem clauses_map {f : Mark → Mark} {ms : List Mark} (hkeyword : ∀ m, (f m).keyword = m.keyword)
    (hplace : ∀ m ∈ ms, ∀ m' ∈ ms, (f m).stop ≤ (f m').start ↔ m.stop ≤ m'.start) :
    clauses (ms.map f) = (clauses ms).map f := by
  have hsource : ((·.keyword == .source) ∘ f) = fun m : Mark => m.keyword == .source :=
    funext fun m => congrArg (· == Keyword.source) (hkeyword m)
  have hbehind : (ms.map f).filter (fromEnd (ms.map f) ≤ ·.start) =
      (ms.filter (fromEnd ms ≤ ·.start)).map f := by
    rw [List.filter_map]
    congr 1
    refine List.filter_congr fun m' hm' => decide_eq_decide.mpr ?_
    rw [fromEnd, List.find?_map, hsource, fromEnd]
    cases hfind : ms.find? (·.keyword == .source) with
    | none => exact iff_of_true (Nat.zero_le _) (Nat.zero_le _)
    | some m => exact hplace m (List.mem_of_find?_eq_some hfind) m' hm'
  rw [clauses, hbehind, firsts_map hkeyword]
  rfl

/-! ### The parts of a text -/

/-- The parts into which marks divide a text that begins at position `n`: the head, which ends where
the first mark begins, and for each mark its word and what stands between it and the next one. -/
inductive Divides : Nat → List Mark → List Char → List Char → List Cut → Prop
  | nil (n : Nat) (cs : List Char) : Divides n [] cs cs []
  | cons {n : Nat} {gap word rest body : List Char} {k : Keyword} {ms : List Mark}
      {cuts : List Cut} (behind : Divides (n + gap.length + word.length) ms rest body cuts) :
      Divides n (⟨k, n + gap.length, n + gap.length + word.length⟩ :: ms) (gap ++ (word ++ rest))
        gap (⟨k, word, body⟩ :: cuts)

/-- The words that are marked are not empty, lie within the text and do not overlap. -/
theorem Placed.bounds {x : Context} {n : Nat} {cs : List Char} {ms : List Mark}
    (h : Placed x n cs ms) : ∀ m ∈ ms, m.start < m.stop ∧ m.stop ≤ n + cs.length := by
  intro m hm
  obtain ⟨front, word, tail, rfl, -, hspelled, -, hstart, hstop⟩ := h.exists_of_mem hm
  obtain ⟨-, ⟨c, rest, rfl, -⟩, -⟩ := hspelled.letters
  rw [hstart, hstop]
  simp only [List.length_append, List.length_cons]
  omega

theorem Placed.apart {x : Context} {n : Nat} {cs : List Char} {ms : List Mark}
    (h : Placed x n cs ms) : ms.Pairwise (·.stop ≤ ·.start) := by
  induction h with
  | nil => exact .nil
  | @cons x n gap word tail k ms top spelled ends rest ih =>
    refine .cons (fun m hm => ?_) ih
    obtain ⟨front, -, -, -, -, -, -, hstart, -⟩ := rest.exists_of_mem hm
    rw [hstart]
    exact Nat.le_add_right _ _

theorem Placed.exists_divides {x : Context} {n : Nat} {cs : List Char} {ms : List Mark}
    (h : Placed x n cs ms) : ∃ head cuts, Divides n ms cs head cuts := by
  induction h with
  | nil x n cs => exact ⟨cs, [], .nil n cs⟩
  | @cons x n gap word tail k ms top spelled ends rest ih =>
    obtain ⟨body, cuts, hbehind⟩ := ih
    rw [List.append_assoc]
    exact ⟨gap, _, .cons hbehind⟩

theorem Divides.text {n : Nat} {ms : List Mark} {cs head : List Char} {cuts : List Cut}
    (h : Divides n ms cs head cuts) :
    cs = head ++ cuts.flatMap fun cut => cut.word ++ cut.body := by
  induction h with
  | nil n cs => exact (List.append_nil cs).symm
  | cons behind ih =>
    rw [List.flatMap_cons, List.append_assoc, ← ih]

theorem Divides.cutAt_eq {n : Nat} {k : Keyword} {ms : List Mark} {word rest body : List Char}
    {cuts : List Cut} (h : Divides (n + word.length) ms rest body cuts) :
    cutAt n (⟨k, n, n + word.length⟩ :: ms) (word ++ rest) = ⟨k, word, body⟩ :: cuts := by
  induction ms generalizing n k word rest body cuts with
  | nil =>
    cases h
    simp only [cutAt, List.take_length, List.take_left, List.drop_left, Nat.add_sub_cancel_left]
  | cons m ms ih =>
    cases h with
    | @cons _ _ word' rest' body' k' _ cuts' behind =>
      -- The body of the cut ends where the next mark begins.
      have hstop : n + word.length + body.length - n = (word ++ body).length := by
        rw [List.length_append]
        omega
      have hnext : n + (word ++ body).length = n + word.length + body.length := by
        rw [List.length_append, Nat.add_assoc]
      rw [cutAt, hstop, ← List.append_assoc word, List.take_left, List.drop_left,
        Nat.add_sub_cancel_left, List.take_left, List.drop_left, hnext, ih behind]

/-- A statement is divided by the marks that open its clauses. -/
theorem Divides.splitBase_eq {cs head : List Char} {cuts : List Cut}
    (h : Divides 0 (clauses (scan cs)) cs head cuts) : splitBase cs = (head, cuts) := by
  rw [splitBase]
  generalize clauses (scan cs) = ms at h
  cases h with
  | nil => rfl
  | @cons _ gap word rest body k ms cuts behind =>
    simp only [Nat.zero_add, List.take_left, List.drop_left] at behind ⊢
    rw [behind.cutAt_eq]

theorem divides_splitBase (cs : List Char) :
    Divides 0 (clauses (scan cs)) cs (splitBase cs).1 (splitBase cs).2 := by
  obtain ⟨head, cuts, h⟩ := (clauses_placed cs).exists_divides
  rw [h.splitBase_eq]
  exact h

/-! ### Marks in bytes -/

theorem pairwise_scan (cs : List Char) : (scan cs).Pairwise (·.start < ·.start) :=
  (scanFrom_placed {} 0 cs).pairwise

theorem bounds_of_mem_scan {cs : List Char} {m : Mark} (h : m ∈ scan cs) :
    m.start < m.stop ∧ m.stop ≤ cs.length := by
  have hbounds := (scanFrom_placed {} 0 cs).bounds m h
  rwa [Nat.zero_add] at hbounds

theorem selected_scan_octets (cs : List Char) :
    selected (scan (octets cs)) = (clauses (scan cs)).map (inBytes cs) := by
  rw [selected_eq_clauses (pairwise_scan (octets cs)), scan_octets]
  refine clauses_map (fun _ => rfl) fun m _ m' hm' => ?_
  obtain ⟨hword, hend⟩ := bounds_of_mem_scan hm'
  exact byteLength_take_le_iff (by omega)

/-! ### Slices -/

/-- Where the body behind a mark ends: at the next larger start of a mark, or at the end of the
text. -/
def bodyEnd (marks : List Mark) (size : Nat) (m : Mark) : Nat :=
  ((marks.map start).find? fun next => decide (m.start < next)).getD size

def cutOf? (marks : List Mark) (s : String) (m : Mark) : Option Cut := do
  let word ← slice? s m.start m.stop
  let body ← slice? s m.stop (bodyEnd marks s.utf8ByteSize m)
  return ⟨m.keyword, word.toList, body.toList⟩

theorem bodyEnd_eq {before behind : List Mark} {m : Mark}
    (h : (before ++ m :: behind).Pairwise (·.start < ·.start)) (size : Nat) :
    bodyEnd (before ++ m :: behind) size m = ((behind.map start).head?).getD size := by
  obtain ⟨-, hbehind, hbefore⟩ := List.pairwise_append.mp h
  have hnone : (before.map start).find? (fun next => decide (m.start < next)) = none := by
    rw [List.find?_eq_none]
    intro next hnext
    obtain ⟨m', hm', rfl⟩ := List.mem_map.mp hnext
    have hlt := hbefore m' hm' m List.mem_cons_self
    simp only [decide_eq_true_eq]
    omega
  rw [bodyEnd, List.map_append, List.find?_append, hnone, Option.none_or, List.map_cons,
    List.find?_cons_of_neg (by simp)]
  cases behind with
  | nil => rfl
  | cons next behind =>
    have hlt := (List.pairwise_cons.mp hbehind).1 next List.mem_cons_self
    have hnext : decide (m.start < next.start) = true := decide_eq_true hlt
    rw [List.map_cons, List.find?_cons, hnext, List.head?_cons]

variable {n : Nat} {ms : List Mark} {text front cs head : List Char} {cuts : List Cut}

/-- The head ends where the first mark begins. -/
theorem Divides.end_head (h : Divides n ms cs head cuts) (htext : text = front ++ cs)
    (hfront : front.length = n) :
    (((ms.map (inBytes text)).map start).head?).getD (byteLength text) =
      byteLength (front ++ head) := by
  subst htext
  cases h with
  | nil => rfl
  | @cons _ _ word rest body k ms cuts behind =>
    have hplace : (front ++ (head ++ (word ++ rest))).take (n + head.length) = front ++ head := by
      rw [← hfront, ← List.length_append, ← List.append_assoc, List.take_left]
    show byteLength ((front ++ (head ++ (word ++ rest))).take (n + head.length)) = _
    rw [hplace]

/-- A mark of a text in which `a` stands before the word and `rest` behind it. -/
theorem inBytes_between {a word rest : List Char} (htext : text = a ++ word ++ rest) (k : Keyword) :
    inBytes text ⟨k, a.length, a.length + word.length⟩ =
      ⟨k, byteLength a, byteLength (a ++ word)⟩ := by
  have hstart : text.take a.length = a := by
    rw [htext, List.append_assoc, List.take_left]
  have hstop : text.take (a.length + word.length) = a ++ word := by
    rw [htext, ← List.length_append, List.take_left]
  rw [inBytes, hstart, hstop]

theorem cutOf?_between {a word body tail : List Char} (htext : text = a ++ word ++ (body ++ tail))
    {marks : List Mark} {k : Keyword}
    (hend : bodyEnd marks (byteLength text) ⟨k, byteLength a, byteLength (a ++ word)⟩ =
      byteLength (a ++ word ++ body)) :
    cutOf? marks (String.ofList text) ⟨k, byteLength a, byteLength (a ++ word)⟩ =
      some ⟨k, word, body⟩ := by
  have hword := slice?_between a word (body ++ tail)
  have hbody := slice?_between (a ++ word) body tail
  rw [List.append_assoc (a ++ word)] at hbody
  rw [← htext] at hword hbody
  rw [cutOf?, utf8ByteSize_ofList, hend, hword, hbody]
  simp

/-- The slices at the marks are the cuts. -/
theorem Divides.mapM_cutOf? (h : Divides n ms cs head cuts) (htext : text = front ++ cs)
    (hfront : front.length = n) {before : List Mark}
    (hstarts : (before ++ ms.map (inBytes text)).Pairwise (·.start < ·.start)) :
    (ms.map (inBytes text)).mapM (cutOf? (before ++ ms.map (inBytes text)) (String.ofList text)) =
      some cuts := by
  induction h generalizing front before with
  | nil => rfl
  | @cons n gap word rest body k ms cuts behind ih =>
    subst hfront
    have hsplit : text = front ++ gap ++ word ++ rest := by
      rw [htext]
      simp only [List.append_assoc]
    have hlength : (front ++ gap ++ word).length = front.length + gap.length + word.length := by
      rw [List.length_append, List.length_append]
    have hmark := inBytes_between hsplit k
    rw [List.length_append] at hmark
    rw [List.map_cons, hmark] at hstarts ⊢
    have hcut := cutOf?_between (k := k) (hsplit.trans (congrArg _ behind.text))
      ((bodyEnd_eq hstarts _).trans (behind.end_head hsplit hlength))
    -- The marks before the next one are those before this one and this one itself.
    rw [List.append_cons] at hstarts hcut ⊢
    rw [List.mapM_cons, hcut, ih hsplit hlength hstarts]
    rfl

/-- The division of a text by slices of its bytes, if all of them exist: what is in front of the
first mark that opens a clause, and a cut for each of these marks. -/
def sliceBase? (s : String) : Option (List Char × List Cut) := do
  let marks := selected (scan (octets s.toList))
  let head ← slice? s 0 (((marks.map start).head?).getD s.utf8ByteSize)
  let cuts ← marks.mapM (cutOf? marks s)
  return (head.toList, cuts)

/-- All slices exist, and they divide the text as its characters are divided. -/
theorem sliceBase?_eq (cs : List Char) : sliceBase? (String.ofList cs) = some (splitBase cs) := by
  have hdivides := divides_splitBase cs
  have hstarts : ([] ++ (clauses (scan cs)).map (inBytes cs)).Pairwise
      fun m m' : Mark => m.start < m'.start := by
    rw [List.nil_append, ← selected_scan_octets, selected_eq_clauses (pairwise_scan _)]
    exact (clauses_placed (octets cs)).pairwise
  have htext : cs = [] ++ cs := rfl
  have hhead : slice? (String.ofList cs) 0 (byteLength (splitBase cs).1) =
      some (String.ofList (splitBase cs).1) := by
    have hfront := slice?_between [] (splitBase cs).1
      ((splitBase cs).2.flatMap fun cut => cut.word ++ cut.body)
    rwa [List.nil_append, ← hdivides.text] at hfront
  have hend := hdivides.end_head htext rfl
  have hcuts := hdivides.mapM_cutOf? htext rfl hstarts
  rw [List.nil_append] at hend hcuts
  rw [sliceBase?, String.toList_ofList, selected_scan_octets, utf8ByteSize_ofList, hend]
  simp [hhead, hcuts]

end Mark

theorem isBoundary_inBytes (cs : List Char) (i : Nat) :
    IsBoundary (String.ofList cs) (byteLength (cs.take i)) :=
  isBoundary_iff.mpr ⟨cs.take i, cs.drop i, by simp, rfl⟩

/-- The marks of a base that open its clauses, found in its bytes, begin one behind the other, each
behind the keyword before it and between two characters. So all slices of the base exist, and its
head and its cuts, the keyword and the body of each, are the base from its first character to its
last. -/
theorem splitBase_lossless (base : String) :
    let text := trimStatement base.toList
    let marks := Mark.selected (Mark.scan (octets text))
    marks.Pairwise (fun m m' => m.start < m'.start ∧ m.stop ≤ m'.start) ∧
      (∀ m ∈ marks, m.start < m.stop ∧ IsBoundary (String.ofList text) m.start ∧
        IsBoundary (String.ofList text) m.stop) ∧
      marks = (Mark.clauses (Mark.scan text)).map (Mark.inBytes text) ∧
      Mark.sliceBase? (String.ofList text) = some (splitBase text) ∧
      text = (splitBase text).1 ++
        (splitBase text).2.flatMap fun cut => cut.word ++ cut.body := by
  intro text marks
  have hplaced : Mark.Placed {} 0 (octets text) marks := by
    rw [show marks = Mark.clauses (Mark.scan (octets text)) from
      Mark.selected_eq_clauses (Mark.pairwise_scan _)]
    exact Mark.clauses_placed (octets text)
  have hsame : marks = (Mark.clauses (Mark.scan text)).map (Mark.inBytes text) :=
    Mark.selected_scan_octets text
  refine ⟨hplaced.pairwise.and hplaced.apart, fun m hm => ⟨(hplaced.bounds m hm).1, ?_⟩, hsame,
    Mark.sliceBase?_eq text, (Mark.divides_splitBase text).text⟩
  rw [hsame] at hm
  obtain ⟨m', -, rfl⟩ := List.mem_map.mp hm
  exact ⟨isBoundary_inBytes text _, isBoundary_inBytes text _⟩

end QueryChain
