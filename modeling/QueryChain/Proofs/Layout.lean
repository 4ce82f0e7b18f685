import QueryChain.Proofs.Alignment
import QueryChain.Proofs.Pieces
import QueryChain.Proofs.Silence

/-!
Statements that consist of the base of a table and clauses behind it, each a keyword in capitals
and a body. The scanner finds the keywords where they stand, and the statement is taken apart into
the same clauses with the same parameters.
-/

namespace QueryChain

open Fragment (Worded WordedIn ofText)
open Placeholder (Place)
open Text

structure Segment where
  keyword : Keyword
  body : Fragment

namespace Segment

def piece (s : Segment) : Piece :=
  ⟨" " ++ String.ofList s.keyword.text ++ " ", s.body⟩

def layout (ss : List Segment) : Fragment :=
  Piece.join (ss.map piece)

theorem layout_append (ss ts : List Segment) : layout (ss ++ ts) = layout ss ++ layout ts := by
  rw [layout, List.map_append, Piece.join_append]
  rfl

theorem layout_singleton (s : Segment) : layout [s] = s.piece.whole :=
  Piece.join_singleton s.piece

/-- Whether the body of a clause is read as a whole: behind a blank the scanner finds no keyword in
it and leaves it at the top level, it has its placeholders, and no trim changes it. -/
structure Legible (p : Placeholder) (s : Segment) : Prop where
  silent : ({} : Context).Silent s.body.sql.toList
  level : (({} : Context).after s.body.sql.toList).AtLevel 0
  count : p.countFrom .plain s.body.sql.toList = s.body.params.length
  plain : Place.plain.after s.body.sql.toList = .plain
  firm : Firm s.body.sql

/-- Firm text in the words of sections is read as a whole. -/
theorem legible_of_wordedIn {p : Placeholder} {s : Segment} (h : WordedIn sectionWords p s.body)
    (hfirm : Firm s.body.sql) : s.Legible p := by
  obtain ⟨hneutral, hhushed⟩ := h.hushed
  obtain ⟨hcount, hplain⟩ := Worded.plain (h.mono fun _ hs => mem_statementWords_of_section hs)
  have hstart : ({} : Context).AtLevel 0 := ⟨rfl, rfl, rfl⟩
  exact ⟨hhushed 0 {} hstart, hneutral 0 {} hstart, hcount, hplain, hfirm⟩

theorem toList_layout_cons (s : Segment) (rest : List Segment) :
    (layout (s :: rest)).sql.toList =
      ' ' :: (s.keyword.text ++ (' ' :: s.body.sql.toList ++ (layout rest).sql.toList)) := by
  show (" " ++ String.ofList s.keyword.text ++ " " ++ s.body.sql ++ (layout rest).sql).toList = _
  simp

/-! ### Marks -/

def marks (n : Nat) : List Segment → List Mark
  | [] => []
  | s :: rest =>
    ⟨s.keyword, n + 1, n + 1 + s.keyword.text.length⟩ ::
      marks (n + 1 + s.keyword.text.length + (' ' :: s.body.sql.toList).length) rest

variable {p : Placeholder}

theorem scanFrom_layout {ss : List Segment} (h : ∀ s ∈ ss, s.Legible p) {x : Context}
    (hx : x.AtLevel 0) (n : Nat) : Mark.scanFrom x n (layout ss).sql.toList = marks n ss := by
  induction ss generalizing x n with
  | nil => rfl
  | cons s rest ih =>
    obtain ⟨hs, hrest⟩ := List.forall_mem_cons.mp h
    obtain ⟨quote, comment, dash, depth, inWord⟩ := x
    obtain ⟨rfl, rfl, rfl⟩ := hx
    have hfront (cs : List Char) : Keyword.atFront? (' ' :: cs) = none :=
      Keyword.atFront?_eq_none (by decide) cs
    have htop : (Context.next ⟨none, false, dash, 0, inWord⟩ ' ').isTop = true := by
      cases dash <;> cases inWord <;> rfl
    -- Behind its keyword and a blank the body begins at the top level.
    have hblank : ({ inWord := true } : Context).Silent [' '] := ⟨.inl rfl, trivial⟩
    have hbody : ({ inWord := true } : Context).Silent (' ' :: s.body.sql.toList) :=
      Context.silent_append (a := [' ']) hblank hs.silent
    have hend : (({ inWord := true } : Context).after (' ' :: s.body.sql.toList)).AtLevel 0 :=
      hs.level
    rw [toList_layout_cons, Mark.scanFrom_cons_of_none (.inr (hfront _)),
      Mark.scanFrom_keyword htop (Keyword.atFront?_text _ rfl) (Keyword.text_spelled _),
      (Keyword.text_spelled _).after htop, Mark.scanFrom_append_of_silent hbody, ih hrest hend,
      marks]

theorem le_start_of_mem_marks {n : Nat} {ss : List Segment} {m : Mark} (h : m ∈ marks n ss) :
    n ≤ m.start := by
  induction ss generalizing n with
  | nil => cases h
  | cons s rest ih =>
    rcases List.mem_cons.mp h with rfl | h
    · exact Nat.le_succ n
    · have := ih h
      omega

theorem keyword_marks (n : Nat) (ss : List Segment) :
    (marks n ss).map Mark.keyword = ss.map Segment.keyword := by
  induction ss generalizing n with
  | nil => rfl
  | cons s rest ih => rw [marks, List.map_cons, List.map_cons, ih]

theorem firsts_eq_self {seen : List Keyword} {ms : List Mark}
    (hnodup : (ms.map Mark.keyword).Nodup) (hseen : ∀ m ∈ ms, m.keyword ∉ seen) :
    Mark.firsts seen ms = ms := by
  induction ms generalizing seen with
  | nil => rfl
  | cons m rest ih =>
    obtain ⟨hm, hrest⟩ := List.forall_mem_cons.mp hseen
    rw [List.map_cons, List.nodup_cons] at hnodup
    rw [Mark.firsts, if_neg hm, ih hnodup.2]
    intro m' hm'
    rw [List.mem_cons, not_or]
    exact ⟨fun heq => hnodup.1 (heq ▸ List.mem_map_of_mem hm'), hrest m' hm'⟩

/-- Behind a FROM the marks of distinct clauses all open a cut. -/
theorem clauses_marks {ss : List Segment} (hnodup : (ss.map keyword).Nodup)
    (hsource : .source ∉ ss.map keyword) {n : Nat} (hn : 13 ≤ n) :
    Mark.clauses (⟨.source, 9, 13⟩ :: marks n ss) = marks n ss := by
  have hkeep : (marks n ss).filter (13 ≤ ·.start) = marks n ss := by
    rw [List.filter_eq_self]
    exact fun m hm => decide_eq_true (Nat.le_trans hn (le_start_of_mem_marks hm))
  have hnew : ∀ m ∈ marks n ss, m.keyword ∉ [Keyword.source] := by
    intro m hm hsource'
    apply hsource
    rw [← keyword_marks n, ← List.mem_singleton.mp hsource']
    exact List.mem_map_of_mem hm
  show Mark.firsts [.source] ((marks n ss).filter (13 ≤ ·.start)) = _
  rw [hkeep]
  exact firsts_eq_self (keyword_marks n ss ▸ hnodup) hnew

/-! ### Cuts -/

/-- The cuts of the layout behind its first blank. The blank before the next clause belongs to the
body of a cut. -/
def cuts : List Segment → List Cut
  | [] => []
  | [s] => [⟨s.keyword, s.keyword.text, ' ' :: s.body.sql.toList⟩]
  | s :: rest => ⟨s.keyword, s.keyword.text, ' ' :: s.body.sql.toList ++ [' ']⟩ :: cuts rest

theorem cutAt_layout (s : Segment) (rest : List Segment) (n : Nat) :
    cutAt (n + 1) (marks n (s :: rest)) (layout (s :: rest)).sql.toList.tail =
      cuts (s :: rest) := by
  induction rest generalizing s n with
  | nil =>
    rw [toList_layout_cons, List.tail_cons, marks, marks, cutAt, cutAt]
    have hempty : (layout []).sql.toList = [] := by rfl
    simp only [hempty, List.append_nil, List.take_length, Nat.add_sub_cancel_left, List.take_left,
      List.drop_left, cuts]
  | cons t rest ih =>
    have hnext := ih t (n + 1 + s.keyword.text.length + (' ' :: s.body.sql.toList).length)
    -- The cut reaches over the blank before the next keyword.
    have hblank : (layout (t :: rest)).sql.toList =
        ' ' :: (layout (t :: rest)).sql.toList.tail := by
      rw [toList_layout_cons, List.tail_cons]
    have htext : (layout (s :: t :: rest)).sql.toList.tail =
        s.keyword.text ++ (' ' :: s.body.sql.toList ++ [' ']) ++
          (layout (t :: rest)).sql.toList.tail := by
      rw [toList_layout_cons, List.tail_cons, hblank]
      simp only [List.append_assoc, List.nil_append, List.cons_append, List.tail_cons]
    have hlength : (s.keyword.text ++ (' ' :: s.body.sql.toList ++ [' '])).length =
        s.keyword.text.length + (' ' :: s.body.sql.toList).length + 1 := by
      rw [List.length_append, List.length_append, List.length_singleton, Nat.add_assoc]
    have hstop : n + 1 + s.keyword.text.length + (' ' :: s.body.sql.toList).length + 1 - (n + 1) =
        (s.keyword.text ++ (' ' :: s.body.sql.toList ++ [' '])).length := by
      omega
    have hposition : n + 1 + (s.keyword.text ++ (' ' :: s.body.sql.toList ++ [' '])).length =
        n + 1 + s.keyword.text.length + (' ' :: s.body.sql.toList).length + 1 := by
      omega
    rw [marks] at hnext
    rw [marks, marks, cutAt, htext]
    simp only [hstop, List.take_left, List.drop_left, Nat.add_sub_cancel_left, hposition, hnext,
      cuts]

/-- The base of a table with clauses behind it is taken apart where the first clause begins. -/
theorem splitBase_layout (name : QualifiedName) (s : Segment) (rest : List Segment)
    (h : ∀ x ∈ s :: rest, x.Legible p) (hnodup : ((s :: rest).map keyword).Nodup)
    (hsource : .source ∉ (s :: rest).map keyword) :
    splitBase ((tableBase name).toList ++ (layout (s :: rest)).sql.toList) =
      ((tableBase name).toList ++ [' '], cuts (s :: rest)) := by
  have hword : Worded p (ofText (tableBase name)) :=
    .append (.word (by decide)) (.qualifiedName (by decide) (by decide) name)
  have hlevel : (({} : Context).after (tableBase name).toList).AtLevel 0 :=
    hword.neutral 0 {} ⟨rfl, rfl, rfl⟩
  have hlong : 13 ≤ (tableBase name).toList.length := by
    have hbase : "SELECT * FROM ".toList.length = 14 := by decide
    rw [tableBase, String.toList_append, List.length_append]
    omega
  have htext : (tableBase name).toList ++ (layout (s :: rest)).sql.toList =
      (tableBase name).toList ++ [' '] ++ (layout (s :: rest)).sql.toList.tail := by
    rw [toList_layout_cons, List.tail_cons, List.append_assoc, List.singleton_append]
  have hlength :
      (tableBase name).toList.length + 1 = ((tableBase name).toList ++ [' ']).length := by
    rw [List.length_append, List.length_singleton]
  have hcuts := cutAt_layout s rest (tableBase name).toList.length
  rw [splitBase, scan_tableBase_append, scanFrom_layout h hlevel,
    clauses_marks hnodup hsource hlong, htext]
  rw [marks] at hcuts ⊢
  refine Prod.ext ?_ ?_
  · show List.take _ _ = _
    rw [hlength, List.take_left]
  · show cutAt _ _ (List.drop _ _) = _
    rw [← hcuts, hlength, List.drop_left]

/-! ### Sections -/

theorem isBlank_of_mem {cs : List Char} (h : ∀ c ∈ cs, c = ' ') : ∀ c ∈ cs, isBlank c = true := by
  intro c hc
  rw [h c hc]
  decide

theorem countFrom_blanks {cs : List Char} (h : ∀ c ∈ cs, c = ' ') :
    p.countFrom .plain cs = 0 := by
  have hstill : ∀ c ∈ cs, Placeholder.isStill c = true := by
    intro c hc
    rw [h c hc]
    decide
  exact (p.still_plain hstill).1

theorem Legible.takeSection {s : Segment} (h : s.Legible p) (post : List Char)
    (hpost : ∀ c ∈ post, c = ' ') (params : List Value) :
    takeSection p (' ' :: s.body.sql.toList ++ post) (s.body.params ++ params) =
      (s.body, params) := by
  have hcount : p.countFrom .plain (' ' :: s.body.sql.toList ++ post) = s.body.params.length := by
    have hfirst : p.countFrom .plain [' '] = 0 := countFrom_blanks (by simp)
    have hplain : Place.plain.after [' '] = .plain := by rfl
    rw [← List.singleton_append, List.append_assoc, Placeholder.countFrom_append, hfirst, hplain,
      Placeholder.countFrom_append, h.count, h.plain, countFrom_blanks hpost, Nat.zero_add,
      Nat.add_zero]
  have htrim :=
    trimChars_around h.firm.front h.firm.back [' '] post (by decide) (isBlank_of_mem hpost)
  rw [List.singleton_append] at htrim
  rw [QueryChain.takeSection, hcount, htrim, String.ofList_toList, List.take_left, List.drop_left]

theorem takeSection_tableBase (p : Placeholder) (name : QualifiedName) (post : List Char)
    (hpost : ∀ c ∈ post, c = ' ') (params : List Value) :
    QueryChain.takeSection p ((tableBase name).toList ++ post) params =
      (ofText (tableBase name), params) := by
  have hplain : p.countFrom .plain (tableBase name).toList = 0 ∧
      Place.plain.after (tableBase name).toList = .plain :=
    Worded.plain (f := ofText (tableBase name))
      (.append (.word (by decide)) (.qualifiedName (by decide) (by decide) name))
  have hcount : p.countFrom .plain ((tableBase name).toList ++ post) = 0 := by
    rw [Placeholder.countFrom_append, hplain.1, hplain.2, countFrom_blanks hpost]
  rw [QueryChain.takeSection, hcount, trimChars_tableBase name post (isBlank_of_mem hpost),
    String.ofList_toList, List.take_zero, List.drop_zero]
  rfl

def addAll (p : Placeholder) (ss : List Segment) (c : Clauses) : Except Failure Clauses :=
  ss.foldlM (fun c s => c.addCut p s.keyword s.body) c

/-- A cut adds its clause, and the other cuts are added with the parameters it leaves. -/
theorem Legible.addCuts_cons {s : Segment} (h : s.Legible p) (post : List Char)
    (hpost : ∀ c ∈ post, c = ' ') (word : List Char) (rest : List Cut) (params : List Value)
    (c : Clauses) :
    Clauses.addCuts p (⟨s.keyword, word, ' ' :: s.body.sql.toList ++ post⟩ :: rest)
        (s.body.params ++ params) c =
      (c.addCut p s.keyword s.body).bind fun c => Clauses.addCuts p rest params c := by
  simp only [Clauses.addCuts, h.takeSection post hpost]
  cases c.addCut p s.keyword s.body <;> rfl

/-- The cuts of the layout add its clauses in order. -/
theorem addCuts_cuts {ss : List Segment} (h : ∀ s ∈ ss, s.Legible p) (c : Clauses) :
    Clauses.addCuts p (cuts ss) (layout ss).params c = addAll p ss c := by
  induction ss generalizing c with
  | nil => rfl
  | cons s rest ih =>
    obtain ⟨hs, hrest⟩ := List.forall_mem_cons.mp h
    have hparams : (layout (s :: rest)).params = s.body.params ++ (layout rest).params := rfl
    have hadd : Clauses.addCuts p (cuts (s :: rest)) (layout (s :: rest)).params c =
        (c.addCut p s.keyword s.body).bind fun c =>
          Clauses.addCuts p (cuts rest) (layout rest).params c := by
      rw [hparams]
      cases rest with
      | nil =>
        have hcut := hs.addCuts_cons [] (by simp) s.keyword.text [] [] c
        rwa [List.append_nil] at hcut
      | cons t rest => exact hs.addCuts_cons [' '] (by simp) s.keyword.text _ _ c
    rw [hadd, addAll, List.foldlM_cons]
    exact congrArg _ (funext fun c => ih hrest c)

theorem hasBack_layout {ss : List Segment} (h : ∀ s ∈ ss, s.Legible p) {front : List Char}
    (hfront : hasBack front = true) : hasBack (front ++ (layout ss).sql.toList) = true := by
  induction ss generalizing front with
  | nil =>
    have hempty : (layout []).sql.toList = [] := by rfl
    rwa [hempty, List.append_nil]
  | cons s rest ih =>
    obtain ⟨hs, hrest⟩ := List.forall_mem_cons.mp h
    have hbody := hasBack_append (front ++ ' ' :: (s.keyword.text ++ [' '])) hs.firm.back
    have hall := ih hrest hbody
    rw [toList_layout_cons]
    simpa only [List.append_assoc, List.cons_append, List.nil_append] using hall

/-- A statement that is laid out behind the base of a table has the clauses of its layout. -/
theorem parse_layout (name : QualifiedName) {ss : List Segment} (h : ∀ s ∈ ss, s.Legible p)
    (hnodup : (ss.map keyword).Nodup) (hsource : .source ∉ ss.map keyword) :
    Clauses.parse p (tableBase name ++ (layout ss).sql) (layout ss).params =
      addAll p ss ⟨ofText (tableBase name), [], none, [], {}⟩ := by
  have hback := hasBack_layout h (hasBack_tableBase name)
  rw [Clauses.parse, String.toList_append, trimStatement_of_hasBack hback]
  cases ss with
  | nil =>
    have hempty : (layout []).sql.toList = [] := by rfl
    have hsplit : splitBase (tableBase name).toList = ((tableBase name).toList ++ [], []) := by
      rw [splitBase, scan_tableBase, List.append_nil]
      rfl
    rw [hempty, List.append_nil, hsplit]
    simp only [takeSection_tableBase p name [] (by simp)]
    rfl
  | cons s rest =>
    rw [splitBase_layout name s rest h hnodup hsource]
    simp only [takeSection_tableBase p name [' '] (by simp)]
    exact addCuts_cuts h _

end Segment

end QueryChain
