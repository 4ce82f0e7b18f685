import QueryChain.Proofs.Standing

/-!
The words that bound the rows of a base statement. Those in its LIMIT and OFFSET clauses are lifted
or refused, and the SELECT bounds its rows behind all other clauses. No other clause is searched for
them: FETCH opens none, and a keyword that comes again stays in the clause that it stands in.
-/

namespace QueryChain

open Fragment (ofText)
open Text

def boundWords : List (List Char) :=
  [Keyword.limit.words.1, Keyword.offset.words.1, ['F', 'E', 'T', 'C', 'H']]

theorem boundWords_capital : Keyword.Capital boundWords := by decide

theorem boundWords_opening : Keyword.Opening boundWords := by decide

/-- The positions at the top level of a text where a word bounds the rows. -/
def rowBounds (cs : List Char) : List Nat :=
  ({} : Context).standing boundWords cs

def Keyword.isLifted : Keyword → Bool
  | .limit | .offset => true
  | _ => false

/-! ### The clause of a position -/

/-- The keyword of the clause that a position of a text lies in, if the text consists of the
cuts. -/
def clauseIn : List Cut → Nat → Option Keyword
  | [], _ => none
  | cut :: rest, n =>
    if n < (cut.word ++ cut.body).length then some cut.keyword
    else clauseIn rest (n - (cut.word ++ cut.body).length)

/-- The keyword of the clause of a base statement that a position lies in. -/
def clauseAt? (cs : List Char) (n : Nat) : Option Keyword :=
  let (head, cuts) := splitBase cs
  if n < head.length then none else clauseIn cuts (n - head.length)

theorem clauseIn_front {cut : Cut} {rest : List Cut} {n : Nat}
    (h : n < (cut.word ++ cut.body).length) : clauseIn (cut :: rest) n = some cut.keyword :=
  if_pos h

theorem clauseIn_behind (cut : Cut) (rest : List Cut) (n : Nat) :
    clauseIn (cut :: rest) ((cut.word ++ cut.body).length + n) = clauseIn rest n := by
  rw [clauseIn, if_neg (Nat.not_lt.mpr (Nat.le_add_right _ n)), Nat.add_sub_cancel_left]

theorem clauseAt?_head {cs : List Char} {n : Nat} (h : n < (splitBase cs).1.length) :
    clauseAt? cs n = none :=
  if_pos h

theorem clauseAt?_behind (cs : List Char) (n : Nat) :
    clauseAt? cs ((splitBase cs).1.length + n) = clauseIn (splitBase cs).2 n := by
  rw [clauseAt?]
  dsimp only
  rw [if_neg (Nat.not_lt.mpr (Nat.le_add_right _ n)), Nat.add_sub_cancel_left]

namespace Keyword

theorem departs_congr {word a b : List Char} (h : a.map Char.toUpper = b.map Char.toUpper) :
    departs word a = departs word b := by
  induction word generalizing a b with
  | nil => rfl
  | cons w word ih =>
    cases a with
    | nil =>
      obtain rfl := List.map_eq_nil_iff.mp h.symm
      rfl
    | cons c a =>
      cases b with
      | nil => cases h
      | cons d b =>
        obtain ⟨hc, hrest⟩ := List.cons.inj h
        rw [departs, departs, hc, ih hrest]

/-- The other keywords hold no word that bounds rows. -/
theorem Spelled.lacks_boundWords {k : Keyword} {word : List Char} (h : k.Spelled word)
    (hk : k.isLifted = false) (x : Context) : x.Lacks boundWords word := by
  have hfront : departsAll boundWords word = true := by
    obtain ⟨a, gap, b, rfl, ha, -⟩ := h
    have hself : k.words.1.map Char.toUpper = k.words.1 := by cases k <;> decide
    have hall : departsAll boundWords k.words.1 = true := by
      cases k <;> first | decide | cases hk
    apply departsAll_append
    apply departsAll_append
    rw [departsAll, List.all_eq_true] at hall ⊢
    intro w hw
    rw [departs_congr (ha.trans hself.symm), hall w hw]
  obtain ⟨-, ⟨c, rest, rfl, -⟩, -⟩ := h.letters
  exact ⟨.inr hfront, (h.quiet x).lacks boundWords_opening⟩

end Keyword

theorem Cuts.startsWord_or_inWord {x : Context} {cs : List Char} {cuts : List Cut}
    (h : Cuts x cs cuts) : Keyword.startsWord cs = false ∨ x.inWord = false := by
  cases h with
  | nil => exact .inl rfl
  | cons top => exact .inr (Context.isTop_iff.mp top).2.2.2

/-- Behind its keyword the body of a clause is read as it is read alone, and trimming it moves the
words that bound rows. -/
theorem Keyword.Spelled.exists_standing_body {k : Keyword} {word body : List Char}
    (h : k.Spelled word) {x : Context} (hx : x.isTop = true)
    (hbody : Keyword.startsWord body = false)
    (hblank : ∀ c ∈ body, isBlank c = true → Keyword.isWordChar c = false) :
    ∃ n, x.standing boundWords (word ++ body) = x.standing boundWords word ++
      (rowBounds (trimChars body)).map (n + ·) := by
  obtain ⟨n, htrim⟩ := Context.exists_standing_trimChars hblank
  have hstart : (x.after word).forget = ({} : Context).forget := by
    rw [h.after hx]
    rfl
  refine ⟨word.length + n, ?_⟩
  rw [Context.standing_append boundWords_capital (.inl hbody),
    Context.standing_of_forget boundWords_capital hstart hbody, htrim _ boundWords_capital,
    List.map_map]
  congr 2
  funext m
  exact (Nat.add_assoc word.length n m).symm

/-- All words that bound the rows of the clauses of a text stand in lifted ones if and only if the
bodies of the others are without such words once they are trimmed. -/
theorem Cuts.lifted_iff {x : Context} {cs : List Char} {cuts : List Cut} (h : Cuts x cs cuts)
    (hblank : ∀ c ∈ cs, isBlank c = true → Keyword.isWordChar c = false) :
    (∀ n ∈ x.standing boundWords cs, (clauseIn cuts n).any Keyword.isLifted = true) ↔
      ∀ cut ∈ cuts, cut.keyword.isLifted = true ∨ rowBounds (trimChars cut.body) = [] := by
  induction h with
  | nil => simp [Context.standing]
  | @cons x k word body tail cuts top spelled ends rest ih =>
    have hbody : Keyword.startsWord body = false := by
      cases body with
      | nil => rfl
      | cons c body => exact ends
    obtain ⟨n, hfront⟩ :=
      spelled.exists_standing_body top hbody fun c hc => hblank c (by simp [hc])
    have hclause : ∀ m ∈ x.standing boundWords (word ++ body),
        clauseIn (⟨k, word, body⟩ :: cuts) m = some k :=
      fun m hm => clauseIn_front (Context.lt_length_of_mem_standing hm)
    have hbehind := clauseIn_behind ⟨k, word, body⟩ cuts
    have htail := ih fun c hc => hblank c (List.mem_append_right _ hc)
    rw [Context.standing_append boundWords_capital rest.startsWord_or_inWord,
      List.forall_mem_append, List.forall_mem_cons, List.forall_mem_map]
    refine and_congr ?_ ?_
    · cases hk : k.isLifted with
      | true =>
        refine iff_of_true (fun m hm => ?_) (.inl rfl)
        rw [hclause m hm]
        exact hk
      | false =>
        -- The keyword bounds nothing, and whatever its body bounds is not lifted.
        rw [Context.standing_eq_nil_of_lacks (spelled.lacks_boundWords hk x), List.nil_append]
          at hfront
        rw [hfront] at hclause ⊢
        have hnone : ∀ m ∈ (rowBounds (trimChars body)).map (n + ·),
            ¬(clauseIn (⟨k, word, body⟩ :: cuts) m).any Keyword.isLifted = true := by
          intro m hm
          rw [hclause m hm]
          exact ne_true_of_eq_false hk
        simp only [Bool.false_eq_true, false_or]
        rw [← List.map_eq_nil_iff (f := (n + ·)), List.eq_nil_iff_forall_not_mem]
        exact forall_congr' fun m =>
          ⟨fun h hm => hnone m hm (h hm), fun h hm => absurd hm h⟩
    · rw [← htail]
      exact forall₂_congr fun m _ => by rw [hbehind]

/-! ### Cuts and their keywords -/

theorem map_keyword_cutAt (n : Nat) (ms : List Mark) (cs : List Char) :
    (cutAt n ms cs).map Cut.keyword = ms.map Mark.keyword := by
  induction ms generalizing n cs with
  | nil => rfl
  | cons m ms ih =>
    exact congrArg (m.keyword :: ·) (ih _ _)

theorem map_keyword_splitBase (cs : List Char) :
    (splitBase cs).2.map Cut.keyword = (Mark.clauses (Mark.scan cs)).map Mark.keyword := by
  rw [splitBase]
  split
  · rename_i hclauses
    rw [hclauses]
    rfl
  · rename_i hclauses
    rw [hclauses]
    exact map_keyword_cutAt _ _ _

theorem Mark.nodup_firsts (seen : List Keyword) (ms : List Mark) :
    ((firsts seen ms).map Mark.keyword).Nodup ∧
      ∀ k ∈ (firsts seen ms).map Mark.keyword, k ∉ seen := by
  induction ms generalizing seen with
  | nil => simp [firsts]
  | cons m ms ih =>
    rw [firsts]
    split
    · exact ih seen
    · rename_i hseen
      obtain ⟨hnodup, hfresh⟩ := ih (m.keyword :: seen)
      rw [List.map_cons, List.nodup_cons, List.forall_mem_cons]
      exact ⟨⟨fun hm => hfresh _ hm List.mem_cons_self, hnodup⟩, hseen,
        fun k hk hmem => hfresh k hk (List.mem_cons_of_mem _ hmem)⟩

/-- No clause is cut off twice, and no FROM clause at all. -/
theorem nodup_splitBase (cs : List Char) :
    ((splitBase cs).2.map Cut.keyword).Nodup ∧ .source ∉ (splitBase cs).2.map Cut.keyword := by
  rw [map_keyword_splitBase]
  obtain ⟨hnodup, hfresh⟩ := Mark.nodup_firsts [.source]
    ((Mark.scan cs).filter (Mark.fromEnd (Mark.scan cs) ≤ ·.start))
  exact ⟨hnodup, fun hsource => hfresh _ hsource List.mem_cons_self⟩

/-! ### The head -/

theorem Mark.start_of_mem_clauses {cs : List Char} {m : Mark} (hm : m ∈ clauses (scan cs)) :
    m.start < cs.length ∧ fromEnd (scan cs) ≤ m.start := by
  obtain ⟨hmem, hbehind⟩ := List.mem_filter.mp ((firsts_sublist _ _).subset hm)
  refine ⟨?_, of_decide_eq_true hbehind⟩
  obtain ⟨front, word, tail, rfl, -, hspelled, -, hstart, -⟩ :=
    (scanFrom_placed {} 0 cs).exists_of_mem hmem
  obtain ⟨-, ⟨c, rest, rfl, -⟩, -⟩ := hspelled.letters
  rw [hstart]
  simp

/-- The head of a statement is all of it, or it ends where the first clause begins. -/
theorem splitBase_head (cs : List Char) :
    splitBase cs = (cs, []) ∨
      ∃ m ∈ Mark.clauses (Mark.scan cs), (splitBase cs).1.length = m.start := by
  rw [splitBase]
  split
  · exact .inl rfl
  · rename_i m rest hclauses
    have hm : m ∈ Mark.clauses (Mark.scan cs) := hclauses ▸ List.mem_cons_self
    refine .inr ⟨m, hm, ?_⟩
    rw [List.length_take]
    exact Nat.min_eq_left (Nat.le_of_lt (Mark.start_of_mem_clauses hm).1)

/-- A statement that has a FROM has one in its head. -/
theorem standing_head_ne_nil {cs : List Char}
    (h : ({} : Context).standing Mark.sourceWords cs ≠ []) :
    ({} : Context).standing Mark.sourceWords (splitBase cs).1 ≠ [] := by
  obtain hall | ⟨m, hm, hlength⟩ := splitBase_head cs
  · rwa [hall]
  · obtain ⟨rest, hsplit, hcuts⟩ := splitBase_cuts cs
    have hsources : Mark.sources cs ≠ [] := by
      rintro hnil
      exact h (by rw [← Mark.start_sources, hnil]; rfl)
    obtain ⟨-, x, hx, hbefore⟩ := Mark.exists_source_before hsources hm
    have hstart : x.start < x.stop := by
      obtain ⟨front, word, tail, -, hsource, rfl⟩ := Mark.exists_isSource hx
      have hword := List.length_pos_iff.mpr hsource.letters.1
      dsimp only
      omega
    have hmem := List.mem_map_of_mem (f := Mark.start) hx
    rw [Mark.start_sources, hsplit,
      Context.standing_append (by decide) hcuts.startsWord_or_inWord, List.mem_append] at hmem
    rcases hmem with hmem | hmem
    · exact List.ne_nil_of_mem hmem
    · obtain ⟨n, -, hn⟩ := List.mem_map.mp hmem
      omega

/-- Trimming the head of a statement moves the end of its first FROM. -/
theorem fromEnd_le_iff {cs : List Char} {n : Nat}
    (htrim : ∀ words, Keyword.Capital words → ({} : Context).standing words (splitBase cs).1 =
      (({} : Context).standing words (trimChars (splitBase cs).1)).map (n + ·)) (m : Nat) :
    Mark.fromEnd (Mark.scan cs) ≤ n + m ↔
      Mark.fromEnd (Mark.scan (trimChars (splitBase cs).1)) ≤ m := by
  obtain ⟨rest, hsplit, hcuts⟩ := splitBase_cuts cs
  have hcapital : Keyword.Capital Mark.sourceWords := by decide
  have hwhole := Context.standing_append hcapital hcuts.startsWord_or_inWord
  rw [← hsplit] at hwhole
  have hhead := htrim Mark.sourceWords hcapital
  rw [Mark.fromEnd_scan, Mark.fromEnd_scan]
  cases hstanding : ({} : Context).standing Mark.sourceWords (trimChars (splitBase cs).1) with
  | nil =>
    rw [hstanding] at hhead
    have hnone : ({} : Context).standing Mark.sourceWords cs = [] :=
      not_not.mp fun hne => standing_head_ne_nil hne hhead
    rw [hnone]
    exact iff_of_true (Nat.zero_le _) (Nat.zero_le _)
  | cons p ps =>
    rw [hstanding] at hhead
    rw [hwhole, hhead]
    simp only [List.map_cons, List.cons_append, List.head?_cons, Option.map_some, Option.getD_some]
    omega

/-! ### What is stored of a base -/

/-- Whether no word bounds rows at the top level of what is stored of a base statement, but for
those before the end of its first FROM. -/
structure Clauses.Unbounded (c : Clauses) : Prop where
  head : ∀ n ∈ rowBounds c.head.sql.toList, n < Mark.fromEnd (Mark.scan c.head.sql.toList)
  conditions : ∀ x ∈ c.conditions,
    ∃ f : Fragment, x = .given (ofText "(" ++ f ++ ofText ")") ∧ rowBounds f.sql.toList = []
  groupBy : ∀ g, c.groupBy = some g → rowBounds g.sql.toList = []
  orderBy : ∀ t ∈ c.orderBy, rowBounds t.sql.toList = []

namespace Clauses

variable {p : Placeholder} {k : Keyword} {body : Fragment} {c c' : Clauses}

theorem addCut_groupBy (h : c.addCut p k body = .ok c') (hk : k ≠ .groupBy) :
    c'.groupBy = c.groupBy := by
  cases k with
  | groupBy => exact absurd rfl hk
  | limit | offset =>
    simp only [addCut] at h
    split at h
    · obtain rfl := Except.ok.inj h
      rfl
    · cases h
  | source =>
    obtain rfl := Except.ok.inj h
    rfl
  | condition =>
    simp only [addCut] at h
    split at h <;> obtain rfl := Except.ok.inj h <;> rfl
  | orderBy =>
    obtain rfl := Except.ok.inj h
    split <;> rfl

theorem rowBounds_of_isEmpty {f : Fragment} (h : f.sql.isEmpty = true) :
    rowBounds f.sql.toList = [] := by
  rw [String.isEmpty_iff.mp h]
  rfl

theorem sql_of_given {f g : Fragment}
    (h : Condition.given (ofText "(" ++ f ++ ofText ")") = .given (ofText "(" ++ g ++ ofText ")")) :
    f.sql = g.sql := by
  have hsql := congrArg Fragment.sql (Condition.given.inj h)
  simpa [Fragment.sql_append, String.ext_iff] using hsql

/-- A clause that is added to what is stored bounds rows there if its text does and is not
lifted. -/
theorem addCut_unbounded_iff (h : c.addCut p k body = .ok c') (hsource : k ≠ .source)
    (hgroup : k = .groupBy → c.groupBy = none) :
    c'.Unbounded ↔ c.Unbounded ∧ (k.isLifted = true ∨ rowBounds body.sql.toList = []) := by
  cases k with
  | source => exact absurd rfl hsource
  | limit | offset =>
    simp only [addCut] at h
    split at h
    · obtain rfl := Except.ok.inj h
      exact ⟨fun hc => ⟨⟨hc.head, hc.conditions, hc.groupBy, hc.orderBy⟩, .inl rfl⟩,
        fun hc => ⟨hc.1.head, hc.1.conditions, hc.1.groupBy, hc.1.orderBy⟩⟩
    · cases h
  | condition =>
    simp only [addCut] at h
    split at h
    · obtain rfl := Except.ok.inj h
      exact ⟨fun hc => ⟨hc, .inr (rowBounds_of_isEmpty ‹_›)⟩, And.left⟩
    · obtain rfl := Except.ok.inj h
      constructor
      · intro hc
        obtain ⟨f, hf, hnone⟩ :=
          hc.conditions _ (List.mem_append_right _ (List.mem_singleton_self _))
        rw [← sql_of_given hf] at hnone
        exact ⟨⟨hc.head, fun x hx => hc.conditions x (List.mem_append_left _ hx), hc.groupBy,
          hc.orderBy⟩, .inr hnone⟩
      · rintro ⟨hc, hlifted | hnone⟩
        · cases hlifted
        · refine ⟨hc.head, ?_, hc.groupBy, hc.orderBy⟩
          exact List.forall_mem_append.mpr
            ⟨hc.conditions, List.forall_mem_singleton.mpr ⟨body, rfl, hnone⟩⟩
  | groupBy =>
    obtain rfl := Except.ok.inj h
    split
    · exact ⟨fun hc => ⟨hc, .inr (rowBounds_of_isEmpty ‹_›)⟩, And.left⟩
    · constructor
      · intro hc
        refine ⟨⟨hc.head, hc.conditions, ?_, hc.orderBy⟩, .inr (hc.groupBy body rfl)⟩
        intro g hg
        rw [hgroup rfl] at hg
        cases hg
      · rintro ⟨hc, hlifted | hnone⟩
        · cases hlifted
        · exact ⟨hc.head, hc.conditions, fun g hg => Option.some.inj hg ▸ hnone, hc.orderBy⟩
  | orderBy =>
    obtain rfl := Except.ok.inj h
    split
    · exact ⟨fun hc => ⟨hc, .inr (rowBounds_of_isEmpty ‹_›)⟩, And.left⟩
    · constructor
      · intro hc
        obtain ⟨horder, hbody⟩ := List.forall_mem_append.mp hc.orderBy
        exact ⟨⟨hc.head, hc.conditions, hc.groupBy, horder⟩,
          .inr (hbody body (List.mem_singleton_self _))⟩
      · rintro ⟨hc, hlifted | hnone⟩
        · cases hlifted
        · exact ⟨hc.head, hc.conditions, hc.groupBy, List.forall_mem_append.mpr
            ⟨hc.orderBy, List.forall_mem_singleton.mpr hnone⟩⟩

theorem addCuts_unbounded_iff {cuts : List Cut} {params : List Value}
    (h : addCuts p cuts params c = .ok c') (hnodup : (cuts.map Cut.keyword).Nodup)
    (hsource : .source ∉ cuts.map Cut.keyword)
    (hgroup : .groupBy ∈ cuts.map Cut.keyword → c.groupBy = none) :
    c'.Unbounded ↔ c.Unbounded ∧ ∀ cut ∈ cuts,
      cut.keyword.isLifted = true ∨ rowBounds (trimChars cut.body) = [] := by
  induction cuts generalizing params c with
  | nil =>
    obtain rfl := Except.ok.inj h
    simp
  | cons cut rest ih =>
    rw [List.map_cons, List.nodup_cons] at hnodup
    rw [List.map_cons, List.mem_cons, not_or] at hsource
    rw [List.map_cons, List.mem_cons] at hgroup
    simp only [addCuts] at h
    split at h
    · rename_i next hnext
      have hbody : (takeSection p cut.body params).1.sql.toList = trimChars cut.body :=
        String.toList_ofList
      have hrest : .groupBy ∈ rest.map Cut.keyword → next.groupBy = none := by
        intro hmem
        have hne : cut.keyword ≠ .groupBy := fun heq => hnodup.1 (heq ▸ hmem)
        rw [addCut_groupBy hnext hne]
        exact hgroup (.inr hmem)
      rw [ih h hnodup.2 hsource.2 hrest, List.forall_mem_cons,
        addCut_unbounded_iff hnext (Ne.symm hsource.1) fun heq => hgroup (.inl heq.symm), hbody,
        and_assoc]
    · cases h

/-- The words behind the first FROM of a statement that bound its rows stand in lifted clauses if
and only if there are none in its trimmed head behind that FROM, nor in the other clauses. -/
theorem lifted_iff_of_splitBase {cs : List Char}
    (hblank : ∀ x ∈ cs, isBlank x = true → Keyword.isWordChar x = false) :
    (∀ n ∈ rowBounds cs, Mark.fromEnd (Mark.scan cs) ≤ n →
        (clauseAt? cs n).any Keyword.isLifted = true) ↔
      (∀ n ∈ rowBounds (trimChars (splitBase cs).1),
          n < Mark.fromEnd (Mark.scan (trimChars (splitBase cs).1))) ∧
        ∀ cut ∈ (splitBase cs).2,
          cut.keyword.isLifted = true ∨ rowBounds (trimChars cut.body) = [] := by
  obtain ⟨rest, hsplit, hcuts⟩ := splitBase_cuts cs
  have hfront (x : Char) (hx : x ∈ (splitBase cs).1) :=
    hblank x (hsplit ▸ List.mem_append_left _ hx)
  have hbehind (x : Char) (hx : x ∈ rest) := hblank x (hsplit ▸ List.mem_append_right _ hx)
  obtain ⟨m, htrim⟩ := Context.exists_standing_trimChars hfront
  have hwhole : rowBounds cs = rowBounds (splitBase cs).1 ++
      ((({} : Context).after (splitBase cs).1).standing boundWords rest).map
        ((splitBase cs).1.length + ·) := by
    conv_lhs => rw [hsplit]
    exact Context.standing_append boundWords_capital hcuts.startsWord_or_inWord
  rw [hwhole, List.forall_mem_append, List.forall_mem_map, ← hcuts.lifted_iff hbehind]
  refine and_congr ?head ?clauses
  case head =>
    -- No position of the head lies in a clause.
    have hnone (n : Nat) (hn : n ∈ rowBounds (splitBase cs).1) : clauseAt? cs n = none :=
      clauseAt?_head (Context.lt_length_of_mem_standing hn)
    have hhead : rowBounds (splitBase cs).1 =
        (rowBounds (trimChars (splitBase cs).1)).map (m + ·) :=
      htrim _ boundWords_capital
    rw [hhead] at hnone ⊢
    rw [List.forall_mem_map] at hnone ⊢
    refine forall₂_congr fun n hn => ?_
    rw [hnone n hn, fromEnd_le_iff htrim, ← Nat.not_le]
    simp
  case clauses =>
    -- Behind the head every position lies behind the first FROM.
    obtain hall | ⟨mark, hmark, hlength⟩ := splitBase_head cs
    · rw [hall] at hsplit
      obtain rfl := List.append_cancel_left (hsplit.symm.trans (List.append_nil cs).symm)
      simp [Context.standing]
    · have hfrom := (Mark.start_of_mem_clauses hmark).2
      refine forall₂_congr fun n _ => ?_
      rw [clauseAt?_behind, hlength]
      exact forall_prop_of_true (Nat.le_trans hfrom (Nat.le_add_right _ n))

theorem unbounded_of_head (f : Fragment) : Unbounded ⟨f, [], none, [], {}⟩ ↔
    ∀ n ∈ rowBounds f.sql.toList, n < Mark.fromEnd (Mark.scan f.sql.toList) := by
  refine ⟨fun hc => hc.head, fun hhead => ⟨hhead, ?_, ?_, ?_⟩⟩
  · exact List.forall_mem_nil _
  · intro g hg
    cases hg
  · exact List.forall_mem_nil _

/-- What is stored of an accepted base bounds no rows if and only if every word of it behind its
first FROM that bounds rows stands in a clause that is lifted. -/
theorem parse_unbounded_iff {base : String} {params : List Value}
    (h : Clauses.parse p base params = .ok c)
    (hblank : ∀ x ∈ base.toList, isBlank x = true → Keyword.isWordChar x = false) :
    c.Unbounded ↔ ∀ n ∈ rowBounds (trimStatement base.toList),
      Mark.fromEnd (Mark.scan (trimStatement base.toList)) ≤ n →
        (clauseAt? (trimStatement base.toList) n).any Keyword.isLifted = true := by
  obtain ⟨fillers, hbase, -⟩ := exists_trimStatement base.toList
  have hstatement (x : Char) (hx : x ∈ trimStatement base.toList) :=
    hblank x (hbase ▸ List.mem_append_left _ hx)
  rw [lifted_iff_of_splitBase hstatement]
  rw [parse] at h
  generalize trimStatement base.toList = cs at h ⊢
  obtain ⟨hnodup, hsource⟩ := nodup_splitBase cs
  generalize splitBase cs = split at h hnodup hsource ⊢
  obtain ⟨head, cuts⟩ := split
  rw [addCuts_unbounded_iff h hnodup hsource fun _ => rfl]
  refine and_congr_left fun _ => ?_
  rw [unbounded_of_head]
  dsimp only
  rw [String.toList_ofList]

end Clauses

end QueryChain
