import QueryChain.Proofs.Endings

/-!
The FROM keywords of a base statement. Those in front of its first clause are the ones that its
head is left with once it is cut off and trimmed, so they decide whether DELETE and UPDATE find a
table; a FROM behind the first clause is not looked at.
-/

namespace QueryChain

open Text

namespace Mark

/-- Where a mark of a text stands, and what stands around it. -/
theorem Placed.exists_of_mem {x : Context} {n : Nat} {cs : List Char} {ms : List Mark}
    (h : Placed x n cs ms) {m : Mark} (hm : m ∈ ms) :
    ∃ front word tail, cs = front ++ (word ++ tail) ∧ (x.after front).isTop = true ∧
      m.keyword.Spelled word ∧ Keyword.startsWord tail = false ∧
      m.start = n + front.length ∧ m.stop = n + front.length + word.length := by
  induction h with
  | nil => cases hm
  | @cons x n gap word tail k ms top spelled ends rest ih =>
    rcases List.mem_cons.mp hm with rfl | hm
    · exact ⟨gap, word, tail, List.append_assoc gap word tail, top, spelled, ends, rfl, rfl⟩
    · obtain ⟨front, word', tail', rfl, htop, hspelled, hends, hstart, hstop⟩ := ih hm
      refine ⟨gap ++ word ++ front, word', tail', ?_, ?_, hspelled, hends, ?_, ?_⟩
      · simp only [List.append_assoc]
      · rwa [Context.after_append]
      · simp only [List.length_append]
        omega
      · simp only [List.length_append]
        omega

/-- The marks of a text stand one behind the other. -/
theorem Placed.pairwise {x : Context} {n : Nat} {cs : List Char} {ms : List Mark}
    (h : Placed x n cs ms) : ms.Pairwise (·.start < ·.start) := by
  induction h with
  | nil => exact .nil
  | @cons x n gap word tail k ms top spelled ends rest ih =>
    obtain ⟨-, ⟨c, word, rfl, -⟩, -⟩ := spelled.letters
    refine .cons (fun m hm => ?_) ih
    obtain ⟨front, -, -, -, -, -, -, hstart, -⟩ := rest.exists_of_mem hm
    show n + gap.length < m.start
    rw [hstart, List.length_cons]
    omega

def sources (cs : List Char) : List Mark :=
  (scan cs).filter (·.keyword == .source)

theorem sources_pairwise (cs : List Char) : (sources cs).Pairwise (·.start < ·.start) :=
  (scanFrom_placed {} 0 cs).pairwise.filter _

/-- The letters of FROM between `front` and `tail`, at the top level and no part of a word. -/
structure IsSource (front word tail : List Char) : Prop where
  top : (({} : Context).after front).isTop = true
  spelled : word.map Char.toUpper = Keyword.source.words.1
  ends : Keyword.startsWord tail = false

theorem IsSource.mem_sources {front word tail : List Char} (h : IsSource front word tail) :
    (⟨.source, front.length, front.length + word.length⟩ : Mark) ∈
      sources (front ++ (word ++ tail)) := by
  have hspelled : Keyword.source.Spelled word :=
    ⟨word, [], [], by simp, h.spelled, by simp, rfl, by simp [Keyword.words]⟩
  have hfront : Keyword.atFront? (word ++ tail) = some (.source, tail) := by
    have hafter : Keyword.source.after? (word ++ tail) = some tail :=
      Keyword.afterWord?_of_map h.spelled h.ends
    rw [Keyword.atFront?, Keyword.all, List.findSome?_cons, hafter]
    rfl
  refine List.mem_filter.mpr ⟨mem_scanFrom_append ?_, rfl⟩
  rw [Nat.zero_add, scanFrom_keyword h.top hfront hspelled]
  exact List.mem_cons_self

theorem exists_isSource {cs : List Char} {m : Mark} (hm : m ∈ sources cs) :
    ∃ front word tail, cs = front ++ (word ++ tail) ∧ IsSource front word tail ∧
      m = ⟨.source, front.length, front.length + word.length⟩ := by
  obtain ⟨hm, hkeyword⟩ := List.mem_filter.mp hm
  obtain ⟨k, start, stop⟩ := m
  obtain rfl : k = .source := by simpa using hkeyword
  obtain ⟨front, word, tail, hcs, htop, hspelled, hends, hstart, hstop⟩ :=
    (scanFrom_placed {} 0 cs).exists_of_mem hm
  obtain ⟨a, gap, b, rfl, ha, -, hb, hgap⟩ := hspelled
  obtain rfl : b = [] := List.map_eq_nil_iff.mp hb
  obtain rfl : gap = [] := hgap.mpr rfl
  refine ⟨front, _, tail, hcs, ⟨htop, by simpa using ha, hends⟩, ?_⟩
  obtain rfl : start = front.length := hstart.trans (Nat.zero_add _)
  obtain rfl : stop = front.length + (a ++ [] ++ []).length := by
    rw [Nat.zero_add] at hstop
    exact hstop
  rfl

end Mark

/-! ### Blanks around a text -/

theorem isLetter_of_isFiller {c : Char} (h : isFiller c = true) : Keyword.isLetter c = false := by
  rw [← Bool.not_eq_true]
  intro hletter
  have hrange : (65 ≤ c.toNat ∧ c.toNat ≤ 90) ∨ (97 ≤ c.toNat ∧ c.toNat ≤ 122) := by
    have halpha : (decide (65 ≤ c.val ∧ c.val ≤ 90) ||
        (decide (97 ≤ c.val) && decide (c.val ≤ 122))) = true :=
      Keyword.isAlpha_of_isLetter hletter
    simpa [UInt32.le_iff_toNat_le] using halpha
  simp only [isFiller, isBlank, Bool.or_eq_true, Bool.and_eq_true, decide_eq_true_eq,
    beq_iff_eq] at h
  rcases h with hblank | rfl
  · omega
  · cases hletter

theorem isBlank_of_isLetter {c : Char} (h : Keyword.isLetter c = true) : isBlank c = false := by
  rw [← Bool.not_eq_true]
  intro hblank
  rw [isLetter_of_isFiller (isFiller_of_isBlank hblank)] at h
  cases h

theorem Mark.IsSource.letters {front word tail : List Char} (h : IsSource front word tail) :
    word ≠ [] ∧ ∀ c ∈ word, Keyword.isLetter c = true := by
  refine ⟨?_, Keyword.isLetter_of_map h.spelled (Keyword.words_isUpper _).1⟩
  rintro rfl
  cases h.spelled

/-- What begins with a character that a front part does not hold begins behind that part. -/
theorem append_eq_behind {a b front rest : List Char} {c : Char}
    (h : a ++ b = front ++ c :: rest) (hc : c ∉ a) :
    ∃ inner, front = a ++ inner ∧ b = inner ++ c :: rest := by
  rcases List.append_eq_append_iff.mp h with ⟨inner, hinner, hb⟩ | ⟨back, rfl, hback⟩
  · exact ⟨inner, hinner, hb⟩
  · cases back with
    | nil => exact ⟨[], by simp, hback.symm⟩
    | cons d back =>
      obtain ⟨rfl, -⟩ := List.cons.inj hback
      exact absurd (List.mem_append_right front List.mem_cons_self) hc

/-- A FROM of a text that stands in front of a given place stands in what is left of the text up to
that place when the blanks around it are taken away, unless a word goes on beyond the place. -/
theorem Mark.IsSource.within {pre cs post more front word tail : List Char}
    (h : IsSource front word tail) (htext : pre ++ (cs ++ (post ++ more)) = front ++ (word ++ tail))
    (hfront : front.length < (pre ++ cs ++ post).length)
    (hpre : ∀ c ∈ pre, isBlank c = true) (hpost : ∀ c ∈ post, isBlank c = true)
    (hmore : ∀ c ∈ more.head?, Keyword.isLetter c = true →
      (({} : Context).after (pre ++ cs ++ post)).inWord = false) :
    ∃ inner rest, front = pre ++ inner ∧ cs = inner ++ (word ++ rest) ∧
      Keyword.startsWord rest = false := by
  obtain ⟨hne, hletters⟩ := h.letters
  have hblank {cs : List Char} (hcs : ∀ c ∈ cs, isBlank c = true) {c : Char} (hc : c ∈ word) :
      c ∉ cs := fun hmem =>
    absurd (hcs c hmem) (by simp [isBlank_of_isLetter (hletters c hc)])
  obtain ⟨w, ws, rfl⟩ := List.exists_cons_of_ne_nil hne
  -- The word does not begin in the blanks in front, nor in those behind.
  obtain ⟨inner, rfl, hinner⟩ := append_eq_behind htext (hblank hpre List.mem_cons_self)
  rcases List.append_eq_append_iff.mp hinner with ⟨gap, rfl, hgap⟩ | ⟨back, rfl, hback⟩
  · obtain ⟨gap, rfl, -⟩ := append_eq_behind hgap (hblank hpost List.mem_cons_self)
    simp only [List.length_append] at hfront
    omega
  -- It may reach up to the end of the text, but not beyond.
  have hback : w :: ws ++ tail = back ++ (post ++ more) := hback
  rcases List.append_eq_append_iff.mp hback with ⟨rest, rfl, rfl⟩ | ⟨beyond, hword, hbeyond⟩
  · refine ⟨inner, rest, rfl, rfl, ?_⟩
    cases rest with
    | nil => rfl
    | cons c rest => exact h.ends
  · cases beyond with
    | nil => exact ⟨inner, [], rfl, by simp [hword], rfl⟩
    | cons c beyond =>
      have hc : c ∈ w :: ws := by simp [hword]
      have hbeyond : post ++ more = [] ++ c :: (beyond ++ tail) := hbeyond
      obtain ⟨nothing, hnothing, rfl⟩ := append_eq_behind hbeyond (hblank hpost hc)
      obtain ⟨rfl, rfl⟩ := List.append_eq_nil_iff.mp hnothing.symm
      have hend := hmore c rfl (hletters c hc)
      rcases List.eq_nil_or_concat back with rfl | ⟨front, d, rfl⟩
      · simp at hfront
      · -- The last character in front of the place is a letter of the word.
        have hd : Keyword.isWordChar d = true :=
          Keyword.isWordChar_of_isLetter (hletters d (by simp [hword]))
        have hlast : pre ++ (inner ++ front.concat d) ++ [] = pre ++ inner ++ front ++ [d] := by
          simp
        rw [hlast, Context.after_append, Context.after_cons, Context.after_nil,
          Context.inWord_next, hd] at hend
        cases hend

/-- Blanks in front of a text change nothing but whether a word goes on. -/
theorem Context.after_blanks_cons {pre : List Char} (hpre : ∀ c ∈ pre, isBlank c = true)
    (c : Char) (cs : List Char) :
    ({} : Context).after (pre ++ c :: cs) = ({} : Context).after (c :: cs) := by
  have hforget : (({} : Context).after pre).forget = ({} : Context).forget :=
    forget_after_filler rfl fun c hc => isFiller_of_isBlank (hpre c hc)
  rw [after_append, after_cons_forget hforget]

theorem Mark.IsSource.trimmed {pre inner word tail rest : List Char}
    (h : IsSource (pre ++ inner) word tail) (hpre : ∀ c ∈ pre, isBlank c = true)
    (hrest : Keyword.startsWord rest = false) : IsSource inner word rest := by
  refine ⟨?_, h.spelled, hrest⟩
  cases inner with
  | nil => rfl
  | cons c inner =>
    rw [← Context.after_blanks_cons hpre]
    exact h.top

/-- Behind blanks that end no word, a text has the FROM keywords it has alone. -/
theorem Mark.IsSource.untrimmed {pre inner word rest : List Char} (h : IsSource inner word rest)
    (hpre : ∀ c ∈ pre, isBlank c = true)
    (htop : inner = [] → (({} : Context).after pre).isTop = true) :
    IsSource (pre ++ inner) word rest := by
  refine ⟨?_, h.spelled, h.ends⟩
  cases inner with
  | nil =>
    rw [List.append_nil]
    exact htop rfl
  | cons c inner =>
    rw [Context.after_blanks_cons hpre]
    exact h.top

/-- What is written behind a text leaves the FROM keywords that something stands behind. -/
theorem Mark.IsSource.append {front word rest : List Char} (h : IsSource front word rest)
    (hne : rest ≠ []) (more : List Char) : IsSource front word (rest ++ more) := by
  obtain ⟨c, rest, rfl⟩ := List.exists_cons_of_ne_nil hne
  exact ⟨h.top, h.spelled, h.ends⟩

/-- A FROM of a text stands in front of the blanks and semicolons at its end. -/
theorem Mark.IsSource.before_fillers {cs fillers front word tail : List Char}
    (h : IsSource front word tail) (htext : cs ++ fillers = front ++ (word ++ tail))
    (hfillers : ∀ c ∈ fillers, isFiller c = true) :
    ∃ rest, cs = front ++ (word ++ rest) ∧ IsSource front word rest := by
  have hletter {c : Char} (hc : c ∈ fillers) (hl : Keyword.isLetter c = true) : False := by
    rw [isLetter_of_isFiller (hfillers c hc)] at hl
    cases hl
  have hfront : front.length < cs.length := by
    obtain ⟨w, ws, rfl⟩ := List.exists_cons_of_ne_nil h.letters.1
    have hw := h.letters.2 w List.mem_cons_self
    rcases List.append_eq_append_iff.mp htext with ⟨gap, -, rfl⟩ | ⟨back, rfl, hback⟩
    · exact (hletter (by simp) hw).elim
    · cases back with
      | nil =>
        obtain rfl : w :: ws ++ tail = fillers := hback
        exact (hletter (by simp) hw).elim
      | cons c back => simp
  have htext : [] ++ (cs ++ ([] ++ fillers)) = front ++ (word ++ tail) := htext
  obtain ⟨inner, rest, rfl, rfl, hrest⟩ := h.within htext (by simpa using hfront) (by simp)
    (by simp) fun c hc hl => (hletter (List.mem_of_mem_head? hc) hl).elim
  exact ⟨rest, rfl, h.top, h.spelled, hrest⟩

/-- The first FROM of a text ends in front of its first clause. -/
theorem Mark.exists_source_before {cs : List Char} (hne : sources cs ≠ []) {m : Mark}
    (hm : m ∈ clauses (scan cs)) :
    m.start < cs.length ∧ ∃ x ∈ sources cs, x.stop ≤ m.start := by
  obtain ⟨hmem, hbehind⟩ := List.mem_filter.mp ((firsts_sublist _ _).subset hm)
  constructor
  · obtain ⟨front, word, tail, rfl, -, hspelled, -, hstart, -⟩ :=
      (scanFrom_placed {} 0 cs).exists_of_mem hmem
    obtain ⟨-, ⟨c, rest, rfl, -⟩, -⟩ := hspelled.letters
    rw [hstart]
    simp
  · obtain ⟨y, hy⟩ := List.exists_mem_of_ne_nil _ hne
    obtain ⟨hy, hkeyword⟩ := List.mem_filter.mp hy
    cases hfind : (scan cs).find? (·.keyword == .source) with
    | none => exact absurd hkeyword (List.find?_eq_none.mp hfind y hy)
    | some x =>
      have hsource := List.find?_some hfind
      rw [fromEnd, hfind] at hbehind
      exact ⟨x, List.mem_filter.mpr ⟨List.mem_of_find?_eq_some hfind, hsource⟩,
        of_decide_eq_true hbehind⟩

/-! ### The head of a base -/

def headText (base : String) : List Char :=
  (splitBase (trimStatement base.toList)).1

/-- The FROM keywords of a base statement that stand in front of its first clause. -/
def headSources (base : String) : List Mark :=
  (Mark.sources base.toList).filter (·.start < (headText base).length)

theorem headSources_pairwise (base : String) :
    (headSources base).Pairwise (·.start < ·.start) :=
  (Mark.sources_pairwise _).filter _

theorem mem_headSources {base : String} {m : Mark} :
    m ∈ headSources base ↔ m ∈ Mark.sources base.toList ∧ m.start < (headText base).length := by
  rw [headSources, List.mem_filter, decide_eq_true_eq]

/-- A base that has a FROM has one in front of its first clause. -/
theorem headSources_eq_nil_iff {base : String} :
    headSources base = [] ↔ Mark.sources base.toList = [] := by
  refine ⟨fun hnone => ?_, fun hnone => by rw [headSources, hnone]; rfl⟩
  rw [List.eq_nil_iff_forall_not_mem]
  intro m hm
  suffices ∃ x ∈ Mark.sources base.toList, x.start < (headText base).length by
    obtain ⟨x, hx⟩ := this
    have hmem := mem_headSources.mpr hx
    rw [hnone] at hmem
    cases hmem
  obtain ⟨fillers, hbase, hfillers⟩ := exists_trimStatement base.toList
  generalize hcs : trimStatement base.toList = cs at hbase
  obtain ⟨front, word, tail, htext, hsource, rfl⟩ := Mark.exists_isSource hm
  obtain ⟨rest, rfl, hinside⟩ := hsource.before_fillers (hbase.symm.trans htext) hfillers
  rw [headText, hcs, splitBase]
  cases hclauses : Mark.clauses (Mark.scan (front ++ (word ++ rest))) with
  | nil =>
    have hword := List.length_pos_iff.mpr hsource.letters.1
    refine ⟨_, hm, ?_⟩
    simp only [List.length_append]
    omega
  | cons clause _ =>
    -- The first FROM of the trimmed text is one of the base, since a clause stands behind it.
    obtain ⟨hstart, x, hx, hbefore⟩ := Mark.exists_source_before
      (List.ne_nil_of_mem hinside.mem_sources) (hclauses ▸ List.mem_cons_self)
    obtain ⟨front', word', rest', hsame, hfirst, rfl⟩ := Mark.exists_isSource hx
    rw [hsame] at hbase hstart ⊢
    have hrest : rest' ≠ [] := by
      rintro rfl
      simp only [List.length_append, List.length_nil] at hstart hbefore
      omega
    have hword := List.length_pos_iff.mpr hfirst.letters.1
    have hmem := (hfirst.append hrest fillers).mem_sources
    refine ⟨⟨.source, front'.length, front'.length + word'.length⟩, ?_, ?_⟩
    · rw [hbase]
      simpa only [List.append_assoc] using hmem
    · dsimp only at hbefore ⊢
      rw [List.length_take]
      omega

/-- The only FROM of a base stands in front of its first clause. -/
theorem headSources_of_sources {base : String} {m : Mark} (h : Mark.sources base.toList = [m]) :
    headSources base = [m] := by
  have hsome : headSources base ≠ [] := by
    rw [Ne, headSources_eq_nil_iff, h]
    exact List.cons_ne_nil m []
  have hsub : (headSources base).Sublist [m] := h ▸ List.filter_sublist
  exact (List.sublist_singleton.mp hsub).resolve_left hsome

/-- The parts of a base: its head, which is a text with blanks around it, and a rest. Where a letter
begins the rest, no word goes on. -/
structure HeadParts (base : String) (pre cs post more : List Char) : Prop where
  head : headText base = pre ++ cs ++ post
  whole : base.toList = pre ++ (cs ++ (post ++ more))
  front : ∀ c ∈ pre, isBlank c = true
  back : ∀ c ∈ post, isBlank c = true
  boundary : ∀ c ∈ more.head?, Keyword.isLetter c = true →
    (({} : Context).after (pre ++ cs ++ post)).inWord = false

theorem exists_headParts (base : String) :
    ∃ pre post more, HeadParts base pre (trimChars (headText base)) post more := by
  obtain ⟨fillers, hbase, hfillers⟩ := exists_trimStatement base.toList
  obtain ⟨rest, hsplit, hcuts⟩ := splitBase_cuts (trimStatement base.toList)
  obtain ⟨pre, post, hhead, hpre, hpost⟩ := exists_trimChars (headText base)
  have hsplit : trimStatement base.toList = headText base ++ rest := hsplit
  rw [← headText] at hcuts
  refine ⟨pre, post, rest ++ fillers, hhead, ?_, hpre, hpost, ?_⟩
  · rw [hsplit, hhead] at hbase
    simpa only [List.append_assoc] using hbase
  · rw [← hhead]
    generalize headText base = head at hcuts ⊢
    generalize (splitBase (trimStatement base.toList)).2 = cuts at hcuts
    intro c hc hletter
    cases hcuts with
    | nil =>
      rw [isLetter_of_isFiller (hfillers c (List.mem_of_mem_head? hc))] at hletter
      cases hletter
    | cons top => exact (Context.isTop_iff.mp top).2.2.2

namespace HeadParts

variable {base : String} {pre cs post more : List Char}

/-- A FROM of a base in front of its first clause is one of its trimmed head. -/
theorem exists_source (h : HeadParts base pre cs post more) {m : Mark}
    (hm : m ∈ headSources base) :
    ∃ x ∈ Mark.sources cs, m = ⟨.source, pre.length + x.start, pre.length + x.stop⟩ := by
  obtain ⟨hm, hbefore⟩ := mem_headSources.mp hm
  obtain ⟨front, word, tail, hfront, hsource, rfl⟩ := Mark.exists_isSource hm
  rw [h.whole] at hfront
  rw [h.head] at hbefore
  obtain ⟨inner, rest, rfl, rfl, hrest⟩ := hsource.within hfront hbefore h.front h.back h.boundary
  refine ⟨_, (hsource.trimmed h.front hrest).mem_sources, ?_⟩
  rw [List.length_append, Nat.add_assoc]

/-- A FROM of the trimmed head of a base with something behind it is one of the base. -/
theorem mem_headSources_of_source (h : HeadParts base pre cs post more) {x : Mark}
    (hx : x ∈ Mark.sources cs) (hbehind : cs.drop x.stop ≠ [])
    (htop : (({} : Context).after (base.toList.takeWhile isBlank)).isTop = true) :
    ⟨.source, pre.length + x.start, pre.length + x.stop⟩ ∈ headSources base := by
  obtain ⟨inner, word, rest, rfl, hsource, rfl⟩ := Mark.exists_isSource hx
  have hword : 0 < word.length := List.length_pos_iff.mpr hsource.letters.1
  rw [← List.append_assoc, ← List.length_append, List.drop_left] at hbehind
  have htop : inner = [] → (({} : Context).after pre).isTop = true := by
    rintro rfl
    obtain ⟨w, ws, rfl⟩ := List.exists_cons_of_ne_nil hsource.letters.1
    have hw : isBlank w = false :=
      isBlank_of_isLetter (hsource.letters.2 w List.mem_cons_self)
    have hblanks : base.toList.takeWhile isBlank = pre := by
      rw [h.whole]
      simp [List.takeWhile_append_of_pos h.front, hw]
    rwa [hblanks] at htop
  have hmem := ((hsource.untrimmed h.front htop).append hbehind (post ++ more)).mem_sources
  refine mem_headSources.mpr ⟨?_, ?_⟩
  · rw [h.whole]
    simpa only [List.append_assoc, List.length_append, Nat.add_assoc] using hmem
  · rw [h.head]
    simp only [List.length_append]
    omega

end HeadParts

theorem Clauses.addCut_head {p : Placeholder} {k : Keyword} {body : Fragment} {c c' : Clauses}
    (h : c.addCut p k body = .ok c') : c'.head = c.head := by
  cases k with
  | limit | offset =>
    simp only [addCut] at h
    split at h
    · obtain rfl := Except.ok.inj h
      rfl
    · cases h
  | condition =>
    simp only [addCut] at h
    split at h <;> obtain rfl := Except.ok.inj h <;> rfl
  | source =>
    obtain rfl := Except.ok.inj h
    rfl
  | groupBy | orderBy =>
    obtain rfl := Except.ok.inj h
    split <;> rfl

theorem Clauses.addCuts_head {p : Placeholder} {cuts : List Cut} {params : List Value}
    {c c' : Clauses} (h : addCuts p cuts params c = .ok c') : c'.head = c.head := by
  induction cuts generalizing params c with
  | nil =>
    obtain rfl := Except.ok.inj h
    rfl
  | cons cut rest ih =>
    simp only [addCuts] at h
    split at h
    · exact (ih h).trans (addCut_head ‹_›)
    · cases h

theorem Clauses.parse_head {p : Placeholder} {base : String} {params : List Value} {c : Clauses}
    (h : Clauses.parse p base params = .ok c) : c.head.sql.toList = trimChars (headText base) := by
  rw [parse] at h
  rw [headText]
  generalize splitBase (trimStatement base.toList) = split at h ⊢
  obtain ⟨head, cuts⟩ := split
  rw [addCuts_head h]
  exact String.toList_ofList

end QueryChain
