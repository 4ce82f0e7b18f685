import Mathlib.Algebra.GroupWithZero.Nat
import QueryChain.Proofs.Alignment
import QueryChain.Proofs.Endings

/-!
The placeholders of a base statement and those of its sections. They are counted twice, over the
whole base by a reader that knows no comments, and section by section behind a scanner that does.
The counts agree as long as no quote of a comment is still open for the reader where a clause
begins.
-/

namespace QueryChain

open Placeholder (Place)

/-! ### Sections and their shares -/

def sectionTexts (base : String) : List (List Char) :=
  (splitBase (trimStatement base.toList)).1 ::
    (splitBase (trimStatement base.toList)).2.map Cut.body

/-- The sections of a base statement in text order, each with its share of the parameters. -/
def baseSections (p : Placeholder) (base : String) (params : List Value) : List Fragment :=
  let head := takeSection p (splitBase (trimStatement base.toList)).1 params
  head.1 :: sections p (splitBase (trimStatement base.toList)).2 head.2

def Placeholder.shares (p : Placeholder) (base : String) : List Nat :=
  (sectionTexts base).map (p.countFrom .plain)

theorem takeSection_params (p : Placeholder) (cs : List Char) (params : List Value) :
    (takeSection p cs params).1.params = params.take (p.countFrom .plain cs) :=
  rfl

theorem takeSection_left (p : Placeholder) (cs : List Char) (params : List Value) :
    (takeSection p cs params).2 = params.drop (p.countFrom .plain cs) :=
  rfl

theorem sections_params (p : Placeholder) (cuts : List Cut) (params : List Value) :
    (sections p cuts params).flatMap (·.params) =
      params.take ((cuts.map Cut.body).map (p.countFrom .plain)).sum := by
  induction cuts generalizing params with
  | nil => rfl
  | cons cut rest ih =>
    rw [sections, List.flatMap_cons, ih, List.map_cons, List.map_cons, List.sum_cons,
      List.take_add, takeSection_params, takeSection_left]

/-- The sections share out the first parameters, as many as they have placeholders. -/
theorem baseSections_params (p : Placeholder) (base : String) (params : List Value) :
    (baseSections p base params).flatMap (·.params) = params.take (p.shares base).sum := by
  rw [baseSections, Placeholder.shares, sectionTexts, List.flatMap_cons, sections_params,
    List.map_cons, List.sum_cons, List.take_add, takeSection_params, takeSection_left]

theorem count_takeSection {p : Placeholder} {cs : List Char} {params : List Value}
    (h : p.countFrom .plain cs ≤ params.length) :
    p.count (takeSection p cs params).1.sql = (takeSection p cs params).1.params.length := by
  rw [takeSection, Placeholder.count, String.toList_ofList, (p.countFrom_trimChars cs).1,
    List.length_take, Nat.min_eq_left h]

theorem count_sections {p : Placeholder} {cuts : List Cut} {params : List Value}
    (h : ((cuts.map Cut.body).map (p.countFrom .plain)).sum ≤ params.length) :
    ∀ f ∈ sections p cuts params, p.count f.sql = f.params.length := by
  induction cuts generalizing params with
  | nil => simp [sections]
  | cons cut rest ih =>
    rw [List.map_cons, List.map_cons, List.sum_cons] at h
    intro f hf
    rcases List.mem_cons.mp hf with rfl | hf
    · exact count_takeSection (Nat.le_trans (Nat.le_add_right _ _) h)
    · exact ih (takeSection_rest h) f hf

/-- With parameters enough, every section has one for each of its placeholders. -/
theorem count_baseSections {p : Placeholder} {base : String} {params : List Value}
    (h : (p.shares base).sum ≤ params.length) :
    ∀ f ∈ baseSections p base params, p.count f.sql = f.params.length := by
  rw [Placeholder.shares, sectionTexts, List.map_cons, List.sum_cons] at h
  rw [baseSections]
  intro f hf
  rcases List.mem_cons.mp hf with rfl | hf
  · exact count_takeSection (Nat.le_trans (Nat.le_add_right _ _) h)
  · exact count_sections (takeSection_rest h) f hf

/-! ### Where the reader stands -/

/-- A reader of placeholders that stands at a place in front of some cuts is outside quotes wherever
one of them begins. -/
inductive OutsideAt : Place → List Cut → Prop
  | nil (place : Place) : OutsideAt place []
  | cons {place : Place} {cut : Cut} {cuts : List Cut} (quote : place.quote? = none)
      (rest : OutsideAt (place.after (cut.word ++ cut.body)) cuts) : OutsideAt place (cut :: cuts)

/-- No quote is open for the reader of placeholders where a clause of a base begins. -/
def InStep (base : String) : Prop :=
  OutsideAt (Place.plain.after (splitBase (trimStatement base.toList)).1)
    (splitBase (trimStatement base.toList)).2

/-- Read from outside quotes on, a cut has the placeholders of its body. -/
theorem Cuts.countFrom {p : Placeholder} {x : Context} {place : Place} {cs : List Char}
    {cuts : List Cut} (h : Cuts x cs cuts) (hplace : OutsideAt place cuts) :
    p.countFrom place cs = ((cuts.map Cut.body).map (p.countFrom .plain)).sum := by
  induction h generalizing place with
  | nil => rfl
  | @cons x k word body tail cuts top spelled ends rest ih =>
    obtain _ | ⟨hquote, hrest⟩ := hplace
    obtain ⟨hword, hplain⟩ := spelled.countFrom p hquote
    rw [Placeholder.countFrom_append, Placeholder.countFrom_append, hword, hplain, Nat.zero_add,
      ih hrest, List.map_cons, List.map_cons, List.sum_cons]

/-- In step, a base has the placeholders of its sections. -/
theorem InStep.count {base : String} (h : InStep base) (p : Placeholder) :
    p.count base = (p.shares base).sum := by
  obtain ⟨post, hbase, hpost⟩ := exists_trimStatement base.toList
  obtain ⟨rest, hsplit, hcuts⟩ := splitBase_cuts (trimStatement base.toList)
  rw [InStep] at h
  rw [Placeholder.count, hbase, Placeholder.countFrom_append,
    Placeholder.countFrom_filler p _ hpost, Nat.add_zero, Placeholder.shares, sectionTexts]
  generalize splitBase (trimStatement base.toList) = split at h hsplit hcuts ⊢
  rw [hsplit, Placeholder.countFrom_append, hcuts.countFrom h, List.map_cons, List.sum_cons]

/-! ### Comments -/

/-- Whether the reader of placeholders is outside quotes wherever a line comment of a text ends. -/
def CommentsClosed : Context → Place → List Char → Prop
  | _, _, [] => True
  | x, place, c :: rest =>
    (x.comment = true → c = '\n' → place.quote? = none) ∧
      CommentsClosed (x.next c) (place.next c) rest

instance decidableCommentsClosed : ∀ (x : Context) (place : Place) (cs : List Char),
    Decidable (CommentsClosed x place cs)
  | _, _, [] => inferInstanceAs (Decidable True)
  | x, place, c :: rest =>
    have := decidableCommentsClosed (x.next c) (place.next c) rest
    inferInstanceAs (Decidable (_ ∧ _))

/-- Whether the reader of placeholders and the scanner of keywords see the same quote outside
comments, and no quote is open for the scanner within one. -/
structure SameQuotes (x : Context) (place : Place) : Prop where
  comment : x.comment = true → x.quote = none
  quote : x.comment = false → place.quote? = x.quote

theorem SameQuotes.next {x : Context} {place : Place} (h : SameQuotes x place) {c : Char}
    (hclosed : x.comment = true → c = '\n' → place.quote? = none) :
    SameQuotes (x.next c) (place.next c) := by
  cases hcomment : x.comment with
  | false =>
    refine ⟨fun hnext => ?_, fun _ => Context.quote?_next hcomment (h.quote hcomment) c⟩
    -- What opens a comment is a dash, and no dash stands within quotes.
    cases hquote : x.quote with
    | some q =>
      rw [Context.next_quoted hquote, hcomment] at hnext
      cases hnext
    | none =>
      rw [Context.quote_next hquote hcomment, if_neg]
      rintro (rfl | rfl) <;> simp [Context.next, hquote, hcomment] at hnext
  | true =>
    have hquote := h.comment hcomment
    refine ⟨fun _ => (Context.quote_next_comment hquote hcomment c).1, fun hnext => ?_⟩
    have hc : c = '\n' := by simpa [Context.next, hquote, hcomment] using hnext
    have hopen := hclosed hcomment hc
    subst hc
    rw [(Context.quote_next_comment hquote hcomment '\n').1,
      Placeholder.Place.next_still hopen (by decide)]
    rfl

theorem CommentsClosed.sameQuotes {x : Context} {place : Place} {cs : List Char}
    (h : CommentsClosed x place cs) (hx : SameQuotes x place) :
    ∀ front, front <+: cs → SameQuotes (x.after front) (place.after front) := by
  induction cs generalizing x place with
  | nil =>
    intro front hfront
    obtain rfl := List.prefix_nil.mp hfront
    exact hx
  | cons c cs ih =>
    intro front hfront
    cases front with
    | nil => exact hx
    | cons d front =>
      obtain ⟨rfl, hrest⟩ := List.cons_prefix_cons.mp hfront
      exact ih h.2 (hx.next h.1) front hrest

theorem Cuts.outsideAt {x : Context} {place : Place} {cs : List Char} {cuts : List Cut}
    (h : Cuts x cs cuts)
    (hsame : ∀ front, front <+: cs → SameQuotes (x.after front) (place.after front)) :
    OutsideAt place cuts := by
  induction h generalizing place with
  | nil => exact .nil place
  | @cons x k word body tail cuts top spelled ends rest ih =>
    obtain ⟨hquote, hcomment, -⟩ := Context.isTop_iff.mp top
    refine .cons (((hsame [] List.nil_prefix).quote hcomment).trans hquote)
      (ih fun front hfront => ?_)
    rw [← Context.after_append, ← Place.after_append]
    exact hsame _ ((List.prefix_append_right_inj _).mpr hfront)

/-- A base whose comments close the quotes that they open is read in step. -/
theorem inStep_of_commentsClosed {base : String}
    (h : CommentsClosed {} .plain (trimStatement base.toList)) : InStep base := by
  have hsame := h.sameQuotes ⟨fun _ => rfl, fun _ => rfl⟩
  rw [InStep]
  generalize trimStatement base.toList = cs at hsame ⊢
  obtain ⟨rest, hsplit, hcuts⟩ := splitBase_cuts cs
  apply hcuts.outsideAt
  rintro front ⟨back, hback⟩
  rw [← Context.after_append, ← Place.after_append]
  apply hsame
  rw [List.prefix_iff_exists_append_eq]
  exact ⟨back, by rw [List.append_assoc, hback, ← hsplit]⟩

/-! ### Bases with parameters -/

theorem Clauses.addCuts_error {p : Placeholder} {cuts : List Cut} {params : List Value}
    {c : Clauses} {e : Failure} (h : addCuts p cuts params c = .error e) :
    ∃ clause body, e = .malformedQuery (.bound clause body) := by
  induction cuts generalizing params c with
  | nil => cases h
  | cons cut rest ih =>
    simp only [addCuts] at h
    split at h
    · exact ih h
    · rename_i e' he
      obtain rfl := Except.error.inj h
      cases hk : cut.keyword <;> simp only [addCut, hk] at he
      case limit | offset =>
        split at he
        · cases he
        · obtain rfl := Except.error.inj he
          exact ⟨_, _, rfl⟩
      case condition => split at he <;> cases he
      all_goals cases he

/-- A base statement is taken apart, or one of the clauses that bound its rows is refused. -/
theorem Clauses.parse_error {p : Placeholder} {base : String} {params : List Value} {e : Failure}
    (h : parse p base params = .error e) :
    ∃ clause body, e = .malformedQuery (.bound clause body) := by
  rw [parse] at h
  generalize splitBase (trimStatement base.toList) = split at h
  obtain ⟨head, cuts⟩ := split
  exact addCuts_error h

/-- Parentheses hold no placeholder. -/
theorem Placeholder.count_enclosed (p : Placeholder) (f : Fragment) :
    p.count (Fragment.ofText "(" ++ f ++ Fragment.ofText ")").sql = p.count f.sql := by
  have hstill : ∀ c ∈ "(".toList, isStill c = true := by decide
  obtain ⟨hopen, hopened⟩ := p.still_plain hstill
  have hclose (place : Place) : p.countFrom place ")".toList = 0 := by
    cases place <;> cases p <;> rfl
  rw [Fragment.sql_append, Fragment.sql_append, Fragment.sql_ofText, Fragment.sql_ofText, count,
    String.toList_append, String.toList_append, countFrom_append, countFrom_append, hopen, hopened,
    hclose, Nat.zero_add, Nat.add_zero]
  rfl

namespace Query

/-- A base that is read in step has the placeholders of its sections. It is refused for the number
of its parameters exactly when the sections do not take that number, and every section of a query
that is made has a parameter for each of its placeholders. -/
theorem ofBaseWith_of_inStep {base : String} (h : InStep base) (d : Dialect)
    (params : List Value) :
    (∀ p : Placeholder, p.count base = (p.shares base).sum) ∧
      (params.length ≠ (d.placeholder.shares base).sum →
        ofBaseWith d base params = .error (.malformedQuery
          (.parameterCount (d.placeholder.shares base).sum params.length))) ∧
      (params.length = (d.placeholder.shares base).sum → ∀ e,
        ofBaseWith d base params = .error e →
          ∃ clause body, e = .malformedQuery (.bound clause body)) ∧
      ∀ q, ofBaseWith d base params = .ok q →
        (baseSections d.placeholder base params).flatMap (·.params) = params ∧
        (∀ f ∈ baseSections d.placeholder base params,
          d.placeholder.count f.sql = f.params.length) ∧
        q.clauses.EverySection (fun f => d.placeholder.count f.sql = f.params.length) d := by
  have hcount := h.count
  refine ⟨hcount, fun hne => ?_, fun heq e he => ?_, fun q hq => ?_⟩
  · rw [ofBaseWith, hcount, if_pos (Ne.symm hne)]
  · rw [ofBaseWith, hcount, if_neg (not_not.mpr heq.symm)] at he
    rw [← failure?_eq_some, failure?_map, failure?_eq_some] at he
    exact Clauses.parse_error he
  · rw [ofBaseWith, hcount] at hq
    split at hq
    · cases hq
    · rename_i heq
      have hlength : (d.placeholder.shares base).sum = params.length := not_not.mp heq
      obtain ⟨c, hc, rfl⟩ := Except.map_eq_ok.mp hq
      have hsections := count_baseSections (Nat.le_of_eq hlength)
      refine ⟨?_, hsections, ?_⟩
      · rw [baseSections_params, hlength, List.take_length]
      · rw [baseSections, List.forall_mem_cons] at hsections
        apply Clauses.EverySection.parse _ _ hc
        · exact hsections.1
        · intro f hf
          have hf := hsections.2 f hf
          refine ⟨hf, ?_⟩
          rw [Placeholder.count_enclosed, hf]
          simp

/-- A comment with a quoted word keeps the reader in step. -/
theorem ofBaseWith_behind_quoted_comment :
    InStep "SELECT a, -- the 'best'\n b FROM t WHERE c = ? LIMIT ?" ∧
      ofBaseWith .sqlite "SELECT a, -- the 'best'\n b FROM t WHERE c = ? LIMIT ?" [.int 1] =
        .error (.malformedQuery (.parameterCount 2 1)) ∧
      ∃ q, ofBaseWith .sqlite "SELECT a, -- the 'best'\n b FROM t WHERE c = ? LIMIT ?"
          [.int 1, .int 5] = .ok q ∧
        q.clauses.EverySection (fun f => Placeholder.question.count f.sql = f.params.length)
          .sqlite := by
  have hstep : InStep "SELECT a, -- the 'best'\n b FROM t WHERE c = ? LIMIT ?" := by
    apply inStep_of_commentsClosed
    decide +kernel
  have hsum : (Dialect.sqlite.placeholder.shares
      "SELECT a, -- the 'best'\n b FROM t WHERE c = ? LIMIT ?").sum = 2 := by
    decide +kernel
  obtain ⟨-, hrefused, -, -⟩ := ofBaseWith_of_inStep hstep .sqlite [.int 1]
  obtain ⟨-, -, hbound, hmade⟩ := ofBaseWith_of_inStep hstep .sqlite [.int 1, .int 5]
  have hok : (ofBaseWith .sqlite "SELECT a, -- the 'best'\n b FROM t WHERE c = ? LIMIT ?"
      [.int 1, .int 5]).isOk = true := by
    decide +kernel
  obtain ⟨q, hq⟩ := Except.exists_of_isOk hok
  refine ⟨hstep, ?_, q, hq, (hmade q hq).2.2⟩
  rw [← hsum]
  exact hrefused (by rw [hsum]; decide)

/-- An apostrophe in a comment opens a quote for the reader of placeholders alone, which hides every
placeholder behind it: the base is refused with the parameter that its condition takes, and made
without it. -/
theorem quote_in_comment_hides_placeholder :
    (({} : Context).after "SELECT a, -- it's\n b FROM t WHERE a = ?".toList).quote = none ∧
      Placeholder.question.count "SELECT a, -- it's\n b FROM t WHERE a = ?" = 0 ∧
      Placeholder.question.shares "SELECT a, -- it's\n b FROM t WHERE a = ?" = [0, 1] ∧
      ofBaseWith .sqlite "SELECT a, -- it's\n b FROM t WHERE a = ?" [.int 1] =
        .error (.malformedQuery (.parameterCount 0 1)) ∧
      ∃ q, ofBaseWith .sqlite "SELECT a, -- it's\n b FROM t WHERE a = ?" [] = .ok q ∧
        ∃ c ∈ q.clauses.conditions, Placeholder.question.count (c.write .sqlite).sql = 1 ∧
          (c.write .sqlite).params = [] := by
  have hcount :
      Dialect.sqlite.placeholder.count "SELECT a, -- it's\n b FROM t WHERE a = ?" = 0 := by
    decide +kernel
  have hmade : (ofBaseWith .sqlite "SELECT a, -- it's\n b FROM t WHERE a = ?" []).map (fun q =>
      decide (∃ c ∈ q.clauses.conditions, Placeholder.question.count (c.write .sqlite).sql = 1 ∧
        (c.write .sqlite).params.length = 0)) = .ok true :=
    Except.eq_ok_of_toOption (by decide +kernel)
  obtain ⟨q, hq, hunbound⟩ := Except.map_eq_ok.mp hmade
  refine ⟨by decide +kernel, hcount, by decide +kernel, ?_, q, hq, ?_⟩
  · rw [ofBaseWith, hcount]
    rfl
  · simpa only [List.length_eq_zero_iff] using of_decide_eq_true hunbound

end Query

end QueryChain
