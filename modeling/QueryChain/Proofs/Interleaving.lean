import QueryChain.Proofs.Chain
import QueryChain.Records.Selection

/-!
Chains of calls in another order. A call concerns one aspect of the query or selection that it is
made on, and calls on different aspects may change places; so the calls on each aspect, in their
order, decide what a chain leads to, however they are mixed with the calls on other aspects.
-/

namespace QueryChain

/-- What a chained call concerns. -/
inductive Aspect
  | predicates
  | order
  | grouping
  | registry
  | bounds
  deriving DecidableEq

/-! ### Steps that change places -/

section Steps

variable {σ ω ε : Type} {step : σ → ω → Except ε σ} {aspect : ω → Aspect}

/-- Whether two lists hold the same calls on each aspect in the same order. -/
def Interleaved (aspect : ω → Aspect) (as bs : List ω) : Prop :=
  ∀ x, as.filter (aspect · = x) = bs.filter (aspect · = x)

/-- Whether two successful steps on different aspects lead to the same state in either order. -/
def ChangePlaces (step : σ → ω → Except ε σ) (aspect : ω → Aspect) : Prop :=
  ∀ ⦃s t a b⦄, aspect a ≠ aspect b → [a, b].foldlM step s = .ok t → [b, a].foldlM step s = .ok t

theorem foldlM_cons_ok {s t : σ} {a : ω} {rest : List ω} :
    (a :: rest).foldlM step s = .ok t ↔ ∃ u, step s a = .ok u ∧ rest.foldlM step u = .ok t := by
  rw [List.foldlM_cons]
  exact Except.bind_eq_ok

theorem foldlM_pair_ok {s t : σ} {a b : ω} :
    [a, b].foldlM step s = .ok t ↔ ∃ u, step s a = .ok u ∧ step u b = .ok t := by
  rw [foldlM_cons_ok]
  refine exists_congr fun u => and_congr_right fun _ => ?_
  rw [foldlM_cons_ok]
  constructor
  · rintro ⟨v, hv, hend⟩
    exact hv.trans hend
  · exact fun hstep => ⟨t, hstep, rfl⟩

/-- A first step may be made later, behind steps on other aspects. -/
theorem ChangePlaces.foldlM_of_first (h : ChangePlaces step aspect) {a : ω}
    {before after : List ω} (hbefore : ∀ b ∈ before, aspect b ≠ aspect a) {s t : σ}
    (hrun : (a :: (before ++ after)).foldlM step s = .ok t) :
    (before ++ a :: after).foldlM step s = .ok t := by
  induction before generalizing s with
  | nil => exact hrun
  | cons b before ih =>
    obtain ⟨hb, hbefore⟩ := List.forall_mem_cons.mp hbefore
    obtain ⟨u, hu, hrun⟩ := foldlM_cons_ok.mp hrun
    obtain ⟨v, hv, hrun⟩ := foldlM_cons_ok.mp hrun
    obtain ⟨w, hw, hwv⟩ := foldlM_pair_ok.mp (h hb.symm (foldlM_pair_ok.mpr ⟨u, hu, hv⟩))
    exact foldlM_cons_ok.mpr ⟨w, hw, ih hbefore (foldlM_cons_ok.mpr ⟨v, hwv, hrun⟩)⟩

/-- Taking the same first call off two interleaved lists leaves interleaved lists. -/
theorem Interleaved.tail {a : ω} {as before after : List ω}
    (h : Interleaved aspect (a :: as) (before ++ a :: after))
    (hbefore : ∀ b ∈ before, aspect b ≠ aspect a) : Interleaved aspect as (before ++ after) := by
  intro x
  have hx := h x
  by_cases ha : aspect a = x
  · have hnone : before.filter (aspect · = x) = [] := by
      rw [List.filter_eq_nil_iff]
      intro b hb
      simpa [ha] using hbefore b hb
    simpa [List.filter_cons, ha, hnone] using hx
  · simpa [List.filter_cons, ha] using hx

/-- The calls on each aspect in their order decide what a run leads to. -/
theorem ChangePlaces.foldlM_of_interleaved (h : ChangePlaces step aspect) {as bs : List ω}
    (hsame : Interleaved aspect as bs) {s t : σ} (hrun : as.foldlM step s = .ok t) :
    bs.foldlM step s = .ok t := by
  induction as generalizing bs s with
  | nil =>
    cases bs with
    | nil => exact hrun
    | cons b bs => simpa using hsame (aspect b)
  | cons a as ih =>
    -- The first call on that aspect in the other list is the same one; it may be made first.
    have hfirst := hsame (aspect a)
    rw [List.filter_cons_of_pos (by simp)] at hfirst
    obtain ⟨before, after, rfl, hbefore, -, -⟩ := List.filter_eq_cons_iff.mp hfirst.symm
    have hbefore : ∀ b ∈ before, aspect b ≠ aspect a := by simpa using hbefore
    obtain ⟨u, hu, hrun⟩ := foldlM_cons_ok.mp hrun
    exact h.foldlM_of_first hbefore
      (foldlM_cons_ok.mpr ⟨u, hu, ih (hsame.tail hbefore) hrun⟩)

/-- Steps that are the same change of their aspect wherever they are made change places if such
changes of different aspects do. -/
theorem ChangePlaces.of_changes {Changes : Aspect → (σ → σ) → Prop}
    (hstep : ∀ {s s' : σ} {a : ω}, step s a = .ok s' →
      ∃ f, Changes (aspect a) f ∧ ∀ s, step s a = .ok (f s))
    (hcomm : ∀ {x y : Aspect} {f g : σ → σ}, Changes x f → Changes y g → x ≠ y →
      ∀ s, f (g s) = g (f s)) : ChangePlaces step aspect := by
  intro s t a b hne hrun
  obtain ⟨u, hu, hv⟩ := foldlM_pair_ok.mp hrun
  obtain ⟨f, hf, ha⟩ := hstep hu
  obtain ⟨g, hg, hb⟩ := hstep hv
  obtain rfl := Except.ok.inj ((ha s).symm.trans hu)
  obtain rfl := Except.ok.inj ((hb (f s)).symm.trans hv)
  exact foldlM_pair_ok.mpr ⟨g s, hb s, (ha (g s)).trans (congrArg Except.ok (hcomm hf hg hne s))⟩

end Steps

/-! ### Queries -/

def Operation.aspect : Operation → Aspect
  | .filter _ | .exclude _ | .search .. => .predicates
  | .order _ => .order
  | .groupBy _ => .grouping
  | .limit _ | .offset _ | .slice .. | .paginate .. => .bounds

inductive Query.Changes : Aspect → (Query → Query) → Prop
  | conditions (cs : List Condition) : Changes .predicates (mapClauses (·.addConditions cs))
  | order (terms : List String) : Changes .order (mapClauses (·.addOrder terms))
  | group (columns : List Identifier) : Changes .grouping (mapClauses (·.setGroup columns))
  | bounds (f : Bounds → Bounds) : Changes .bounds (mapBounds f)
  | same (x : Aspect) : Changes x id

theorem Query.Changes.comm {x y : Aspect} {f g : Query → Query} (hf : Changes x f)
    (hg : Changes y g) (hne : x ≠ y) (q : Query) : f (g q) = g (f q) := by
  cases hf with
  | conditions cs =>
    cases hg with
    | conditions _ => exact absurd rfl hne
    | order _ | group _ | bounds _ | same _ => rfl
  | order terms =>
    cases hg with
    | order _ => exact absurd rfl hne
    | conditions _ | group _ | bounds _ | same _ => rfl
  | group columns =>
    cases hg with
    | group _ => exact absurd rfl hne
    | conditions _ | order _ | bounds _ | same _ => rfl
  | bounds f =>
    cases hg with
    | bounds _ => exact absurd rfl hne
    | conditions _ | order _ | group _ | same _ => rfl
  | same => rfl

/-- An operation that one query does not refuse makes the same change to every query. -/
theorem Operation.run_changes {op : Operation} {q q' : Query} (h : op.run q = .ok q') :
    ∃ f, Query.Changes op.aspect f ∧ ∀ q, op.run q = .ok (f q) := by
  cases op with
  | filter pairs =>
    obtain ⟨cs, hcs, -⟩ := Except.map_eq_ok.mp h
    exact ⟨_, .conditions cs, fun q => Except.map_eq_ok.mpr ⟨cs, hcs, rfl⟩⟩
  | exclude pairs =>
    obtain ⟨cs, hcs, -⟩ := Except.map_eq_ok.mp h
    exact ⟨_, .conditions (cs.map .not), fun q => Except.map_eq_ok.mpr ⟨cs, hcs, rfl⟩⟩
  | search field needle =>
    by_cases hempty : (field.isEmpty || needle.isEmpty) = true
    · exact ⟨_, .same _, fun q => if_pos hempty⟩
    · obtain ⟨c, hc, -⟩ := Except.map_eq_ok.mp ((if_neg hempty).symm.trans h)
      exact ⟨_, .conditions [c],
        fun q => (if_neg hempty).trans (Except.map_eq_ok.mpr ⟨c, hc, rfl⟩)⟩
  | order specs =>
    obtain ⟨terms, hterms, -⟩ := Except.map_eq_ok.mp h
    exact ⟨_, .order terms, fun q => Except.map_eq_ok.mpr ⟨terms, hterms, rfl⟩⟩
  | groupBy fields =>
    obtain ⟨columns, hcolumns, -⟩ := Except.map_eq_ok.mp h
    by_cases hempty : columns.isEmpty = true
    · exact ⟨_, .same _, fun q => Except.map_eq_ok.mpr ⟨columns, hcolumns, if_pos hempty⟩⟩
    · exact ⟨_, .group columns,
        fun q => Except.map_eq_ok.mpr ⟨columns, hcolumns, if_neg hempty⟩⟩
  | limit n | offset n | slice start stop | paginate page size => exact ⟨_, .bounds _, fun _ => rfl⟩

theorem Operation.changePlaces : ChangePlaces run aspect :=
  .of_changes run_changes Query.Changes.comm

theorem Query.chain_eq_foldlM (q : Query) (ops : List Operation) :
    q.chain ops = ops.foldlM Operation.run q := by
  induction ops generalizing q with
  | nil => rfl
  | cons op rest ih =>
    rw [chain, List.foldlM_cons]
    exact congrArg _ (funext ih)

/-! ### Selections -/

namespace Selection

inductive Operation
  | filter (pairs : List (String × Value))
  | exclude (pairs : List (String × Value))
  | search (field needle : String)
  | order (specs : List String)
  | withFields (r : Registry)
  | limit (n : UInt64)
  | offset (n : UInt64)
  | slice (start stop : UInt64)
  | paginate (page size : UInt64)

variable {α : Type}

def Operation.run (s : Selection α) : Operation → Except Failure (Selection α)
  | .filter pairs => s.filter pairs
  | .exclude pairs => s.exclude pairs
  | .search field needle => s.search field needle
  | .order specs => .ok (s.order specs)
  | .withFields r => .ok (s.withFields r)
  | .limit n => .ok (s.limit n)
  | .offset n => .ok (s.offset n)
  | .slice start stop => .ok (s.slice start stop)
  | .paginate page size => .ok (s.paginate page size)

def chain (s : Selection α) (ops : List Operation) : Except Failure (Selection α) :=
  ops.foldlM Operation.run s

def Operation.aspect : Operation → Aspect
  | .filter _ | .exclude _ | .search .. => .predicates
  | .order _ => .order
  | .withFields _ => .registry
  | .limit _ | .offset _ | .slice .. | .paginate .. => .bounds

inductive Changes : Aspect → (Selection α → Selection α) → Prop
  | predicates (ps : List Predicate) :
    Changes .predicates fun s => { s with predicates := s.predicates ++ ps }
  | order (specs : List String) : Changes .order (·.order specs)
  | registry (r : Registry) : Changes .registry (·.withFields r)
  | bounds (f : Window → Window) : Changes .bounds fun s => { s with window := f s.window }
  | same (x : Aspect) : Changes x id

theorem Changes.comm {x y : Aspect} {f g : Selection α → Selection α} (hf : Changes x f)
    (hg : Changes y g) (hne : x ≠ y) (s : Selection α) : f (g s) = g (f s) := by
  cases hf with
  | predicates ps =>
    cases hg with
    | predicates _ => exact absurd rfl hne
    | order _ | registry _ | bounds _ | same _ => rfl
  | order specs =>
    cases hg with
    | order _ => exact absurd rfl hne
    | predicates _ | registry _ | bounds _ | same _ => rfl
  | registry r =>
    cases hg with
    | registry _ => exact absurd rfl hne
    | predicates _ | order _ | bounds _ | same _ => rfl
  | bounds f =>
    cases hg with
    | bounds _ => exact absurd rfl hne
    | predicates _ | order _ | registry _ | same _ => rfl
  | same => rfl

theorem addPredicates_changes {negated : Bool} {pairs : List (String × Value)}
    {s s' : Selection α} (h : s.addPredicates negated pairs = .ok s') :
    ∃ f, Changes .predicates f ∧ ∀ s : Selection α, s.addPredicates negated pairs = .ok (f s) := by
  obtain ⟨ps, hps, -⟩ := Except.map_eq_ok.mp h
  exact ⟨_, .predicates ps, fun s => Except.map_eq_ok.mpr ⟨ps, hps, rfl⟩⟩

/-- A call that one selection does not refuse makes the same change to every selection. -/
theorem Operation.run_changes {op : Operation} {s s' : Selection α} (h : op.run s = .ok s') :
    ∃ f, Changes op.aspect f ∧ ∀ s : Selection α, op.run s = .ok (f s) := by
  cases op with
  | filter pairs | exclude pairs => exact addPredicates_changes h
  | search field needle =>
    by_cases hempty : (field.isEmpty || needle.isEmpty) = true
    · exact ⟨_, .same _, fun s => if_pos hempty⟩
    · obtain ⟨f, hf, hrun⟩ := addPredicates_changes ((if_neg hempty).symm.trans h)
      exact ⟨f, hf, fun s => (if_neg hempty).trans (hrun s)⟩
  | order specs => exact ⟨_, .order specs, fun _ => rfl⟩
  | withFields r => exact ⟨_, .registry r, fun _ => rfl⟩
  | limit n => exact ⟨_, .bounds fun w => { w with limit := some n }, fun _ => rfl⟩
  | offset n => exact ⟨_, .bounds fun w => { w with offset := n }, fun _ => rfl⟩
  | slice start stop => exact ⟨_, .bounds (·.slice start stop), fun _ => rfl⟩
  | paginate page size => exact ⟨_, .bounds fun _ => .paginate page size, fun _ => rfl⟩

theorem Operation.changePlaces : ChangePlaces (run (α := α)) aspect :=
  .of_changes run_changes Changes.comm

end Selection

/-! ### Chains -/

/-- A chain that holds the calls of a successful one, those on each aspect in the same order, is
successful too. Its query has the same statements, and its selection answers alike. -/
theorem chain_reordered {α : Type} [Record α] :
    (∀ (q q' : Query) (ops ops' : List Operation), Interleaved Operation.aspect ops ops' →
      q.chain ops = .ok q' →
      ∃ r, q.chain ops' = .ok r ∧ r.select = q'.select ∧
        r.countStatement = q'.countStatement ∧ r.deleteStatement = q'.deleteStatement ∧
        ∀ pairs, r.updateStatement pairs = q'.updateStatement pairs) ∧
    ∀ (s s' : Selection α) (ops ops' : List Selection.Operation),
      Interleaved Selection.Operation.aspect ops ops' → s.chain ops = .ok s' →
      ∃ r, s.chain ops' = .ok r ∧ r.list = s'.list ∧ r.count = s'.count ∧
        r.hasAny = s'.hasAny ∧ r.first? = s'.first? ∧ ∀ pairs, r.get pairs = s'.get pairs := by
  constructor
  · intro q q' ops ops' hsame hrun
    rw [Query.chain_eq_foldlM] at hrun
    have hrun' := Operation.changePlaces.foldlM_of_interleaved hsame hrun
    rw [← Query.chain_eq_foldlM] at hrun'
    exact ⟨q', hrun', rfl, rfl, rfl, fun _ => rfl⟩
  · intro s s' ops ops' hsame hrun
    have hrun' := Selection.Operation.changePlaces.foldlM_of_interleaved hsame hrun
    exact ⟨s', hrun', rfl, rfl, rfl, rfl, fun _ => rfl⟩

/-- Predicates and sort keys behind the bounds, and a kind of fields behind the predicate on it. -/
theorem chain_reordered_of_late_filter :
    (∃ r, Query.chain ⟨.tsql, ⟨.ofText "SELECT * FROM t", [], none, [], {}⟩⟩
        [.limit 5, .groupBy ["b"], .slice 1 3, .order ["-a"], .filter [("a__gte", .int 1)],
          .exclude [("b", .null)]] = .ok r ∧
      r.select.sql = "SELECT * FROM t WHERE \"a\" >= ? AND NOT (\"b\" IS NULL) GROUP BY \"b\"" ++
        " ORDER BY \"a\" DESC OFFSET ? ROWS FETCH NEXT ? ROWS ONLY") ∧
    ∃ r, Selection.chain (α := Row)
        ⟨[⟨[("a", .text "7")]⟩, ⟨[("a", .text "12")]⟩, ⟨[("a", .text "9")]⟩], {}, [], [], {}⟩
        [.limit 5, .slice 1 3, .filter [("a__gt", .int 8)], .order ["-a"],
          .withFields (.ofList [("a", .integer)])] = .ok r ∧ r.list = [⟨[("a", .text "9")]⟩] := by
  have hqueries : Interleaved Operation.aspect
      [.filter [("a__gte", .int 1)], .exclude [("b", .null)], .groupBy ["b"], .order ["-a"],
        .limit 5, .slice 1 3]
      [.limit 5, .groupBy ["b"], .slice 1 3, .order ["-a"], .filter [("a__gte", .int 1)],
        .exclude [("b", .null)]] := by
    intro x
    cases x <;> rfl
  have hselections : Interleaved Selection.Operation.aspect
      [.withFields (.ofList [("a", .integer)]), .filter [("a__gt", .int 8)], .order ["-a"],
        .limit 5, .slice 1 3]
      [.limit 5, .slice 1 3, .filter [("a__gt", .int 8)], .order ["-a"],
        .withFields (.ofList [("a", .integer)])] := by
    intro x
    cases x <;> rfl
  obtain ⟨r, hr, hselect, -⟩ := (chain_reordered (α := Row)).1
    ⟨.tsql, ⟨.ofText "SELECT * FROM t", [], none, [], {}⟩⟩ _ _ _ hqueries rfl
  obtain ⟨t, ht, hlist, -⟩ := (chain_reordered (α := Row)).2
    ⟨[⟨[("a", .text "7")]⟩, ⟨[("a", .text "12")]⟩, ⟨[("a", .text "9")]⟩], {}, [], [], {}⟩ _ _ _
    hselections rfl
  refine ⟨⟨r, hr, ?_⟩, ⟨t, ht, ?_⟩⟩
  · rw [hselect]
    rfl
  · rw [hlist, Selection.list, Selection.sorted, List.mergeSort_of_pairwise]
    · rfl
    · decide +kernel

end QueryChain
