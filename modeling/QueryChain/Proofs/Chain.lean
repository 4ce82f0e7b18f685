import QueryChain.Proofs.Wording

/-!
Chains of operations on a query. What one successful operation does to the clauses of its query is
said once, by `Clauses.Step`; whatever every step keeps is kept by every chain.
-/

namespace QueryChain

open Fragment (Worded WordedIn)

inductive Operation
  | filter (pairs : List (String × Value))
  | exclude (pairs : List (String × Value))
  | search (field needle : String)
  | order (specs : List String)
  | groupBy (fields : List String)
  | limit (n : Int64)
  | offset (n : Int64)
  | slice (start stop : Int64)
  | paginate (page size : Int64)

def Operation.run (q : Query) : Operation → Except Failure Query
  | .filter pairs => q.filter pairs
  | .exclude pairs => q.exclude pairs
  | .search field needle => q.search field needle
  | .order specs => q.order specs
  | .groupBy fields => q.groupBy fields
  | .limit n => .ok (q.limit n)
  | .offset n => .ok (q.offset n)
  | .slice start stop => .ok (q.slice start stop)
  | .paginate page size => .ok (q.paginate page size)

def Query.chain (q : Query) : List Operation → Except Failure Query
  | [] => .ok q
  | op :: rest => (op.run q).bind fun next => next.chain rest

theorem Query.chain_cons_ok {q q' : Query} {op : Operation} {rest : List Operation} :
    q.chain (op :: rest) = .ok q' ↔ ∃ next, op.run q = .ok next ∧ next.chain rest = .ok q' :=
  Except.bind_eq_ok

/-- Each operation of a successful chain is run with success somewhere. -/
theorem Query.run_of_mem_chain {q q' : Query} {ops : List Operation} (h : q.chain ops = .ok q')
    {op : Operation} (hop : op ∈ ops) : ∃ x y, op.run x = .ok y := by
  induction ops generalizing q with
  | nil => cases hop
  | cons first rest ih =>
    obtain ⟨next, hnext, h⟩ := chain_cons_ok.mp h
    rcases List.mem_cons.mp hop with rfl | hop
    · exact ⟨q, next, hnext⟩
    · exact ih h hop

/-! ### One operation -/

/-- What a successful operation may do to the clauses of its query. -/
inductive Clauses.Step (c : Clauses) : Clauses → Prop
  | conditions {cs : List Condition} (derived : ∀ x ∈ cs, x.IsDerived) : Step c (c.addConditions cs)
  | order {terms : List String} (keys : ∀ s ∈ terms, ∃ k : SortKey, k.term = .ok s) :
      Step c (c.addOrder terms)
  | group {columns : List Identifier} (nonempty : columns ≠ []) : Step c (c.setGroup columns)
  | bounds (b : Bounds) : Step c { c with bounds := b }
  | same : Step c c

theorem Condition.ofPairs_isDerived {pairs : List (String × Value)} {cs : List Condition}
    (h : ofPairs pairs = .ok cs) : ∀ c ∈ cs, c.IsDerived := by
  intro c hc
  obtain ⟨⟨key, operand⟩, -, hkey⟩ := exists_of_mem_mapM_ok h hc
  exact ofLookup_isDerived hkey

theorem Operation.run_step {op : Operation} {q q' : Query} (h : op.run q = .ok q') :
    q'.dialect = q.dialect ∧ q.clauses.Step q'.clauses := by
  cases op with
  | filter pairs =>
    obtain ⟨cs, hcs, rfl⟩ := Except.map_eq_ok.mp h
    exact ⟨rfl, .conditions (Condition.ofPairs_isDerived hcs)⟩
  | exclude pairs =>
    obtain ⟨cs, hcs, rfl⟩ := Except.map_eq_ok.mp h
    refine ⟨rfl, .conditions ?_⟩
    intro x hx
    obtain ⟨c, hc, rfl⟩ := List.mem_map.mp hx
    exact Condition.ofPairs_isDerived hcs c hc
  | search field needle =>
    simp only [run, Query.search] at h
    split at h
    · obtain rfl := Except.ok.inj h
      exact ⟨rfl, .same⟩
    · obtain ⟨c, hc, rfl⟩ := Except.map_eq_ok.mp h
      refine ⟨rfl, .conditions ?_⟩
      intro x hx
      obtain rfl := List.mem_singleton.mp hx
      exact Condition.ofLookup_isDerived hc
  | order specs =>
    obtain ⟨terms, hterms, rfl⟩ := Except.map_eq_ok.mp h
    refine ⟨rfl, .order ?_⟩
    intro s hs
    obtain ⟨spec, -, hspec⟩ := exists_of_mem_mapM_ok hterms hs
    exact ⟨_, hspec⟩
  | groupBy fields =>
    obtain ⟨columns, -, rfl⟩ := Except.map_eq_ok.mp h
    by_cases hempty : columns.isEmpty = true
    · rw [if_pos hempty]
      exact ⟨rfl, .same⟩
    · rw [if_neg hempty]
      exact ⟨rfl, .group (mt List.isEmpty_iff.mpr hempty)⟩
  | limit n | offset n | slice start stop | paginate page size =>
    obtain rfl := Except.ok.inj h
    exact ⟨rfl, .bounds _⟩

/-- What every successful operation keeps is kept by every successful chain. -/
theorem Query.chain_keeps {P : Query → Prop}
    (hstep : ∀ (q q' : Query) (op : Operation), P q → op.run q = .ok q' → P q')
    {q q' : Query} {ops : List Operation} (h : q.chain ops = .ok q') (hq : P q) : P q' := by
  induction ops generalizing q with
  | nil =>
    obtain rfl := Except.ok.inj h
    exact hq
  | cons op rest ih =>
    obtain ⟨next, hnext, h⟩ := chain_cons_ok.mp h
    exact ih h (hstep q next op hq hnext)

theorem Query.chain_dialect {q q' : Query} {ops : List Operation} (h : q.chain ops = .ok q') :
    q'.dialect = q.dialect :=
  chain_keeps (P := fun x => x.dialect = q.dialect)
    (fun _ _ _ hq hop => (Operation.run_step hop).1.trans hq) h rfl

theorem Clauses.Step.head {c c' : Clauses} (h : c.Step c') : c'.head = c.head := by
  cases h <;> rfl

/-- The head of a base stays as it is, whatever is chained. -/
theorem Query.chain_head {q q' : Query} {ops : List Operation} (h : q.chain ops = .ok q') :
    q'.clauses.head = q.clauses.head :=
  chain_keeps (P := fun x => x.clauses.head = q.clauses.head)
    (fun _ _ _ hx hop => (Operation.run_step hop).2.head.trans hx) h rfl

/-! ### Sections -/

/-- Whether every section of the clauses, as it is written, satisfies `P`. -/
structure Clauses.EverySection (P : Fragment → Prop) (d : Dialect) (c : Clauses) : Prop where
  head : P c.head
  conditions : ∀ x ∈ c.conditions, P (x.write d)
  groupBy : ∀ g, c.groupBy = some g → P g
  orderBy : ∀ t ∈ c.orderBy, P t

structure Clauses.EveryTail (P : Fragment → Prop) (d : Dialect) (c : Clauses) : Prop where
  conditions : ∀ x ∈ c.conditions, P (x.write d)
  groupBy : ∀ g, c.groupBy = some g → P g
  orderBy : ∀ t ∈ c.orderBy, P t

namespace Clauses.EveryTail

variable {P : Fragment → Prop} {d : Dialect} {c c' : Clauses}

/-- What holds of all text in the words of sections stays true of every section. -/
theorem step (hP : ∀ f, WordedIn sectionWords d.placeholder f → P f) (hc : c.EveryTail P d)
    (h : c.Step c') : c'.EveryTail P d := by
  cases h with
  | conditions derived =>
    refine ⟨?_, hc.groupBy, hc.orderBy⟩
    intro x hx
    rcases List.mem_append.mp hx with hx | hx
    · exact hc.conditions x hx
    · exact hP _ (Condition.write_wordedIn d (derived x hx))
  | order keys =>
    refine ⟨hc.conditions, hc.groupBy, ?_⟩
    intro t ht
    rcases List.mem_append.mp ht with ht | ht
    · exact hc.orderBy t ht
    · obtain ⟨s, hs, rfl⟩ := List.mem_map.mp ht
      obtain ⟨k, hk⟩ := keys s hs
      exact hP _ (SortKey.term_wordedIn hk)
  | @group columns _ =>
    refine ⟨hc.conditions, ?_, hc.orderBy⟩
    intro g hg
    obtain rfl := Option.some.inj hg
    exact hP _ (.names (by decide) columns (by decide))
  | bounds b => exact ⟨hc.conditions, hc.groupBy, hc.orderBy⟩
  | same => exact hc

theorem chain {q q' : Query} {ops : List Operation}
    (hP : ∀ f, WordedIn sectionWords q.dialect.placeholder f → P f) (h : q.chain ops = .ok q')
    (hq : q.clauses.EveryTail P q.dialect) : q'.clauses.EveryTail P q.dialect := by
  have hkeep := Query.chain_keeps
    (P := fun x => x.dialect = q.dialect ∧ x.clauses.EveryTail P q.dialect)
    (fun x y op hx hop => by
      obtain ⟨hdialect, hstep⟩ := Operation.run_step hop
      exact ⟨hdialect.trans hx.1, step hP hx.2 hstep⟩)
    h ⟨rfl, hq⟩
  exact hkeep.2

end Clauses.EveryTail

namespace Clauses.EverySection

variable {P : Fragment → Prop} {d : Dialect} {c c' : Clauses}

theorem tail (h : c.EverySection P d) : c.EveryTail P d :=
  ⟨h.conditions, h.groupBy, h.orderBy⟩

/-- What holds of all worded text stays true of every section. -/
theorem step (hP : ∀ f, Worded d.placeholder f → P f) (hc : c.EverySection P d)
    (h : c.Step c') : c'.EverySection P d := by
  have htail : c'.EveryTail P d :=
    hc.tail.step (fun f hf => hP f (hf.mono fun _ hs => mem_statementWords_of_section hs)) h
  exact ⟨h.head ▸ hc.head, htail.conditions, htail.groupBy, htail.orderBy⟩

theorem chain {q q' : Query} {ops : List Operation}
    (hP : ∀ f, Worded q.dialect.placeholder f → P f) (h : q.chain ops = .ok q')
    (hq : q.clauses.EverySection P q.dialect) : q'.clauses.EverySection P q.dialect := by
  have hkeep := Query.chain_keeps
    (P := fun x => x.dialect = q.dialect ∧ x.clauses.EverySection P q.dialect)
    (fun x y op hx hop => by
      obtain ⟨hdialect, hstep⟩ := Operation.run_step hop
      exact ⟨hdialect.trans hx.1, step hP hx.2 hstep⟩)
    h ⟨rfl, hq⟩
  exact hkeep.2

end Clauses.EverySection

end QueryChain
