import Mathlib.Data.List.Forall2

/-!
Computations that may fail, run to their end: what is known when they succeed, and what they fail
with when they do not.
-/

namespace QueryChain

theorem Except.map_eq_ok {ε α β : Type} {f : α → β} {m : Except ε α} {b : β} :
    m.map f = .ok b ↔ ∃ a, m = .ok a ∧ f a = b := by
  cases m <;> simp [Except.map]

theorem Except.bind_eq_ok {ε α β : Type} {f : α → Except ε β} {m : Except ε α} {b : β} :
    m.bind f = .ok b ↔ ∃ a, m = .ok a ∧ f a = .ok b := by
  cases m <;> simp [Except.bind]

theorem Except.mapError_ok {ε δ α : Type} {f : ε → δ} {m : Except ε α} {a : α}
    (h : m.mapError f = .ok a) : m = .ok a := by
  cases m with
  | error e => cases h
  | ok b =>
    obtain rfl := Except.ok.inj h
    rfl

theorem Except.exists_of_isOk {ε α : Type} {m : Except ε α} (h : m.isOk = true) :
    ∃ a, m = .ok a := by
  cases m with
  | error e => cases h
  | ok a => exact ⟨a, rfl⟩

theorem Except.eq_ok_of_toOption {ε α : Type} {m : Except ε α} {a : α}
    (h : m.toOption = some a) : m = .ok a := by
  cases m with
  | error e => cases h
  | ok b =>
    obtain rfl := Option.some.inj h
    rfl

/-- A traversal that succeeds answers one result per item, in order. -/
theorem forall₂_of_mapM_ok {ε α β : Type} {f : α → Except ε β} {xs : List α} {ys : List β}
    (h : xs.mapM f = .ok ys) : List.Forall₂ (fun x y => f x = .ok y) xs ys := by
  induction xs generalizing ys with
  | nil =>
    obtain rfl := Except.ok.inj h
    exact .nil
  | cons x rest ih =>
    rw [List.mapM_cons] at h
    obtain ⟨y, hy, h⟩ := Except.bind_eq_ok.mp h
    obtain ⟨zs, hzs, h⟩ := Except.bind_eq_ok.mp h
    obtain rfl := Except.ok.inj h
    exact .cons hy (ih hzs)

theorem exists_of_forall₂ {α β : Type} {R : α → β → Prop} {xs : List α} {ys : List β}
    (h : List.Forall₂ R xs ys) {y : β} (hy : y ∈ ys) : ∃ x ∈ xs, R x y := by
  induction h with
  | nil => cases hy
  | cons hxy _ ih =>
    rcases List.mem_cons.mp hy with rfl | hy
    · exact ⟨_, List.mem_cons_self, hxy⟩
    · obtain ⟨x, hx, hxy⟩ := ih hy
      exact ⟨x, List.mem_cons_of_mem _ hx, hxy⟩

theorem exists_of_forall₂_left {α β : Type} {R : α → β → Prop} {xs : List α} {ys : List β}
    (h : List.Forall₂ R xs ys) {x : α} (hx : x ∈ xs) : ∃ y ∈ ys, R x y :=
  exists_of_forall₂ h.flip hx

theorem exists_of_mem_mapM_ok {ε α β : Type} {f : α → Except ε β} {xs : List α} {ys : List β}
    (h : xs.mapM f = .ok ys) {y : β} (hy : y ∈ ys) : ∃ x ∈ xs, f x = .ok y :=
  exists_of_forall₂ (forall₂_of_mapM_ok h) hy

/-! ### Failures -/

def failure? {ε α : Type} : Except ε α → Option ε
  | .ok _ => none
  | .error e => some e

section

variable {ε δ α β : Type}

theorem failure?_eq_some {m : Except ε α} {e : ε} : failure? m = some e ↔ m = .error e := by
  cases m <;> simp [failure?]

theorem failure?_eq_none {m : Except ε α} : failure? m = none ↔ ∃ a, m = .ok a := by
  cases m <;> simp [failure?]

theorem failure?_map (f : α → β) (m : Except ε α) : failure? (m.map f) = failure? m := by
  cases m <;> rfl

theorem failure?_mapError (f : ε → δ) (m : Except ε α) :
    failure? (m.mapError f) = (failure? m).map f := by
  cases m <;> rfl

/-- A traversal fails with what the first item fails with that does. -/
theorem failure?_mapM {f : α → Except ε β} {fault? : α → Option ε} {xs : List α}
    (h : ∀ x ∈ xs, failure? (f x) = fault? x) : failure? (xs.mapM f) = xs.findSome? fault? := by
  induction xs with
  | nil => rfl
  | cons x rest ih =>
    have hrest := ih fun y hy => h y (List.mem_cons_of_mem x hy)
    rw [List.mapM_cons, List.findSome?_cons, ← h x List.mem_cons_self, ← hrest]
    cases f x with
    | error e => rfl
    | ok y => cases rest.mapM f <;> rfl

end

end QueryChain
