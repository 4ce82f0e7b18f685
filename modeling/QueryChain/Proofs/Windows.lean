import QueryChain.Proofs.Chain
import QueryChain.Records.Selection

/-!
The windows of the two engines. A query keeps its bounds in signed words, of which an absent one
bounds nothing, and its arithmetic stops at the greatest of them; a selection keeps its window in
unsigned words and stops at another one. Calls that bound the rows keep both windows in a relation
under which they leave the same rows of every result that is not longer than any signed word.
-/

namespace QueryChain

/-! ### Words -/

def maxRows : Nat := 2 ^ 63 - 1

theorem Int64.toInt_max (a b : Int64) : (max a b).toInt = max a.toInt b.toInt := by
  change (if a ≤ b then b else a).toInt = _
  split
  · rename_i h
    rw [Int64.le_iff_toInt_le] at h
    omega
  · rename_i h
    rw [Int64.le_iff_toInt_le] at h
    omega

theorem Int64.toInt_min (a b : Int64) : (min a b).toInt = min a.toInt b.toInt := by
  change (if a ≤ b then a else b).toInt = _
  split
  · rename_i h
    rw [Int64.le_iff_toInt_le] at h
    omega
  · rename_i h
    rw [Int64.le_iff_toInt_le] at h
    omega

theorem toInt_saturate (n : Int) : (saturate n).toInt = max (-(2 ^ 63)) (min (2 ^ 63 - 1) n) := by
  apply Int64.toInt_ofInt_of_le <;> omega

theorem toNat_saturateCount (n : Nat) : (saturateCount n).toNat = min maxCount n := by
  apply UInt64.toNat_ofNat_of_lt'
  simp only [maxCount, UInt64.size]
  omega

/-! ### Calls on both engines -/

/-- A call that bounds the rows of a query. Its arguments are counts that words of either kind
hold. -/
inductive Narrowing
  | limit (n : Fin (2 ^ 63))
  | offset (n : Fin (2 ^ 63))
  | slice (start stop : Fin (2 ^ 63))
  | paginate (page size : Fin (2 ^ 63))

namespace Narrowing

def operation : Narrowing → Operation
  | .limit n => .limit (Int64.ofNat n)
  | .offset n => .offset (Int64.ofNat n)
  | .slice start stop => .slice (Int64.ofNat start) (Int64.ofNat stop)
  | .paginate page size => .paginate (Int64.ofNat page) (Int64.ofNat size)

def select {α : Type} (s : Selection α) : Narrowing → Selection α
  | .limit n => s.limit (UInt64.ofNat n)
  | .offset n => s.offset (UInt64.ofNat n)
  | .slice start stop => s.slice (UInt64.ofNat start) (UInt64.ofNat stop)
  | .paginate page size => s.paginate (UInt64.ofNat page) (UInt64.ofNat size)

theorem toInt_word (n : Fin (2 ^ 63)) : (Int64.ofNat n).toInt = n.val :=
  Int64.toInt_ofNat_of_lt n.isLt

theorem toNat_word (n : Fin (2 ^ 63)) : (UInt64.ofNat n).toNat = n.val := by
  apply UInt64.toNat_ofNat_of_lt'
  have hn := n.isLt
  simp only [UInt64.size]
  omega

end Narrowing

/-! ### Windows that leave the same rows -/

/-- The rows of a result that bounds leave, if they are not negative. -/
def Bounds.cut {α : Type} (b : Bounds) (rows : List α) : List α :=
  let rest := rows.drop (b.offset.getD 0).toInt.toNat
  match b.limit with
  | some n => rest.take n.toInt.toNat
  | none => rest

/-- Whether bounds and a window have the same limit, and offsets that are the same number as far as
a signed word holds it. -/
structure Bounds.Matches (b : Bounds) (w : Window) : Prop where
  limit : b.limit.map Int64.toInt = w.limit.map fun n => (n.toNat : Int)
  offset : (b.offset.getD 0).toInt = min maxRows w.offset.toNat

namespace Bounds.Matches

variable {b : Bounds} {w : Window}

theorem unbounded : Matches {} {} :=
  ⟨rfl, by decide⟩

theorem setLimit (h : b.Matches w) (n : Fin (2 ^ 63)) :
    (b.setLimit (Int64.ofNat n)).Matches { w with limit := some (UInt64.ofNat n) } := by
  refine ⟨?_, h.offset⟩
  rw [Bounds.setLimit, Option.map_some, Option.map_some, Narrowing.toInt_word,
    Narrowing.toNat_word]

theorem setOffset (h : b.Matches w) (n : Fin (2 ^ 63)) :
    (b.setOffset (Int64.ofNat n)).Matches { w with offset := UInt64.ofNat n } := by
  refine ⟨h.limit, ?_⟩
  have hn := n.isLt
  rw [Bounds.setOffset, Option.getD_some, Narrowing.toInt_word, Narrowing.toNat_word, maxRows]
  omega

theorem slice (h : b.Matches w) (start stop : Fin (2 ^ 63)) :
    (b.slice (Int64.ofNat start) (Int64.ofNat stop)).Matches
      (w.slice (UInt64.ofNat start) (UInt64.ofNat stop)) := by
  obtain ⟨limit, offset⟩ := b
  obtain ⟨woffset, wlimit⟩ := w
  obtain ⟨hlimit, hoffset⟩ := h
  have hstart := start.isLt
  have hstop := stop.isLt
  have hfrom : (max (Int64.ofNat start) 0).toInt = start.val := by
    rw [Int64.toInt_max, Narrowing.toInt_word, Int64.toInt_zero]
    omega
  have hlength :
      (max (saturate ((Int64.ofNat stop).toInt - (max (Int64.ofNat start) 0).toInt)) 0).toInt =
        (saturateCount ((UInt64.ofNat stop).toNat - (UInt64.ofNat start).toNat)).toNat := by
    rw [Int64.toInt_max, toInt_saturate, toNat_saturateCount, hfrom, Narrowing.toInt_word,
      Narrowing.toNat_word, Narrowing.toNat_word, Int64.toInt_zero, maxCount]
    omega
  constructor
  · cases limit with
    | none =>
      cases wlimit with
      | none => exact congrArg some hlength
      | some m => cases hlimit
    | some n =>
      cases wlimit with
      | none => cases hlimit
      | some m =>
        have hnm : n.toInt = m.toNat := Option.some.inj hlimit
        have hroom : (max (saturate (n.toInt - (max (Int64.ofNat start) 0).toInt)) 0).toInt =
            (saturateCount (m.toNat - (UInt64.ofNat start).toNat)).toNat := by
          have hn := n.toInt_lt
          rw [Int64.toInt_max, toInt_saturate, toNat_saturateCount, hfrom, hnm,
            Narrowing.toNat_word, Int64.toInt_zero, maxCount]
          omega
        apply congrArg some
        change (min (_ : Int64) _).toInt = ((min (_ : UInt64) _).toNat : Int)
        rw [Int64.toInt_min, UInt64.toNat_min, hlength, hroom]
        omega
  · change (saturate ((offset.getD 0).toInt + (max (Int64.ofNat start) 0).toInt)).toInt =
      min maxRows (saturateCount (woffset.toNat + (UInt64.ofNat start).toNat)).toNat
    have hoffset : (offset.getD 0).toInt = min maxRows woffset.toNat := hoffset
    rw [toInt_saturate, toNat_saturateCount, hfrom, hoffset, Narrowing.toNat_word, maxCount,
      maxRows]
    omega

theorem paginate (page size : Fin (2 ^ 63)) :
    (b.paginate (Int64.ofNat page) (Int64.ofNat size)).Matches
      (Window.paginate (UInt64.ofNat page) (UInt64.ofNat size)) := by
  have hpage := page.isLt
  constructor
  · rw [Bounds.paginate, Bounds.setLimit, Window.paginate, Option.map_some, Option.map_some,
      Narrowing.toInt_word, Narrowing.toNat_word]
  · have hbefore : (max (saturate ((Int64.ofNat page).toInt - 1)) 0).toInt =
        ((page.val - 1 : Nat) : Int) := by
      rw [Int64.toInt_max, toInt_saturate, Narrowing.toInt_word, Int64.toInt_zero]
      omega
    -- The product is the same number on both sides; only then is it cut off.
    have hproduct : ((page.val - 1 : Nat) : Int) * size.val =
        ((page.val - 1) * size.val : Nat) := (Int.natCast_mul _ _).symm
    change (saturate ((max (saturate ((Int64.ofNat page).toInt - 1)) 0).toInt *
        (Int64.ofNat size).toInt)).toInt =
      min maxRows (saturateCount (((UInt64.ofNat page).toNat - 1) *
        (UInt64.ofNat size).toNat)).toNat
    rw [toInt_saturate, toNat_saturateCount, hbefore, Narrowing.toInt_word, Narrowing.toNat_word,
      Narrowing.toNat_word, hproduct, maxCount, maxRows]
    generalize (page.val - 1) * size.val = product
    omega

/-- Offsets that differ lie behind the last row. -/
theorem cut_eq {α : Type} (h : b.Matches w) {rows : List α} (hrows : rows.length ≤ maxRows) :
    b.cut rows = w.cut rows := by
  obtain ⟨limit, offset⟩ := b
  obtain ⟨woffset, wlimit⟩ := w
  obtain ⟨hlimit, hoffset⟩ := h
  have hdrop : rows.drop (offset.getD 0).toInt.toNat = rows.drop woffset.toNat := by
    have hoffset : (offset.getD 0).toInt = min maxRows woffset.toNat := hoffset
    by_cases hlarge : maxRows ≤ woffset.toNat
    · rw [List.drop_eq_nil_of_le (by omega), List.drop_eq_nil_of_le (by omega)]
    · rw [hoffset]
      congr 1
      omega
  cases limit with
  | none =>
    cases wlimit with
    | none => exact hdrop
    | some m => cases hlimit
  | some n =>
    cases wlimit with
    | none => cases hlimit
    | some m =>
      have hnm : n.toInt = m.toNat := Option.some.inj hlimit
      change (rows.drop (offset.getD 0).toInt.toNat).take n.toInt.toNat =
        (rows.drop woffset.toNat).take m.toNat
      rw [hdrop, hnm, Int.toNat_natCast]

end Bounds.Matches

/-! ### Sequences of calls -/

namespace Narrowing

variable {α : Type}

/-- A call that bounds the rows is never refused, and keeps windows that match. -/
theorem run_operation (call : Narrowing) {q : Query} {s : Selection α}
    (h : q.clauses.bounds.Matches s.window) :
    ∃ q', call.operation.run q = .ok q' ∧
      q'.clauses.bounds.Matches (call.select s).window := by
  cases call with
  | limit n => exact ⟨_, rfl, h.setLimit n⟩
  | offset n => exact ⟨_, rfl, h.setOffset n⟩
  | slice start stop => exact ⟨_, rfl, h.slice start stop⟩
  | paginate page size => exact ⟨_, rfl, .paginate page size⟩

theorem chain_operations (calls : List Narrowing) {q : Query} {s : Selection α}
    (h : q.clauses.bounds.Matches s.window) :
    ∃ q', q.chain (calls.map operation) = .ok q' ∧
      q'.clauses.bounds.Matches (calls.foldl select s).window := by
  induction calls generalizing q s with
  | nil => exact ⟨q, rfl, h⟩
  | cons call rest ih =>
    obtain ⟨next, hnext, hwindow⟩ := call.run_operation h
    obtain ⟨q', hq', hend⟩ := ih hwindow
    exact ⟨q', Query.chain_cons_ok.mpr ⟨next, hnext, hq'⟩, hend⟩

theorem sorted_foldl_select [Record α] (calls : List Narrowing) (s : Selection α) :
    (calls.foldl select s).sorted = s.sorted := by
  induction calls generalizing s with
  | nil => rfl
  | cons call rest ih =>
    rw [List.foldl_cons, ih]
    cases call <;> rfl

/-- The same calls on a query without bounds and on a selection without a window leave the same
rows of every result, and so the records that the selection lists are those that the bounds of the
query leave. -/
theorem chain_cut_eq [Record α] (calls : List Narrowing) {q : Query} {s : Selection α}
    (hq : q.clauses.bounds = {}) (hs : s.window = {}) :
    ∃ q', q.chain (calls.map operation) = .ok q' ∧
      (∀ (β : Type) (rows : List β), rows.length ≤ maxRows →
        q'.clauses.bounds.cut rows = (calls.foldl select s).window.cut rows) ∧
      (s.sorted.length ≤ maxRows →
        q'.clauses.bounds.cut s.sorted = (calls.foldl select s).list) := by
  have hstart : q.clauses.bounds.Matches s.window := by
    rw [hq, hs]
    exact .unbounded
  obtain ⟨q', hq', hend⟩ := chain_operations calls hstart
  refine ⟨q', hq', fun β rows hrows => hend.cut_eq hrows, fun hrows => ?_⟩
  rw [Selection.list, sorted_foldl_select]
  exact hend.cut_eq hrows

/-- A page beyond all words, an empty slice of it, and a window set anew. -/
theorem chain_cut_eq_of_reset :
    ∃ q', Query.chain ⟨.sqlite, ⟨.ofText "SELECT * FROM t", [], none, [], {}⟩⟩
        ([.paginate ⟨2 ^ 63 - 1, by decide⟩ ⟨4, by decide⟩, .slice ⟨3, by decide⟩ ⟨1, by decide⟩,
          .limit ⟨9, by decide⟩, .offset ⟨1, by decide⟩,
          .slice ⟨0, by decide⟩ ⟨2, by decide⟩].map operation) = .ok q' ∧
      q'.clauses.bounds.cut [1, 2, 3, 4] = [2, 3] := by
  obtain ⟨q', hq', hcut, -⟩ := chain_cut_eq
    [.paginate ⟨2 ^ 63 - 1, by decide⟩ ⟨4, by decide⟩, .slice ⟨3, by decide⟩ ⟨1, by decide⟩,
      .limit ⟨9, by decide⟩, .offset ⟨1, by decide⟩, .slice ⟨0, by decide⟩ ⟨2, by decide⟩]
    (q := ⟨.sqlite, ⟨.ofText "SELECT * FROM t", [], none, [], {}⟩⟩)
    (s := ({ items := [] } : Selection Row)) rfl rfl
  refine ⟨q', hq', ?_⟩
  rw [hcut Nat [1, 2, 3, 4] (by decide)]
  decide

end Narrowing

end QueryChain
