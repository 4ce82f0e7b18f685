import QueryChain.Proofs.Sorting
import QueryChain.Proofs.Windows

/-!
Slices and pages of a selection. The arithmetic of a window stops at the greatest word, but no list
of records is longer than that, so a slice is a sub-range of the records that are listed, however
often it is sliced again, and the pages of one size make up all the records that are found. Windows
do not touch the sort: where it fails, slices and pages fail alike.
-/

namespace QueryChain

/-! ### Windows of a list -/

namespace Window

variable {α : Type} {items : List α}

/-- An offset that is cut off lies behind the last item as well. -/
theorem drop_saturateCount (h : items.length ≤ maxCount) (n : Nat) :
    items.drop (saturateCount n).toNat = items.drop n := by
  rw [toNat_saturateCount]
  by_cases hn : n ≤ maxCount
  · rw [Nat.min_eq_right hn]
  · rw [List.drop_eq_nil_of_le (by omega), List.drop_eq_nil_of_le (by omega)]

theorem toNat_saturateCount_sub (a : UInt64) (n : Nat) :
    (saturateCount (a.toNat - n)).toNat = a.toNat - n := by
  have ha := a.toNat_lt
  rw [toNat_saturateCount, maxCount]
  omega

/-- A slice of a window takes its range out of the items in the window. -/
theorem cut_slice (w : Window) (start stop : UInt64) (h : items.length ≤ maxCount) :
    (w.slice start stop).cut items =
      ((w.cut items).drop start.toNat).take (stop.toNat - start.toNat) := by
  obtain ⟨offset, limit⟩ := w
  have hdrop : items.drop (saturateCount (offset.toNat + start.toNat)).toNat =
      (items.drop offset.toNat).drop start.toNat := by
    rw [drop_saturateCount h, List.drop_drop]
  cases limit with
  | none =>
    show (items.drop (saturateCount (offset.toNat + start.toNat)).toNat).take
      (saturateCount (stop.toNat - start.toNat)).toNat = _
    rw [hdrop, toNat_saturateCount_sub]
    rfl
  | some limit =>
    show (items.drop (saturateCount (offset.toNat + start.toNat)).toNat).take
      (min (saturateCount (stop.toNat - start.toNat))
        (saturateCount (limit.toNat - start.toNat))).toNat =
      (((items.drop offset.toNat).take limit.toNat).drop start.toNat).take
        (stop.toNat - start.toNat)
    rw [hdrop, UInt64.toNat_min, toNat_saturateCount_sub, toNat_saturateCount_sub,
      List.drop_take, List.take_take]

/-- A page holds the items that stand between its first place and that of the next page. -/
theorem cut_paginate (page size : UInt64) (h : items.length ≤ maxCount) :
    (paginate page size).cut items =
      (items.drop ((page.toNat - 1) * size.toNat)).take size.toNat := by
  show (items.drop (saturateCount ((page.toNat - 1) * size.toNat)).toNat).take size.toNat = _
  rw [drop_saturateCount h]

/-- A window that lies within the items holds as many as its limit says. An absent limit is the
greatest count. -/
theorem length_cut (w : Window) (h : items.length ≤ maxCount) :
    (w.cut items).length =
      min (w.limit.elim maxCount UInt64.toNat) (items.length - w.offset.toNat) := by
  obtain ⟨offset, limit⟩ := w
  cases limit with
  | none =>
    show (items.drop offset.toNat).length = min maxCount (items.length - offset.toNat)
    rw [List.length_drop]
    omega
  | some limit =>
    show ((items.drop offset.toNat).take limit.toNat).length = _
    rw [List.length_take, List.length_drop]
    rfl

end Window

/-! ### Sub-ranges of sub-ranges -/

/-- The items within a range of places, within the next one of what is left, and so on. -/
def narrow {α : Type} (ranges : List (UInt64 × UInt64)) (items : List α) : List α :=
  ranges.foldl (fun items r => (items.drop r.1.toNat).take (r.2.toNat - r.1.toNat)) items

theorem narrow_infix {α : Type} (ranges : List (UInt64 × UInt64)) (items : List α) :
    narrow ranges items <:+: items := by
  induction ranges generalizing items with
  | nil => exact List.infix_refl items
  | cons r rest ih =>
    have hrange : (items.drop r.1.toNat).take (r.2.toNat - r.1.toNat) <:+: items :=
      (List.take_prefix _ _).isInfix.trans (List.drop_suffix _ _).isInfix
    exact (ih _).trans hrange

/-- A range within a range is a range: it begins as far behind the first place of the outer one, and
ends where the first of both ends. -/
theorem take_drop_take_drop {α : Type} (items : List α) (a b c d : Nat) :
    (((items.drop a).take (b - a)).drop c).take (d - c) =
      (items.drop (a + c)).take (min b (a + d) - (a + c)) := by
  have hlength : min (d - c) (b - a - c) = min b (a + d) - (a + c) := by omega
  rw [List.drop_take, List.take_take, List.drop_drop, hlength]

namespace Selection

variable {α : Type} [Record α] {s : Selection α} {sorter : Sorter}

def slices (ranges : List (UInt64 × UInt64)) (s : Selection α) : Selection α :=
  ranges.foldl (fun s r => s.slice r.1 r.2) s

theorem length_sortedBy (hsorter : sorter.IsStable) {records : List α}
    (h : s.sortedBy sorter = some records) : records.length = s.count :=
  (perm_sortedBy hsorter h).length_eq

theorem listBy_slice (hsorter : sorter.IsStable) (h : s.count ≤ maxCount) (start stop : UInt64) :
    (s.slice start stop).listBy sorter = (s.listBy sorter).map fun records =>
      (records.drop start.toNat).take (stop.toNat - start.toNat) := by
  have hsorted : (s.slice start stop).sortedBy sorter = s.sortedBy sorter := rfl
  rw [listBy, listBy, hsorted, Option.map_map]
  refine Option.map_congr fun records hrecords => ?_
  rw [← length_sortedBy hsorter hrecords] at h
  exact s.window.cut_slice start stop h

theorem listBy_slices (hsorter : sorter.IsStable) (h : s.count ≤ maxCount)
    (ranges : List (UInt64 × UInt64)) :
    (s.slices ranges).listBy sorter = (s.listBy sorter).map (narrow ranges) := by
  induction ranges generalizing s with
  | nil => exact Option.map_id.symm ▸ rfl
  | cons r rest ih =>
    have hcount : (s.slice r.1 r.2).count ≤ maxCount := h
    show ((s.slice r.1 r.2).slices rest).listBy sorter = _
    rw [ih hcount, listBy_slice hsorter h, Option.map_map]
    rfl

/-- Slices are sub-ranges of what is listed, and fail where the list does. The list does not fail if
the records have a consistent order. The records of a selection are counted in a word. -/
theorem list_slices_eq (hsorter : sorter.IsStable) (h : s.count ≤ maxCount) :
    (∀ start stop, (s.slice start stop).listBy sorter = (s.listBy sorter).map fun records =>
      (records.drop start.toNat).take (stop.toNat - start.toNat)) ∧
    (∀ a b c d, ((s.slice a b).slice c d).listBy sorter = (s.listBy sorter).map fun records =>
      (records.drop (a.toNat + c.toNat)).take
        (min b.toNat (a.toNat + d.toNat) - (a.toNat + c.toNat))) ∧
    (∀ ranges, (s.slices ranges).listBy sorter = (s.listBy sorter).map (narrow ranges)) ∧
    (∀ earlier later, ∀ records ∈ (s.slices (earlier ++ later)).listBy sorter,
      ∃ outer ∈ (s.slices earlier).listBy sorter, records <:+: outer) ∧
    (∀ records ∈ s.listBy sorter, records.length =
      min (s.window.limit.elim maxCount UInt64.toNat) (s.count - s.window.offset.toNat)) ∧
    (s.Sortable → s.listBy sorter = some s.list) := by
  refine ⟨listBy_slice hsorter h, fun a b c d => ?_, listBy_slices hsorter h, ?_, ?_, ?_⟩
  · have hinner : (s.slice a b).count ≤ maxCount := h
    rw [listBy_slice hsorter hinner, listBy_slice hsorter h, Option.map_map]
    exact Option.map_congr fun records _ => take_drop_take_drop records _ _ _ _
  · intro earlier later records hrecords
    rw [listBy_slices hsorter h] at hrecords ⊢
    obtain ⟨all, hall, rfl⟩ := Option.map_eq_some_iff.mp hrecords
    refine ⟨narrow earlier all, Option.map_eq_some_iff.mpr ⟨all, hall, rfl⟩, ?_⟩
    rw [narrow, List.foldl_append]
    exact narrow_infix later _
  · intro records hrecords
    obtain ⟨all, hall, rfl⟩ := Option.map_eq_some_iff.mp hrecords
    have hlength := length_sortedBy hsorter hall
    rw [Window.length_cut _ (hlength ▸ h), hlength]
  · intro hsortable
    rw [listBy, hsortable.sortedBy_eq hsorter, Option.map_some, list]

/-- A slice within a slice that reaches beyond its end, and one that ends before it begins. -/
theorem list_slices_eq_of_greatest :
    ∃ s : Selection Row,
      s = order ["a"] { items := [(1 : Int64), 2, 3, 4, 5].map fun n => ⟨[("a", .int n)]⟩ } ∧
      Sorter.merge.IsStable ∧ s.count ≤ maxCount ∧ s.Sortable ∧
      ((s.slice 1 4).slice 1 (UInt64.ofNat maxCount)).listBy .merge =
        some [⟨[("a", .int 3)]⟩, ⟨[("a", .int 4)]⟩] ∧
      (s.slice 3 1).listBy .merge = some [] := by
  refine ⟨_, rfl, Sorter.isStable_merge, ?_⟩
  generalize hs : order ["a"] ({ items := [(1 : Int64), 2, 3, 4, 5].map fun n =>
    ⟨[("a", .int n)]⟩ } : Selection Row) = s
  have hcount : s.count ≤ maxCount := by
    subst hs
    decide
  have hsortable : s.Sortable := by
    subst hs
    refine .of_int (List.forall_mem_singleton.mpr fun r hr => ?_)
    obtain ⟨n, -, rfl⟩ := List.mem_map.mp (List.mem_of_mem_filter hr)
    exact .inr ⟨n, rfl⟩
  have hsorted : s.list = s.items := by
    subst hs
    exact List.mergeSort_of_pairwise (by decide)
  obtain ⟨hslice, hnested, -, -, -, hends⟩ := list_slices_eq Sorter.isStable_merge hcount
  refine ⟨hcount, hsortable, ?_, ?_⟩
  · rw [hnested, hends hsortable, hsorted, ← hs]
    rfl
  · rw [hslice, hends hsortable]
    rfl

/-! ### Pages -/

/-- The pages of one size, from the first on, hold the items up to the end of the last of them. -/
theorem flatMap_take_drop {β : Type} (items : List β) (size pages : Nat) :
    (List.range pages).flatMap (fun p => (items.drop (p * size)).take size) =
      items.take (pages * size) := by
  induction pages with
  | zero => simp
  | succ pages ih =>
    rw [List.range_succ, List.flatMap_append, ih, List.flatMap_singleton, Nat.succ_mul,
      List.take_add]

/-- Answers that all come from one fail where it does. -/
theorem mapM_eq_map {β γ : Type} {o : Option β} {n : Nat} {f : Nat → Option γ} {g : Nat → β → γ}
    (hzero : n = 0 → o.isSome = true) (h : ∀ p < n, f p = o.map (g p)) :
    (List.range n).mapM f = o.map fun b => (List.range n).map (g · b) := by
  have hmap : (List.range n).mapM f = ((List.range n).map f).mapM id := by
    rw [List.mapM_map, Function.id_comp]
  rw [hmap, List.map_congr_left fun p hp => h p (List.mem_range.mp hp), List.mapM_map]
  cases o with
  | none =>
    cases n with
    | zero => cases hzero rfl
    | succ n =>
      rw [List.range_succ_eq_map, List.mapM_cons]
      rfl
  | some b => exact List.mapM_pure

theorem listBy_paginate (hsorter : sorter.IsStable) (h : s.count ≤ maxCount)
    (page size : UInt64) :
    (s.paginate page size).listBy sorter = (s.sortedBy sorter).map fun records =>
      (records.drop ((page.toNat - 1) * size.toNat)).take size.toNat := by
  have hsorted : (s.paginate page size).sortedBy sorter = s.sortedBy sorter := rfl
  rw [listBy, hsorted]
  refine Option.map_congr fun records hrecords => ?_
  rw [← length_sortedBy hsorter hrecords] at h
  exact Window.cut_paginate page size h

theorem sortedBy_of_count_eq_zero (hsorter : sorter.IsStable) (h : s.count = 0) :
    s.sortedBy sorter = some [] := by
  have hhits : s.hits = [] := List.eq_nil_of_length_eq_zero h
  have hsortable : s.Sortable :=
    ⟨hhits ▸ .nil, fun k _ a ha => absurd (hhits ▸ ha) List.not_mem_nil⟩
  rw [hsortable.sortedBy_eq hsorter, sorted, hhits, List.mergeSort_nil]

/-- The pages of one size make up all the records of a selection in their order, if there are pages
enough for them. There is no page before the first, and pages behind the last record are empty. Pages
fail where the sort does, which it does not if the records have a consistent order. -/
theorem flatMap_pages (hsorter : sorter.IsStable) (h : s.count ≤ maxCount) (size : UInt64) :
    (∀ pages : UInt64, s.count ≤ pages.toNat * size.toNat →
      ((List.range pages.toNat).mapM fun p =>
        (s.paginate (UInt64.ofNat (p + 1)) size).listBy sorter).map List.flatten =
        ({ s with window := {} } : Selection α).listBy sorter) ∧
    (s.paginate 0 size).listBy sorter = (s.paginate 1 size).listBy sorter ∧
    (∀ page : UInt64, s.count ≤ (page.toNat - 1) * size.toNat →
      (s.paginate page size).listBy sorter = (s.sortedBy sorter).map fun _ => []) ∧
    (s.Sortable → s.sortedBy sorter = some s.sorted) := by
  refine ⟨fun pages hpages => ?_, rfl, fun page hpage => ?_, fun hs => hs.sortedBy_eq hsorter⟩
  · have hzero (hnone : pages.toNat = 0) : (s.sortedBy sorter).isSome = true := by
      rw [hnone, Nat.zero_mul, Nat.le_zero] at hpages
      rw [sortedBy_of_count_eq_zero hsorter hpages, Option.isSome_some]
    -- The number of each of these pages is a word.
    have hpage (p : Nat) (hp : p < pages.toNat) :
        (s.paginate (UInt64.ofNat (p + 1)) size).listBy sorter =
          (s.sortedBy sorter).map fun records =>
            (records.drop (p * size.toNat)).take size.toNat := by
      have hword : (UInt64.ofNat (p + 1)).toNat = p + 1 :=
        UInt64.toNat_ofNat_of_lt' (Nat.lt_of_le_of_lt hp pages.toNat_lt)
      rw [listBy_paginate hsorter h, hword, Nat.add_sub_cancel]
    rw [mapM_eq_map hzero hpage, Option.map_map, listBy]
    refine Option.map_congr fun records hrecords => ?_
    show ((List.range pages.toNat).map _).flatten = records
    rw [← List.flatMap_def, flatMap_take_drop,
      List.take_of_length_le (length_sortedBy hsorter hrecords ▸ hpages)]
  · rw [listBy_paginate hsorter h]
    refine Option.map_congr fun records hrecords => ?_
    rw [List.drop_eq_nil_of_le (length_sortedBy hsorter hrecords ▸ hpage), List.take_nil]

/-- Five records on pages of two, and a page whose first place is beyond all words. -/
theorem flatMap_pages_of_five :
    ∃ s : Selection Json,
      s.items = [.null, .bool false, .bool true, .text "a", .text "b"] ∧
      s.window = ⟨1, some 1⟩ ∧ Sorter.merge.IsStable ∧ s.count ≤ maxCount ∧
      s.count ≤ (3 : UInt64).toNat * (2 : UInt64).toNat ∧
      (([0, 1, 2].mapM fun p => (s.paginate (UInt64.ofNat (p + 1)) 2).listBy .merge).map
        List.flatten) = some s.items ∧
      (s.paginate (UInt64.ofNat maxCount) (UInt64.ofNat maxCount)).listBy .merge = some [] := by
  refine ⟨{ items := [.null, .bool false, .bool true, .text "a", .text "b"],
            window := ⟨1, some 1⟩ }, rfl, rfl, Sorter.isStable_merge, ?_⟩
  generalize hs : ({ items := [.null, .bool false, .bool true, .text "a", .text "b"],
                     window := ⟨1, some 1⟩ } : Selection Json) = s
  have hcount : s.count ≤ maxCount := by
    subst hs
    decide
  have hpages : s.count ≤ (3 : UInt64).toNat * (2 : UInt64).toNat := by
    subst hs
    decide
  refine ⟨hcount, hpages, ?_, ?_⟩
  · refine ((flatMap_pages Sorter.isStable_merge hcount 2).1 3 hpages).trans ?_
    subst hs
    rfl
  · have hend := (flatMap_pages Sorter.isStable_merge hcount (UInt64.ofNat maxCount)).2.2.1
    rw [hend _ (Nat.le_trans hpages (by decide)), ← hs]
    rfl

end Selection

end QueryChain
