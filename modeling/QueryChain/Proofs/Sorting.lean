import Mathlib.Data.List.Pairwise
import QueryChain.Proofs.Comparison
import QueryChain.Proofs.Numbering

/-!
The order of a selection. Records are sorted by the first key by which they are not tied, null
before all else or, by a descending key, behind it; records that are tied by every key stay in
the order in which they were given. All this needs a consistent order of the records. Without one
a sort may fail or leave the records in any order.
-/

namespace QueryChain

/-! ### Stable sorts -/

section

variable {α : Type} {le : α → α → Bool} {R : α → α → Prop} {l : List α}

/-- A sort by a total preorder keeps what relates elements to later ones where they are tied. -/
theorem pairwise_mergeSort_stable (htrans : ∀ a b c, le a b = true → le b c = true → le a c = true)
    (htotal : ∀ a b, (le a b || le b a) = true) (hR : l.Pairwise R) :
    (l.mergeSort le).Pairwise fun a b => le a b = true ∧ (le b a = true → R a b) := by
  rw [← List.mergeSort_zipIdx, List.pairwise_map]
  have hperm := List.mergeSort_perm l.zipIdx (List.zipIdxLE le)
  have hsorted := List.pairwise_mergeSort (List.zipIdxLE_trans htrans)
    (List.zipIdxLE_total htotal) l.zipIdx
  have hdistinct : ((l.zipIdx.mergeSort (List.zipIdxLE le)).map Prod.snd).Nodup := by
    rw [(hperm.map Prod.snd).nodup_iff, List.zipIdx_map_snd]
    exact List.nodup_range'
  refine List.Pairwise.imp_of_mem ?_ (hsorted.and (List.pairwise_map.mp hdistinct))
  rintro ⟨a, i⟩ ⟨b, j⟩ ha hb ⟨hle, hne⟩
  have ha : l[i]? = some a := List.mem_zipIdx_iff_getElem?.mp (hperm.mem_iff.mp ha)
  have hb : l[j]? = some b := List.mem_zipIdx_iff_getElem?.mp (hperm.mem_iff.mp hb)
  obtain ⟨hi, rfl⟩ := List.getElem?_eq_some_iff.mp ha
  obtain ⟨hj, rfl⟩ := List.getElem?_eq_some_iff.mp hb
  simp only [List.zipIdxLE, Bool.if_false_right, Bool.and_eq_true, decide_eq_true_eq] at hle
  refine ⟨hle.1, fun hback => List.pairwise_iff_getElem.mp hR i j hi hj ?_⟩
  have hij : i ≤ j := by simpa [hback] using hle.2
  exact Nat.lt_of_le_of_ne hij hne

/-- The comparison need be a total preorder only on what is sorted. -/
theorem pairwise_mergeSort_of_mem
    (htrans : ∀ a ∈ l, ∀ b ∈ l, ∀ c ∈ l, le a b = true → le b c = true → le a c = true)
    (htotal : ∀ a ∈ l, ∀ b ∈ l, (le a b || le b a) = true) (hR : l.Pairwise R) :
    (l.mergeSort le).Pairwise fun a b => le a b = true ∧ (le b a = true → R a b) := by
  have hmap : (l.attach.mergeSort fun a b => le a.1 b.1).map Subtype.val = l.mergeSort le := by
    rw [List.map_mergeSort (s := le) fun _ _ _ _ => rfl, List.attach_map_subtype_val]
  rw [← hmap, List.pairwise_map]
  rw [← List.attach_map_subtype_val l, List.pairwise_map] at hR
  exact pairwise_mergeSort_stable (fun a b c => htrans a a.2 b b.2 c c.2)
    (fun a b => htotal a a.2 b b.2) hR

end

/-- Whether a comparison is a total preorder of some items. -/
structure Consistent {β : Type} (compare : β → β → Ordering) (items : List β) : Prop where
  swap : ∀ a ∈ items, ∀ b ∈ items, compare b a = (compare a b).swap
  trans : ∀ a ∈ items, ∀ b ∈ items, ∀ c ∈ items, (compare a b).isLE = true →
    (compare b c).isLE = true → (compare a c).isLE = true

namespace Sorter

/-- What a stable sort promises. It loses and adds no item, and if the comparison is consistent it
ends, with the items in their order and those that are tied as they were given. -/
structure IsStable (sorter : Sorter) : Prop where
  perm {β : Type} {compare : β → β → Ordering} {items result : List β} :
    sorter.run compare items = some result → result.Perm items
  ends {β : Type} {compare : β → β → Ordering} {items : List β} : Consistent compare items →
    sorter.run compare items = some (items.mergeSort fun a b => compare a b != .gt)

def merge : Sorter where
  run compare items := some (items.mergeSort fun a b => compare a b != .gt)

theorem isStable_merge : merge.IsStable where
  perm h := Option.some.inj h ▸ List.mergeSort_perm _ _
  ends _ := rfl

end Sorter

/-! ### Values -/

namespace Value

def Below (a b : Value) : Prop :=
  a.isNull = true ∧ b.isNull = false ∨
    a.isNull = false ∧ b.isNull = false ∧ a.order b = .ok .lt

def Tied (a b : Value) : Prop :=
  a.isNull = true ∧ b.isNull = true ∨
    a.isNull = false ∧ b.isNull = false ∧ a.order b = .ok .eq

def Comparable (a b : Value) : Prop :=
  a.isNull = true ∨ b.isNull = true ∨ ∃ o, a.order b = .ok o

theorem Comparable.symm {a b : Value} (h : Comparable a b) : Comparable b a := by
  rcases h with ha | hb | ⟨o, ho⟩
  · exact .inr (.inl ha)
  · exact .inl hb
  · exact .inr (.inr ⟨o.swap, order_swap ho⟩)

def AtMost (a b : Value) : Prop :=
  ∃ o, a.order b = .ok o ∧ o ≠ .gt

end Value

/-- Whether a record with the value `a` comes before one with the value `b` by a sort key. -/
def SortKey.Precedes (k : SortKey) (a b : Value) : Prop :=
  match k.direction with
  | .ascending => a.Below b
  | .descending => b.Below a

namespace Selection

open Value

theorem compareValues_of_order {a b : Value} {o : Ordering} (ha : a.isNull = false)
    (hb : b.isNull = false) (ho : a.order b = .ok o) : compareValues a b = o := by
  simp only [compareValues, ha, hb, ho]

theorem compareValues_swap (a b : Value) : compareValues b a = (compareValues a b).swap := by
  cases ha : a.isNull with
  | true => cases hb : b.isNull <;> simp only [compareValues, ha, hb] <;> rfl
  | false =>
    cases hb : b.isNull with
    | true =>
      simp only [compareValues, ha, hb]
      rfl
    | false =>
      cases hab : a.order b with
      | ok o => rw [compareValues_of_order ha hb hab, compareValues_of_order hb ha (order_swap hab)]
      | error e =>
        cases hba : b.order a with
        | ok o =>
          rw [order_swap hba] at hab
          cases hab
        | error e' =>
          simp only [compareValues, ha, hb, hab, hba]
          rfl

theorem compareValues_eq_lt {a b : Value} : compareValues a b = .lt ↔ Below a b := by
  cases ha : a.isNull with
  | true => cases hb : b.isNull <;> simp [compareValues, Below, ha, hb]
  | false =>
    cases hb : b.isNull with
    | true => simp [compareValues, Below, ha, hb]
    | false => cases ho : a.order b <;> simp [compareValues, Below, ha, hb, ho]

theorem compareValues_eq_eq {a b : Value} (h : Comparable a b) :
    compareValues a b = .eq ↔ Tied a b := by
  cases ha : a.isNull with
  | true => cases hb : b.isNull <;> simp [compareValues, Tied, ha, hb]
  | false =>
    cases hb : b.isNull with
    | true => simp [compareValues, Tied, ha, hb]
    | false =>
      obtain ⟨o, ho⟩ : ∃ o, a.order b = .ok o := by simpa [Comparable, ha, hb] using h
      simp [compareValues, Tied, ha, hb, ho]

theorem isLE_compareValues {a b : Value} (h : Comparable a b) :
    (compareValues a b).isLE = true ↔ a.isNull = true ∨ b.isNull = false ∧ AtMost a b := by
  cases ha : a.isNull with
  | true => cases hb : b.isNull <;> simp [compareValues, ha, hb]
  | false =>
    cases hb : b.isNull with
    | true => simp [compareValues, ha, hb]
    | false =>
      obtain ⟨o, ho⟩ : ∃ o, a.order b = .ok o := by simpa [Comparable, ha, hb] using h
      simp [compareValues_of_order ha hb ho, AtMost, ho, Ordering.isLE_iff_ne_gt]

/-- Null comes before all else, and what is not null is compared by its order. -/
theorem isLE_compareValues_trans {a b c : Value} (hab : Comparable a b) (hbc : Comparable b c)
    (htrans : AtMost a b → AtMost b c → a.order c ≠ .ok .gt)
    (hle : (compareValues a b).isLE = true) (hle' : (compareValues b c).isLE = true) :
    (compareValues a c).isLE = true := by
  rw [isLE_compareValues hab] at hle
  rw [isLE_compareValues hbc] at hle'
  cases ha : a.isNull with
  | true => cases hc : c.isNull <;> simp [compareValues, ha, hc]
  | false =>
    obtain ⟨hb, hatMost⟩ := hle.resolve_left (by simp [ha])
    obtain ⟨hc, hatMost'⟩ := hle'.resolve_left (by simp [hb])
    have hac := htrans hatMost hatMost'
    cases hend : a.order c with
    | error e =>
      simp only [compareValues, ha, hc, hend]
      rfl
    | ok o =>
      rw [compareValues_of_order ha hc hend, Ordering.isLE_iff_ne_gt]
      rintro rfl
      exact hac hend

/-! ### Sort keys -/

theorem compareKey_swap (k : SortKey) (a b : Value) :
    compareKey k b a = (compareKey k a b).swap := by
  rw [compareKey, compareKey, compareValues_swap]
  cases k.direction <;> rfl

theorem compareKey_eq_lt {k : SortKey} {a b : Value} :
    compareKey k a b = .lt ↔ k.Precedes a b := by
  rw [compareKey, SortKey.Precedes]
  cases k.direction with
  | ascending => exact compareValues_eq_lt
  | descending =>
    rw [← compareValues_swap]
    exact compareValues_eq_lt

theorem compareKey_eq_eq {k : SortKey} {a b : Value} (h : Comparable a b) :
    compareKey k a b = .eq ↔ Tied a b := by
  rw [compareKey]
  cases k.direction with
  | ascending => exact compareValues_eq_eq h
  | descending => rw [Ordering.swap_eq_eq, compareValues_eq_eq h]

variable {α : Type} [Record α]

def compareBy (s : Selection α) (keys : List SortKey) (a b : α) : Ordering :=
  keys.foldr
    (fun k rest => (compareKey k (s.value a k.field) (s.value b k.field)).then rest) .eq

/-- Whether a record comes before another by the first key by which they are not tied. -/
def Precedes (s : Selection α) : List SortKey → α → α → Prop
  | [], _, _ => False
  | k :: rest, a, b =>
    k.Precedes (s.value a k.field) (s.value b k.field) ∨
      Tied (s.value a k.field) (s.value b k.field) ∧ s.Precedes rest a b

def TiedBy (s : Selection α) (keys : List SortKey) (a b : α) : Prop :=
  ∀ k ∈ keys, Tied (s.value a k.field) (s.value b k.field)

def ComparableBy (s : Selection α) (keys : List SortKey) (a b : α) : Prop :=
  ∀ k ∈ keys, Comparable (s.value a k.field) (s.value b k.field)

theorem compareBy_cons (s : Selection α) (k : SortKey) (rest : List SortKey) (a b : α) :
    s.compareBy (k :: rest) a b =
      (compareKey k (s.value a k.field) (s.value b k.field)).then (s.compareBy rest a b) :=
  rfl

theorem compareBy_swap (s : Selection α) (keys : List SortKey) (a b : α) :
    s.compareBy keys b a = (s.compareBy keys a b).swap := by
  induction keys with
  | nil => rfl
  | cons k rest ih =>
    rw [compareBy_cons, compareBy_cons, Ordering.swap_then, ← compareKey_swap, ← ih]

variable {s : Selection α} {keys : List SortKey} {a b : α}

theorem compareBy_eq_lt (h : s.ComparableBy keys a b) :
    s.compareBy keys a b = .lt ↔ s.Precedes keys a b := by
  induction keys with
  | nil => simp [compareBy, Precedes]
  | cons k rest ih =>
    obtain ⟨hk, hrest⟩ := List.forall_mem_cons.mp h
    rw [compareBy_cons, Ordering.then_eq_lt, compareKey_eq_lt, compareKey_eq_eq hk, ih hrest,
      Precedes]

theorem compareBy_eq_eq (h : s.ComparableBy keys a b) :
    s.compareBy keys a b = .eq ↔ s.TiedBy keys a b := by
  induction keys with
  | nil => simp [compareBy, TiedBy]
  | cons k rest ih =>
    obtain ⟨hk, hrest⟩ := List.forall_mem_cons.mp h
    rw [compareBy_cons, Ordering.then_eq_eq, compareKey_eq_eq hk, ih hrest, TiedBy, TiedBy,
      List.forall_mem_cons]

/-! ### Sorters -/

/-- Without sort keys the records keep the order they were given in. -/
theorem sorted_eq_hits (h : s.sortKeys = []) : s.sorted = s.hits := by
  have hle (a b : α) : (s.compareRecords a b != .gt) = true := by
    rw [compareRecords, h]
    rfl
  exact List.mergeSort_of_pairwise (List.pairwise_of_forall hle)

theorem compareKeys_map (s : Selection α) (keys : List SortKey) (a b : α) :
    compareKeys keys (keys.map fun k => s.value a k.field) (keys.map fun k => s.value b k.field) =
      s.compareBy keys a b := by
  induction keys with
  | nil => rfl
  | cons k rest ih => rw [List.map_cons, List.map_cons, compareKeys, ih, compareBy_cons]

/-- To sort records behind their values is to sort them by what they hold. -/
theorem map_mergeSort_keyed (s : Selection α) :
    (s.keyed.mergeSort fun a b => compareKeys s.sortKeys a.1 b.1 != .gt).map Prod.snd =
      s.sorted := by
  have hkeyed : (s.sorted.map fun r => (s.sortKeys.map fun k => s.value r k.field, r)) =
      s.keyed.mergeSort fun a b => compareKeys s.sortKeys a.1 b.1 != .gt := by
    refine List.map_mergeSort fun a _ b _ => ?_
    rw [compareKeys_map]
    rfl
  rw [← hkeyed, List.map_map]
  exact List.map_id _

theorem perm_sortedBy {sorter : Sorter} (hsorter : sorter.IsStable) {records : List α}
    (h : s.sortedBy sorter = some records) : records.Perm s.hits := by
  rw [sortedBy] at h
  split at h
  · exact Option.some.inj h ▸ .refl _
  · obtain ⟨found, hfound, rfl⟩ := Option.map_eq_some_iff.mp h
    have hperm := (hsorter.perm hfound).map Prod.snd
    rw [keyed, List.map_map] at hperm
    exact hperm.trans (.of_eq (List.map_id _))

theorem sortedBy_merge (s : Selection α) : s.sortedBy .merge = some s.sorted := by
  rw [sortedBy]
  split
  · rw [sorted_eq_hits (List.isEmpty_iff.mp ‹_›)]
  · exact congrArg some s.map_mergeSort_keyed

/-! ### Records -/

/-- Whether the values under each sort key that are not null have a transitive order among the
records that meet the predicates. -/
structure Sortable (s : Selection α) : Prop where
  comparable : s.hits.Pairwise (s.ComparableBy s.sortKeys)
  transitive : ∀ k ∈ s.sortKeys, ∀ a ∈ s.hits, ∀ b ∈ s.hits, ∀ c ∈ s.hits,
    (s.value a k.field).AtMost (s.value b k.field) →
      (s.value b k.field).AtMost (s.value c k.field) →
      (s.value a k.field).order (s.value c k.field) ≠ .ok .gt

namespace Sortable

theorem comparableBy_of_ne (h : s.Sortable) (ha : a ∈ s.hits) (hb : b ∈ s.hits) (hne : a ≠ b) :
    s.ComparableBy s.sortKeys a b := by
  have : Std.Symm (s.ComparableBy s.sortKeys) :=
    ⟨fun _ _ hab k hk => (hab k hk).symm⟩
  exact h.comparable.forall ha hb hne

theorem isLE_trans_values (h : s.Sortable) {k : SortKey} (hk : k ∈ s.sortKeys) {c : α}
    (ha : a ∈ s.hits) (hb : b ∈ s.hits) (hc : c ∈ s.hits)
    (hab : (compareValues (s.value a k.field) (s.value b k.field)).isLE = true)
    (hbc : (compareValues (s.value b k.field) (s.value c k.field)).isLE = true) :
    (compareValues (s.value a k.field) (s.value c k.field)).isLE = true := by
  -- A record need have no order with itself, but then there is nothing to compose.
  by_cases hsame : a = b
  · exact hsame ▸ hbc
  by_cases hsame' : b = c
  · exact hsame' ▸ hab
  exact isLE_compareValues_trans (h.comparableBy_of_ne ha hb hsame k hk)
    (h.comparableBy_of_ne hb hc hsame' k hk) (h.transitive k hk a ha b hb c hc) hab hbc

theorem isLE_trans_key (h : s.Sortable) {k : SortKey} (hk : k ∈ s.sortKeys) {c : α}
    (ha : a ∈ s.hits) (hb : b ∈ s.hits) (hc : c ∈ s.hits)
    (hab : (compareKey k (s.value a k.field) (s.value b k.field)).isLE = true)
    (hbc : (compareKey k (s.value b k.field) (s.value c k.field)).isLE = true) :
    (compareKey k (s.value a k.field) (s.value c k.field)).isLE = true := by
  simp only [compareKey] at hab hbc ⊢
  cases hdirection : k.direction with
  | ascending =>
    simp only [hdirection] at hab hbc ⊢
    exact h.isLE_trans_values hk ha hb hc hab hbc
  | descending =>
    simp only [hdirection, ← compareValues_swap] at hab hbc ⊢
    exact h.isLE_trans_values hk hc hb ha hbc hab

/-- Among the records that meet the predicates the comparison by keys is a total preorder. -/
theorem transCmp (h : s.Sortable) (hkeys : ∀ k ∈ keys, k ∈ s.sortKeys) :
    Std.TransCmp fun a b : {a // a ∈ s.hits} => s.compareBy keys a.1 b.1 := by
  induction keys with
  | nil =>
    exact { eq_swap := rfl, isLE_trans := fun _ _ => rfl }
  | cons k rest ih =>
    obtain ⟨hk, hrest⟩ := List.forall_mem_cons.mp hkeys
    have := ih hrest
    have : Std.TransCmp fun a b : {a // a ∈ s.hits} =>
        compareKey k (s.value a.1 k.field) (s.value b.1 k.field) :=
      { eq_swap := compareKey_swap k _ _
        isLE_trans := fun {a b c} => h.isLE_trans_key hk a.2 b.2 c.2 }
    exact inferInstanceAs (Std.TransCmp (compareLex
      (fun a b : {a // a ∈ s.hits} => compareKey k (s.value a.1 k.field) (s.value b.1 k.field))
      fun a b : {a // a ∈ s.hits} => s.compareBy rest a.1 b.1))

theorem isLE_trans_records (h : s.Sortable) {c : α} (ha : a ∈ s.hits) (hb : b ∈ s.hits)
    (hc : c ∈ s.hits) (hab : (s.compareRecords a b).isLE = true)
    (hbc : (s.compareRecords b c).isLE = true) : (s.compareRecords a c).isLE = true := by
  have hcmp := h.transCmp fun k (hk : k ∈ s.sortKeys) => hk
  exact hcmp.isLE_trans (a := ⟨a, ha⟩) (b := ⟨b, hb⟩) (c := ⟨c, hc⟩) hab hbc

/-- Every stable sort ends with the records in the one order that they have. -/
theorem sortedBy_eq (h : s.Sortable) {sorter : Sorter} (hsorter : sorter.IsStable) :
    s.sortedBy sorter = some s.sorted := by
  rw [sortedBy]
  split
  · rw [sorted_eq_hits (List.isEmpty_iff.mp ‹_›)]
  · have hrecord (x : List Value × α) (hx : x ∈ s.keyed) :
        ∃ r ∈ s.hits, (s.sortKeys.map fun k => s.value r k.field, r) = x :=
      List.mem_map.mp hx
    have hconsistent : Consistent (fun a b => compareKeys s.sortKeys a.1 b.1) s.keyed := by
      constructor
      · intro x hx y hy
        obtain ⟨a, -, rfl⟩ := hrecord x hx
        obtain ⟨b, -, rfl⟩ := hrecord y hy
        rw [compareKeys_map, compareKeys_map, compareBy_swap]
      · intro x hx y hy z hz
        obtain ⟨a, ha, rfl⟩ := hrecord x hx
        obtain ⟨b, hb, rfl⟩ := hrecord y hy
        obtain ⟨c, hc, rfl⟩ := hrecord z hz
        simp only [compareKeys_map]
        exact h.isLE_trans_records ha hb hc
    rw [hsorter.ends hconsistent, Option.map_some, map_mergeSort_keyed]

/-- What relates the records that meet the predicates to later ones still does so when they are
sorted, where they are tied. -/
theorem pairwise_sorted (h : s.Sortable) {R : α → α → Prop} (hR : s.hits.Pairwise R) :
    s.sorted.Pairwise fun a b =>
      s.Precedes s.sortKeys a b ∨ s.TiedBy s.sortKeys a b ∧ R a b := by
  have hswap (a b : α) : s.compareRecords b a = (s.compareRecords a b).swap :=
    s.compareBy_swap s.sortKeys a b
  have hle (o : Ordering) : (o != .gt) = true ↔ o.isLE = true :=
    bne_iff_ne.trans Ordering.isLE_iff_ne_gt.symm
  have hstable : s.sorted.Pairwise fun a b =>
      (s.compareRecords a b != .gt) = true ∧ ((s.compareRecords b a != .gt) = true → R a b) := by
    refine pairwise_mergeSort_of_mem (fun a ha b hb c hc hab hbc => ?_) (fun a _ b _ => ?_) hR
    · rw [hle] at hab hbc ⊢
      exact h.isLE_trans_records ha hb hc hab hbc
    · rw [hswap a b]
      cases s.compareRecords a b <;> rfl
  have hcomparable : s.sorted.Pairwise (s.ComparableBy s.sortKeys) :=
    ((List.mergeSort_perm _ _).pairwise_iff fun hab k hk => (hab k hk).symm).mpr h.comparable
  refine (hstable.and hcomparable).imp ?_
  rintro a b ⟨⟨hmost, htied⟩, hkeys⟩
  cases hab : s.compareRecords a b with
  | lt => exact .inl ((compareBy_eq_lt hkeys).mp hab)
  | eq =>
    refine .inr ⟨(compareBy_eq_eq hkeys).mp hab, htied ?_⟩
    rw [hswap a b, hab]
    rfl
  | gt =>
    rw [hab] at hmost
    cases hmost

theorem numbered (h : s.Sortable) : s.numbered.Sortable := by
  have hhits : s.numbered.hits.map Prod.fst = s.hits := by
    rw [← hits_mapItems keepsFields_fst, mapItems_numbered]
  have hmem {x : α × Nat} (hx : x ∈ s.numbered.hits) : x.1 ∈ s.hits :=
    hhits ▸ List.mem_map_of_mem hx
  refine ⟨?_, fun k hk x hx y hy z hz => h.transitive k hk _ (hmem hx) _ (hmem hy) _ (hmem hz)⟩
  have hcomparable := h.comparable
  rw [← hhits, List.pairwise_map] at hcomparable
  exact hcomparable

/-- Integers and nulls have a transitive order. -/
theorem of_int (h : ∀ k ∈ s.sortKeys, ∀ a ∈ s.hits,
    (s.value a k.field).isNull = true ∨ ∃ n, s.value a k.field = .int n) : s.Sortable := by
  constructor
  · refine List.pairwise_of_forall_mem_list fun a ha b hb k hk => ?_
    rcases h k hk a ha with hnull | ⟨m, hm⟩
    · exact .inl hnull
    rcases h k hk b hb with hnull | ⟨n, hn⟩
    · exact .inr (.inl hnull)
    rw [hm, hn]
    exact .inr (.inr ⟨compare m.toInt n.toInt, rfl⟩)
  · rintro k hk a ha b hb c hc ⟨o, hab, hle⟩ ⟨o', hbc, hle'⟩ hac
    have hint {x : α} (hx : x ∈ s.hits) (hnull : (s.value x k.field).isNull = false) :
        ∃ n, s.value x k.field = .int n :=
      (h k hk x hx).resolve_left (by simp [hnull])
    obtain ⟨m, hm⟩ := hint ha (isNull_left_of_order hab)
    obtain ⟨n, hn⟩ := hint hb (isNull_left_of_order hbc)
    obtain ⟨p, hp⟩ := hint hc (isNull_left_of_order (order_swap hac))
    rw [hm, hn] at hab
    rw [hn, hp] at hbc
    rw [hm, hp] at hac
    obtain rfl := Except.ok.inj hab
    obtain rfl := Except.ok.inj hbc
    have hgt : p.toInt < m.toInt := Int.compare_eq_gt.mp (Except.ok.inj hac)
    rw [Int.compare_ne_gt] at hle hle'
    omega

end Sortable

theorem precedes_numbered (s : Selection α) (keys : List SortKey) (x y : α × Nat) :
    s.numbered.Precedes keys x y ↔ s.Precedes keys x.1 y.1 := by
  induction keys with
  | nil => rfl
  | cons k rest ih => exact or_congr Iff.rfl (and_congr Iff.rfl ih)

/-- The result without bounds, each record with its place: every record that meets the predicates
stands in it once, and of any two records the first comes before the second by the keys, or is
tied with it and was given before it. -/
theorem list_sorted_stably (s : Selection α) (h : s.Sortable) :
    ∃ places : List (α × Nat),
      places.Perm (s.items.zipIdx.filter fun x => s.predicates.all (s.satisfies x.1)) ∧
      places.map Prod.fst = ({ s with window := {} } : Selection α).list ∧
      places.Pairwise fun x y =>
        s.Precedes s.sortKeys x.1 y.1 ∨ s.TiedBy s.sortKeys x.1 y.1 ∧ x.2 < y.2 := by
  have hplaces : s.items.zipIdx.Pairwise fun x y => x.2 < y.2 := by
    have hrange := List.pairwise_lt_range' (s := 0) (n := s.items.length)
    rw [← List.zipIdx_map_snd, List.pairwise_map] at hrange
    exact hrange
  refine ⟨s.numbered.sorted, List.mergeSort_perm _ _, s.sorted_numbered, ?_⟩
  refine (h.numbered.pairwise_sorted (hplaces.sublist List.filter_sublist)).imp ?_
  intro x y hxy
  exact hxy.imp (precedes_numbered s _ x y).mp id

/-- Texts of numbers and a null by a descending key, with two records that are tied. -/
theorem list_sorted_stably_of_ties :
    ∃ s : Selection Row,
      s = order ["-a"] ⟨[⟨[("a", .text "9")]⟩, ⟨[("a", .null)]⟩, ⟨[("a", .text "12")]⟩,
        ⟨[("a", .int 9)]⟩], .ofList [("a", .integer)], [], [], {}⟩ ∧
      s.Sortable ∧
      ∃ places : List (Row × Nat), places.Perm s.items.zipIdx ∧
        places.map Prod.fst = s.list ∧
        places.Pairwise fun x y =>
          s.Precedes s.sortKeys x.1 y.1 ∨ s.TiedBy s.sortKeys x.1 y.1 ∧ x.2 < y.2 := by
  refine ⟨_, rfl, ?_⟩
  have hsortable : (order ["-a"] ⟨[⟨[("a", .text "9")]⟩, ⟨[("a", .null)]⟩, ⟨[("a", .text "12")]⟩,
      ⟨[("a", .int 9)]⟩], .ofList [("a", .integer)], [], [], {}⟩ : Selection Row).Sortable := by
    refine .of_int (List.forall_mem_singleton.mpr ?_)
    refine List.forall_mem_cons.mpr ⟨.inr ⟨9, rfl⟩, List.forall_mem_cons.mpr ⟨.inl rfl, ?_⟩⟩
    exact List.forall_mem_cons.mpr ⟨.inr ⟨12, rfl⟩, List.forall_mem_singleton.mpr (.inr ⟨9, rfl⟩)⟩
  exact ⟨hsortable, list_sorted_stably _ hsortable⟩

end Selection

end QueryChain
