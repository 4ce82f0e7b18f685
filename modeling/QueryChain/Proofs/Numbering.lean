import Mathlib.Data.List.Basic
import QueryChain.Records.Selection

/-!
What a selection sees of its records. It reads their fields and nothing else, so a function that
keeps the fields may be applied to the records before or after they are selected. With each record
numbered by its place, the records that are selected show their places.
-/

namespace QueryChain

def KeepsFields {α β : Type} [Record α] [Record β] (f : α → β) : Prop :=
  ∀ a, Record.field? (f a) = Record.field? a

theorem Window.cut_map {α β : Type} (w : Window) (f : α → β) (items : List α) :
    w.cut (items.map f) = (w.cut items).map f := by
  cases h : w.limit <;> simp [Window.cut, h, List.map_drop, List.map_take]

namespace Selection

variable {α β : Type}

def mapItems (f : α → β) (s : Selection α) : Selection β :=
  { s with items := s.items.map f }

section

variable [Record α] [Record β] {f : α → β}

theorem value_mapItems (hf : KeepsFields f) (s : Selection α) (a : α) (field : String) :
    (s.mapItems f).value (f a) field = s.value a field := by
  rw [value, hf, value, mapItems]

theorem satisfies_mapItems (hf : KeepsFields f) (s : Selection α) (a : α) (p : Predicate) :
    (s.mapItems f).satisfies (f a) p = s.satisfies a p := by
  rw [satisfies, value_mapItems hf, satisfies, mapItems]

theorem hits_mapItems (hf : KeepsFields f) (s : Selection α) :
    (s.mapItems f).hits = s.hits.map f := by
  rw [hits, mapItems, List.filter_map, hits]
  refine congrArg (List.map f) (List.filter_congr fun a _ => ?_)
  exact congrArg s.predicates.all (funext (satisfies_mapItems hf s a))

theorem compareRecords_mapItems (hf : KeepsFields f) (s : Selection α) (a b : α) :
    (s.mapItems f).compareRecords (f a) (f b) = s.compareRecords a b := by
  simp only [compareRecords, value_mapItems hf]
  rfl

theorem sorted_mapItems (hf : KeepsFields f) (s : Selection α) :
    (s.mapItems f).sorted = s.sorted.map f := by
  rw [sorted, hits_mapItems hf, sorted]
  refine (List.map_mergeSort fun a _ b _ => ?_).symm
  rw [compareRecords_mapItems hf]

theorem list_mapItems (hf : KeepsFields f) (s : Selection α) :
    (s.mapItems f).list = s.list.map f := by
  rw [list, sorted_mapItems hf, Window.cut_map, list, mapItems]

theorem count_mapItems (hf : KeepsFields f) (s : Selection α) :
    (s.mapItems f).count = s.count := by
  rw [count, hits_mapItems hf, List.length_map, count]

end

/-! ### Places -/

instance [Record α] : Record (α × Nat) where
  field? x := Record.field? x.1

theorem keepsFields_fst [Record α] : KeepsFields (Prod.fst : α × Nat → α) :=
  fun _ => rfl

/-- The selection with each record numbered by its place. -/
def numbered (s : Selection α) : Selection (α × Nat) :=
  { s with items := s.items.zipIdx }

theorem mapItems_numbered (s : Selection α) : s.numbered.mapItems Prod.fst = s := by
  rw [mapItems, numbered, List.zipIdx_map_fst]

theorem numbered_mapItems (f : α → β) (s : Selection α) :
    (s.mapItems f).numbered = s.numbered.mapItems (Prod.map f id) := by
  rw [numbered, mapItems, List.zipIdx_map, mapItems, numbered]

theorem sorted_numbered [Record α] (s : Selection α) :
    s.numbered.sorted.map Prod.fst = s.sorted := by
  rw [← sorted_mapItems keepsFields_fst, mapItems_numbered]

end Selection

end QueryChain
