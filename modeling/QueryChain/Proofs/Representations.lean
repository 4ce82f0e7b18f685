import Mathlib.Data.List.Perm.Basic
import QueryChain.Proofs.Interleaving
import QueryChain.Proofs.Numbering

/-!
Records in other forms. The entries of a row may be held in a dictionary, in whatever order, or in
a JSON object, whose values become native again when a field is read. All of them have the same
fields, and since a selection sees nothing else, a program shows the same places, counts and
failures over each of them.
-/

namespace QueryChain

/-! ### Entries -/

section

variable {α β : Type} {entries entries' : List (String × α)}

theorem mem_of_lookup {key : String} {value : α} (h : entries.lookup key = some value) :
    (key, value) ∈ entries := by
  obtain ⟨before, after, rfl, -⟩ := List.lookup_eq_some_iff.mp h
  exact List.mem_append_right before List.mem_cons_self

theorem lookup_of_mem (hkeys : (entries.map Prod.fst).Nodup) {key : String} {value : α}
    (h : (key, value) ∈ entries) : entries.lookup key = some value := by
  obtain ⟨before, after, rfl⟩ := List.append_of_mem h
  refine List.lookup_eq_some_iff.mpr ⟨before, after, rfl, fun e he => ?_⟩
  rw [List.map_append, List.map_cons] at hkeys
  have hne : e.1 ≠ key :=
    (List.nodup_append.mp hkeys).2.2 e.1 (List.mem_map_of_mem he) key List.mem_cons_self
  simpa using hne.symm

/-- Where each key occurs once, the order of the entries does not matter. -/
theorem lookup_of_perm (h : entries'.Perm entries) (hkeys : (entries.map Prod.fst).Nodup)
    (key : String) : entries'.lookup key = entries.lookup key := by
  have hkeys' : (entries'.map Prod.fst).Nodup := (h.map Prod.fst).nodup_iff.mpr hkeys
  apply Option.ext
  intro value
  constructor
  · exact fun hvalue => lookup_of_mem hkeys (h.mem_iff.mp (mem_of_lookup hvalue))
  · exact fun hvalue => lookup_of_mem hkeys' (h.mem_iff.mpr (mem_of_lookup hvalue))

theorem lookup_map_values (f : α → β) (entries : List (String × α)) (key : String) :
    (entries.map fun e => (e.1, f e.2)).lookup key = (entries.lookup key).map f := by
  induction entries with
  | nil => rfl
  | cons e rest ih =>
    rw [List.map_cons, List.lookup_cons, List.lookup_cons, ih]
    cases key == e.1 <;> rfl

theorem insertEntry_perm {key : String} {value : α} (h : key ∉ entries.map Prod.fst) :
    (insertEntry key value entries).Perm ((key, value) :: entries) := by
  induction entries with
  | nil => exact .refl _
  | cons e rest ih =>
    rw [List.map_cons, List.mem_cons, not_or] at h
    rw [insertEntry, if_neg h.1]
    split
    · exact .refl _
    · exact ((ih h.2).cons e).trans (.swap _ _ _)

theorem foldl_insertEntry_perm (front : List (String × α))
    (h : ((front ++ entries).map Prod.fst).Nodup) :
    (entries.foldl (fun acc e => insertEntry e.1 e.2 acc) front).Perm (front ++ entries) := by
  induction entries generalizing front with
  | nil => exact .of_eq (List.append_nil front).symm
  | cons e rest ih =>
    have hmiddle : (front ++ e :: rest).Perm (e :: front ++ rest) := List.perm_middle
    have hkeys : ((e :: front ++ rest).map Prod.fst).Nodup :=
      (hmiddle.map Prod.fst).nodup_iff.mp h
    have hnew : e.1 ∉ front.map Prod.fst := fun hmem =>
      (List.nodup_cons.mp hkeys).1 (List.map_append ▸ List.mem_append_left _ hmem)
    have hinsert : (insertEntry e.1 e.2 front ++ rest).Perm (e :: front ++ rest) :=
      (insertEntry_perm hnew).append_right rest
    rw [List.foldl_cons]
    exact (ih _ ((hinsert.map Prod.fst).nodup_iff.mpr hkeys)).trans (hinsert.trans hmiddle.symm)

/-- Entries with distinct keys are all kept when they are sorted. -/
theorem sortedEntries_perm (h : (entries.map Prod.fst).Nodup) :
    (sortedEntries entries).Perm entries :=
  foldl_insertEntry_perm [] h

end

/-! ### Values -/

namespace Value

/-- The values that JSON holds without loss: nulls, booleans, integers, texts, JSON objects, and
lists of such values. -/
inductive Plain : Value → Prop
  | null : Plain .null
  | bool (b : Bool) : Plain (.bool b)
  | int (n : Int64) : Plain (.int n)
  | text (s : String) : Plain (.text s)
  | object (members : List (String × Json)) : Plain (.json (.object members))
  | list {items : List Value} : (∀ v ∈ items, Plain v) → Plain (.list items)

theorem Plain.ofJson_toJson {v : Value} (h : v.Plain) : ofJson v.toJson = v := by
  induction h with
  | null | bool b | text s | object members => rfl
  | int n =>
    have hlt := n.toInt_lt
    have hwhole : (Value.int n).toJson = .ofInt64 n := rfl
    rw [hwhole, Json.ofInt64, ofJson, if_pos (by omega), Int64.ofInt_toInt]
  | @list items _ ih =>
    have hsame : items.map (ofJson ∘ toJson) = items :=
      (List.map_congr_left ih).trans (List.map_id items)
    rw [toJson_list, ofJson, ofJsonItems_eq_map, List.map_map, hsame]

end Value

/-! ### Records -/

structure View where
  field? : String → Option Value

instance : Record View where
  field? v := v.field?

def Record.view {α : Type} [Record α] (a : α) : View :=
  ⟨Record.field? a⟩

theorem keepsFields_view {α : Type} [Record α] : KeepsFields (Record.view : α → View) :=
  fun _ => rfl

theorem Record.field?_of_perm {d : Dictionary} {r : Row} (h : d.entries.Perm r.cells)
    (hcolumns : r.columns.Nodup) : Record.field? d = Record.field? r :=
  funext fun name => lookup_of_perm h hcolumns name

theorem Record.field?_toJson {r : Row} (hcolumns : r.columns.Nodup)
    (hplain : ∀ v ∈ r.values, v.Plain) : Record.field? r.toJson = Record.field? r := by
  funext name
  have hkeys : ((r.cells.map fun e => (e.1, e.2.toJson)).map Prod.fst).Nodup := by
    rw [List.map_map]
    exact hcolumns
  have hmember : Json.member? name r.toJson = (r.cells.lookup name).map Value.toJson := by
    rw [← lookup_map_values, ← lookup_of_perm (sortedEntries_perm hkeys) hkeys]
    rfl
  show (Json.member? name r.toJson).map Value.ofJson = r.cells.lookup name
  rw [hmember]
  cases hcell : r.cells.lookup name with
  | none => rfl
  | some v =>
    have hv : v ∈ r.values := List.mem_map_of_mem (mem_of_lookup hcell)
    exact congrArg some (hplain v hv).ofJson_toJson

/-! ### Programs -/

namespace Selection

inductive Step
  | call (op : Operation)
  | get (pairs : List (String × Value))

/-- What a step shows: the places of the selected records in their order with the number of
matches, the place of the only record, or a failure. -/
inductive Answer
  | selected (places : List Nat) (count : Nat)
  | found (place : Nat)
  | refused (e : Failure)

variable {α β : Type}

section

variable [Record α]

def shown (s : Selection α) : Answer :=
  .selected (s.numbered.list.map Prod.snd) s.count

def asked (pairs : List (String × Value)) (s : Selection α) : Answer :=
  match s.numbered.get pairs with
  | .ok record => .found record.2
  | .error e => .refused e

/-- What a program shows: each selection that it comes to, and the answer to each question. A call
that is refused leaves the selection as it is. -/
def answers (s : Selection α) : List Step → List Answer
  | [] => [s.shown]
  | .get pairs :: rest => s.asked pairs :: s.answers rest
  | .call op :: rest =>
    match op.run s with
    | .ok next => s.shown :: next.answers rest
    | .error e => .refused e :: s.answers rest

end

theorem addPredicates_mapItems (f : α → β) (s : Selection α) (negated : Bool)
    (pairs : List (String × Value)) :
    (s.mapItems f).addPredicates negated pairs =
      (s.addPredicates negated pairs).map (mapItems f) := by
  simp only [addPredicates]
  cases pairs.mapM fun x => Predicate.ofKey negated x.1 x.2 <;> rfl

/-- No call looks at the records. -/
theorem Operation.run_mapItems (f : α → β) (s : Selection α) (op : Operation) :
    op.run (s.mapItems f) = (op.run s).map (mapItems f) := by
  cases op with
  | filter pairs | exclude pairs => exact addPredicates_mapItems f s _ pairs
  | search field needle =>
    simp only [run, Selection.search]
    split
    · rfl
    · exact addPredicates_mapItems f s _ _
  | order _ | withFields _ | limit _ | offset _ | slice _ _ | paginate _ _ => rfl

variable [Record α] [Record β] {f : α → β}

theorem get_mapItems (hf : KeepsFields f) (s : Selection α) (pairs : List (String × Value)) :
    (s.mapItems f).get pairs = (s.get pairs).map f := by
  have hfilter : (s.mapItems f).filter pairs = (s.filter pairs).map (mapItems f) :=
    addPredicates_mapItems f s _ pairs
  rw [get, hfilter, get]
  cases s.filter pairs with
  | error e => rfl
  | ok narrowed =>
    simp only [Except.map, list_mapItems hf]
    cases narrowed.list with
    | nil => rfl
    | cons record rest => cases rest <;> rfl

theorem keepsFields_numbered (hf : KeepsFields f) :
    KeepsFields (Prod.map f id : α × Nat → β × Nat) :=
  fun x => hf x.1

theorem shown_mapItems (hf : KeepsFields f) (s : Selection α) :
    (s.mapItems f).shown = s.shown := by
  rw [shown, numbered_mapItems, list_mapItems (keepsFields_numbered hf), List.map_map,
    count_mapItems hf]
  rfl

theorem asked_mapItems (hf : KeepsFields f) (s : Selection α) (pairs : List (String × Value)) :
    (s.mapItems f).asked pairs = s.asked pairs := by
  rw [asked, numbered_mapItems, get_mapItems (keepsFields_numbered hf), asked]
  cases s.numbered.get pairs <;> rfl

/-- A program shows the same where the records have the same fields. -/
theorem answers_mapItems (hf : KeepsFields f) (s : Selection α) (program : List Step) :
    (s.mapItems f).answers program = s.answers program := by
  induction program generalizing s with
  | nil => exact congrArg (fun x => [x]) (shown_mapItems hf s)
  | cons step rest ih =>
    cases step with
    | get pairs => rw [answers, asked_mapItems hf, ih, answers]
    | call op =>
      rw [answers, Operation.run_mapItems, answers]
      cases op.run s with
      | error e => exact congrArg _ (ih s)
      | ok next =>
        show (s.mapItems f).shown :: (next.mapItems f).answers rest = s.shown :: next.answers rest
        rw [shown_mapItems hf, ih]

theorem answers_congr {s : Selection α} {t : Selection β}
    (h : s.mapItems Record.view = t.mapItems Record.view) (program : List Step) :
    s.answers program = t.answers program := by
  rw [← answers_mapItems keepsFields_view s, h, answers_mapItems keepsFields_view]

theorem answers_of_fields {s : Selection α} {g : α → β}
    (h : ∀ a ∈ s.items, Record.field? (g a) = Record.field? a) (program : List Step) :
    (s.mapItems g).answers program = s.answers program := by
  refine answers_congr ?_ program
  rw [mapItems, mapItems, mapItems, List.map_map]
  exact congrArg (fun items => ({ s with items } : Selection View))
    (List.map_congr_left fun a ha => congrArg View.mk (h a ha))

/-! ### Rows in other forms -/

theorem view_of_forall₂ {rows : List Row} {dictionaries : List Dictionary}
    (hcolumns : ∀ r ∈ rows, r.columns.Nodup)
    (h : List.Forall₂ (fun r d => d.entries.Perm r.cells) rows dictionaries) :
    dictionaries.map Record.view = rows.map Record.view := by
  induction h with
  | nil => rfl
  | cons hperm _ ih =>
    obtain ⟨hcolumns, hrest⟩ := List.forall_mem_cons.mp hcolumns
    rw [List.map_cons, List.map_cons, ih hrest]
    exact congrArg (View.mk · :: _) (Record.field?_of_perm hperm hcolumns)

/-- A program shows the same places, counts and failures over rows, over dictionaries with the
entries of the rows in any order, and over the JSON objects of the rows. -/
theorem answers_of_rows (s : Selection Row) (hcolumns : ∀ r ∈ s.items, r.columns.Nodup)
    (hplain : ∀ r ∈ s.items, ∀ v ∈ r.values, v.Plain) (program : List Step) :
    (∀ dictionaries : List Dictionary,
      List.Forall₂ (fun r d => d.entries.Perm r.cells) s.items dictionaries →
      ({ s with items := dictionaries } : Selection Dictionary).answers program =
        s.answers program) ∧
    (s.mapItems fun r => Dictionary.ofList r.cells).answers program = s.answers program ∧
    (s.mapItems Row.toJson).answers program = s.answers program := by
  refine ⟨fun dictionaries hentries => ?_, answers_of_fields (fun r hr => ?_) program,
    answers_of_fields (fun r hr => ?_) program⟩
  · refine answers_congr ?_ program
    exact congrArg (fun items => ({ s with items } : Selection View))
      (view_of_forall₂ hcolumns hentries)
  · exact Record.field?_of_perm (sortedEntries_perm (hcolumns r hr)) (hcolumns r hr)
  · exact Record.field?_toJson (hcolumns r hr) (hplain r hr)

/-- A list that holds an object, a text that counts as a number, and a dictionary in another
order. -/
theorem answers_of_rows_of_nested :
    ∃ (s : Selection Row) (program : List Step),
      s = ⟨[⟨[("b", .list [.json (.object [("k", .null)]), .int 7]), ("a", .text "2")]⟩,
        ⟨[("a", .null)]⟩], .ofList [("a", .integer)], [], [], {}⟩ ∧
      program = [.call (.order ["-a"]), .call (.exclude [("b__contains", .text "k")]),
        .get [("a", .int 2)]] ∧
      ({ s with items := [⟨[("a", .text "2"),
        ("b", .list [.json (.object [("k", .null)]), .int 7])]⟩, ⟨[("a", .null)]⟩] } :
          Selection Dictionary).answers program = s.answers program ∧
      (s.mapItems Row.toJson).answers program = s.answers program := by
  refine ⟨_, _, rfl, rfl, ?_⟩
  obtain ⟨hdictionaries, -, hjson⟩ := answers_of_rows
    ⟨[⟨[("b", .list [.json (.object [("k", .null)]), .int 7]), ("a", .text "2")]⟩,
      ⟨[("a", .null)]⟩], .ofList [("a", .integer)], [], [], {}⟩
    (List.forall_mem_cons.mpr ⟨by decide, List.forall_mem_singleton.mpr (by decide)⟩)
    (List.forall_mem_cons.mpr ⟨List.forall_mem_cons.mpr ⟨.list (List.forall_mem_cons.mpr
      ⟨.object _, List.forall_mem_singleton.mpr (.int 7)⟩),
        List.forall_mem_singleton.mpr (.text "2")⟩,
      List.forall_mem_singleton.mpr (List.forall_mem_singleton.mpr .null)⟩)
    [.call (.order ["-a"]), .call (.exclude [("b__contains", .text "k")]), .get [("a", .int 2)]]
  exact ⟨hdictionaries _ (.cons (.swap _ _ _) (.cons (.refl _) .nil)), hjson⟩

end Selection

end QueryChain
