import Mathlib.Data.List.Basic
import QueryChain.Json.Library

/-!
JSON texts as a grammar, and what a library promises that writes and reads them: it writes compact
text, and reads whatever the grammar derives within the depth that is read. The compact text of a
value without floats is determined, and the grammar derives it for that value and no other; neither
is promised of floats.
-/

namespace QueryChain

open Number

namespace Json

/-! ### Strings -/

/-- Whether a text inside of quotes stands for one character: the character itself, its own escape,
or four hexadecimal digits. Surrogates are left out. -/
inductive SpellsChar : List Char → Char → Prop
  | plain {c : Char} (quote : c ≠ '"') (backslash : c ≠ '\\') (control : ¬ c.toNat < 0x20) :
      SpellsChar [c] c
  | simple {e c : Char} (h : simpleEscape? e = some c) : SpellsChar ['\\', e] c
  | unit {a b c d : Char} {n : Nat} (h : hexUnit? a b c d = some n)
      (low : isLowSurrogate n = false) (high : isHighSurrogate n = false) :
      SpellsChar ['\\', 'u', a, b, c, d] (Char.ofNat n)

inductive Spells : List Char → List Char → Prop
  | nil : Spells [] []
  | cons {run cs s : List Char} {c : Char} (first : SpellsChar run c) (rest : Spells cs s) :
      Spells (run ++ cs) (c :: s)

/-! ### Values -/

/-- A member of an object with the text of its key between the quotes and that of its value. -/
structure Member where
  key : String
  value : Json
  keyText : List Char
  text : List Char

def Member.chars (m : Member) : List Char :=
  '"' :: m.keyText ++ '"' :: ':' :: m.text

/-- `Denotes depth cs j`: the text `cs` without blanks stands for `j` and nests arrays and objects
no deeper than `depth`. Of members with one key the last counts. -/
inductive Denotes : Nat → List Char → Json → Prop
  | null {depth : Nat} : Denotes depth "null".toList .null
  | bool {depth : Nat} (b : Bool) : Denotes depth (toString b).toList (.bool b)
  | whole {depth : Nat} (n : Whole) : Denotes depth (intChars n.val) (.whole n)
  | text {depth : Nat} {cs : List Char} {s : String} (h : Spells cs s.toList) :
      Denotes depth ('"' :: cs ++ ['"']) (.text s)
  | array {depth : Nat} {items : List (List Char × Json)}
      (each : ∀ x ∈ items, Denotes depth x.1 x.2) :
      Denotes (depth + 1) ('[' :: [','].intercalate (items.map Prod.fst) ++ [']'])
        (.array (items.map Prod.snd))
  | object {depth : Nat} {members : List Member}
      (keys : ∀ m ∈ members, Spells m.keyText m.key.toList)
      (each : ∀ m ∈ members, Denotes depth m.text m.value) :
      Denotes (depth + 1)
        (Char.ofNat 0x7B :: [','].intercalate (members.map Member.chars) ++ [Char.ofNat 0x7D])
        (.ofMembers (members.map fun m => (m.key, m.value)))

/-! ### Compact text -/

/-- Whether a writer leaves no blanks and escapes no more than it has to. How it writes floats is
left open. -/
structure IsCompact (write : Json → List Char) : Prop where
  null : write .null = "null".toList
  bool (b : Bool) : write (.bool b) = (toString b).toList
  whole (n : Whole) : write (.whole n) = intChars n.val
  text (s : String) : write (.text s) = stringChars s
  array (items : List Json) :
    write (.array items) = '[' :: [','].intercalate (items.map write) ++ [']']
  object (members : List (String × Json)) :
    write (.object members) = Char.ofNat 0x7B ::
      [','].intercalate (members.map fun m => stringChars m.1 ++ ':' :: write m.2) ++
        [Char.ofNat 0x7D]

end Json

/-- What is relied on of a library for JSON text. -/
structure JsonLibrary.IsDocumented (lib : JsonLibrary) : Prop where
  serializes : ∃ write, Json.IsCompact write ∧
    ∀ j, lib.serialize? j = some (String.ofList (write j))
  displays : Json.IsCompact fun j => (lib.display j).toList
  parses {cs : List Char} {j : Json} (h : Json.Denotes Json.maxDepth cs j) :
    lib.parse? (String.ofList cs) = some j

namespace Json

/-! ### Values without floats -/

/-- Whether a value holds no float. Members stand in the order of their keys, one for each key. -/
inductive Integral : Json → Prop
  | null : Integral .null
  | bool (b : Bool) : Integral (.bool b)
  | whole (n : Whole) : Integral (.whole n)
  | text (s : String) : Integral (.text s)
  | array {items : List Json} (each : ∀ j ∈ items, Integral j) : Integral (.array items)
  | object {members : List (String × Json)} (ordered : members.Pairwise (·.1 < ·.1))
      (each : ∀ m ∈ members, Integral m.2) : Integral (.object members)

mutual

def depth : Json → Nat
  | .array items => itemDepth items + 1
  | .object members => memberDepth members + 1
  | _ => 0

def itemDepth : List Json → Nat
  | [] => 0
  | j :: rest => max (depth j) (itemDepth rest)

def memberDepth : List (String × Json) → Nat
  | [] => 0
  | (_, j) :: rest => max (depth j) (memberDepth rest)

end

theorem depth_le_itemDepth {items : List Json} {j : Json} (h : j ∈ items) :
    j.depth ≤ itemDepth items := by
  induction items with
  | nil => cases h
  | cons k rest ih =>
    rw [itemDepth]
    rcases List.mem_cons.mp h with rfl | h
    · exact Nat.le_max_left _ _
    · exact Nat.le_trans (ih h) (Nat.le_max_right _ _)

theorem depth_le_memberDepth {members : List (String × Json)} {m : String × Json}
    (h : m ∈ members) : m.2.depth ≤ memberDepth members := by
  induction members with
  | nil => cases h
  | cons k rest ih =>
    rw [memberDepth]
    rcases List.mem_cons.mp h with rfl | h
    · exact Nat.le_max_left _ _
    · exact Nat.le_trans (ih h) (Nat.le_max_right _ _)

/-! ### Escapes -/

theorem hexValue?_digitChar : ∀ n < 16, hexValue? n.digitChar = some n := by
  decide

/-- The two last digits of a control tell its code. -/
theorem hexUnit?_control {n : Nat} (hn : n < 0x20) :
    hexUnit? '0' '0' (n / 16).digitChar (n % 16).digitChar = some n := by
  have hzero : hexValue? '0' = some 0 := rfl
  rw [hexUnit?, hzero, hexValue?_digitChar (n / 16) (by omega),
    hexValue?_digitChar (n % 16) (by omega)]
  show some _ = _
  congr 1
  omega

def named : List Char := ['"', '\\', '\x08', '\x0c', '\n', '\r', '\t']

theorem escape_of_not_named {c : Char} (h : c ∉ named) :
    escape c =
      if c.toNat < 0x20 then
        ['\\', 'u', '0', '0', (c.toNat / 16).digitChar, (c.toNat % 16).digitChar]
      else [c] := by
  simp only [named, List.mem_cons, List.not_mem_nil, or_false, not_or] at h
  obtain ⟨hquote, hback, hb, hf, hn, hr, ht⟩ := h
  rw [escape, if_neg hquote, if_neg hback, if_neg hb, if_neg hf, if_neg hn, if_neg hr, if_neg ht]
  by_cases hlow : c.toNat < 0x10
  · rw [if_pos hlow, if_pos (by omega), Nat.toDigits_of_lt_base hlow, Nat.div_eq_of_lt hlow,
      Nat.mod_eq_of_lt hlow]
    rfl
  · rw [if_neg hlow]
    split
    · rw [Nat.toDigits_of_base_le (by decide) (by omega), Nat.toDigits_of_lt_base (by omega)]
      rfl
    · rfl

theorem SpellsChar.control {c : Char} (h : c.toNat < 0x20) :
    SpellsChar ['\\', 'u', '0', '0', (c.toNat / 16).digitChar, (c.toNat % 16).digitChar] c := by
  have hlow : isLowSurrogate c.toNat = false := by
    simp only [isLowSurrogate, Bool.and_eq_false_iff, decide_eq_false_iff_not]
    omega
  have hhigh : isHighSurrogate c.toNat = false := by
    simp only [isHighSurrogate, Bool.and_eq_false_iff, decide_eq_false_iff_not]
    omega
  have hunit := SpellsChar.unit (hexUnit?_control h) hlow hhigh
  rwa [Char.ofNat_toNat] at hunit

/-- A character is spelled by its escape. -/
theorem spellsChar_escape (c : Char) : SpellsChar (escape c) c := by
  by_cases hnamed : c ∈ named
  · simp only [named, List.mem_cons, List.not_mem_nil, or_false] at hnamed
    rcases hnamed with rfl | rfl | rfl | rfl | rfl | rfl | rfl <;> exact .simple rfl
  · rw [escape_of_not_named hnamed]
    split
    · exact .control ‹_›
    · simp only [named, List.mem_cons, not_or] at hnamed
      exact .plain hnamed.1 hnamed.2.1 ‹_›

theorem spells_escaped (s : List Char) : Spells (s.flatMap escape) s := by
  induction s with
  | nil => exact .nil
  | cons c s ih => exact .cons (spellsChar_escape c) ih

/-! ### Members in order -/

theorem insertEntry_above {α : Type} {entries : List (String × α)} {key : String} {value : α}
    (h : ∀ e ∈ entries, e.1 < key) :
    insertEntry key value entries = entries ++ [(key, value)] := by
  induction entries with
  | nil => rfl
  | cons e rest ih =>
    have he : e.1 < key := h e List.mem_cons_self
    have hne : key ≠ e.1 := (String.ne_of_lt he).symm
    rw [insertEntry, if_neg (String.lt_asymm he), if_neg hne,
      ih fun x hx => h x (List.mem_cons_of_mem e hx)]
    rfl

theorem foldl_insertEntry {α : Type} (front : List (String × α)) {rest : List (String × α)}
    (h : (front ++ rest).Pairwise (·.1 < ·.1)) :
    rest.foldl (fun acc e => insertEntry e.1 e.2 acc) front = front ++ rest := by
  induction rest generalizing front with
  | nil => exact (List.append_nil front).symm
  | cons e rest ih =>
    have habove : ∀ x ∈ front, x.1 < e.1 := fun x hx =>
      (List.pairwise_append.mp h).2.2 x hx e List.mem_cons_self
    rw [List.foldl_cons, insertEntry_above habove, ih _ (by simpa using h), List.append_assoc]
    rfl

/-- Entries in the order of their keys stay as they are. -/
theorem sortedEntries_of_pairwise {α : Type} {entries : List (String × α)}
    (h : entries.Pairwise (·.1 < ·.1)) : sortedEntries entries = entries :=
  foldl_insertEntry [] h

/-! ### What compact text stands for -/

namespace IsCompact

variable {write write' : Json → List Char} {j : Json}

/-- Two compact writers differ in floats only. -/
theorem unique (hw : IsCompact write) (hw' : IsCompact write') (h : j.Integral) :
    write j = write' j := by
  induction h with
  | null => rw [hw.null, hw'.null]
  | bool b => rw [hw.bool, hw'.bool]
  | whole n => rw [hw.whole, hw'.whole]
  | text s => rw [hw.text, hw'.text]
  | array each ih => rw [hw.array, hw'.array, List.map_congr_left ih]
  | object ordered each ih =>
    rw [hw.object, hw'.object, List.map_congr_left fun m hm => by rw [ih m hm]]

/-- Compact text stands for the value it was written for. -/
theorem denotes (hw : IsCompact write) (h : j.Integral) {depth : Nat} (hdepth : j.depth ≤ depth) :
    Denotes depth (write j) j := by
  induction h generalizing depth with
  | null =>
    rw [hw.null]
    exact .null
  | bool b =>
    rw [hw.bool]
    exact .bool b
  | whole n =>
    rw [hw.whole]
    exact .whole n
  | text s =>
    rw [hw.text]
    exact .text (spells_escaped s.toList)
  | @array items each ih =>
    obtain _ | depth := depth
    · cases hdepth
    · have hitems := @Denotes.array depth (items.map fun j => (write j, j))
        (List.forall_mem_map.mpr fun j hj => ih j hj <|
          Nat.le_trans (depth_le_itemDepth hj) (Nat.le_of_succ_le_succ hdepth))
      rw [hw.array]
      simpa [Function.comp_def] using hitems
  | @object members ordered each ih =>
    obtain _ | depth := depth
    · cases hdepth
    · have hmembers := @Denotes.object depth
        (members.map fun m => ⟨m.1, m.2, m.1.toList.flatMap escape, write m.2⟩)
        (List.forall_mem_map.mpr fun m _ => spells_escaped m.1.toList)
        (List.forall_mem_map.mpr fun m hm => ih m hm <|
          Nat.le_trans (depth_le_memberDepth hm) (Nat.le_of_succ_le_succ hdepth))
      rw [hw.object]
      simpa [Function.comp_def, Member.chars, stringChars, ofMembers,
        sortedEntries_of_pairwise ordered] using hmembers

end IsCompact

end Json

end QueryChain
