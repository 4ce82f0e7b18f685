import QueryChain.Proofs.JsonGrammar
import QueryChain.Proofs.Numerals

/-!
The project's own writer and reader of JSON text. The writer is compact, and the reader takes every
text that the grammar derives for the value that it stands for, so together they are a library as it
is relied on.
-/

namespace QueryChain

open Number

namespace Json

/-! ### The writer -/

theorem itemChars_cons_cons (j k : Json) (items : List Json) :
    itemChars (j :: k :: items) = j.chars ++ ',' :: itemChars (k :: items) := rfl

theorem itemChars_eq_intercalate (items : List Json) :
    itemChars items = [','].intercalate (items.map chars) := by
  induction items with
  | nil => rfl
  | cons j items ih =>
    cases items with
    | nil => exact List.intercalate_singleton.symm
    | cons k items =>
      rw [itemChars_cons_cons, ih]
      simp

theorem memberChars_eq_intercalate (members : List (String × Json)) :
    memberChars members =
      [','].intercalate (members.map fun m => stringChars m.1 ++ ':' :: m.2.chars) := by
  induction members with
  | nil => rfl
  | cons m members ih =>
    cases members with
    | nil => exact List.intercalate_singleton.symm
    | cons k members =>
      rw [memberChars, ih]
      · simp
      · exact List.cons_ne_nil _ _

theorem isCompact_chars : IsCompact chars where
  null := rfl
  bool b := by cases b <;> rfl
  whole _ := rfl
  text _ := rfl
  array items := by rw [chars, itemChars_eq_intercalate]
  object members := by rw [chars, memberChars_eq_intercalate]

theorem length_le_flatMap_escape (s : List Char) : s.length ≤ (s.flatMap escape).length := by
  induction s with
  | nil => exact Nat.le_refl 0
  | cons c s ih =>
    have hescape : 0 < (escape c).length := by
      rw [escape]
      repeat' split
      all_goals simp
    rw [List.flatMap_cons, List.length_append, List.length_cons]
    omega

/-! ### Strings -/

theorem readString_named {e c : Char} (he : e ≠ 'u') (hc : simpleEscape? e = some c)
    {cs s tail : List Char} (h : readString cs = some (s, tail)) :
    readString ('\\' :: e :: cs) = some (c :: s, tail) := by
  rw [readString, hc, h]
  · rfl
  · intro _ _ _ _ _ hu _
    exact he hu

theorem readString_plain {c : Char} (hquote : c ≠ '"') (hback : c ≠ '\\') (h : ¬ c.toNat < 0x20)
    {cs s tail : List Char} (hcs : readString cs = some (s, tail)) :
    readString (c :: cs) = some (c :: s, tail) := by
  rw [readString, if_neg (by simp [hback, h]), hcs]
  · rfl
  · exact hquote
  · intro _ _ _ _ _ hc _
    exact hback hc
  · intro _ _ hc _
    exact hback hc

theorem readString_unit {a b c d : Char} {n : Nat} (hn : hexUnit? a b c d = some n)
    (hlow : isLowSurrogate n = false) (hhigh : isHighSurrogate n = false) {cs s tail : List Char}
    (hcs : readString cs = some (s, tail)) :
    readString ('\\' :: 'u' :: a :: b :: c :: d :: cs) = some (Char.ofNat n :: s, tail) := by
  rw [readString, hn, hcs]
  simp [hlow, hhigh]

/-- A character is read from whatever stands for it. -/
theorem SpellsChar.readString {run : List Char} {c : Char} (h : SpellsChar run c)
    {cs s tail : List Char} (hcs : readString cs = some (s, tail)) :
    readString (run ++ cs) = some (c :: s, tail) := by
  cases h with
  | plain hquote hback hcontrol => exact readString_plain hquote hback hcontrol hcs
  | simple hsimple =>
    refine readString_named ?_ hsimple hcs
    rintro rfl
    cases hsimple
  | unit hn hlow hhigh => exact readString_unit hn hlow hhigh hcs

theorem Spells.readString {cs s : List Char} (h : Spells cs s) (rest : List Char) :
    readString (cs ++ '"' :: rest) = some (s, rest) := by
  induction h with
  | nil => rfl
  | cons first _ ih =>
    rw [List.append_assoc]
    exact first.readString ih

/-! ### Values -/

/-- Whether a text is read as a value, wherever it ends. -/
def Reads (depth : Nat) (cs : List Char) (j : Json) : Prop :=
  ∀ fuel rest, cs.length ≤ fuel → Closes rest →
    readValue fuel depth (cs ++ rest) = some (j, rest)

theorem skipSpace_cons {c : Char} (h : isSpace c = false) (cs : List Char) :
    skipSpace (c :: cs) = c :: cs := by
  rw [skipSpace, List.dropWhile_cons_of_neg (by simp [h])]

/-- A text does not start with a blank, nor like the end of an array. -/
theorem Denotes.eq_cons {depth : Nat} {cs : List Char} {j : Json} (h : Denotes depth cs j) :
    ∃ c rest, cs = c :: rest ∧ isSpace c = false ∧ c ≠ ']' := by
  cases h with
  | null => exact ⟨_, _, rfl, by decide, by decide⟩
  | bool b => cases b <;> exact ⟨_, _, rfl, by decide, by decide⟩
  | whole n =>
    obtain ⟨d, ds, hdigits, hd⟩ := digitChars_eq_cons n.val.natAbs
    rw [intChars, hdigits]
    split
    · exact ⟨_, _, rfl, by decide, by decide⟩
    · have hclear : decimalDigits.all (fun c => !isSpace c && c != ']') = true := by decide
      have hd := List.all_eq_true.mp hclear d (mem_of_isDigit hd)
      exact ⟨_, _, rfl, by simpa using hd⟩
  | text _ => exact ⟨_, _, rfl, by decide, by decide⟩
  | array _ => exact ⟨_, _, rfl, by decide, by decide⟩
  | object _ _ => exact ⟨_, _, rfl, by decide, by decide⟩

theorem reads_null (depth : Nat) : Reads depth "null".toList .null := by
  rintro (_ | fuel) rest hfuel -
  · cases hfuel
  · rfl

theorem reads_bool (depth : Nat) (b : Bool) : Reads depth (toString b).toList (.bool b) := by
  rintro (_ | fuel) rest hfuel -
  · cases b <;> cases hfuel
  · cases b <;> rfl

theorem reads_text (depth : Nat) {cs : List Char} {s : String} (h : Spells cs s.toList) :
    Reads depth ('"' :: cs ++ ['"']) (.text s) := by
  rintro (_ | fuel) rest hfuel -
  · cases hfuel
  · rw [List.append_assoc, List.cons_append, List.cons_append, readValue,
      skipSpace_cons (by decide)]
    show (readString _).map _ = _
    rw [List.nil_append, h.readString]
    simp

theorem readValue_digit {d : Char} (hd : d.isDigit = true) (fuel depth : Nat) (cs : List Char) :
    readValue (fuel + 1) depth (d :: cs) = readMagnitude false (d :: cs) := by
  have hten := mem_of_isDigit hd
  simp only [decimalDigits, List.mem_cons, List.not_mem_nil, or_false] at hten
  rcases hten with rfl | rfl | rfl | rfl | rfl | rfl | rfl | rfl | rfl | rfl <;> rfl

theorem reads_whole (depth : Nat) (n : Whole) : Reads depth (intChars n.val) (.whole n) := by
  rintro fuel rest hfuel hrest
  obtain ⟨hplus, hminus⟩ := readMagnitude_whole n hrest
  obtain ⟨d, ds, hdigits, hd⟩ := digitChars_eq_cons n.val.natAbs
  rw [hdigits] at hplus hminus
  rw [intChars, hdigits] at hfuel ⊢
  obtain _ | fuel := fuel
  · split at hfuel <;> cases hfuel
  · split
    · exact hminus ‹_›
    · rw [List.cons_append, readValue_digit hd]
      exact hplus (by omega)

/-! ### Arrays -/

theorem readValue_bracket {c : Char} (hspace : isSpace c = false) (hbracket : c ≠ ']')
    (fuel depth : Nat) (cs : List Char) :
    readValue (fuel + 1) (depth + 1) ('[' :: c :: cs) =
      (readItems fuel depth (c :: cs)).map fun found => (.array found.1, found.2) := by
  rw [readValue, skipSpace_cons (by decide)]
  split
  case h_5 heq =>
    cases heq
    dsimp only
    rw [skipSpace_cons hspace]
    split
    · rename_i hcs
      exact absurd (List.head_eq_of_cons_eq hcs) hbracket
    · rfl
  case h_7 hopen _ heq => exact absurd (List.head_eq_of_cons_eq heq).symm hopen
  all_goals
    rename_i heq
    cases heq

/-- What follows one part of an array or an object. -/
theorem intercalate_append_cons (part next : List Char) (parts : List (List Char))
    (rest : List Char) :
    [','].intercalate (part :: next :: parts) ++ rest =
      part ++ ',' :: ([','].intercalate (next :: parts) ++ rest) := by
  simp

theorem length_intercalate_cons (part next : List Char) (parts : List (List Char)) :
    ([','].intercalate (part :: next :: parts)).length =
      part.length + 1 + ([','].intercalate (next :: parts)).length := by
  have hlength := congrArg List.length (intercalate_append_cons part next parts [])
  simp only [List.append_nil, List.length_append, List.length_cons] at hlength
  omega

theorem readItems_intercalate {depth : Nat} {items : List (List Char × Json)} (hne : items ≠ [])
    (h : ∀ x ∈ items, Reads depth x.1 x.2) {fuel : Nat}
    (hfuel : ([','].intercalate (items.map Prod.fst)).length < fuel) (rest : List Char) :
    readItems fuel depth ([','].intercalate (items.map Prod.fst) ++ ']' :: rest) =
      some (items.map Prod.snd, rest) := by
  induction items generalizing fuel with
  | nil => exact absurd rfl hne
  | cons x items ih =>
    obtain _ | fuel := fuel
    · omega
    have hx := h x List.mem_cons_self
    cases items with
    | nil =>
      rw [List.map_singleton, List.intercalate_singleton] at hfuel ⊢
      rw [readItems, hx _ _ (by omega) (.bracket rest)]
      rfl
    | cons y items =>
      rw [List.map_cons, List.map_cons] at hfuel ⊢
      rw [length_intercalate_cons] at hfuel
      have hshorter : ([','].intercalate ((y :: items).map Prod.fst)).length < fuel := by
        rw [List.map_cons]
        omega
      have htail := ih (List.cons_ne_nil y items)
        (fun z hz => h z (List.mem_cons_of_mem x hz)) hshorter
      rw [intercalate_append_cons, readItems, hx _ _ (by omega) (.comma _)]
      show (readItems fuel depth _).map _ = _
      rw [List.map_cons] at htail
      rw [htail]
      rfl

theorem reads_array {depth : Nat} {items : List (List Char × Json)}
    (each : ∀ x ∈ items, Denotes depth x.1 x.2) (h : ∀ x ∈ items, Reads depth x.1 x.2) :
    Reads (depth + 1) ('[' :: [','].intercalate (items.map Prod.fst) ++ [']'])
      (.array (items.map Prod.snd)) := by
  rintro (_ | fuel) rest hfuel -
  · cases hfuel
  · cases items with
    | nil => rfl
    | cons x items =>
      rw [List.length_append, List.length_cons, List.length_singleton] at hfuel
      have hitems := readItems_intercalate (List.cons_ne_nil x items) h
        (by omega : _ < fuel) rest
      obtain ⟨c, cs, hchars, hspace, hbracket⟩ := (each x List.mem_cons_self).eq_cons
      obtain ⟨cs', hjoined⟩ : ∃ cs', [','].intercalate ((x :: items).map Prod.fst) = c :: cs' := by
        cases items <;> simp [hchars]
      rw [hjoined] at hitems ⊢
      rw [List.append_assoc, List.cons_append, List.cons_append,
        readValue_bracket hspace hbracket]
      show (readItems fuel depth (c :: cs' ++ ']' :: rest)).map _ = _
      rw [hitems]
      rfl

/-! ### Objects -/

theorem readValue_brace (fuel depth : Nat) (cs : List Char) :
    readValue (fuel + 1) (depth + 1) (Char.ofNat 0x7B :: '"' :: cs) =
      (readMembers fuel depth ('"' :: cs)).map fun found => (.ofMembers found.1, found.2) := rfl

section Members

variable {fuel depth : Nat} {cs k rest tail : List Char} {j : Json}

def membersBehind (fuel depth : Nat) (k : List Char) (j : Json) :
    List Char → Option (List (String × Json) × List Char)
  | ',' :: rest =>
    (readMembers fuel depth rest).map fun found => ((String.ofList k, j) :: found.1, found.2)
  | d :: tail => if d.toNat = 0x7D then some ([(String.ofList k, j)], tail) else none
  | [] => none

theorem readMembers_cons (hkey : readString cs = some (k, ':' :: rest))
    (hj : readValue fuel depth rest = some (j, tail)) :
    readMembers (fuel + 1) depth ('"' :: cs) = membersBehind fuel depth k j (skipSpace tail) := by
  rw [readMembers, skipSpace_cons (by decide)]
  split
  case h_2 hquote => exact absurd rfl (hquote cs)
  case h_1 heq =>
    cases heq
    rw [hkey]
    dsimp only
    rw [skipSpace_cons (by decide)]
    split
    case h_2 hcolon => exact absurd rfl (hcolon rest)
    case h_1 heq =>
      cases heq
      rw [hj]
      rfl

end Members

theorem Member.chars_append (m : Member) (rest : List Char) :
    m.chars ++ rest = '"' :: (m.keyText ++ '"' :: ':' :: (m.text ++ rest)) := by
  simp [chars]

theorem readMembers_intercalate {depth : Nat} {members : List Member} (hne : members ≠ [])
    (keys : ∀ m ∈ members, Spells m.keyText m.key.toList)
    (h : ∀ m ∈ members, Reads depth m.text m.value) {fuel : Nat}
    (hfuel : ([','].intercalate (members.map Member.chars)).length < fuel) (rest : List Char) :
    readMembers fuel depth
        ([','].intercalate (members.map Member.chars) ++ Char.ofNat 0x7D :: rest) =
      some (members.map fun m => (m.key, m.value), rest) := by
  induction members generalizing fuel with
  | nil => exact absurd rfl hne
  | cons m members ih =>
    obtain _ | fuel := fuel
    · omega
    have hm := h m List.mem_cons_self
    have hkey (tail : List Char) := (keys m List.mem_cons_self).readString (':' :: tail)
    have hchars : m.chars.length = m.keyText.length + m.text.length + 3 := by
      simp [Member.chars]
      omega
    cases members with
    | nil =>
      rw [List.map_singleton, List.intercalate_singleton] at hfuel ⊢
      rw [Member.chars_append, readMembers_cons (hkey _) (hm _ _ (by omega) (.brace rest))]
      show some ([(String.ofList m.key.toList, m.value)], rest) = _
      rw [String.ofList_toList]
      rfl
    | cons n members =>
      rw [List.map_cons, List.map_cons] at hfuel ⊢
      rw [length_intercalate_cons] at hfuel
      have hshorter : ([','].intercalate ((n :: members).map Member.chars)).length < fuel := by
        rw [List.map_cons]
        omega
      have htail := ih (List.cons_ne_nil n members)
        (fun z hz => keys z (List.mem_cons_of_mem m hz))
        (fun z hz => h z (List.mem_cons_of_mem m hz)) hshorter
      rw [intercalate_append_cons, Member.chars_append,
        readMembers_cons (hkey _) (hm _ _ (by omega) (.comma _))]
      show (readMembers fuel depth _).map _ = _
      rw [List.map_cons] at htail
      rw [htail, Option.map_some, String.ofList_toList]
      rfl

theorem reads_object {depth : Nat} {members : List Member}
    (keys : ∀ m ∈ members, Spells m.keyText m.key.toList)
    (h : ∀ m ∈ members, Reads depth m.text m.value) :
    Reads (depth + 1)
      (Char.ofNat 0x7B :: [','].intercalate (members.map Member.chars) ++ [Char.ofNat 0x7D])
      (.ofMembers (members.map fun m => (m.key, m.value))) := by
  rintro (_ | fuel) rest hfuel -
  · cases hfuel
  · cases members with
    | nil => rfl
    | cons m members =>
      rw [List.length_append, List.length_cons, List.length_singleton] at hfuel
      have hmembers := readMembers_intercalate (List.cons_ne_nil m members) keys h
        (by omega : _ < fuel) rest
      obtain ⟨cs, hjoined⟩ :
          ∃ cs, [','].intercalate ((m :: members).map Member.chars) = '"' :: cs := by
        cases members <;> simp [Member.chars]
      rw [hjoined] at hmembers ⊢
      rw [List.append_assoc, List.cons_append, List.cons_append, readValue_brace]
      show (readMembers fuel depth ('"' :: cs ++ Char.ofNat 0x7D :: rest)).map _ = _
      rw [hmembers]
      rfl

/-! ### The whole text -/

/-- What the grammar derives is read, within the depth that is read. -/
theorem Denotes.reads {depth : Nat} {cs : List Char} {j : Json} (h : Denotes depth cs j) :
    Reads depth cs j := by
  induction h with
  | null => exact reads_null _
  | bool b => exact reads_bool _ b
  | whole n => exact reads_whole _ n
  | text h => exact reads_text _ h
  | array each ih => exact reads_array each ih
  | object keys each ih => exact reads_object keys ih

theorem Denotes.parse? {cs : List Char} {j : Json} (h : Denotes maxDepth cs j) :
    parse? (String.ofList cs) = some j := by
  have hread := h.reads (2 * cs.length + 2) [] (by omega) trivial
  rw [List.append_nil] at hread
  rw [Json.parse?, String.toList_ofList, hread]
  rfl

end Json

theorem JsonLibrary.isDocumented_own : own.IsDocumented where
  serializes := ⟨Json.chars, Json.isCompact_chars, fun _ => rfl⟩
  displays := by
    have hdisplay : (fun j => (own.display j).toList) = Json.chars :=
      funext fun _ => String.toList_ofList
    rw [hdisplay]
    exact Json.isCompact_chars
  parses h := h.parse?

end QueryChain
