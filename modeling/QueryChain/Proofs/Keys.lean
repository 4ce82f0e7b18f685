import Mathlib.Data.List.Infix
import QueryChain.Filter.Lookup
import QueryChain.Sql.Identifier

/-!
Filter keys that are written and read back. A key is split at its leftmost pair of underscores, so
a field comes back from the key of a lookup if and only if no pair begins in it before it ends. A
field that ends in an underscore makes such a pair with the separator behind it, and no key at all
addresses it with a lookup other than `exact`.
-/

namespace QueryChain

namespace Lookup

theorem ofName?_name (l : Lookup) : ofName? l.name = some l := by
  cases l <;> decide

theorem underscore_not_mem_name (l : Lookup) : '_' ∉ l.name.toList := by
  cases l <;> decide

theorem name_injective {l l' : Lookup} (h : l.name = l'.name) : l = l' := by
  apply Option.some.inj
  rw [← ofName?_name l, h, ofName?_name]

end Lookup

namespace Key

def separator : List Char :=
  ['_', '_']

def write (field : String) (l : Lookup) : String :=
  field ++ "__" ++ l.name

/-- Whether a field ends before the first separator that begins in it, or in one underscore behind
it. -/
def Delimited (field : List Char) : Prop :=
  ¬ separator <:+: field ++ ['_']

/-! ### Segments -/

theorem segments_cons {piece rest : List Char} {c : Char} (h : ¬ separator <+: c :: rest) :
    segments piece (c :: rest) = segments (c :: piece) rest := by
  rw [segments]
  rintro tail rfl rfl
  exact h (List.prefix_append separator tail)

theorem segments_of_free {piece cs : List Char} (h : ¬ separator <:+: cs) :
    segments piece cs = [piece.reverse ++ cs] := by
  induction cs generalizing piece with
  | nil => simp [segments]
  | cons c cs ih =>
    rw [List.infix_cons_iff, not_or] at h
    rw [segments_cons h.1, ih h.2, List.reverse_cons, List.append_assoc, List.singleton_append]

/-- Whether a separator begins at a character does not depend on what comes behind the next one. -/
theorem separator_prefix_iff {field rest : List Char} {c : Char} :
    separator <+: c :: (field ++ separator ++ rest) ↔ separator <+: c :: (field ++ ['_']) := by
  cases field <;> simp [separator]

/-- The separator behind a delimited field ends its segment. -/
theorem segments_delimited {piece field rest : List Char} (h : Delimited field) :
    segments piece (field ++ separator ++ rest) =
      (piece.reverse ++ field) :: segments [] rest := by
  induction field generalizing piece with
  | nil => simp [separator, segments]
  | cons c field ih =>
    rw [Delimited, List.cons_append, List.infix_cons_iff, not_or] at h
    rw [List.cons_append, List.cons_append, segments_cons (mt separator_prefix_iff.mp h.1),
      ih h.2, List.reverse_cons, List.append_assoc, List.singleton_append]

theorem segments_ne_nil (piece cs : List Char) : segments piece cs ≠ [] := by
  fun_induction segments piece cs with
  | case1 => simp
  | case2 => simp
  | case3 _ _ _ _ ih => exact ih

/-- A text with a separator goes on behind the leftmost one. -/
theorem exists_delimited {cs : List Char} (h : separator <:+: cs) :
    ∃ field rest, Delimited field ∧ cs = field ++ separator ++ rest := by
  induction cs with
  | nil => simp [separator] at h
  | cons c cs ih =>
    by_cases hfront : separator <+: c :: cs
    · obtain ⟨rest, hrest⟩ := hfront
      exact ⟨[], rest, by simp [Delimited, separator, List.infix_cons_iff], hrest.symm⟩
    · obtain ⟨field, rest, hfield, rfl⟩ := ih ((List.infix_cons_iff.mp h).resolve_left hfront)
      refine ⟨c :: field, rest, ?_, rfl⟩
      rw [Delimited, List.cons_append, List.infix_cons_iff, not_or]
      exact ⟨mt separator_prefix_iff.mpr hfront, hfield⟩

theorem delimited_iff {field : List Char} :
    Delimited field ↔ ¬ separator <:+: field ∧ field.getLast? ≠ some '_' := by
  have hend : separator <:+ field ++ ['_'] ↔ field.getLast? = some '_' := by
    rw [List.suffix_concat_iff, ← List.singleton_suffix_iff_getLast?_eq_some]
    constructor
    · rintro (h | ⟨t, ht, hsuffix⟩)
      · cases h
      · obtain rfl : ['_'] = t := List.append_cancel_right ht
        exact hsuffix
    · exact fun h => .inr ⟨['_'], rfl, h⟩
  rw [Delimited, List.infix_concat_iff, hend, not_or, and_comm]

/-! ### Keys -/

theorem parse_of_free {s : String} (h : ¬ separator <:+: s.toList) :
    parse s = ⟨s, .exact, none⟩ := by
  rw [parse, segments_of_free h, List.reverse_nil, List.nil_append]
  dsimp only
  rw [String.ofList_toList]

/-- The field of a key ends where the leftmost separator begins. -/
theorem field_parse {s : String} {field rest : List Char} (h : Delimited field)
    (hs : s.toList = field ++ separator ++ rest) : (parse s).field = String.ofList field := by
  rw [parse, hs, segments_delimited h, List.reverse_nil, List.nil_append]
  cases hsegments : segments [] rest with
  | nil => exact absurd hsegments (segments_ne_nil _ _)
  | cons suffix more =>
    dsimp only
    rw [ofSuffix]
    split <;> rfl

theorem toList_write (field : String) (l : Lookup) :
    (write field l).toList = field.toList ++ separator ++ l.name.toList := by
  rw [write, String.toList_append, String.toList_append]
  rfl

theorem parse_write_of_delimited {field : String} (h : Delimited field.toList) (l : Lookup) :
    parse (write field l) = ⟨field, l, none⟩ := by
  have hname : ¬ separator <:+: l.name.toList :=
    fun hpair => l.underscore_not_mem_name (hpair.subset List.mem_cons_self)
  rw [parse, toList_write, segments_delimited h, segments_of_free hname, List.reverse_nil,
    List.nil_append, List.nil_append]
  dsimp only
  rw [String.ofList_toList, String.ofList_toList, ofSuffix, Lookup.ofName?_name]

/-- A key whose field is not delimited is read as one of a shorter field. -/
theorem length_field_parse_lt {field : String} (h : ¬ Delimited field.toList) (l : Lookup) :
    (parse (write field l)).field.length < field.length := by
  obtain ⟨name, rest, hname, hfield⟩ := exists_delimited (not_not.mp h)
  have hkey : (write field l).toList = name ++ separator ++ (rest ++ '_' :: l.name.toList) := by
    rw [toList_write, ← List.append_assoc, ← hfield]
    simp [separator]
  have hlength := congrArg List.length hfield
  simp only [List.length_append, separator, List.length_cons, List.length_nil] at hlength
  rw [field_parse hname hkey, String.length_ofList, ← String.length_toList]
  omega

theorem parse_write_iff {field : String} {l : Lookup} :
    parse (write field l) = ⟨field, l, none⟩ ↔ Delimited field.toList := by
  refine ⟨fun h => ?_, fun h => parse_write_of_delimited h l⟩
  by_contra hfield
  have hlength := length_field_parse_lt hfield l
  rw [h] at hlength
  exact Nat.lt_irrefl _ hlength

/-- Some key addresses a field with a lookup if and only if the field has no separator and, unless
the lookup is `exact`, no underscore at its end. -/
theorem exists_parse_iff {field : String} {l : Lookup} :
    (∃ key, (parse key).field = field ∧ (parse key).lookup = l) ↔
      ¬ separator <:+: field.toList ∧ (l = .exact ∨ field.toList.getLast? ≠ some '_') := by
  constructor
  · rintro ⟨key, rfl, rfl⟩
    by_cases hkey : separator <:+: key.toList
    · obtain ⟨name, rest, hname, hkey⟩ := exists_delimited hkey
      rw [field_parse hname hkey, String.toList_ofList]
      exact ⟨(delimited_iff.mp hname).1, .inr (delimited_iff.mp hname).2⟩
    · rw [parse_of_free hkey]
      exact ⟨hkey, .inl rfl⟩
  · rintro ⟨hfree, rfl | hlast⟩
    · exact ⟨field, by rw [parse_of_free hfree]; exact ⟨rfl, rfl⟩⟩
    · refine ⟨write field l, ?_⟩
      rw [parse_write_of_delimited (delimited_iff.mpr ⟨hfree, hlast⟩)]
      exact ⟨rfl, rfl⟩

/-- The last underscore of a key tells its field from its lookup, whether it is read back or not. -/
theorem write_injective {field field' : String} {l l' : Lookup}
    (h : write field l = write field' l') : field = field' ∧ l = l' := by
  have htail (field : String) (l : Lookup) :
      (write field l).toList.reverse.takeWhile (· != '_') = l.name.toList.reverse := by
    have hname : ∀ c ∈ l.name.toList.reverse, (c != '_') = true := by
      intro c hc
      rw [bne_iff_ne]
      rintro rfl
      exact l.underscore_not_mem_name (List.mem_reverse.mp hc)
    rw [toList_write, List.reverse_append, List.takeWhile_append_of_pos hname]
    simp [separator]
  have hname : l.name = l'.name := by
    apply String.toList_inj.mp
    rw [← List.reverse_inj, ← htail field, h, htail]
  refine ⟨?_, Lookup.name_injective hname⟩
  rw [write, write, hname] at h
  exact String.append_left_inj _ |>.mp (String.append_left_inj _ |>.mp h)

/-- A field without a separator is read back from its own key with the lookup `exact`. From the key
of a lookup it is read back, with that lookup, if and only if it does not end in an underscore; if
it does, no key addresses it with a lookup other than `exact`. Keys of different fields or lookups
are different. -/
theorem parse_written {field : String} (hfree : ¬ separator <:+: field.toList) :
    parse field = ⟨field, .exact, none⟩ ∧
      ∀ l : Lookup,
        (parse (write field l) = ⟨field, l, none⟩ ↔ field.toList.getLast? ≠ some '_') ∧
        ((∃ key, (parse key).field = field ∧ (parse key).lookup = l) ↔
          l = .exact ∨ field.toList.getLast? ≠ some '_') ∧
        ∀ (field' : String) (l' : Lookup),
          write field l = write field' l' → field = field' ∧ l = l' := by
  refine ⟨parse_of_free hfree, fun l => ⟨?_, ?_, fun _ _ => write_injective⟩⟩
  · rw [parse_write_iff, delimited_iff, and_iff_right hfree]
  · rw [exists_parse_iff, and_iff_right hfree]

/-- Underscores at the front and inside of a field. -/
theorem parse_written_of_underscores :
    ¬ separator <:+: "_a_b".toList ∧ parse "_a_b__gte" = ⟨"_a_b", .gte, none⟩ := by
  have hfree : ¬ separator <:+: "_a_b".toList := by decide
  exact ⟨hfree, ((parse_written hfree).2 .gte).1.mpr (by decide)⟩

/-- The key of `gt` on the valid field `a_` is read as a test for equality of the field `a`. -/
theorem underscore_at_end_loses_lookup :
    (Identifier.ofField "a_").isOk = true ∧ ¬ separator <:+: "a_".toList ∧
      write "a_" .gt = "a___gt" ∧ parse (write "a_" .gt) = ⟨"a", .exact, some "_gt"⟩ := by
  decide

end Key

end QueryChain
