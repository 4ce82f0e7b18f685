import QueryChain.Proofs.Keys
import QueryChain.Proofs.Outcome
import QueryChain.Records.Selection

/-!
Searches over records in memory. A search writes its field into a key and reads the key back, so it
looks at the field that it was given if and only if the key tells the field from the lookup. Behind
a separator, or an underscore at its end, a name is cut short, and another field is looked at.
-/

namespace QueryChain

open Text

theorem Predicate.field_of_ofKey {negated : Bool} {key : String} {operand : Value} {p : Predicate}
    (h : Predicate.ofKey negated key operand = .ok p) : p.field = (Key.parse key).field := by
  simp only [Predicate.ofKey] at h
  split at h
  · obtain rfl := Except.ok.inj h
    rfl
  · cases h

namespace Selection

variable {α : Type}

def adding (p : Predicate) (s : Selection α) : Selection α :=
  { s with predicates := s.predicates ++ [p] }

def containing (field needle : String) : Predicate :=
  ⟨field, .iContains, .text needle, false⟩

section

variable [Record α]

/-- Whether a record has a value in the field and the text of the needle stands in that of the
value, both coerced for the field and in lower case. -/
def Finds (s : Selection α) (field needle : String) (record : α) : Prop :=
  (s.value record field).isNull = false ∧
    (s.registry.coerce field (.text needle)).isNull = false ∧
    lowerChars (s.registry.coerce field (.text needle)).toText.toList <:+:
      lowerChars (s.value record field).toText.toList

instance (s : Selection α) (field needle : String) (record : α) :
    Decidable (s.Finds field needle record) :=
  inferInstanceAs (Decidable (_ = _ ∧ _ = _ ∧ _ <:+: _))

theorem satisfies_containing (s : Selection α) (field needle : String) (record : α) :
    s.satisfies record (containing field needle) = decide (s.Finds field needle record) := by
  rw [Bool.eq_iff_iff, decide_eq_true_iff]
  simp [satisfies, containing, Predicate.evaluate, Predicate.coercedOperand,
    Predicate.patternMatches, Lookup.ignoresCase, Predicate.textMatches, Predicate.occursIn_iff,
    Finds, and_assoc]

theorem hits_adding (s : Selection α) (p : Predicate) :
    (s.adding p).hits = s.hits.filter fun record => s.satisfies record p := by
  rw [hits, hits, List.filter_filter]
  congr 1
  funext record
  rw [adding, List.all_append, List.all_cons, List.all_nil, Bool.and_true, Bool.and_comm]
  rfl

end

/-- A filter by one key adds the predicate of the key. -/
theorem filter_singleton (s : Selection α) (key : String) (operand : Value) :
    s.filter [(key, operand)] = (Predicate.ofKey false key operand).map s.adding := by
  rw [filter, addPredicates, List.mapM_cons, List.mapM_nil]
  show Except.map _ (Except.bind (Predicate.ofKey false key operand) _) = _
  cases Predicate.ofKey false key operand <;> rfl

theorem search_eq {field needle : String} (hfield : field ≠ "") (hneedle : needle ≠ "")
    (s : Selection α) :
    s.search field needle =
      (Predicate.ofKey false (Key.write field .iContains) (.text needle)).map s.adding := by
  have hnot : (field.isEmpty || needle.isEmpty) = false := by simp [hfield, hneedle]
  rw [search, hnot, if_neg Bool.false_ne_true]
  exact s.filter_singleton (Key.write field .iContains) (.text needle)

/-- What a search for a needle keeps. If no separator begins in the field, also not at its end, the
search adds the lookup `iContains` on that very field, the same one that it makes of the key for a
database: it keeps the records in whose field the needle is found, and drops all others.
Otherwise, if it is not refused, it looks at a field with a shorter name. -/
theorem search_keeps [Record α] {field needle : String} (hfield : field ≠ "")
    (hneedle : needle ≠ "") (s : Selection α) :
    (¬ Key.separator <:+: field.toList ∧ field.toList.getLast? ≠ some '_' →
      s.search field needle = .ok (s.adding (containing field needle)) ∧
      (s.adding (containing field needle)).hits =
        s.hits.filter (fun record => s.Finds field needle record) ∧
      Condition.search field needle =
        Condition.ofKey (Key.write field .iContains) (.text needle)) ∧
    (Key.separator <:+: field.toList ∨ field.toList.getLast? = some '_' →
      ∀ s', s.search field needle = .ok s' →
        ∃ p : Predicate, s' = s.adding p ∧ p.field.length < field.length) := by
  rw [search_eq hfield hneedle]
  constructor
  · intro h
    have hkey : Key.parse (Key.write field .iContains) = ⟨field, .iContains, none⟩ :=
      Key.parse_write_iff.mpr (Key.delimited_iff.mpr h)
    refine ⟨?_, ?_, ?_⟩
    · simp only [Predicate.ofKey, hkey]
      rfl
    · simp only [hits_adding, satisfies_containing]
    · rw [Condition.ofKey, hkey]
      rfl
  · intro h s' hs'
    obtain ⟨p, hp, rfl⟩ := Except.map_eq_ok.mp hs'
    have hnot : ¬ Key.Delimited field.toList := by
      rw [Key.delimited_iff, not_and_or, not_not, not_not]
      exact h
    refine ⟨p, rfl, ?_⟩
    rw [Predicate.field_of_ofKey hp]
    exact Key.length_field_parse_lt hnot _

/-- A field with underscores around its name, and a record in which another case is found. -/
theorem search_keeps_of_underscores :
    let s : Selection Row := { items := [⟨[("_a_b", .text "Open")]⟩, ⟨[("_a", .text "open")]⟩] }
    s.search "_a_b" "PEN" = .ok (s.adding (containing "_a_b" "PEN")) ∧
      (s.adding (containing "_a_b" "PEN")).hits.length = 1 := by
  intro s
  obtain ⟨hsearch, hhits, -⟩ :=
    (@search_keeps Row _ "_a_b" "PEN" (by decide) (by decide) s).1 (by decide)
  refine ⟨hsearch, ?_⟩
  rw [hhits]
  decide +kernel

/-- The only record has the needle in its field `a_`, and a search in that field drops it. -/
theorem search_misses_field :
    let s : Selection Row := { items := [⟨[("a_", .text "x")]⟩] }
    (∀ record ∈ s.items, s.Finds "a_" "x" record) ∧
      (s.search "a_" "x").toOption.map (·.hits.length) = some 0 := by
  decide +kernel

end Selection

end QueryChain
