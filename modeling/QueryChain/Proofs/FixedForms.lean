import QueryChain.Records.Coercion

/-!
Coercion done twice. Each kind of field brings values to certain forms and leaves those forms as
they are, so a value that is coerced again, be it stored or an operand, does not change any more.
The texts come first: a value that counts as true has a text that does, for otherwise its text would
be taken for null.
-/

namespace QueryChain

open Number Text

/-! ### Texts of numbers -/

namespace Number

theorem digitChars_ne_nil (n : Nat) : digitChars n ≠ [] :=
  Nat.toDigits_ne_nil

theorem intChars_ne_nil (n : Int) : intChars n ≠ [] := by
  rw [intChars]
  split
  · exact List.cons_ne_nil _ _
  · exact digitChars_ne_nil _

theorem Decimal.positionalChars_ne_nil (pointZero : Bool) (d : Decimal) :
    d.positionalChars pointZero ≠ [] := by
  rw [positionalChars]
  dsimp only
  split
  · simp [digitChars_ne_nil]
  · split <;> simp

theorem Decimal.scientificChars_ne_nil (plus : Bool) (d : Decimal) :
    d.scientificChars plus ≠ [] := by
  simp [scientificChars]

theorem Layout.write_ne_empty (l : Layout) (x : Binary64) : l.write x ≠ "" := by
  have hmagnitude : l.magnitudeChars x ≠ [] := by
    rw [magnitudeChars]
    split
    · exact Decimal.positionalChars_ne_nil _ _
    · exact Decimal.scientificChars_ne_nil _ _
  rw [write]
  split
  · decide
  · rw [ne_eq, String.ofList_eq_empty_iff]
    refine List.append_ne_nil_of_right_ne_nil _ ?_
    split
    · exact List.cons_ne_nil _ _
    · exact hmagnitude

end Number

/-! ### Texts of values -/

theorem Json.render_ne_empty (j : Json) : j.render ≠ "" := by
  rw [render, ne_eq, String.ofList_eq_empty_iff]
  cases j with
  | bool b => cases b <;> exact List.cons_ne_nil _ _
  | whole n => exact intChars_ne_nil n.val
  | float x =>
    rw [chars, String.toList_eq_nil_iff]
    exact floatLayout.write_ne_empty x.val
  | null | text _ | array _ | object _ => exact List.cons_ne_nil _ _

theorem Text.ofUtf8Lossy_ne_empty {bytes : List UInt8} (h : bytes ≠ []) :
    ofUtf8Lossy bytes ≠ "" := by
  obtain ⟨b, rest, rfl⟩ := List.exists_cons_of_ne_nil h
  rw [ofUtf8Lossy, ne_eq, String.ofList_eq_empty_iff, readUtf8]
  exact List.cons_ne_nil _ _

theorem Time.Moment.isoText_ne_empty (t : Time.Moment) : t.isoText ≠ "" := by
  rw [isoText, ne_eq, String.ofList_eq_empty_iff]
  exact List.append_ne_nil_of_right_ne_nil (yearChars _) (List.cons_ne_nil _ _)

theorem Value.toText_ne_empty {v : Value} (h : v.isTruthy = true) : v.toText ≠ "" := by
  cases v with
  | null => cases h
  | bool b => cases b <;> decide
  | int n => exact fun hempty => intChars_ne_nil _ (String.ofList_eq_empty_iff.mp hempty)
  | float x => exact textLayout.write_ne_empty x
  | text s =>
    rintro rfl
    cases h
  | blob bytes =>
    refine Text.ofUtf8Lossy_ne_empty ?_
    rintro rfl
    cases h
  | timestamp t => exact t.isoText_ne_empty
  | list items => exact Json.render_ne_empty _
  | json j =>
    cases j with
    | text s =>
      rintro rfl
      cases h
    | null | bool _ | whole _ | float _ | array _ | object _ => exact Json.render_ne_empty _

/-! ### Kinds of fields -/

namespace FieldKind

def IsBuiltIn : FieldKind → Prop
  | .custom _ => False
  | _ => True

def plain : Value → Value
  | .json j => if j.isContainer then .json j else .ofJson j
  | v => v

theorem coerce_eq (kind : FieldKind) (v : Value) :
    kind.coerce v = Libraries.own.coerceNative kind (plain v) := by
  cases v <;> rfl

theorem plain_plain (v : Value) : plain (plain v) = plain v := by
  cases v with
  | json j =>
    cases j with
    | whole n =>
      have hwhole : plain (.json (.whole n)) = .ofJson (.whole n) := rfl
      rw [hwhole, Value.ofJson]
      split <;> rfl
    | null | bool _ | float _ | text _ | array _ | object _ => rfl
  | null | bool _ | int _ | float _ | text _ | blob _ | timestamp _ | list _ => rfl

theorem null_of_plain {v : Value} (hv : plain v = v) (h : v.isNull = true) : v = .null := by
  cases v with
  | null => rfl
  | json j =>
    cases j with
    | null => exact hv.symm
    | bool _ | whole _ | float _ | text _ | array _ | object _ => cases h
  | bool _ | int _ | float _ | text _ | blob _ | timestamp _ | list _ => cases h

/-- The values to which a kind brings others. -/
def Settled : FieldKind → Value → Prop
  | .integer, w => ∃ n, w = .int n
  | .float, w | .decimal, w => ∃ x, w = .float x
  | .text, w => w = .null ∨ ∃ s, s ≠ "" ∧ w = .text s
  | .bool, w => ∃ b, w = .bool b
  | .time, w => ∃ t, w = .timestamp t
  | .date, w => plain w = w ∧ w.kind ≠ .text ∧ w.kind ≠ .int
  | .passthrough, w => plain w = w
  | .custom _, _ => False

/-! ### What is coerced is settled -/

theorem toInteger_ok {v w : Value} (h : toInteger v = .ok w) : Settled .integer w := by
  cases v with
  | int n => exact ⟨_, (Except.ok.inj h).symm⟩
  | float x =>
    rw [toInteger] at h
    split at h
    · exact ⟨_, (Except.ok.inj h).symm⟩
    · cases h
  | bool b => exact ⟨_, (Except.ok.inj h).symm⟩
  | text s =>
    rw [toInteger] at h
    split at h
    · exact ⟨_, (Except.ok.inj h).symm⟩
    · cases h
  | null | blob _ | timestamp _ | json _ | list _ => cases h

theorem toFloat_ok {v w : Value} (h : toFloat v = .ok w) : Settled .float w := by
  cases v with
  | int n => exact ⟨_, (Except.ok.inj h).symm⟩
  | float x => exact ⟨_, (Except.ok.inj h).symm⟩
  | bool b => exact ⟨_, (Except.ok.inj h).symm⟩
  | text s =>
    rw [toFloat] at h
    split at h
    · exact ⟨_, (Except.ok.inj h).symm⟩
    · cases h
  | null | blob _ | timestamp _ | json _ | list _ => cases h

theorem toTime_ok {v w : Value} (h : Libraries.own.toTime v = .ok w) : Settled .time w := by
  cases v with
  | timestamp t => exact ⟨_, (Except.ok.inj h).symm⟩
  | text s =>
    rw [Libraries.toTime] at h
    split at h
    · exact ⟨_, (Except.ok.inj h).symm⟩
    · cases h
  | null | bool _ | int _ | float _ | blob _ | json _ | list _ => cases h

theorem toDate_ok {v w : Value} (hv : plain v = v) (h : Libraries.own.toDate v = .ok w) :
    Settled .date w := by
  cases v with
  | text s =>
    rw [Libraries.toDate] at h
    split at h
    · obtain rfl := Except.ok.inj h
      exact ⟨rfl, nofun, nofun⟩
    · cases h
  | int n =>
    rw [Libraries.toDate] at h
    split at h
    · obtain rfl := Except.ok.inj h
      exact ⟨rfl, nofun, nofun⟩
    · split at h
      · obtain rfl := Except.ok.inj h
        exact ⟨rfl, nofun, nofun⟩
      · cases h
  | null | bool _ | float _ | blob _ | timestamp _ | json _ | list _ =>
    obtain rfl := Except.ok.inj h
    exact ⟨hv, nofun, nofun⟩

theorem settled_of_coerceNative {kind : FieldKind} (hkind : kind.IsBuiltIn) {v w : Value}
    (hv : plain v = v) (h : Libraries.own.coerceNative kind v = .ok w) : kind.Settled w := by
  cases kind with
  | integer => exact toInteger_ok h
  | float | decimal => exact toFloat_ok h
  | text =>
    obtain rfl := Except.ok.inj h
    split
    · rename_i htruthy
      exact .inr ⟨_, Value.toText_ne_empty htruthy, rfl⟩
    · exact .inl rfl
  | bool => exact ⟨_, (Except.ok.inj h).symm⟩
  | time => exact toTime_ok h
  | date => exact toDate_ok hv h
  | passthrough =>
    obtain rfl := Except.ok.inj h
    exact hv
  | custom coerce => exact hkind.elim

theorem settled_of_coerce {kind : FieldKind} (hkind : kind.IsBuiltIn) {v w : Value}
    (h : kind.coerce v = .ok w) : kind.Settled w := by
  rw [coerce_eq] at h
  exact settled_of_coerceNative hkind (plain_plain v) h

/-! ### What is settled stays -/

theorem coerce_text {s : String} (h : s ≠ "") : coerce .text (.text s) = .ok (.text s) := by
  have htruthy : (Value.text s).isTruthy = true := by
    rw [Value.isTruthy, String.isEmpty_eq_false_iff.mpr h]
    rfl
  exact congrArg Except.ok (if_pos htruthy)

theorem toDate_of_kind {v : Value} (htext : v.kind ≠ .text) (hint : v.kind ≠ .int) :
    Libraries.own.toDate v = .ok v := by
  cases v with
  | text s => exact absurd rfl htext
  | int n => exact absurd rfl hint
  | null | bool _ | float _ | blob _ | timestamp _ | json _ | list _ => rfl

theorem coerce_of_settled {kind : FieldKind} {w : Value} (h : kind.Settled w) :
    kind.coerce w = .ok w := by
  cases kind with
  | integer | float | decimal | bool | time =>
    obtain ⟨_, rfl⟩ := h
    rfl
  | text =>
    rcases h with rfl | ⟨s, hs, rfl⟩
    · rfl
    · exact coerce_text hs
  | date =>
    obtain ⟨hplain, htext, hint⟩ := h
    rw [coerce_eq, hplain]
    exact toDate_of_kind htext hint
  | passthrough => exact (coerce_eq _ _).trans (congrArg Except.ok h)
  | custom coerce => exact h.elim

/-- The only null that is settled is the native one. -/
theorem null_of_settled {kind : FieldKind} {w : Value} (h : kind.Settled w)
    (hnull : w.isNull = true) : w = .null := by
  cases kind with
  | integer | float | decimal | bool | time =>
    obtain ⟨_, rfl⟩ := h
    cases hnull
  | text =>
    rcases h with rfl | ⟨s, hs, rfl⟩
    · rfl
    · cases hnull
  | date => exact null_of_plain h.1 hnull
  | passthrough => exact null_of_plain h hnull
  | custom coerce => exact h.elim

end FieldKind

/-! ### Registries -/

namespace Registry

theorem coerce_of_isNull (r : Registry) (field : String) {v : Value} (h : v.isNull = true) :
    r.coerce field v = .null := by
  rw [coerce, if_pos h]

theorem coerce_of_error {r : Registry} {field : String} {kind : FieldKind} {v : Value}
    {fault : CoercionFault} (hnull : v.isNull = false) (hkind : r.get? field = some kind)
    (h : kind.coerce v = .error fault) : r.coerce field v = v := by
  simp [coerce, hnull, hkind, h]

theorem coerce_of_ok {r : Registry} {field : String} {kind : FieldKind} {v w : Value}
    (hnull : v.isNull = false) (hkind : r.get? field = some kind) (h : kind.coerce v = .ok w) :
    r.coerce field v = w := by
  simp [coerce, hnull, hkind, h]

theorem coerce_of_settled {r : Registry} {field : String} {kind : FieldKind} {w : Value}
    (hkind : r.get? field = some kind) (hw : kind.Settled w) : r.coerce field w = w := by
  cases hnull : w.isNull with
  | true => rw [coerce_of_isNull r field hnull, FieldKind.null_of_settled hw hnull]
  | false => exact coerce_of_ok hnull hkind (FieldKind.coerce_of_settled hw)

/-- A value that is coerced for a field does not change when it is coerced for it again, whether
the field has a kind or none, and whether the value has a coerced form or stays as it is; a coerced
form is one of those to which the kind of the field brings values. -/
theorem coerce_coerce (r : Registry) (field : String)
    (hkind : ∀ kind, r.get? field = some kind → kind.IsBuiltIn) (v : Value) :
    r.coerce field (r.coerce field v) = r.coerce field v ∧
      ∀ kind w, r.get? field = some kind → v.isNull = false → kind.coerce v = .ok w →
        r.coerce field v = w ∧ kind.Settled w := by
  refine ⟨?_, fun kind w hget hnull hw =>
    ⟨coerce_of_ok hnull hget hw, FieldKind.settled_of_coerce (hkind kind hget) hw⟩⟩
  cases hnull : v.isNull with
  | true =>
    rw [coerce_of_isNull r field hnull]
    exact coerce_of_isNull r field rfl
  | false =>
    cases hget : r.get? field with
    | none =>
      have hsame : r.coerce field v = v := by simp [coerce, hnull, hget]
      rw [hsame, hsame]
    | some kind =>
      cases hcoerced : kind.coerce v with
      | ok w =>
        rw [coerce_of_ok hnull hget hcoerced]
        exact coerce_of_settled hget (FieldKind.settled_of_coerce (hkind kind hget) hcoerced)
      | error fault =>
        rw [coerce_of_error hnull hget hcoerced, coerce_of_error hnull hget hcoerced]

/-- A JSON integer as seconds of a date, beside a field with a kind of the caller's. -/
theorem coerce_coerce_of_seconds :
    ∃ r : Registry,
      r = .ofList [("at", .date), ("code", .custom fun _ => .ok .null)] ∧
      (∀ kind, r.get? "at" = some kind → kind.IsBuiltIn) ∧
      r.coerce "at" (.json (.whole ⟨86400, by decide, by decide⟩)) =
        .timestamp (.ofDate ⟨1970, 1, 2, by decide⟩) ∧
      r.coerce "at" (r.coerce "at" (.json (.whole ⟨86400, by decide, by decide⟩))) =
        r.coerce "at" (.json (.whole ⟨86400, by decide, by decide⟩)) := by
  have hkind : ∀ kind,
      (ofList [("at", .date), ("code", .custom fun _ => .ok .null)]).get? "at" = some kind →
      kind.IsBuiltIn := by
    intro kind h
    obtain rfl := Option.some.inj h
    exact trivial
  exact ⟨_, rfl, hkind, rfl, (coerce_coerce _ "at" hkind _).1⟩

end Registry

end QueryChain
