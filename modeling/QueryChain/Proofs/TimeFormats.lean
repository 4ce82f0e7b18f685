import Mathlib.Data.List.Basic
import QueryChain.Proofs.Numerals
import QueryChain.Proofs.Trimming
import QueryChain.Time.Library

/-!
What is relied on of a library for moments, one specifier of a format at a time: how each is
written, which texts each takes, and that a form with a zone wants one at the end of the text. From
that alone the text of a moment is read back as that moment: years of any sign and length, fractions
of any precision and leap seconds. No form that is tried before the right one takes the text for
something else.
-/

namespace QueryChain

open Number Text

/-! ### Padded numbers -/

namespace Number

theorem ofDigits_eq {ds : List Char} (h : ∀ d ∈ ds, d.isDigit = true) :
    ofDigits ds = Nat.ofDigitChars 10 ds 0 := by
  rw [ofDigits, Nat.ofDigitChars_eq_foldl]
  apply List.foldl_ext
  intro n d hd
  rw [digitValue?, if_pos (h d hd), Option.getD_some]

theorem isDigit_of_mem_padded {width n : Nat} {c : Char} (h : c ∈ padded width n) :
    c.isDigit = true := by
  obtain hzero | hdigit := List.mem_append.mp h
  · rw [List.eq_of_mem_replicate hzero]
    rfl
  · exact isDigit_of_mem_digitChars hdigit

theorem ofDigits_padded (width n : Nat) : ofDigits (padded width n) = n := by
  rw [ofDigits_eq fun _ => isDigit_of_mem_padded, padded, Nat.ofDigitChars_append,
    Nat.ofDigitChars_replicate_zero, Nat.mul_zero]
  exact Nat.ofDigitChars_ten_toDigits

theorem length_padded {width n : Nat} (hwidth : 0 < width) (hn : n < 10 ^ width) :
    (padded width n).length = width := by
  have hdigits : (digitChars n).length ≤ width :=
    (Nat.length_toDigits_le_iff (by decide) hwidth).mpr hn
  rw [padded, List.length_append, List.length_replicate]
  omega

theorem padded_ne_nil (width n : Nat) : padded width n ≠ [] :=
  List.append_ne_nil_of_right_ne_nil _ Nat.toDigits_ne_nil

end Number

namespace Time

/-! ### Which texts a format takes -/

/-- `Matches format text r r'`: the format takes the whole text and turns what is read before it,
`r`, into `r'`. A part of the moment is read once at most. A year is four digits, or any number of
them behind a sign; the other numbers are two digits; a fraction may be missing, but not longer than
nine digits. -/
inductive Matches : List Char → List Char → Reading → Reading → Prop
  | nil {r : Reading} : Matches [] [] r r
  | literal {c : Char} {format text : List Char} {r r' : Reading} (percent : c ≠ '%')
      (blank : isBlank c = false) (rest : Matches format text r r') :
      Matches (c :: format) (c :: text) r r'
  | year {ds format text : List Char} {r r' : Reading} (length : ds.length = 4)
      (digits : ∀ d ∈ ds, d.isDigit = true) (fresh : r.year = none)
      (rest : Matches format text { r with year := some (ofDigits ds : Int) } r') :
      Matches ('%' :: 'Y' :: format) (ds ++ text) r r'
  | signedYear (negative : Bool) {ds format text : List Char} {r r' : Reading} (nonempty : ds ≠ [])
      (digits : ∀ d ∈ ds, d.isDigit = true) (stop : ∀ c ∈ text.head?, c.isDigit = false)
      (fresh : r.year = none)
      (rest : Matches format text
        { r with year := some (if negative then -(ofDigits ds : Int) else ofDigits ds) } r') :
      Matches ('%' :: 'Y' :: format) ((if negative then '-' else '+') :: (ds ++ text)) r r'
  | number {field : Field} {ds format text : List Char} {r r' : Reading} (length : ds.length = 2)
      (digits : ∀ d ∈ ds, d.isDigit = true) (fresh : r.get? field = none)
      (rest : Matches format text (r.set field (ofDigits ds)) r') :
      Matches ('%' :: field.code :: format) (ds ++ text) r r'
  | fraction {ds format text : List Char} {r r' : Reading} (nonempty : ds ≠ [])
      (length : ds.length ≤ 9) (digits : ∀ d ∈ ds, d.isDigit = true)
      (stop : ∀ c ∈ text.head?, c.isDigit = false) (fresh : r.nano = none)
      (rest : Matches format text
        { r with nano := some (ofDigits ds * 10 ^ (9 - ds.length)) } r') :
      Matches ('%' :: '.' :: 'f' :: format) ('.' :: (ds ++ text)) r r'
  | noFraction {format text : List Char} {r r' : Reading} (stop : '.' ∉ text.head?)
      (rest : Matches format text r r') : Matches ('%' :: '.' :: 'f' :: format) text r r'

/-- Whether a text ends in a zone: a `Z`, or a sign and behind it nothing but digits, colons and
blanks. -/
inductive EndsInZone : List Char → Prop
  | utc (front : List Char) {c : Char} (h : c = 'Z' ∨ c = 'z') : EndsInZone (front ++ [c])
  | offset (front : List Char) {sign : Char} {tail : List Char}
      (hsign : sign = '+' ∨ sign = '-' ∨ sign = '\u2212')
      (htail : ∀ c ∈ tail, c.isDigit = true ∨ c = ':' ∨ isBlank c = true) :
      EndsInZone (front ++ sign :: tail)

/-- What is relied on of a library for moments. -/
structure TimeLibrary.IsDocumented (lib : TimeLibrary) : Prop where
  format_nil (t : Moment) : lib.format [] t = []
  format_literal {c : Char} (h : c ≠ '%') (format : List Char) (t : Moment) :
    lib.format (c :: format) t = c :: lib.format format t
  format_year (format : List Char) (t : Moment) :
    lib.format ('%' :: 'Y' :: format) t = yearChars t.date.year ++ lib.format format t
  format_number (field : Field) (format : List Char) (t : Moment) :
    lib.format ('%' :: field.code :: format) t =
      padded 2 (field.value t) ++ lib.format format t
  format_fraction (format : List Char) (t : Moment) :
    lib.format ('%' :: '.' :: 'f' :: format) t =
      fractionChars (t.nano % nanosInSecond) ++ lib.format format t
  parses {format text : List Char} {r : Reading} {t : Moment} (h : Matches format text {} r)
    (ht : r.wallClock? = some t) : lib.parseMoment? format text = some t
  rfc3339_zone {text : List Char} {t : Moment} (h : lib.parseRfc3339? text = some t) :
    EndsInZone text
  offset_zone {format : List Char} (hformat : format ∈ zonedFormats) {text : List Char}
    {t : Moment} (h : lib.parseZoned? format text = some t) : EndsInZone text

namespace Matches

variable {format text : List Char} {r r' : Reading}

theorem padded {field : Field} {n : Nat} (hn : n < 100) (fresh : r.get? field = none)
    (rest : Matches format text (r.set field n) r') :
    Matches ('%' :: field.code :: format) (padded 2 n ++ text) r r' := by
  refine .number (length_padded (by decide) hn) (fun _ => isDigit_of_mem_padded) fresh ?_
  rwa [ofDigits_padded]

theorem yearChars (year : Int) (stop : ∀ c ∈ text.head?, c.isDigit = false)
    (fresh : r.year = none) (rest : Matches format text { r with year := some year } r') :
    Matches ('%' :: 'Y' :: format) (yearChars year ++ text) r r' := by
  have hdigits : ∀ d ∈ Number.padded 4 year.natAbs, d.isDigit = true :=
    fun _ => isDigit_of_mem_padded
  rw [Time.yearChars]
  split
  · have hyear : -(year.natAbs : Int) = year := by omega
    refine .signedYear true (padded_ne_nil 4 _) hdigits stop fresh ?_
    rw [ofDigits_padded, if_pos rfl, hyear]
    exact rest
  · have hyear : (year.natAbs : Int) = year := by omega
    split
    · refine .signedYear false (padded_ne_nil 4 _) hdigits stop fresh ?_
      rw [ofDigits_padded, if_neg Bool.false_ne_true, hyear]
      exact rest
    · refine .year (length_padded (by decide) (by omega)) hdigits fresh ?_
      rw [ofDigits_padded, hyear]
      exact rest

theorem point (width places : Nat) {n : Nat} (hwidth : 0 < width) (hplaces : width + places = 9)
    (hn : n < 10 ^ width) (stop : ∀ c ∈ text.head?, c.isDigit = false) (fresh : r.nano = none)
    (rest : Matches format text { r with nano := some (n * 10 ^ places) } r') :
    Matches ('%' :: '.' :: 'f' :: format) ('.' :: (Number.padded width n ++ text)) r r' := by
  have hlength := length_padded hwidth hn
  refine .fraction (padded_ne_nil width n) (by omega) (fun _ => isDigit_of_mem_padded) stop fresh ?_
  rwa [ofDigits_padded, hlength, ← hplaces, Nat.add_sub_cancel_left]

/-- However many digits a fraction has, it is taken for what it is; none is written for zero. -/
theorem fractionChars {nano : Nat} (h : nano < nanosInSecond) (fresh : r.nano = none)
    (rest : Matches format [] { r with nano := if nano = 0 then none else some nano } r') :
    Matches ('%' :: '.' :: 'f' :: format) (fractionChars nano) r r' := by
  have stop : ∀ c ∈ ([] : List Char).head?, c.isDigit = false := nofun
  rw [nanosInSecond] at h
  rw [Time.fractionChars]
  split
  · rename_i hzero
    rw [if_pos hzero, ← fresh] at rest
    exact .noFraction nofun rest
  · rename_i hzero
    rw [if_neg hzero] at rest
    split
    · have hvalue : nano / 1000000 * 10 ^ 6 = nano := by omega
      have hpoint := point 3 6 (by decide) rfl (by omega) stop fresh (hvalue.symm ▸ rest)
      rwa [List.append_nil] at hpoint
    · split
      · have hvalue : nano / 1000 * 10 ^ 3 = nano := by omega
        have hpoint := point 6 3 (by decide) rfl (by omega) stop fresh (hvalue.symm ▸ rest)
        rwa [List.append_nil] at hpoint
      · have hpoint := point 9 0 (by decide) rfl (by omega) stop fresh
          ((Nat.mul_one nano).symm ▸ rest)
        rwa [List.append_nil] at hpoint

end Matches

/-! ### The text of a moment -/

def Moment.dateChars (t : Moment) : List Char :=
  yearChars t.date.year ++ '-' :: (padded 2 (Field.month.value t) ++ '-' ::
    padded 2 (Field.day.value t))

def Moment.timeChars (t : Moment) : List Char :=
  padded 2 (Field.hour.value t) ++ ':' :: (padded 2 (Field.minute.value t) ++ ':' ::
    (padded 2 (Field.second.value t) ++ fractionChars (t.nano % nanosInSecond)))

def Moment.isoChars (t : Moment) : List Char :=
  t.dateChars ++ 'T' :: t.timeChars

theorem timestampFormat_eq : timestampFormat =
    '%' :: 'Y' :: '-' :: '%' :: Field.month.code :: '-' :: '%' :: Field.day.code :: 'T' ::
      '%' :: Field.hour.code :: ':' :: '%' :: Field.minute.code :: ':' ::
        '%' :: Field.second.code :: ['%', '.', 'f'] := rfl

theorem TimeLibrary.IsDocumented.format_timestamp {lib : TimeLibrary} (hlib : lib.IsDocumented)
    (t : Moment) : lib.format timestampFormat t = t.isoChars := by
  have hdash := hlib.format_literal (by decide : '-' ≠ '%')
  have hcolon := hlib.format_literal (by decide : ':' ≠ '%')
  rw [timestampFormat_eq, hlib.format_year, hdash, hlib.format_number, hdash, hlib.format_number,
    hlib.format_literal (by decide : 'T' ≠ '%'), hlib.format_number, hcolon, hlib.format_number,
    hcolon, hlib.format_number, hlib.format_fraction, hlib.format_nil]
  simp [Moment.isoChars, Moment.dateChars, Moment.timeChars]

def Moment.reading (t : Moment) : Reading where
  year := some t.date.year
  month := some (Field.month.value t)
  day := some (Field.day.value t)
  hour := some (Field.hour.value t)
  minute := some (Field.minute.value t)
  second := some (Field.second.value t)
  nano := if t.nano % nanosInSecond = 0 then none else some (t.nano % nanosInSecond)

theorem daysInMonth_le (year : Int) (month : Nat) : daysInMonth year month ≤ 31 := by
  rw [daysInMonth]
  repeat' split
  all_goals decide

/-- Every number of a moment besides its year has two digits. -/
theorem Field.value_lt (t : Moment) (field : Field) : field.value t < 100 := by
  have hday : t.second < 86400 := t.inDay
  have hnano : t.nano < 2 * 1000000000 := t.bounded
  cases field with
  | month =>
    have hbound := t.date.valid.2.1.2
    exact Nat.lt_of_le_of_lt hbound (by decide)
  | day =>
    have hbound := Nat.le_trans t.date.valid.2.2.2 (daysInMonth_le t.date.year t.date.month)
    exact Nat.lt_of_le_of_lt hbound (by decide)
  | hour =>
    show t.second / 3600 < 100
    omega
  | minute =>
    show t.second / 60 % 60 < 100
    omega
  | second =>
    show t.second % 60 + t.nano / 1000000000 < 100
    omega

theorem matches_isoChars (t : Moment) : Matches timestampFormat t.isoChars {} t.reading := by
  have hnano : t.nano % nanosInSecond < nanosInSecond := Nat.mod_lt _ (by decide)
  have htext : t.isoChars =
      yearChars t.date.year ++ '-' :: (padded 2 (Field.month.value t) ++ '-' ::
        (padded 2 (Field.day.value t) ++ 'T' :: t.timeChars)) := by
    simp [Moment.isoChars, Moment.dateChars]
  rw [timestampFormat_eq, htext]
  refine .yearChars _ (by simp) rfl (.literal (by decide) (by decide) ?_)
  refine .padded (Field.value_lt t _) rfl (.literal (by decide) (by decide) ?_)
  refine .padded (Field.value_lt t _) rfl (.literal (by decide) (by decide) ?_)
  refine .padded (Field.value_lt t _) rfl (.literal (by decide) (by decide) ?_)
  refine .padded (Field.value_lt t _) rfl (.literal (by decide) (by decide) ?_)
  exact .padded (Field.value_lt t _) rfl (.fractionChars hnano rfl .nil)

theorem ofClock?_parts {t : Moment} (h : t.IsRegular) :
    Moment.ofClock? t.date (t.second / 3600) (t.second / 60 % 60) (t.second % 60) t.nano =
      some t := by
  obtain ⟨date, second, nano, hday, hnano⟩ := t
  have hwhole : second / 3600 * 3600 + second / 60 % 60 * 60 + second % 60 = second := by omega
  have hclock : second / 3600 < 24 ∧ second / 60 % 60 < 60 ∧ second % 60 < 60 ∧
      nano < 2 * nanosInSecond ∧ (nano < nanosInSecond ∨ second % 60 = 59) := by
    rw [secondsInDay] at hday
    exact ⟨by omega, by omega, by omega, hnano, h⟩
  rw [Moment.ofClock?, dif_pos hclock]
  simp only [hwhole]

/-- The reading names the moment, if a leap second ends its minute. -/
theorem wallClock?_reading {t : Moment} (h : t.IsRegular) : t.reading.wallClock? = some t := by
  have hclock := ofClock?_parts h
  have hdate : Date.ofParts? t.date.year t.date.month t.date.day = some t.date :=
    dif_pos t.date.valid
  have hnano : t.reading.nano.getD 0 = t.nano % nanosInSecond := by
    rw [Moment.reading]
    split
    · exact (‹t.nano % nanosInSecond = 0›).symm
    · rfl
  have hread : t.reading.wallClock? =
      (Date.ofParts? t.date.year t.date.month t.date.day).bind fun date =>
        if t.second % 60 + t.nano / nanosInSecond = 60 then
          Moment.ofClock? date (t.second / 3600) (t.second / 60 % 60) 59
            (nanosInSecond + t.reading.nano.getD 0)
        else
          Moment.ofClock? date (t.second / 3600) (t.second / 60 % 60)
            (t.second % 60 + t.nano / nanosInSecond) (t.reading.nano.getD 0) := rfl
  rw [hread, hdate, Option.bind_some, hnano]
  by_cases hleap : t.nano < nanosInSecond
  · rw [Nat.div_eq_of_lt hleap, Nat.add_zero, Nat.mod_eq_of_lt hleap, if_neg (by omega)]
    exact hclock
  · have hlast : t.second % 60 = 59 := h.resolve_left hleap
    have hbound : t.nano < 2 * nanosInSecond := t.bounded
    have hone : t.nano / nanosInSecond = 1 := by
      rw [nanosInSecond] at hleap hbound ⊢
      omega
    have hrest : nanosInSecond + t.nano % nanosInSecond = t.nano := by
      have hparts := Nat.div_add_mod t.nano nanosInSecond
      rwa [hone, Nat.mul_one] at hparts
    rw [hlast, hone, if_pos rfl, hrest]
    rwa [hlast] at hclock

/-! ### The text ends in no zone -/

/-- Behind the `T` stand digits, colons and a point, and a digit is the last of them. -/
theorem timeChars_cases {t : Moment} {c : Char} (h : c ∈ t.timeChars) :
    c.isDigit = true ∨ c = ':' ∨ c = '.' := by
  have hfraction : ∀ c ∈ fractionChars (t.nano % nanosInSecond), c.isDigit = true ∨ c = '.' := by
    intro c hc
    rw [fractionChars] at hc
    split at hc
    · cases hc
    · split at hc
      · exact (List.mem_cons.mp hc).symm.imp_left isDigit_of_mem_padded
      · split at hc <;> exact (List.mem_cons.mp hc).symm.imp_left isDigit_of_mem_padded
  simp only [Moment.timeChars, List.mem_append, List.mem_cons] at h
  obtain h | rfl | h | rfl | h | h := h
  · exact .inl (isDigit_of_mem_padded h)
  · exact .inr (.inl rfl)
  · exact .inl (isDigit_of_mem_padded h)
  · exact .inr (.inl rfl)
  · exact .inl (isDigit_of_mem_padded h)
  · exact (hfraction c h).imp_right .inr

def EndsInDigit (cs : List Char) : Prop :=
  ∃ front d, cs = front ++ [d] ∧ d.isDigit = true

namespace EndsInDigit

theorem append (front : List Char) {cs : List Char} (h : EndsInDigit cs) :
    EndsInDigit (front ++ cs) := by
  obtain ⟨before, d, rfl, hd⟩ := h
  exact ⟨front ++ before, d, (List.append_assoc ..).symm, hd⟩

theorem cons (c : Char) {cs : List Char} (h : EndsInDigit cs) : EndsInDigit (c :: cs) :=
  h.append [c]

theorem padded (width n : Nat) : EndsInDigit (padded width n) := by
  have hne := padded_ne_nil width n
  exact ⟨_, _, (List.dropLast_append_getLast hne).symm,
    isDigit_of_mem_padded (List.getLast_mem hne)⟩

theorem append_fractionChars {cs : List Char} (h : EndsInDigit cs) (nano : Nat) :
    EndsInDigit (cs ++ fractionChars nano) := by
  rw [fractionChars]
  split
  · rwa [List.append_nil]
  · refine append cs ?_
    split
    · exact (padded 3 _).cons '.'
    · split
      · exact (padded 6 _).cons '.'
      · exact (padded 9 _).cons '.'

theorem isoChars (t : Moment) : EndsInDigit t.isoChars := by
  have hseconds := (padded 2 (Field.second.value t)).append_fractionChars (t.nano % nanosInSecond)
  exact ((((hseconds.cons ':').append _).cons ':').append _).cons 'T' |>.append _

end EndsInDigit

/-- The last sign of the text stands before the `T`, and no zone holds that. -/
theorem not_endsInZone_isoChars (t : Moment) : ¬ EndsInZone t.isoChars := by
  intro hzone
  generalize htext : t.isoChars = text at hzone
  cases hzone with
  | utc front h =>
    obtain ⟨before, d, hdigit, hd⟩ := EndsInDigit.isoChars t
    obtain rfl := List.singleton_inj.mp (List.append_inj' (htext.symm.trans hdigit) rfl).2
    obtain rfl | rfl := h <;> cases hd
  | @offset front sign tail hsign htail =>
    have hT : 'T' ∉ sign :: tail := by
      intro hmem
      obtain rfl | hmem := List.mem_cons.mp hmem
      · simp at hsign
      · simpa [isBlank] using htail 'T' hmem
    have hsign' : sign ∉ 'T' :: t.timeChars := by
      intro hmem
      obtain rfl | hmem := List.mem_cons.mp hmem
      · exact hT List.mem_cons_self
      · obtain hd | rfl | rfl := timeChars_cases hmem
        · obtain rfl | rfl | rfl := hsign <;> cases hd
        · simp at hsign
        · simp at hsign
    obtain ⟨between, -, hback⟩ | ⟨between, -, hback⟩ := List.append_eq_append_iff.mp htext
    · exact hsign' (hback ▸ List.mem_append_right between List.mem_cons_self)
    · exact hT (hback ▸ List.mem_append_right between List.mem_cons_self)

/-! ### Reading the text -/

theorem isFiller_of_isDigit {c : Char} (h : c.isDigit = true) : isFiller c = false :=
  (by decide : ∀ d ∈ decimalDigits, isFiller d = false) c (mem_of_isDigit h)

theorem hasFront_yearChars (year : Int) : hasFront (yearChars year) = true := by
  have hpadded : hasFront (padded 4 year.natAbs) = true := by
    obtain ⟨d, ds, hdigits⟩ := List.exists_cons_of_ne_nil (padded_ne_nil 4 year.natAbs)
    have hd : d.isDigit = true := isDigit_of_mem_padded (hdigits ▸ List.mem_cons_self)
    rw [hdigits, hasFront, List.head?_cons, Option.any_some, isFiller_of_isDigit hd, Bool.not_false]
  rw [yearChars]
  split
  · rfl
  · split
    · rfl
    · exact hpadded

theorem trimChars_isoChars (t : Moment) : trimChars t.isoChars = t.isoChars := by
  have hfront : hasFront t.isoChars = true := by
    rw [Moment.isoChars, Moment.dateChars, List.append_assoc]
    exact hasFront_append (hasFront_yearChars _) _
  have hback : hasBack t.isoChars = true := by
    obtain ⟨before, d, hdigit, hd⟩ := EndsInDigit.isoChars t
    rw [hasBack, hdigit, List.getLast?_concat, Option.any_some, isFiller_of_isDigit hd,
      Bool.not_false]
  have htrim := trimChars_around hfront hback [] [] (by simp) (by simp)
  rwa [List.nil_append, List.append_nil] at htrim

/-- The text of a moment is read back: the forms that are tried before want a zone. -/
theorem TimeLibrary.IsDocumented.readIso?_format {lib : TimeLibrary} (hlib : lib.IsDocumented)
    {t : Moment} (h : t.IsRegular) :
    lib.readIso? (String.ofList (lib.format timestampFormat t)) = some t := by
  have hstrict : lib.parseRfc3339? t.isoChars = none :=
    Option.eq_none_iff_forall_not_mem.mpr fun _ hread =>
      not_endsInZone_isoChars t (hlib.rfc3339_zone hread)
  have hzoned : zonedFormats.findSome? (lib.parseZoned? · t.isoChars) = none :=
    List.findSome?_eq_none_iff.mpr fun _ hformat =>
      Option.eq_none_iff_forall_not_mem.mpr fun _ hread =>
        not_endsInZone_isoChars t (hlib.offset_zone hformat hread)
  have hmoment : lib.parseMoment? timestampFormat t.isoChars = some t :=
    hlib.parses (matches_isoChars t) (wallClock?_reading h)
  have hplain : plainFormats.findSome? (lib.parseMoment? · t.isoChars) = some t := by
    have hformats : plainFormats = timestampFormat :: plainFormats.tail := rfl
    rw [hformats, List.findSome?_cons, hmoment]
  rw [hlib.format_timestamp, readIso?, String.toList_ofList, trimChars_isoChars, hstrict, hzoned,
    hplain]
  rfl

end Time

end QueryChain
