import QueryChain.Proofs.TimeFormats
import QueryChain.Records.Coercion
import QueryChain.Sqlite.Basic

/-!
Moments in ISO 8601 text. The project's own library for moments is as documented: its pieces read
whatever a format takes, and its zones are zones. Whatever library is at hand, a timestamp is read
back from its text, and so it comes back from a column of text.
-/

namespace QueryChain

open Number Text

namespace Time

/-! ### Digits -/

theorem leadingDigits_append {most : Nat} {ds rest : List Char} (h : ∀ d ∈ ds, d.isDigit = true)
    (hlength : ds.length ≤ most)
    (hstop : ds.length = most ∨ ∀ d ∈ rest.head?, d.isDigit = false) :
    leadingDigits most (ds ++ rest) = ds := by
  have hnone : (rest.take (most - ds.length)).takeWhile Char.isDigit = [] := by
    obtain hfull | hstop := hstop
    · rw [hfull, Nat.sub_self, List.take_zero, List.takeWhile_nil]
    · cases rest with
      | nil => rw [List.take_nil, List.takeWhile_nil]
      | cons d rest =>
        cases most - ds.length with
        | zero => rfl
        | succ k =>
          rw [List.take_succ_cons, List.takeWhile_cons_of_neg (ne_true_of_eq_false (hstop d rfl))]
  rw [leadingDigits, List.take_append, List.take_of_length_le hlength,
    List.takeWhile_append_of_pos h, hnone, List.append_nil]

/-- Digits are read up to the most that are asked for, or up to another character. -/
theorem readNumber?_append {least most : Nat} {ds rest : List Char}
    (h : ∀ d ∈ ds, d.isDigit = true) (hleast : least ≤ ds.length) (hmost : ds.length ≤ most)
    (hstop : ds.length = most ∨ ∀ d ∈ rest.head?, d.isDigit = false) :
    readNumber? least most (ds ++ rest) = some (ofDigits ds, rest) := by
  rw [readNumber?, leadingDigits_append h hmost hstop, if_neg (Nat.not_lt.mpr hleast),
    List.drop_left]

theorem isBlank_of_isDigit {c : Char} (h : c.isDigit = true) : isBlank c = false :=
  (by decide : ∀ d ∈ decimalDigits, isBlank d = false) c (mem_of_isDigit h)

/-- Digits are not passed over as blanks. -/
theorem dropWhile_digits {ds : List Char} (hne : ds ≠ []) (h : ∀ d ∈ ds, d.isDigit = true)
    (rest : List Char) : (ds ++ rest).dropWhile isBlank = ds ++ rest := by
  obtain ⟨d, ds, rfl⟩ := List.exists_cons_of_ne_nil hne
  rw [List.cons_append, List.dropWhile_cons_of_neg
    (ne_true_of_eq_false (isBlank_of_isDigit (h d List.mem_cons_self)))]

theorem readYear?_minus (cs : List Char) :
    readYear? ('-' :: cs) = (readNumber? 1 cs.length cs).map fun x => (-(x.1 : Int), x.2) := rfl

theorem readYear?_plus (cs : List Char) :
    readYear? ('+' :: cs) = (readNumber? 1 cs.length cs).map fun x => ((x.1 : Int), x.2) := rfl

theorem readYear?_digit {d : Char} (hd : d.isDigit = true) (ds : List Char) :
    readYear? (d :: ds) = (readNumber? 1 4 (d :: ds)).map fun x => ((x.1 : Int), x.2) := by
  have hmem := mem_of_isDigit hd
  simp only [decimalDigits, List.mem_cons, List.not_mem_nil, or_false] at hmem
  obtain rfl | rfl | rfl | rfl | rfl | rfl | rfl | rfl | rfl | rfl := hmem <;> rfl

/-! ### What a format takes is read -/

theorem readPieces?_cons {r r' : Reading} {p : Piece} {cs rest : List Char}
    (h : p.read? r cs = some (r', rest)) (ps : List Piece) :
    readPieces? r (p :: ps) cs = readPieces? r' ps rest := by
  rw [readPieces?, h]

theorem piecesOf?_number (field : Field) (format : List Char) :
    piecesOf? ('%' :: field.code :: format) =
      (piecesOf? format).map (.looseNumber field :: ·) := by
  cases field <;> rfl

theorem piecesOf?_literal {c : Char} (hpercent : c ≠ '%') (hblank : isBlank c = false)
    (format : List Char) : piecesOf? (c :: format) = (piecesOf? format).map (.mark [c] :: ·) := by
  rw [piecesOf?, hblank]
  · rfl
  all_goals
    intros
    contradiction

theorem read?_mark (c : Char) (r : Reading) (rest : List Char) :
    (Piece.mark [c]).read? r (c :: rest) = some (r, rest) :=
  if_pos (List.mem_singleton.mpr rfl)

section Pieces

variable {ds text : List Char} {r : Reading}

theorem read?_looseYear (hlength : ds.length = 4) (hdigits : ∀ d ∈ ds, d.isDigit = true) :
    Piece.looseYear.read? r (ds ++ text) =
      some ({ r with year := some (ofDigits ds : Int) }, text) := by
  have hne : ds ≠ [] := List.ne_nil_of_length_pos (by omega)
  have hnumber : readNumber? 1 4 (ds ++ text) = some (ofDigits ds, text) :=
    readNumber?_append hdigits (by omega) (by omega) (.inl hlength)
  obtain ⟨d, ds, rfl⟩ := List.exists_cons_of_ne_nil hne
  rw [Piece.read?, dropWhile_digits hne hdigits, List.cons_append,
    readYear?_digit (hdigits d List.mem_cons_self), ← List.cons_append, hnumber]
  rfl

theorem read?_signedYear (negative : Bool) (hne : ds ≠ []) (hdigits : ∀ d ∈ ds, d.isDigit = true)
    (hstop : ∀ c ∈ text.head?, c.isDigit = false) :
    Piece.looseYear.read? r ((if negative then '-' else '+') :: (ds ++ text)) =
      some ({ r with
        year := some (if negative then -(ofDigits ds : Int) else ofDigits ds) }, text) := by
  have hpos : 1 ≤ ds.length := List.length_pos_iff.mpr hne
  have hnumber := readNumber?_append hdigits hpos (by simp : ds.length ≤ (ds ++ text).length)
    (.inr hstop)
  cases negative with
  | true =>
    show ((readYear? ('-' :: (ds ++ text))).map _) = _
    rw [readYear?_minus, hnumber]
    rfl
  | false =>
    show ((readYear? ('+' :: (ds ++ text))).map _) = _
    rw [readYear?_plus, hnumber]
    rfl

theorem read?_looseNumber (field : Field) (hlength : ds.length = 2)
    (hdigits : ∀ d ∈ ds, d.isDigit = true) :
    (Piece.looseNumber field).read? r (ds ++ text) = some (r.set field (ofDigits ds), text) := by
  have hne : ds ≠ [] := List.ne_nil_of_length_pos (by omega)
  rw [Piece.read?, dropWhile_digits hne hdigits,
    readNumber?_append hdigits (by omega : 1 ≤ ds.length) (by omega) (.inl hlength)]
  rfl

theorem read?_fraction (hne : ds ≠ []) (hlength : ds.length ≤ 9)
    (hdigits : ∀ d ∈ ds, d.isDigit = true) (hstop : ∀ c ∈ text.head?, c.isDigit = false) :
    Piece.fraction.read? r ('.' :: (ds ++ text)) =
      some ({ r with nano := some (ofDigits ds * 10 ^ (9 - ds.length)) }, text) := by
  have hleading := leadingDigits_append hdigits hlength (.inr hstop)
  have hrest : (ds ++ text).dropWhile Char.isDigit = text := by
    rw [List.dropWhile_append_of_pos hdigits]
    cases text with
    | nil => rfl
    | cons c text => exact List.dropWhile_cons_of_neg (ne_true_of_eq_false (hstop c rfl))
  have hread : readFraction? ('.' :: (ds ++ text)) =
      some (some (ofDigits ds * 10 ^ (9 - ds.length)), text) := by
    show (if (leadingDigits 9 (ds ++ text)).isEmpty then none else some (some _, _)) = _
    rw [hleading, hrest, if_neg (by simpa using hne)]
  rw [Piece.read?, hread]
  rfl

theorem read?_noFraction (hstop : '.' ∉ text.head?) :
    Piece.fraction.read? r text = some (r, text) := by
  have hread : readFraction? text = some (none, text) := by
    rw [readFraction?]
    rintro rest rfl
    exact hstop rfl
  rw [Piece.read?, hread]
  rfl

end Pieces

/-- A format that begins with a piece is read if its piece is, and then the rest. -/
theorem exists_readPieces?_cons {format format' text text' : List Char} {p : Piece}
    {r r₁ r' : Reading} (hpiece : piecesOf? format = (piecesOf? format').map (p :: ·))
    (hread : p.read? r text = some (r₁, text'))
    (hrest : ∃ ps, piecesOf? format' = some ps ∧ readPieces? r₁ ps text' = some r') :
    ∃ ps, piecesOf? format = some ps ∧ readPieces? r ps text = some r' := by
  obtain ⟨ps, hps, hrest⟩ := hrest
  exact ⟨p :: ps, by rw [hpiece, hps, Option.map_some], (readPieces?_cons hread ps).trans hrest⟩

theorem Matches.readPieces? {format text : List Char} {r r' : Reading}
    (h : Matches format text r r') :
    ∃ ps, piecesOf? format = some ps ∧ readPieces? r ps text = some r' := by
  induction h with
  | nil => exact ⟨[], rfl, rfl⟩
  | literal percent blank _ ih =>
    exact exists_readPieces?_cons (piecesOf?_literal percent blank _) (read?_mark _ _ _) ih
  | year length digits _ _ ih =>
    exact exists_readPieces?_cons (by rw [piecesOf?]) (read?_looseYear length digits) ih
  | signedYear negative nonempty digits stop _ _ ih =>
    exact exists_readPieces?_cons (by rw [piecesOf?])
      (read?_signedYear negative nonempty digits stop) ih
  | number length digits _ _ ih =>
    exact exists_readPieces?_cons (piecesOf?_number _ _) (read?_looseNumber _ length digits) ih
  | fraction nonempty length digits stop _ _ ih =>
    exact exists_readPieces?_cons (by rw [piecesOf?])
      (read?_fraction nonempty length digits stop) ih
  | noFraction stop _ ih =>
    exact exists_readPieces?_cons (by rw [piecesOf?]) (read?_noFraction stop) ih

/-! ### Zones -/

def IsOffsetTail (cs : List Char) : Prop :=
  ∀ c ∈ cs, c.isDigit = true ∨ c = ':' ∨ isBlank c = true

theorem exists_of_readNumber? {least most n : Nat} {cs rest : List Char}
    (h : readNumber? least most cs = some (n, rest)) :
    ∃ ds, cs = ds ++ rest ∧ ∀ d ∈ ds, d.isDigit = true := by
  rw [readNumber?] at h
  split at h
  · cases h
  · obtain ⟨-, rfl⟩ := Prod.mk.inj (Option.some.inj h)
    have hfront : leadingDigits most cs <+: cs :=
      (List.takeWhile_prefix _).trans (List.take_prefix _ _)
    exact ⟨_, (List.prefix_iff_eq_append.mp hfront).symm, fun d hd => List.mem_takeWhile_imp hd⟩

theorem exists_of_readSign? {cs rest : List Char} {negative : Bool}
    (h : readSign? cs = some (negative, rest)) :
    ∃ sign, cs = sign :: rest ∧ (sign = '+' ∨ sign = '-' ∨ sign = '−') := by
  rw [readSign?.eq_def] at h
  split at h <;> cases h <;> exact ⟨_, rfl, by decide⟩

theorem isOffsetTail_digits {ds : List Char} (h : ∀ d ∈ ds, d.isDigit = true) : IsOffsetTail ds :=
  fun d hd => .inl (h d hd)

/-- What is read as an offset is a sign with a tail. -/
theorem exists_of_readOffset? {separate : List Char → Option (List Char)}
    (hseparate : ∀ cs rest, separate cs = some rest →
      ∃ between, cs = between ++ rest ∧ IsOffsetTail between)
    {cs rest : List Char} {n : Int} (h : readOffset? separate cs = some (n, rest)) :
    ∃ sign tail, cs = sign :: (tail ++ rest) ∧ (sign = '+' ∨ sign = '-' ∨ sign = '−') ∧
      IsOffsetTail tail := by
  simp only [readOffset?, Option.bind_eq_bind, Option.bind_eq_some_iff] at h
  obtain ⟨⟨negative, cs₁⟩, hsign, ⟨hours, cs₂⟩, hhours, cs₃, hbetween, ⟨minutes, cs₄⟩, hminutes,
    h⟩ := h
  obtain ⟨sign, rfl, hmark⟩ := exists_of_readSign? hsign
  obtain ⟨ds, rfl, hds⟩ := exists_of_readNumber? hhours
  obtain ⟨between, rfl, htail⟩ := hseparate _ _ hbetween
  obtain ⟨es, rfl, hes⟩ := exists_of_readNumber? hminutes
  split at h
  · obtain ⟨-, rfl⟩ := Prod.mk.inj (Option.some.inj h)
    refine ⟨sign, ds ++ between ++ es, by simp, hmark, ?_⟩
    exact List.forall_mem_append.mpr
      ⟨List.forall_mem_append.mpr ⟨isOffsetTail_digits hds, htail⟩, isOffsetTail_digits hes⟩
  · cases h

theorem EndsInZone.of_suffix {cs rest : List Char} (hsuffix : rest <:+ cs) (h : EndsInZone rest) :
    EndsInZone cs := by
  obtain ⟨front, rfl⟩ := hsuffix
  cases h with
  | utc before h =>
    rw [← List.append_assoc]
    exact .utc _ h
  | offset before hsign htail =>
    rw [← List.append_assoc]
    exact .offset _ hsign htail

/-- A zone is read off the front of a text, and a text that it takes whole ends in it. -/
def ReadsZone (read : List Char → Option (Int × List Char)) : Prop :=
  ∀ cs n rest, read cs = some (n, rest) → rest <:+ cs ∧ (rest = [] → EndsInZone cs)

theorem readsZone_readOffset? {separate : List Char → Option (List Char)}
    (hseparate : ∀ cs rest, separate cs = some rest →
      ∃ between, cs = between ++ rest ∧ IsOffsetTail between) :
    ReadsZone (readOffset? separate) := by
  intro cs n rest h
  obtain ⟨sign, tail, rfl, hsign, htail⟩ := exists_of_readOffset? hseparate h
  refine ⟨⟨sign :: tail, rfl⟩, ?_⟩
  rintro rfl
  rw [List.append_nil]
  exact .offset [] hsign htail

theorem readsZone_readZone? : ReadsZone readZone? := by
  intro cs n rest h
  rw [readZone?.eq_def] at h
  split at h
  · cases h
    exact ⟨⟨['Z'], rfl⟩, fun hrest => hrest ▸ .utc [] (.inl rfl)⟩
  · cases h
    exact ⟨⟨['z'], rfl⟩, fun hrest => hrest ▸ .utc [] (.inr rfl)⟩
  · refine readsZone_readOffset? (fun cs rest hcolon => ?_) _ _ _ h
    split at hcolon
    · cases hcolon
      exact ⟨[':'], rfl, List.forall_mem_singleton.mpr (.inr (.inl rfl))⟩
    · cases hcolon

theorem readsZone_readLooseZone? : ReadsZone readLooseZone? := by
  intro cs n rest h
  have hblanks : cs.dropWhile isBlank <:+ cs := List.dropWhile_suffix _
  obtain ⟨hsuffix, hzone⟩ := readsZone_readOffset? (fun cs rest hbetween => by
    obtain rfl := Option.some.inj hbetween
    refine ⟨_, List.takeWhile_append_dropWhile.symm, fun c hc => ?_⟩
    have hseparator := List.mem_takeWhile_imp hc
    exact .inr (by simpa using hseparator)) _ _ _ h
  exact ⟨hsuffix.trans hblanks, fun hrest => (hzone hrest).of_suffix hblanks⟩

/-! ### Pieces take their part off the front -/

theorem suffix_of_readNumber? {least most n : Nat} {cs rest : List Char}
    (h : readNumber? least most cs = some (n, rest)) : rest <:+ cs := by
  obtain ⟨ds, rfl, -⟩ := exists_of_readNumber? h
  exact List.suffix_append ds rest

theorem suffix_of_readYear? {cs rest : List Char} {year : Int}
    (h : readYear? cs = some (year, rest)) : rest <:+ cs := by
  rw [readYear?.eq_def] at h
  split at h <;> obtain ⟨⟨n, rest⟩, hnumber, heq⟩ := Option.map_eq_some_iff.mp h <;> cases heq
  · exact (suffix_of_readNumber? hnumber).trans (List.suffix_cons _ _)
  · exact (suffix_of_readNumber? hnumber).trans (List.suffix_cons _ _)
  · exact suffix_of_readNumber? hnumber

theorem suffix_of_readFraction? {cs rest : List Char} {nano : Option Nat}
    (h : readFraction? cs = some (nano, rest)) : rest <:+ cs := by
  rw [readFraction?.eq_def] at h
  split at h
  · dsimp only at h
    split at h
    · cases h
    · cases h
      exact (List.dropWhile_suffix _).trans (List.suffix_cons _ _)
  · cases h
    exact List.suffix_rfl

theorem Piece.suffix_of_read? {p : Piece} {r r' : Reading} {cs rest : List Char}
    (h : p.read? r cs = some (r', rest)) : rest <:+ cs := by
  have hblanks : cs.dropWhile isBlank <:+ cs := List.dropWhile_suffix _
  cases p with
  | year | number field =>
    obtain ⟨⟨n, rest⟩, hnumber, heq⟩ := Option.map_eq_some_iff.mp h
    cases heq
    exact suffix_of_readNumber? hnumber
  | looseYear =>
    obtain ⟨⟨n, rest⟩, hyear, heq⟩ := Option.map_eq_some_iff.mp h
    cases heq
    exact (suffix_of_readYear? hyear).trans hblanks
  | looseNumber field =>
    obtain ⟨⟨n, rest⟩, hnumber, heq⟩ := Option.map_eq_some_iff.mp h
    cases heq
    exact (suffix_of_readNumber? hnumber).trans hblanks
  | fraction =>
    obtain ⟨⟨n, rest⟩, hfraction, heq⟩ := Option.map_eq_some_iff.mp h
    cases heq
    exact suffix_of_readFraction? hfraction
  | blanks =>
    cases h
    exact hblanks
  | mark allowed =>
    cases cs with
    | nil => cases h
    | cons c cs =>
      rw [read?] at h
      split at h
      · cases h
        exact List.suffix_cons c rest
      · cases h
  | zone =>
    obtain ⟨⟨n, rest⟩, hzone, heq⟩ := Option.map_eq_some_iff.mp h
    cases heq
    exact (readsZone_readZone? _ _ _ hzone).1
  | looseZone =>
    obtain ⟨⟨n, rest⟩, hzone, heq⟩ := Option.map_eq_some_iff.mp h
    cases heq
    exact (readsZone_readLooseZone? _ _ _ hzone).1

/-- The last piece takes the end of the text. -/
theorem exists_of_readPieces?_concat {ps : List Piece} {p : Piece} {r r' : Reading}
    {cs : List Char} (h : readPieces? r (ps ++ [p]) cs = some r') :
    ∃ s s' rest, rest <:+ cs ∧ p.read? s rest = some (s', []) := by
  induction ps generalizing r cs with
  | nil =>
    rw [List.nil_append, readPieces?] at h
    split at h
    · rename_i s rest hread
      cases rest with
      | nil => exact ⟨r, s, cs, List.suffix_rfl, hread⟩
      | cons c rest => cases h
    · cases h
  | cons q ps ih =>
    rw [List.cons_append, readPieces?] at h
    split at h
    · rename_i s rest hread
      obtain ⟨s', s'', end', hsuffix, hlast⟩ := ih h
      exact ⟨s', s'', end', hsuffix.trans (Piece.suffix_of_read? hread), hlast⟩
    · cases h

/-- A text ends in a zone if the last piece that is read is one. -/
theorem ReadsZone.endsInZone {read : List Char → Option (Int × List Char)} (hread : ReadsZone read)
    {p : Piece} (hp : ∀ s cs, p.read? s cs =
      (read cs).map fun x => ({ s with offset := some x.1 }, x.2))
    {ps : List Piece} {r r' : Reading} {cs : List Char}
    (h : readPieces? r (ps ++ [p]) cs = some r') : EndsInZone cs := by
  obtain ⟨s, s', rest, hsuffix, hlast⟩ := exists_of_readPieces?_concat h
  rw [hp] at hlast
  obtain ⟨⟨n, _⟩, hzone, heq⟩ := Option.map_eq_some_iff.mp hlast
  cases heq
  exact ((hread _ _ _ hzone).2 rfl).of_suffix hsuffix

theorem exists_piecesOf?_zoned {format : List Char} (h : format ∈ zonedFormats) :
    ∃ ps, piecesOf? format = some (ps ++ [.looseZone]) := by
  have hlast : ∀ format ∈ zonedFormats,
      (piecesOf? format).bind List.getLast? = some .looseZone :=
    List.forall_mem_cons.mpr ⟨rfl, List.forall_mem_singleton.mpr rfl⟩
  obtain ⟨ps, hps, hlooseZone⟩ := Option.bind_eq_some_iff.mp (hlast format h)
  exact ⟨ps.dropLast, by rw [List.dropLast_append_getLast? _ hlooseZone, hps]⟩

/-! ### The project's own library -/

theorem TimeLibrary.isDocumented_own : own.IsDocumented where
  format_nil _ := rfl
  format_literal h format t := by
    show formatChars t _ = _ :: formatChars t format
    rw [formatChars] <;> intros <;> contradiction
  format_year _ _ := rfl
  format_number field _ _ := by cases field <;> rfl
  format_fraction _ _ := rfl
  parses {format text r t} h ht := by
    obtain ⟨ps, hps, hread⟩ := h.readPieces?
    show (readFormat? format text).bind _ = _
    rw [readFormat?, hps, Option.bind_some, hread]
    exact ht
  rfc3339_zone {text t} h := by
    obtain ⟨r, hread, -⟩ := Option.bind_eq_some_iff.mp h
    have hread : readPieces? {} (strictPieces.dropLast ++ [.zone]) text = some r := hread
    exact readsZone_readZone?.endsInZone (fun _ _ => rfl) hread
  offset_zone {format} hformat {text t} h := by
    obtain ⟨r, hread, -⟩ := Option.bind_eq_some_iff.mp h
    obtain ⟨ps, hps⟩ := exists_piecesOf?_zoned hformat
    rw [readFormat?, hps] at hread
    exact readsZone_readLooseZone?.endsInZone (fun _ _ => rfl) hread

end Time

open Time

namespace Value

/-- Whatever library is at hand, a timestamp is read back from its text, and so it comes back from a
column of text: as a moment and through the coercions of times and dates. -/
theorem timestamp_of_text {lib : Libraries} (hlib : lib.time.IsDocumented) {t : Moment}
    (h : t.IsRegular) :
    lib.time.readIso? (lib.toText (.timestamp t)) = some t ∧
      lib.toSqlite (.timestamp t) = .text (lib.toText (.timestamp t)) ∧
      lib.decodeMoment (lib.toSqlite (.timestamp t)).stored.toValue = .ok t ∧
      lib.coerce .time (lib.toSqlite (.timestamp t)).stored.toValue = .ok (.timestamp t) ∧
      lib.coerce .date (lib.toSqlite (.timestamp t)).stored.toValue = .ok (.timestamp t) := by
  have hread : lib.time.readIso? (lib.momentText t) = some t := hlib.readIso?_format h
  have hback : (lib.toSqlite (.timestamp t)).stored.toValue = .text (lib.momentText t) := rfl
  refine ⟨hread, rfl, ?_, ?_, ?_⟩
  · rw [hback, Libraries.decodeMoment, hread]
  · have htime : lib.coerce .time (.text (lib.momentText t)) =
        lib.toTime (.text (lib.momentText t)) := rfl
    rw [hback, htime, Libraries.toTime, hread]
  · have hdate : lib.coerce .date (.text (lib.momentText t)) =
        lib.toDate (.text (lib.momentText t)) := rfl
    rw [hback, hdate, Libraries.toDate, hread]

/-- A leap second before year 0, with a fraction of nine digits. -/
theorem timestamp_of_text_before_zero :
    ∃ t : Moment, Libraries.own.time.IsDocumented ∧ t.IsRegular ∧
      (Value.timestamp t).toText = "-0044-12-31T23:59:60.000000001" ∧
      readIso? "-0044-12-31T23:59:60.000000001" = some t := by
  let t : Moment := { date := ⟨-44, 12, 31, by decide⟩, second := 86399, nano := 1000000001 }
  have hlib : Libraries.own.time.IsDocumented := TimeLibrary.isDocumented_own
  have hregular : t.IsRegular := by decide
  have htext : (Value.timestamp t).toText = "-0044-12-31T23:59:60.000000001" := by decide
  have hread := (timestamp_of_text hlib hregular).1
  exact ⟨t, hlib, hregular, htext, htext ▸ hread⟩

end Value

end QueryChain
