import QueryChain.Proofs.Boundaries
import QueryChain.Proofs.Sources

/-!
A text that is read byte by byte. Each byte stands for the character of the same code; those of a
character outside ASCII are such characters too. So the scan of the bytes finds the keywords that
the scan of the characters finds, each at the place where its bytes are.
-/

namespace QueryChain

open Text

namespace Text

def octet (b : UInt8) : Char := Char.ofNat b.toNat

/-- The bytes of a text in UTF-8, each as the character of the same code. -/
def octets (cs : List Char) : List Char :=
  (cs.flatMap String.utf8EncodeChar).map octet

@[simp] theorem octets_nil : octets [] = [] := rfl

theorem octets_append (a b : List Char) : octets (a ++ b) = octets a ++ octets b := by
  rw [octets, List.flatMap_append, List.map_append]
  rfl

theorem octets_cons (c : Char) (cs : List Char) : octets (c :: cs) = octets [c] ++ octets cs :=
  octets_append [c] cs

theorem length_octets (cs : List Char) : (octets cs).length = byteLength cs := by
  induction cs with
  | nil => rfl
  | cons c cs ih =>
    rw [octets_cons, List.length_append, ih, byteLength, octets, List.length_map,
      List.flatMap_singleton, String.length_utf8EncodeChar]

theorem toNat_octet (b : UInt8) : (octet b).toNat = b.toNat := by
  have hvalid : b.toNat.isValidChar := .inl (by have := b.toNat_lt; omega)
  rw [octet, Char.ofNat, dif_pos hvalid]
  rfl

def IsWide (c : Char) : Prop := 128 ≤ c.toNat

theorem octets_of_not_isWide {c : Char} (h : ¬ IsWide c) : octets [c] = [c] := by
  have hsmall : c.val.toNat ≤ 0x7f := Nat.le_of_lt_succ (Nat.not_le.mp h)
  have hbyte : String.utf8EncodeChar c = [UInt8.ofNat c.val.toNat] := if_pos hsmall
  have hcode : (octet (UInt8.ofNat c.val.toNat)).toNat = c.toNat := by
    rw [toNat_octet, UInt8.toNat_ofNat']
    exact Nat.mod_eq_of_lt (by omega)
  rw [octets, List.flatMap_singleton, hbyte, List.map_singleton, Char.toNat_inj.mp hcode]

/-- The bytes of a character outside ASCII are none of ASCII. -/
theorem isWide_of_mem_octets {c d : Char} (h : IsWide c) (hd : d ∈ octets [c]) : IsWide d := by
  have hlarge : ¬ c.val.toNat ≤ 0x7f := Nat.not_le.mpr h
  have hhigh {n : Nat} (hn : 128 ≤ n ∧ n < 256) : 128 ≤ (UInt8.ofNat n).toNat := by
    rw [UInt8.toNat_ofNat', Nat.mod_eq_of_lt hn.2]
    exact hn.1
  -- The bits of the code are added to a byte that has the highest bit already.
  have hbytes : ∀ b ∈ String.utf8EncodeChar c, 128 ≤ b.toNat := by
    rw [String.utf8EncodeChar, if_neg hlarge]
    split
    · simp only [List.forall_mem_cons]
      exact ⟨hhigh (by omega), hhigh (by omega), List.forall_mem_nil _⟩
    · split
      · simp only [List.forall_mem_cons]
        exact ⟨hhigh (by omega), hhigh (by omega), hhigh (by omega), List.forall_mem_nil _⟩
      · simp only [List.forall_mem_cons]
        exact ⟨hhigh (by omega), hhigh (by omega), hhigh (by omega), hhigh (by omega),
          List.forall_mem_nil _⟩
  rw [octets, List.flatMap_singleton] at hd
  obtain ⟨b, hb, rfl⟩ := List.mem_map.mp hd
  rw [IsWide, toNat_octet]
  exact hbytes b hb

theorem IsWide.ne {c d : Char} (h : IsWide c) (hd : d.toNat < 128) : c ≠ d := by
  rintro rfl
  exact Nat.not_le.mpr hd h

theorem IsWide.toUpper {c : Char} (h : IsWide c) : c.toUpper = c := by
  have hrange : ¬('a'.val ≤ c.val ∧ c.val ≤ 'z'.val) := by
    rintro ⟨-, hle⟩
    have hcode : c.toNat ≤ 122 := UInt32.le_iff_toNat_le.mp hle
    have hwide : 128 ≤ c.toNat := h
    omega
  exact dif_neg hrange

theorem IsWide.isWordChar {c : Char} (h : IsWide c) : Keyword.isWordChar c = true := by
  rw [Keyword.isWordChar, decide_eq_true (show 128 ≤ c.toNat from h), Bool.or_true]

theorem IsWide.isOpener {c : Char} (h : IsWide c) : Keyword.isOpener c = false := by
  have hnot : c ∉ ['F', 'W', 'G', 'O', 'L'] := by
    simp only [List.mem_cons, List.not_mem_nil, or_false, not_or]
    exact ⟨h.ne (by decide), h.ne (by decide), h.ne (by decide), h.ne (by decide),
      h.ne (by decide)⟩
  rw [Keyword.isOpener, h.toUpper, decide_eq_false hnot]

theorem IsWide.isAsciiBlank {c : Char} (h : IsWide c) : isAsciiBlank c = false := by
  rw [← Bool.not_eq_true]
  intro hblank
  have hwide : 128 ≤ c.toNat := h
  simp only [Text.isAsciiBlank, Bool.or_eq_true, beq_iff_eq] at hblank
  rcases hblank with (((rfl | rfl) | rfl) | hcode) | rfl
  · exact absurd hwide (by decide)
  · exact absurd hwide (by decide)
  · exact absurd hwide (by decide)
  · omega
  · exact absurd hwide (by decide)

theorem octets_cons_of_not_isWide {c : Char} (h : ¬ IsWide c) (cs : List Char) :
    octets (c :: cs) = c :: octets cs := by
  rw [octets_cons, octets_of_not_isWide h, List.singleton_append]

theorem exists_octets_of_isWide {c : Char} (h : IsWide c) :
    ∃ d ds, IsWide d ∧ (∀ e ∈ ds, IsWide e) ∧ ∀ cs, octets (c :: cs) = d :: (ds ++ octets cs) := by
  have hne : octets [c] ≠ [] := by
    rw [← List.length_pos_iff, length_octets]
    exact Nat.add_pos_left c.utf8Size_pos 0
  obtain ⟨d, ds, hds⟩ := List.exists_cons_of_ne_nil hne
  have hwide : ∀ e ∈ d :: ds, IsWide e := fun e he => isWide_of_mem_octets h (hds ▸ he)
  obtain ⟨hd, hrest⟩ := List.forall_mem_cons.mp hwide
  exact ⟨d, ds, hd, hrest, fun cs => by rw [octets_cons, hds, List.cons_append]⟩

end Text

/-! ### The lexical context behind bytes -/

namespace Context

/-- Whether the quote that is open, if there is one, is a character of ASCII. Only such quotes are
ever opened. -/
def PlainQuote (x : Context) : Prop :=
  ∀ q ∈ x.quote, ¬ IsWide q

theorem PlainQuote.next {x : Context} (h : x.PlainQuote) (c : Char) : (x.next c).PlainQuote := by
  intro q hq
  cases hquote : x.quote with
  | some r =>
    rw [next_quoted hquote] at hq
    by_cases hc : c = r
    · rw [if_pos hc] at hq
      cases hq
    · rw [if_neg hc] at hq
      exact h q (hquote.trans hq)
  | none =>
    cases hcomment : x.comment with
    | true =>
      have hnone : (x.next c).quote = none := by simp [Context.next, hquote, hcomment]
      rw [hnone] at hq
      cases hq
    | false =>
      rw [quote_next hquote hcomment] at hq
      by_cases hc : c = '\'' ∨ c = '"'
      · rw [if_pos hc] at hq
        obtain rfl := Option.some.inj hq
        rcases hc with rfl | rfl
        · exact (by decide : ¬ 128 ≤ '\''.toNat)
        · exact (by decide : ¬ 128 ≤ '"'.toNat)
      · rw [if_neg hc] at hq
        cases hq

theorem next_wide {x : Context} (hx : x.PlainQuote) {c : Char} (h : IsWide c) :
    x.next c = { x with dash := false, inWord := true } := by
  obtain ⟨quote, comment, dash, depth, inWord⟩ := x
  cases quote with
  | some q =>
    have hne : c ≠ q := h.ne (Nat.not_le.mp (hx q rfl))
    rw [next_quoted rfl, if_neg hne, h.isWordChar]
  | none =>
    cases comment with
    | true =>
      have hnext : Context.next ⟨none, true, dash, depth, inWord⟩ c =
          ⟨none, c ≠ '\n', false, depth, Keyword.isWordChar c⟩ := rfl
      rw [hnext, h.isWordChar, decide_eq_true (h.ne (by decide))]
    | false =>
      have hordinary : isOrdinary c = true := by
        have hnot : c ∉ ['\'', '"', '(', ')', '-'] := by
          simp only [List.mem_cons, List.not_mem_nil, or_false, not_or]
          exact ⟨h.ne (by decide), h.ne (by decide), h.ne (by decide), h.ne (by decide),
            h.ne (by decide)⟩
        rw [isOrdinary, decide_eq_false hnot]
        rfl
      rw [next_ordinary rfl rfl hordinary, h.isWordChar]

/-- The bytes of a character lead where the character leads. -/
theorem after_octets {x : Context} (hx : x.PlainQuote) (c : Char) :
    x.after (octets [c]) = x.next c := by
  by_cases h : IsWide c
  · obtain ⟨d, ds, hd, hds, hoctets⟩ := exists_octets_of_isWide h
    rw [hoctets, octets_nil, List.append_nil, after_cons, next_wide hx h, next_wide hx hd]
    -- Every byte behind the first leaves the context as it is.
    have hplain : Context.PlainQuote { x with dash := false, inWord := true } := hx
    clear hoctets
    induction ds with
    | nil => rfl
    | cons e ds ih =>
      obtain ⟨he, hds⟩ := List.forall_mem_cons.mp hds
      rw [after_cons, next_wide hplain he]
      exact ih hds
  · rw [octets_of_not_isWide h, after_cons, after_nil]

end Context

/-! ### Keywords in bytes -/

namespace Keyword

theorem startsWord_octets (cs : List Char) : startsWord (octets cs) = startsWord cs := by
  cases cs with
  | nil => rfl
  | cons c cs =>
    by_cases h : IsWide c
    · obtain ⟨d, ds, hd, -, hoctets⟩ := exists_octets_of_isWide h
      rw [hoctets]
      exact hd.isWordChar.trans h.isWordChar.symm
    · rw [octets_cons_of_not_isWide h]
      rfl

theorem afterWord?_octets {word : List Char} (hword : ∀ l ∈ word, l.isUpper = true)
    (cs : List Char) : afterWord? word (octets cs) = (afterWord? word cs).map octets := by
  induction word generalizing cs with
  | nil =>
    rw [afterWord?, afterWord?, startsWord_octets]
    split <;> rfl
  | cons l word ih =>
    obtain ⟨hl, hrest⟩ := List.forall_mem_cons.mp hword
    have hwide {d : Char} (hd : IsWide d) : d.toUpper ≠ l := by
      rw [hd.toUpper]
      rintro rfl
      have hle : d.toNat ≤ 90 := UInt32.le_iff_toNat_le.mp (of_decide_eq_true hl).2
      have hcode : 128 ≤ d.toNat := hd
      omega
    cases cs with
    | nil => rfl
    | cons c cs =>
      by_cases h : IsWide c
      · obtain ⟨d, ds, hd, -, hoctets⟩ := exists_octets_of_isWide h
        rw [hoctets, afterWord?, afterWord?, if_neg (hwide hd), if_neg (hwide h)]
        rfl
      · rw [octets_cons_of_not_isWide h, afterWord?, afterWord?]
        split
        · exact ih hrest cs
        · rfl

theorem dropWhile_isAsciiBlank_octets (cs : List Char) :
    (octets cs).dropWhile isAsciiBlank = octets (cs.dropWhile isAsciiBlank) := by
  induction cs with
  | nil => rfl
  | cons c cs ih =>
    by_cases h : IsWide c
    · obtain ⟨d, ds, hd, -, hoctets⟩ := exists_octets_of_isWide h
      rw [List.dropWhile_cons_of_neg (by simp [h.isAsciiBlank]), hoctets,
        List.dropWhile_cons_of_neg (by simp [hd.isAsciiBlank])]
    · rw [octets_cons_of_not_isWide h, List.dropWhile_cons, List.dropWhile_cons]
      split
      · exact ih
      · rw [octets_cons_of_not_isWide h]

theorem respects_octets : Respects octets where
  word _ hword cs := afterWord?_octets hword cs
  blanks cs := by
    cases cs with
    | nil => rfl
    | cons c cs =>
      by_cases h : IsWide c
      · obtain ⟨d, ds, hd, -, hoctets⟩ := exists_octets_of_isWide h
        simp [afterBlanks?, hoctets, h.isAsciiBlank, hd.isAsciiBlank]
      · rw [octets_cons_of_not_isWide h, afterBlanks?, afterBlanks?, dropWhile_isAsciiBlank_octets]
        split <;> rfl

end Keyword

/-! ### Marks in bytes -/

namespace Mark

def inBytes (cs : List Char) (m : Mark) : Mark where
  keyword := m.keyword
  start := byteLength (cs.take m.start)
  stop := byteLength (cs.take m.stop)

theorem scanFrom_octets {x : Context} (hx : x.PlainQuote) (front cs : List Char) :
    scanFrom x (byteLength front) (octets cs) =
      (scanFrom x front.length cs).map (inBytes (front ++ cs)) := by
  induction cs generalizing x front with
  | nil => rfl
  | cons c cs ih =>
    have hrest := ih (hx.next c) (front ++ [c])
    have hbytes : byteLength (front ++ [c]) = byteLength front + c.utf8Size := by
      rw [byteLength_append]
      rfl
    rw [hbytes, List.length_append, List.length_singleton, List.append_assoc,
      List.singleton_append] at hrest
    by_cases h : IsWide c
    · -- No keyword begins with a byte of the character.
      have hquiet : x.Quiet (octets [c]) :=
        Context.quiet_of_isOpener fun d hd => (isWide_of_mem_octets h hd).isOpener
      have hfront := Keyword.atFront?_eq_none h.isOpener cs
      have hlength : (octets [c]).length = c.utf8Size := length_octets [c]
      rw [octets_cons, scanFrom_append_of_quiet hquiet, Context.after_octets hx, hlength, hrest,
        scanFrom_cons_of_none (.inr hfront)]
    · have hsize : c.utf8Size = 1 := by
        rw [← String.length_utf8EncodeChar]
        have hlength := congrArg List.length (octets_of_not_isWide h)
        rwa [octets, List.length_map, List.flatMap_singleton] at hlength
      rw [hsize] at hrest
      rw [octets_cons_of_not_isWide h, scanFrom, scanFrom, List.map_append, hrest,
        ← octets_cons_of_not_isWide h, Keyword.respects_octets.atFront?]
      congr 1
      cases x.isTop with
      | false => rfl
      | true =>
        cases hfront : Keyword.atFront? (c :: cs) with
        | none => rfl
        | some found =>
          obtain ⟨k, tail⟩ := found
          obtain ⟨word, -, hword, -⟩ := Keyword.atFront?_ok hfront
          have hstop : (front ++ (word ++ tail)).take (front.length + word.length) =
              front ++ word := by
            rw [← List.append_assoc, ← List.length_append, List.take_left]
          simp only [hword, if_true, Option.map_some, List.map_singleton, inBytes, length_octets,
            byteLength_append, List.length_append, Nat.add_sub_cancel, List.take_left, hstop]

theorem scan_octets (cs : List Char) : scan (octets cs) = (scan cs).map (inBytes cs) :=
  scanFrom_octets (x := {}) (fun q hq => by cases hq) [] cs

end Mark

end QueryChain
