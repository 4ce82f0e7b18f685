import Mathlib.Data.List.Infix
import QueryChain.Proofs.Outcome
import QueryChain.Settings.Document

/-!
References that are replaced in one pass. Every text either consists of literals and references, or
it has a reference behind such parts that is empty or not closed. Of a text of the first kind the
literals stay and each reference becomes what its variable holds, whatever that looks like; a text
of the second kind is refused, and so are references to unknown variables.
-/

namespace QueryChain.Settings

def opening : List Char :=
  ['$', '\x7b']

/-- A part of a text: characters that stand for themselves, or a reference to a variable. -/
inductive Part
  | literal (cs : List Char)
  | reference (name : List Char)

namespace Part

def source : Part → List Char
  | literal cs => cs
  | reference name => opening ++ (name ++ ['\x7d'])

def contents (vars : Variables) : Part → List Char
  | literal cs => cs
  | reference name => ((vars (String.ofList name)).getD "").toList

/-- The characters of the literals that stand in front. -/
def leading : List Part → List Char
  | literal cs :: rest => cs ++ leading rest
  | _ => []

/-- Whether parts can be told apart in a text. No name is empty or holds a closing brace, and no
reference is opened in a literal or across literals that stand side by side. -/
inductive Formed : List Part → Prop
  | nil : Formed []
  | literal {cs : List Char} {rest : List Part} (plain : ¬ opening <:+: cs ++ leading rest)
    (tail : Formed rest) : Formed (literal cs :: rest)
  | reference {name : List Char} {rest : List Part} (named : name ≠ []) (closed : '\x7d' ∉ name)
    (tail : Formed rest) : Formed (reference name :: rest)

def text (parts : List Part) : List Char :=
  parts.flatMap source

/-- Whether a reference that is empty or not closed stands in a text, behind parts that can be told
apart. -/
def Broken (cs : List Char) : Prop :=
  ∃ parts tail, Formed parts ∧ cs = text parts ++ (opening ++ tail) ∧
    (tail.head? = some '\x7d' ∨ '\x7d' ∉ tail)

/-! ### Literals in front -/

theorem Formed.not_opening_leading {parts : List Part} (h : Formed parts) :
    ¬ opening <:+: leading parts := by
  cases h with
  | nil | reference => simp [leading, opening]
  | literal plain _ => exact plain

theorem leading_prefix_text (parts : List Part) : leading parts <+: text parts := by
  induction parts with
  | nil => exact List.prefix_rfl
  | cons part rest ih =>
    cases part with
    | literal cs => exact (List.prefix_append_right_inj cs).mpr ih
    | reference name => exact List.nil_prefix

/-- A text begins with a brace only if its first literals do. -/
theorem head?_leading {parts : List Part} {rest : List Char} (hrest : rest.head? ≠ some '\x7b')
    (h : (text parts ++ rest).head? = some '\x7b') : (leading parts).head? = some '\x7b' := by
  induction parts with
  | nil => exact absurd h hrest
  | cons part parts ih =>
    cases part with
    | literal cs =>
      cases cs with
      | nil => exact ih h
      | cons c cs => exact h
    | reference name => cases h

/-- Behind literals no text of parts completes the opening of a reference. -/
theorem not_opening_take {cs rest : List Char} {parts : List Part}
    (h : ¬ opening <:+: cs ++ leading parts) (hrest : rest.head? ≠ some '\x7b') :
    ¬ opening <:+: cs ++ (text parts ++ rest).take 1 := by
  cases hnext : text parts ++ rest with
  | nil =>
    rw [List.take_nil, List.append_nil]
    exact fun hopen => h (List.infix_append_of_infix_left hopen)
  | cons c tail =>
    rw [List.take_succ_cons, List.take_zero]
    intro hopen
    rcases List.infix_concat_iff.mp hopen with hend | hinside
    · obtain ⟨front, hfront⟩ := hend
      have hlast := congrArg List.getLast? hfront
      obtain rfl : c = '\x7b' := by simpa [opening, eq_comm] using hlast
      obtain ⟨more, hmore⟩ :=
        List.head?_eq_some_iff.mp (head?_leading hrest (by rw [hnext, List.head?_cons]))
      exact h (hopen.trans ⟨[], more, by simp [hmore]⟩)
    · exact h (List.infix_append_of_infix_left hinside)

/-- A character goes in front of parts if it opens no reference there. -/
theorem Formed.cons_char {parts : List Part} (h : Formed parts) {c : Char} {rest : List Char}
    (hopen : ¬ opening <+: c :: (text parts ++ rest)) : Formed (.literal [c] :: parts) := by
  refine .literal ?_ h
  rw [List.singleton_append, List.infix_cons_iff, not_or]
  refine ⟨fun hfront => hopen ?_, h.not_opening_leading⟩
  exact hfront.trans ((List.cons_prefix_cons.mpr
    ⟨rfl, (leading_prefix_text parts).trans (List.prefix_append _ rest)⟩))

/-- Every text can be told apart, up to a reference that is empty or not closed. -/
theorem exists_formed_or_broken (cs : List Char) :
    (∃ parts, Formed parts ∧ text parts = cs) ∨ Broken cs := by
  match cs with
  | [] => exact .inl ⟨[], .nil, rfl⟩
  | c :: cs =>
    by_cases hopen : opening <+: c :: cs
    · obtain ⟨tail, htail⟩ := hopen
      by_cases hclose : '\x7d' ∈ tail
      · obtain ⟨name, behind, rfl, hname⟩ := List.eq_append_cons_of_mem hclose
        by_cases hnamed : name = []
        · subst hnamed
          exact .inr ⟨[], _, .nil, htail.symm, .inl rfl⟩
        · have hsource (more : List Char) : opening ++ (name ++ '\x7d' :: more) =
              (reference name).source ++ more := by
            simp [source]
          have hlength : behind.length < (c :: cs).length := by
            rw [← htail]
            simp [opening]
            omega
          rcases exists_formed_or_broken behind with ⟨parts, hparts, rfl⟩ | hbroken
          · exact .inl ⟨reference name :: parts, .reference hnamed hname hparts,
              (hsource _).symm.trans htail⟩
          · obtain ⟨parts, tail, hparts, rfl, hbroken⟩ := hbroken
            refine .inr ⟨reference name :: parts, tail, .reference hnamed hname hparts, ?_,
              hbroken⟩
            rw [← htail, hsource, ← List.append_assoc]
            rfl
      · exact .inr ⟨[], tail, .nil, htail.symm, .inr hclose⟩
    · rcases exists_formed_or_broken cs with ⟨parts, hparts, rfl⟩ | hbroken
      · rw [← List.append_nil (text parts)] at hopen
        exact .inl ⟨literal [c] :: parts, hparts.cons_char hopen, rfl⟩
      · obtain ⟨parts, tail, hparts, rfl, hbroken⟩ := hbroken
        exact .inr ⟨literal [c] :: parts, tail, hparts.cons_char hopen, rfl, hbroken⟩
termination_by cs.length
decreasing_by
  · exact hlength
  · exact Nat.lt_succ_self cs.length

end Part

/-! ### The pass over a text -/

open Settings.Part

variable {vars : Variables}

theorem expandChars_cons {c : Char} {rest : List Char} (h : ¬ opening <+: c :: rest) :
    expandChars vars none (c :: rest) = (expandChars vars none rest).map (c :: ·) := by
  rw [expandChars]
  rintro tail rfl rfl
  exact h (List.prefix_append opening tail)

/-- Characters are kept in which no reference is opened, also not together with the next one. -/
theorem expandChars_append {cs rest : List Char} (h : ¬ opening <:+: cs ++ rest.take 1) :
    expandChars vars none (cs ++ rest) = (expandChars vars none rest).map (cs ++ ·) := by
  induction cs with
  | nil => exact (id_map (expandChars vars none rest)).symm
  | cons c cs ih =>
    have hfront : opening <+: c :: (cs ++ rest) ↔ opening <+: c :: (cs ++ rest.take 1) := by
      cases cs <;> cases rest <;> simp [opening]
    rw [List.cons_append, List.infix_cons_iff, not_or] at h
    rw [List.cons_append, expandChars_cons (mt hfront.mp h.1), ih h.2]
    exact (comp_map (cs ++ ·) (c :: ·) (expandChars vars none rest)).symm

/-- The characters of a name are collected. -/
theorem expandChars_name {front name rest : List Char} (h : '\x7d' ∉ name) :
    expandChars vars (some front) (name ++ rest) =
      expandChars vars (some (front ++ name)) rest := by
  induction name generalizing front with
  | nil => rw [List.append_nil, List.nil_append]
  | cons c name ih =>
    rw [List.mem_cons, not_or] at h
    rw [List.cons_append, expandChars, if_neg (Ne.symm h.1), ih h.2, List.append_assoc,
      List.singleton_append]

theorem expandChars_literal {cs rest : List Char} {parts : List Part}
    (plain : ¬ opening <:+: cs ++ leading parts) (hrest : rest.head? ≠ some '\x7b') :
    expandChars vars none (text (.literal cs :: parts) ++ rest) =
      (expandChars vars none (text parts ++ rest)).map (cs ++ ·) := by
  have hcs : text (.literal cs :: parts) ++ rest = cs ++ (text parts ++ rest) :=
    List.append_assoc _ _ _
  rw [hcs, expandChars_append (not_opening_take plain hrest)]

theorem expandChars_reference {name rest : List Char} {parts : List Part} (named : name ≠ [])
    (closed : '\x7d' ∉ name) :
    expandChars vars none (text (.reference name :: parts) ++ rest) =
      match vars (String.ofList name) with
      | none => .error (.missingVariable (String.ofList name))
      | some held => (expandChars vars none (text parts ++ rest)).map (held.toList ++ ·) := by
  have hsource : text (.reference name :: parts) ++ rest =
      opening ++ (name ++ '\x7d' :: (text parts ++ rest)) := by
    simp [text, source]
  have hname : expandChars vars (some []) (name ++ '\x7d' :: (text parts ++ rest)) = _ :=
    expandChars_name closed
  have hne : name.isEmpty = false := by simpa using named
  simp only [hsource, opening, List.cons_append, List.nil_append, expandChars, hname, if_pos, hne]
  rfl

/-- Where all variables are known, parts are replaced by what they stand for. -/
theorem expandChars_text {parts : List Part} (h : Formed parts) {rest : List Char}
    (hrest : rest.head? ≠ some '\x7b')
    (hknown : ∀ name, .reference name ∈ parts → (vars (String.ofList name)).isSome = true) :
    expandChars vars none (text parts ++ rest) =
      (expandChars vars none rest).map (parts.flatMap (contents vars) ++ ·) := by
  induction h with
  | nil => exact (id_map (expandChars vars none rest)).symm
  | @literal cs parts plain _ ih =>
    have ih := ih fun name hname => hknown name (List.mem_cons_of_mem _ hname)
    rw [expandChars_literal plain hrest, ih, List.flatMap_cons]
    simp only [List.append_assoc]
    exact (comp_map _ (cs ++ ·) (expandChars vars none rest)).symm
  | @reference name parts named closed _ ih =>
    have ih := ih fun name hname => hknown name (List.mem_cons_of_mem _ hname)
    obtain ⟨held, hheld⟩ := Option.isSome_iff_exists.mp (hknown name List.mem_cons_self)
    have hcontents : contents vars (.reference name) = held.toList := by
      rw [contents, hheld, Option.getD_some]
    rw [expandChars_reference named closed, hheld, List.flatMap_cons, hcontents]
    simp only [ih, List.append_assoc]
    exact (comp_map _ (held.toList ++ ·) (expandChars vars none rest)).symm

/-- The first unknown variable is reported. -/
theorem expandChars_missing {parts : List Part} (h : Formed parts) {rest : List Char}
    (hrest : rest.head? ≠ some '\x7b')
    (hmissing : ∃ name, .reference name ∈ parts ∧ vars (String.ofList name) = none) :
    ∃ name, .reference name ∈ parts ∧ vars (String.ofList name) = none ∧
      expandChars vars none (text parts ++ rest) =
        .error (.missingVariable (String.ofList name)) := by
  induction h with
  | nil => simp at hmissing
  | @literal cs parts plain _ ih =>
    obtain ⟨name, hmem, hname, hexpand⟩ := ih (by simpa using hmissing)
    refine ⟨name, List.mem_cons_of_mem _ hmem, hname, ?_⟩
    rw [expandChars_literal plain hrest, hexpand]
    rfl
  | @reference name parts named closed _ ih =>
    rw [expandChars_reference named closed]
    cases hname : vars (String.ofList name) with
    | none => exact ⟨name, List.mem_cons_self, hname, rfl⟩
    | some held =>
      have hmissing : ∃ name, .reference name ∈ parts ∧ vars (String.ofList name) = none := by
        obtain ⟨other, hmem, hother⟩ := hmissing
        rcases List.mem_cons.mp hmem with heq | hmem
        · cases heq
          rw [hname] at hother
          cases hother
        · exact ⟨other, hmem, hother⟩
      obtain ⟨other, hmem, hother, hexpand⟩ := ih hmissing
      refine ⟨other, List.mem_cons_of_mem _ hmem, hother, ?_⟩
      simp only [hexpand]
      rfl

/-- Either all variables of parts are known, or one is not. -/
theorem known_or_missing (vars : Variables) (parts : List Part) :
    (∀ name, .reference name ∈ parts → (vars (String.ofList name)).isSome = true) ∨
      ∃ name, .reference name ∈ parts ∧ vars (String.ofList name) = none := by
  refine or_iff_not_imp_right.mpr fun hmissing name hmem => ?_
  exact Option.isSome_iff_ne_none.mpr fun hnone => hmissing ⟨name, hmem, hnone⟩

theorem expandChars_opening (vars : Variables) {tail : List Char}
    (h : tail.head? = some '\x7d' ∨ '\x7d' ∉ tail) :
    ∃ fault, expandChars vars none (opening ++ tail) = .error fault := by
  rcases h with hempty | hunclosed
  · obtain ⟨rest, rfl⟩ := List.head?_eq_some_iff.mp hempty
    exact ⟨.emptyReference, rfl⟩
  · have hname : expandChars vars (some []) (tail ++ []) = _ := expandChars_name hunclosed
    rw [List.append_nil] at hname
    exact ⟨.unclosedReference (String.ofList tail), hname⟩

theorem expandChars_broken (vars : Variables) {cs : List Char} (h : Broken cs) :
    ∃ fault, expandChars vars none cs = .error fault := by
  obtain ⟨parts, tail, hparts, rfl, htail⟩ := h
  have hrest : (opening ++ tail).head? ≠ some '\x7b' := nofun
  rcases known_or_missing vars parts with hknown | hmissing
  · obtain ⟨fault, hfault⟩ := expandChars_opening vars htail
    refine ⟨fault, ?_⟩
    rw [expandChars_text hparts hrest hknown, hfault]
    rfl
  · obtain ⟨name, -, -, hexpand⟩ := expandChars_missing hparts hrest hmissing
    exact ⟨_, hexpand⟩

/-! ### Settings -/

/-- Whether a text is what another one becomes when its references are replaced. -/
def Expanded (vars : Variables) (given result : String) : Prop :=
  ∃ parts, Formed parts ∧ text parts = given.toList ∧
    (∀ name, .reference name ∈ parts → (vars (String.ofList name)).isSome = true) ∧
    result.toList = parts.flatMap (contents vars)

theorem expand_text {parts : List Part} (h : Formed parts)
    (hknown : ∀ name, .reference name ∈ parts → (vars (String.ofList name)).isSome = true) :
    expand vars (String.ofList (text parts)) =
      .ok (String.ofList (parts.flatMap (contents vars))) := by
  have hchars : expandChars vars none (text parts ++ []) = _ := expandChars_text h nofun hknown
  rw [List.append_nil] at hchars
  rw [expand, String.toList_ofList, hchars, expandChars]
  simp [Except.map]

theorem expand_missing {parts : List Part} (h : Formed parts)
    (hmissing : ∃ name, .reference name ∈ parts ∧ vars (String.ofList name) = none) :
    ∃ name, .reference name ∈ parts ∧ vars (String.ofList name) = none ∧
      expand vars (String.ofList (text parts)) =
        .error (.config (.missingVariable (String.ofList name))) := by
  obtain ⟨name, hmem, hname, hchars⟩ :=
    expandChars_missing h (by nofun : ([] : List Char).head? ≠ some '\x7b') hmissing
  rw [List.append_nil] at hchars
  refine ⟨name, hmem, hname, ?_⟩
  rw [expand, String.toList_ofList, hchars]

theorem expand_broken (vars : Variables) {s : String} (h : Broken s.toList) :
    ∃ fault, expand vars s = .error (.config fault) := by
  obtain ⟨fault, hchars⟩ := expandChars_broken vars h
  exact ⟨fault, by rw [expand, hchars]⟩

/-- What is answered for a text is the text with its references replaced. -/
theorem expanded_of_ok {given result : String} (h : expand vars given = .ok result) :
    Expanded vars given result := by
  rcases exists_formed_or_broken given.toList with ⟨parts, hparts, htext⟩ | hbroken
  · obtain rfl : given = String.ofList (text parts) := by rw [htext, String.ofList_toList]
    rcases known_or_missing vars parts with hknown | hmissing
    · rw [expand_text hparts hknown] at h
      obtain rfl := Except.ok.inj h
      exact ⟨parts, hparts, htext, hknown, String.toList_ofList⟩
    · obtain ⟨name, -, -, herror⟩ := expand_missing hparts hmissing
      rw [h] at herror
      cases herror
  · obtain ⟨fault, herror⟩ := expand_broken vars hbroken
    rw [h] at herror
    cases herror

theorem check_ok {s s' : Settings} (h : s.check = .ok s') : s' = s := by
  obtain ⟨level, -, h⟩ := Except.bind_eq_ok.mp h
  split at h
  · cases h
  · exact (Except.ok.inj h).symm

theorem ofToml_ok {document : String} {s : Settings} (h : ofToml vars document = .ok s) :
    ∃ given, (Toml.parse? document).bind ofTable? = some given ∧
      Option.Rel (Expanded vars) given.database.url s.database.url ∧
      Expanded vars given.database.path s.database.path := by
  rw [ofToml] at h
  split at h
  · cases h
  · rename_i given hgiven
    have hdatabase {url : Option String}
        (h : ((expand vars given.database.path).bind fun path =>
          check { given with database := { url, path } }) = .ok s) :
        s.database.url = url ∧ Expanded vars given.database.path s.database.path := by
      obtain ⟨path, hpath, h⟩ := Except.bind_eq_ok.mp h
      obtain rfl := check_ok h
      exact ⟨rfl, expanded_of_ok hpath⟩
    refine ⟨given, hgiven, ?_⟩
    cases hurl : given.database.url with
    | none =>
      simp only [hurl] at h
      obtain ⟨hnone, hpath⟩ := hdatabase h
      rw [hnone]
      exact ⟨.none, hpath⟩
    | some u =>
      simp only [hurl] at h
      obtain ⟨url, hmap, h⟩ := Except.bind_eq_ok.mp h
      obtain ⟨url, hexpand, rfl⟩ := Except.map_eq_ok.mp hmap
      obtain ⟨hsome, hpath⟩ := hdatabase h
      rw [hsome]
      exact ⟨.some (expanded_of_ok hexpand), hpath⟩

/-- Parts that can be told apart are expanded in one pass: if all variables are known, the literals
stay as they are and each reference becomes what its variable holds, and otherwise an unknown
variable is reported. A text that is not made of such parts has a reference that is empty or not
closed, and is refused. So the database of settings that are read from a document has the URL and
the path of the document with all references replaced. -/
theorem expanded_in_one_pass (vars : Variables) :
    (∀ parts, Formed parts →
      ((∀ name, .reference name ∈ parts → (vars (String.ofList name)).isSome = true) →
        expand vars (String.ofList (text parts)) =
          .ok (String.ofList (parts.flatMap (contents vars)))) ∧
      ((∃ name, .reference name ∈ parts ∧ vars (String.ofList name) = none) →
        ∃ name, .reference name ∈ parts ∧ vars (String.ofList name) = none ∧
          expand vars (String.ofList (text parts)) =
            .error (.config (.missingVariable (String.ofList name))))) ∧
    (∀ s : String, (∀ parts, Formed parts → text parts ≠ s.toList) →
      Broken s.toList ∧ ∃ fault, expand vars s = .error (.config fault)) ∧
    ∀ document s, ofToml vars document = .ok s →
      ∃ given, (Toml.parse? document).bind ofTable? = some given ∧
        Option.Rel (Expanded vars) given.database.url s.database.url ∧
        Expanded vars given.database.path s.database.path := by
  refine ⟨fun parts h => ⟨expand_text h, expand_missing h⟩, fun s hs => ?_,
    fun document s h => ofToml_ok h⟩
  have hbroken : Broken s.toList :=
    (exists_formed_or_broken s.toList).resolve_left fun ⟨parts, h, htext⟩ => hs parts h htext
  exact ⟨hbroken, expand_broken vars hbroken⟩

/-- A dollar sign before a reference, a brace behind it, and a value that looks like a reference. -/
theorem expanded_in_one_pass_of_dollars :
    ∃ (vars : Variables) (parts : List Part),
      vars = (fun name => if name = "A" then some "$\x7bB\x7d" else none) ∧
      parts = [.literal ['$'], .reference ['A'], .literal ['\x7b', 'c', '$']] ∧
      Formed parts ∧ String.ofList (text parts) = "$$\x7bA\x7d\x7bc$" ∧
      (∀ name, .reference name ∈ parts → (vars (String.ofList name)).isSome = true) ∧
      expand vars "$$\x7bA\x7d\x7bc$" = .ok "$$\x7bB\x7d\x7bc$" := by
  have hparts : Formed [.literal ['$'], .reference ['A'], .literal ['\x7b', 'c', '$']] :=
    .literal (by decide) (.reference (by decide) (by decide) (.literal (by decide) .nil))
  have hknown (name : List Char)
      (hmem : Part.reference name ∈
        [.literal ['$'], .reference ['A'], .literal ['\x7b', 'c', '$']]) :
      (if String.ofList name = "A" then some "$\x7bB\x7d" else none).isSome = true := by
    obtain rfl : name = ['A'] := by simpa using hmem
    rfl
  exact ⟨_, _, rfl, rfl, hparts, rfl, hknown, ((expanded_in_one_pass _).1 _ hparts).1 hknown⟩

end QueryChain.Settings
