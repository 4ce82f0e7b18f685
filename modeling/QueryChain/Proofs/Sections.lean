import QueryChain.Proofs.Chain
import QueryChain.Proofs.Scanning

/-!
The sections of a base statement. The marks of the scanner stand one behind the other, each at the
top level, so the text of a statement is its head followed by its cuts, and every cut begins at the
top level.
-/

namespace QueryChain

namespace Mark

/-- Marks of a text that is read in a context from a position on: each one, behind some gap, is a
keyword at the top level, and the next ones lie behind it. -/
inductive Placed : Context → Nat → List Char → List Mark → Prop
  | nil (x : Context) (n : Nat) (cs : List Char) : Placed x n cs []
  | cons {x : Context} {n : Nat} {gap word tail : List Char} {k : Keyword} {ms : List Mark}
      (top : (x.after gap).isTop = true) (spelled : k.Spelled word)
      (ends : Keyword.startsWord tail = false)
      (rest : Placed (x.after (gap ++ word)) (n + gap.length + word.length) tail ms) :
      Placed x n (gap ++ word ++ tail)
        (⟨k, n + gap.length, n + gap.length + word.length⟩ :: ms)

theorem Placed.behind {x : Context} {n : Nat} {front cs : List Char} {ms : List Mark}
    (h : Placed (x.after front) (n + front.length) cs ms) : Placed x n (front ++ cs) ms := by
  cases h with
  | nil => exact .nil _ _ _
  | @cons _ _ gap word tail k ms top spelled ends rest =>
    -- Only the gap before the first mark grows.
    rw [← Context.after_append] at top
    have hrest : Placed (x.after (front ++ gap ++ word))
        (n + (front ++ gap).length + word.length) tail ms := by
      rw [List.append_assoc, Context.after_append, List.length_append, ← Nat.add_assoc]
      exact rest
    have h := Placed.cons (n := n) top spelled ends hrest
    rw [List.length_append, ← Nat.add_assoc] at h
    simpa only [List.append_assoc] using h

theorem Placed.sublist {x : Context} {n : Nat} {cs : List Char} {ms ms' : List Mark}
    (h : Placed x n cs ms) (hsub : ms'.Sublist ms) : Placed x n cs ms' := by
  induction h generalizing ms' with
  | nil =>
    obtain rfl := List.sublist_nil.mp hsub
    exact .nil _ _ _
  | @cons x n gap word tail k ms top spelled ends rest ih =>
    cases hsub with
    | cons _ hsub =>
      -- A mark that is left out belongs to the gap before the next one.
      apply Placed.behind
      rw [List.length_append, ← Nat.add_assoc]
      exact ih hsub
    | cons_cons _ hsub => exact .cons top spelled ends (ih hsub)

theorem scanFrom_placed (x : Context) (n : Nat) (cs : List Char) :
    Placed x n cs (scanFrom x n cs) := by
  -- A keyword is read over as a whole, so the induction is on the length.
  induction hlen : cs.length using Nat.strongRecOn generalizing x n cs with
  | ind len ih =>
    cases cs with
    | nil => exact .nil _ _ _
    | cons c rest =>
      -- Without a keyword in front the marks are those of the rest.
      have hskip (h : scanFrom x n (c :: rest) = scanFrom (x.next c) (n + 1) rest) :
          Placed x n (c :: rest) (scanFrom x n (c :: rest)) := by
        rw [h]
        have hrest :
            Placed (x.after [c]) (n + [c].length) rest (scanFrom (x.next c) (n + 1) rest) :=
          ih rest.length (by simp [← hlen]) _ _ rest rfl
        exact hrest.behind
      by_cases htop : x.isTop = true
      · cases hfront : Keyword.atFront? (c :: rest) with
        | none => exact hskip (scanFrom_cons_of_none (.inr hfront) n)
        | some found =>
          obtain ⟨k, tail⟩ := found
          obtain ⟨word, hword, hcs, hends⟩ := Keyword.atFront?_ok hfront
          obtain ⟨-, ⟨d, front, rfl, -⟩, -⟩ := hword.letters
          rw [hcs] at hfront hlen ⊢
          rw [scanFrom_keyword htop hfront hword]
          have hshort : tail.length < len := by
            simp only [← hlen, List.length_append, List.length_cons]
            omega
          have hrest := ih tail.length hshort (x.after (d :: front))
            (n + (d :: front).length) tail rfl
          have hcons : Placed x n ([] ++ (d :: front) ++ tail) _ :=
            Placed.cons htop hword hends hrest
          exact hcons
      · exact hskip (scanFrom_cons_of_none (.inl (by simpa using htop)) n)

theorem firsts_sublist (seen : List Keyword) (ms : List Mark) : (firsts seen ms).Sublist ms := by
  induction ms generalizing seen with
  | nil => exact .slnil
  | cons m ms ih =>
    rw [firsts]
    split
    · exact (ih seen).cons m
    · exact (ih _).cons_cons m

theorem clauses_placed (cs : List Char) : Placed {} 0 cs (clauses (scan cs)) :=
  (scanFrom_placed {} 0 cs).sublist ((firsts_sublist _ _).trans List.filter_sublist)

end Mark

/-- The cuts that a text read in a context consists of: each one begins with its keyword at the top
level and goes on to the next one. -/
inductive Cuts : Context → List Char → List Cut → Prop
  | nil (x : Context) : Cuts x [] []
  | cons {x : Context} {k : Keyword} {word body tail : List Char} {cuts : List Cut}
      (top : x.isTop = true) (spelled : k.Spelled word)
      (ends : Keyword.startsWord (body ++ tail) = false)
      (rest : Cuts (x.after (word ++ body)) tail cuts) :
      Cuts x (word ++ body ++ tail) (⟨k, word, body⟩ :: cuts)

theorem cutAt_cuts {x : Context} {n : Nat} {k : Keyword} {word tail : List Char} {ms : List Mark}
    (top : x.isTop = true) (spelled : k.Spelled word) (ends : Keyword.startsWord tail = false)
    (h : Mark.Placed (x.after word) (n + word.length) tail ms) :
    Cuts x (word ++ tail) (cutAt n (⟨k, n, n + word.length⟩ :: ms) (word ++ tail)) := by
  induction ms generalizing x n k word tail with
  | nil =>
    have hcut : cutAt n [⟨k, n, n + word.length⟩] (word ++ tail) = [⟨k, word, tail⟩] := by
      simp only [cutAt, List.take_length, List.take_left, List.drop_left, Nat.add_sub_cancel_left]
    rw [hcut]
    have hcons : Cuts x (word ++ tail ++ []) [⟨k, word, tail⟩] :=
      .cons top spelled (by simpa using ends) (.nil _)
    simpa only [List.append_nil] using hcons
  | cons m ms ih =>
    cases h with
    | @cons _ _ gap word' tail' k' ms top' spelled' ends' rest =>
      -- The body of the cut is the gap before the next mark.
      have hstop : n + word.length + gap.length - n = (word ++ gap).length := by
        rw [List.length_append]
        omega
      have htext : word ++ (gap ++ word' ++ tail') = word ++ gap ++ (word' ++ tail') := by
        simp only [List.append_assoc]
      rw [htext, cutAt, hstop, List.take_left, List.drop_left, Nat.add_sub_cancel_left,
        List.take_left, List.drop_left]
      refine .cons top spelled ?_ ?_
      · simpa only [List.append_assoc] using ends
      · rw [List.length_append, ← Nat.add_assoc, Context.after_append]
        apply ih top' spelled' ends'
        rw [← Context.after_append]
        exact rest

/-- A statement is its head and its cuts. -/
theorem splitBase_cuts (cs : List Char) :
    ∃ rest, cs = (splitBase cs).1 ++ rest ∧
      Cuts (({} : Context).after (splitBase cs).1) rest (splitBase cs).2 := by
  have hplaced := Mark.clauses_placed cs
  cases hms : Mark.clauses (Mark.scan cs) with
  | nil =>
    rw [splitBase, hms]
    exact ⟨[], (List.append_nil cs).symm, .nil _⟩
  | cons m ms =>
    rw [hms] at hplaced
    rw [splitBase, hms]
    cases hplaced with
    | @cons _ _ gap word tail k ms top spelled ends rest =>
      simp only [Nat.zero_add, List.append_assoc, List.take_left, List.drop_left]
      refine ⟨word ++ tail, rfl, cutAt_cuts top spelled ends ?_⟩
      rw [← Context.after_append]
      simpa only [Nat.zero_add] using rest

/-- What holds at the top level and at the end of cuts holds where they begin. -/
theorem Cuts.start {P : Context → Prop} (htop : ∀ x : Context, x.isTop = true → P x) {x : Context}
    {cs : List Char} {cuts : List Cut} (h : Cuts x cs cuts) (hend : P (x.after cs)) : P x := by
  cases h with
  | nil => exact hend
  | cons top => exact htop x top

theorem Cuts.quote {x : Context} {cs : List Char} {cuts : List Cut} (h : Cuts x cs cuts)
    (hend : (x.after cs).quote = none) : x.quote = none :=
  h.start (P := fun x => x.quote = none) (fun _ htop => (Context.isTop_iff.mp htop).1) hend

/-! ### The sections of a parsed base -/

def sections (p : Placeholder) : List Cut → List Value → List Fragment
  | [], _ => []
  | cut :: rest, params =>
    (takeSection p cut.body params).1 :: sections p rest (takeSection p cut.body params).2

namespace Clauses.EverySection

variable {P : Fragment → Prop} {d : Dialect} {c c' : Clauses}

theorem addCut {p : Placeholder} {k : Keyword} {body : Fragment} (hbody : P body)
    (hwrap : P (.ofText "(" ++ body ++ .ofText ")")) (hc : c.EverySection P d)
    (h : c.addCut p k body = .ok c') : c'.EverySection P d := by
  cases k with
  | limit | offset =>
    simp only [Clauses.addCut] at h
    split at h
    · obtain rfl := Except.ok.inj h
      exact ⟨hc.head, hc.conditions, hc.groupBy, hc.orderBy⟩
    · cases h
  | source =>
    obtain rfl := Except.ok.inj h
    exact hc
  | condition =>
    simp only [Clauses.addCut] at h
    split at h
    · obtain rfl := Except.ok.inj h
      exact hc
    · obtain rfl := Except.ok.inj h
      refine ⟨hc.head, ?_, hc.groupBy, hc.orderBy⟩
      intro x hx
      rcases List.mem_append.mp hx with hx | hx
      · exact hc.conditions x hx
      · obtain rfl := List.mem_singleton.mp hx
        exact hwrap
  | groupBy =>
    obtain rfl := Except.ok.inj h
    split
    · exact hc
    · refine ⟨hc.head, hc.conditions, ?_, hc.orderBy⟩
      intro g hg
      obtain rfl := Option.some.inj hg
      exact hbody
  | orderBy =>
    obtain rfl := Except.ok.inj h
    split
    · exact hc
    · refine ⟨hc.head, hc.conditions, hc.groupBy, ?_⟩
      intro t ht
      rcases List.mem_append.mp ht with ht | ht
      · exact hc.orderBy t ht
      · obtain rfl := List.mem_singleton.mp ht
        exact hbody

theorem addCuts {p : Placeholder} {cuts : List Cut} {params : List Value}
    (hsections : ∀ f ∈ sections p cuts params, P f ∧ P (.ofText "(" ++ f ++ .ofText ")"))
    (hc : c.EverySection P d) (h : addCuts p cuts params c = .ok c') : c'.EverySection P d := by
  induction cuts generalizing params c with
  | nil =>
    obtain rfl := Except.ok.inj h
    exact hc
  | cons cut rest ih =>
    obtain ⟨hcut, hrest⟩ := List.forall_mem_cons.mp hsections
    simp only [Clauses.addCuts] at h
    split at h
    · exact ih hrest (addCut hcut.1 hcut.2 hc ‹_›) h
    · cases h

theorem parse {p : Placeholder} {base : String} {params : List Value}
    (hhead : P (takeSection p (splitBase (trimStatement base.toList)).1 params).1)
    (hsections : ∀ f ∈ sections p (splitBase (trimStatement base.toList)).2
        (takeSection p (splitBase (trimStatement base.toList)).1 params).2,
      P f ∧ P (.ofText "(" ++ f ++ .ofText ")"))
    (h : Clauses.parse p base params = .ok c) : c.EverySection P d := by
  rw [Clauses.parse] at h
  generalize splitBase (trimStatement base.toList) = split at hhead hsections h
  obtain ⟨head, cuts⟩ := split
  exact addCuts hsections ⟨hhead, by simp, by simp, by simp⟩ h

end Clauses.EverySection

end QueryChain
