import QueryChain.Proofs.Pieces

/-!
Statements in the words of the grammar. Whatever the head of a query is, the text that stands for
the table in DELETE and UPDATE is a list of quoted names; with worded sections all else is worded
too.
-/

namespace QueryChain

open Fragment (Worded WordedIn ofText)

namespace Clauses

theorem exists_of_isQuotedPart {cs : List Char} (h : isQuotedPart cs = true) :
    ∃ i : Identifier, String.ofList cs = i.sql := by
  simp only [isQuotedPart] at h
  split at h
  · rename_i rest
    split at h
    · rename_i inner hinner
      rw [Bool.and_eq_true] at h
      obtain ⟨hne, hall⟩ := h
      have hrest : rest = inner.reverse ++ ['"'] := by
        rw [← List.reverse_reverse rest, hinner, List.reverse_cons]
      have hempty : inner.reverse ≠ [] := by simpa using hne
      have hsafe : ∀ c ∈ inner.reverse, isNameChar c = true := by simpa using hall
      refine ⟨⟨inner.reverse, hempty, hsafe⟩, String.toList_inj.mp ?_⟩
      rw [Identifier.toList_sql, String.toList_ofList, hrest]
    · cases h
  · cases h

theorem exists_of_all_isQuotedPart {parts : List (List Char)}
    (h : parts.all isQuotedPart = true) :
    ∃ is : List Identifier, parts.map String.ofList = is.map Identifier.sql := by
  induction parts with
  | nil => exact ⟨[], rfl⟩
  | cons part rest ih =>
    rw [List.all_cons, Bool.and_eq_true] at h
    obtain ⟨i, hi⟩ := exists_of_isQuotedPart h.1
    obtain ⟨is, his⟩ := ih h.2
    exact ⟨i :: is, by rw [List.map_cons, List.map_cons, hi, his]⟩

/-- A table that is read off a text is a quoted name, and the text is that name with or without its
quotes. -/
theorem readTarget_ok {cs : List Char} {table : String} (h : readTarget cs = .ok table) :
    ∃ name : QualifiedName, table = name.sql ∧
      (QualifiedName.parse (String.ofList (Text.trimChars cs)) = .ok name ∨
        String.ofList (Text.trimChars cs) = name.sql) := by
  simp only [readTarget] at h
  split at h
  · rename_i name hname
    obtain rfl := Except.ok.inj h
    exact ⟨name, rfl, .inl hname⟩
  · split at h
    · obtain rfl := Except.ok.inj h
      rename_i hall
      rw [String.toList_ofList] at hall
      obtain ⟨is, his⟩ := exists_of_all_isQuotedPart hall
      have hne : is ≠ [] := by
        rintro rfl
        exact List.splitOn_ne_nil '.' _ (List.map_eq_nil_iff.mp his)
      -- The text is its parts with points between them.
      have htext : String.ofList (Text.trimChars cs) = QualifiedName.sql ⟨is, hne⟩ := by
        apply String.toList_inj.mp
        have hid : String.toList ∘ String.ofList = id := by
          funext cs
          exact String.toList_ofList
        rw [QualifiedName.sql, ← his, String.toList_intercalate, List.map_map,
          String.toList_ofList, hid, List.map_id]
        exact (List.intercalate_splitOn '.').symm
      exact ⟨⟨is, hne⟩, htext, .inr htext⟩
    · cases h

/-- A table that is read off a text is written in quoted names alone. -/
theorem readTarget_worded {p : Placeholder} {cs : List Char} {table : String}
    (h : readTarget cs = .ok table) : Worded p (ofText table) := by
  obtain ⟨name, rfl, -⟩ := readTarget_ok h
  exact .qualifiedName (by decide) (by decide) name

theorem target_worded {p : Placeholder} {c : Clauses} {table : String}
    (h : c.target = .ok table) : Worded p (ofText table) := by
  simp only [target] at h
  split at h
  · exact readTarget_worded h
  · cases h
  · cases h

/-! ### Statements of worded sections -/

variable {d : Dialect} {c : Clauses}

theorem writeConditions_worded (h : c.EverySection (Worded d.placeholder) d) :
    Worded d.placeholder (c.writeConditions d) := by
  apply WordedIn.series (by decide) (by decide) (by decide)
  intro f hf
  obtain ⟨x, hx, rfl⟩ := List.mem_map.mp hf
  exact h.conditions x hx

theorem writeFiltered_worded (h : c.EverySection (Worded d.placeholder) d) :
    Worded d.placeholder (c.writeFiltered d) := by
  refine .append (.append h.head (writeConditions_worded h)) ?_
  rw [writeGroup]
  split
  · exact .append (.word (by decide)) (h.groupBy _ ‹_›)
  · exact .word (by decide)

theorem select_worded (h : c.EverySection (Worded d.placeholder) d) :
    Worded d.placeholder (c.select d) :=
  .append (.append (writeFiltered_worded h) (.series (by decide) (by decide) (by decide) h.orderBy))
    (d.bounds_worded _ _)

theorem count_worded (h : c.EverySection (Worded d.placeholder) d) :
    Worded d.placeholder (c.count d) := by
  have hcount : Worded d.placeholder
      (ofText "SELECT COUNT" ++ (ofText "(" ++ ofText "*" ++ ofText ")") ++
        ofText " AS query_count FROM " ++ (ofText "(" ++ c.writeFiltered d ++ ofText ")") ++
        ofText " AS t") :=
    .append (.append (.append (.append (.word (by decide)) (.enclosed (.word (by decide))))
      (.word (by decide))) (.enclosed (writeFiltered_worded h))) (.word (by decide))
  refine hcount.congr ?_ ?_
  · have hopen : "SELECT COUNT(*) AS query_count FROM (" =
        "SELECT COUNT" ++ ("(" ++ "*" ++ ")") ++ " AS query_count FROM " ++ "(" := by decide
    have hclose : ") AS t" = ")" ++ " AS t" := by decide
    simp only [count, hopen, hclose, Fragment.sql_append, Fragment.sql_ofText, String.append_assoc]
  · simp [count]

theorem delete_worded (h : c.EverySection (Worded d.placeholder) d) {f : Fragment}
    (hf : c.delete d = .ok f) : Worded d.placeholder f := by
  rw [delete] at hf
  split at hf
  · cases hf
  · obtain rfl := Except.ok.inj hf
    exact .append (.append (.word (by decide)) (target_worded ‹_›)) (writeConditions_worded h)

theorem update_worded (h : c.EverySection (Worded d.placeholder) d)
    {assignments : List (Identifier × Value)} {f : Fragment}
    (hf : c.update d assignments = .ok f) : Worded d.placeholder f := by
  rw [update] at hf
  split at hf
  · cases hf
  · split at hf
    · cases hf
    · obtain rfl := Except.ok.inj hf
      refine .append (.append (.append (.word (by decide)) (target_worded ‹_›)) ?_)
        (writeConditions_worded h)
      apply WordedIn.series (by decide) (by decide) (by decide)
      intro g hg
      obtain ⟨⟨column, v⟩, -, rfl⟩ := List.mem_map.mp hg
      exact writeAssignment_worded d column v

end Clauses

end QueryChain
