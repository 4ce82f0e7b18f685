import QueryChain.Proofs.Wording

/-!
Conditions as a database reads them. The WHERE clause of a statement is read from its text with
the values of its placeholders, and every condition in it has a truth on a row in three-valued
logic: whatever null is compared with, the truth of the comparison is unknown.
-/

namespace QueryChain

inductive Truth
  | yes
  | no
  | unknown
  deriving DecidableEq

namespace Truth

def ofBool : Bool → Truth
  | true => .yes
  | false => .no

def not : Truth → Truth
  | .yes => .no
  | .no => .yes
  | .unknown => .unknown

def and : Truth → Truth → Truth
  | .no, _ => .no
  | _, .no => .no
  | .yes, .yes => .yes
  | _, _ => .unknown

def or : Truth → Truth → Truth
  | .yes, _ => .yes
  | _, .yes => .yes
  | .no, .no => .no
  | _, _ => .unknown

def all (ts : List Truth) : Truth :=
  ts.foldr and .yes

def any (ts : List Truth) : Truth :=
  ts.foldr or .no

@[simp] theorem not_ofBool (b : Bool) : (ofBool b).not = ofBool (!b) := by
  cases b <;> rfl

@[simp] theorem ofBool_eq_yes {b : Bool} : ofBool b = .yes ↔ b = true := by
  cases b <;> decide

@[simp] theorem ofBool_ne_unknown (b : Bool) : ofBool b ≠ .unknown := by
  cases b <;> decide

theorem and_eq_yes {s t : Truth} : s.and t = .yes ↔ s = .yes ∧ t = .yes := by
  cases s <;> cases t <;> decide

theorem all_eq_yes {ts : List Truth} : all ts = .yes ↔ ∀ t ∈ ts, t = .yes := by
  induction ts with
  | nil => simp [all]
  | cons t rest ih =>
    show t.and (all rest) = .yes ↔ _
    rw [and_eq_yes, ih, List.forall_mem_cons]

theorem any_cons (t : Truth) (ts : List Truth) : any (t :: ts) = t.or (any ts) := rfl

/-- A disjunction holds if one of its members does; else it is unknown if one of them is. -/
theorem any_eq (ts : List Truth) :
    any ts = if .yes ∈ ts then .yes else if .unknown ∈ ts then .unknown else .no := by
  induction ts with
  | nil => rfl
  | cons t rest ih =>
    rw [any_cons, ih]
    cases t <;> by_cases hyes : Truth.yes ∈ rest <;>
      by_cases hunknown : Truth.unknown ∈ rest <;> simp [hyes, hunknown, or]

end Truth

/-! ### Tests of a value -/

def Comparison.accepts : Comparison → Ordering → Bool
  | .eq, o => o == .eq
  | .gt, o => o == .gt
  | .gte, o => o != .lt
  | .lt, o => o == .lt
  | .lte, o => o != .gt

/-- What a database makes of the comparison of a column's value with the value of a placeholder. -/
structure Database where
  truth : Comparison → Value → Value → Truth

namespace Database

/-- What is known of every database. How it compares other values, such as the text that is bound
for a list, is its own affair. -/
structure IsStandard (db : Database) : Prop where
  null_left (c : Comparison) (b : Value) : db.truth c .null b = .unknown
  null_right (c : Comparison) (a : Value) : db.truth c a .null = .unknown
  int (c : Comparison) (m n : Int64) :
    db.truth c (.int m) (.int n) = .ofBool (c.accepts (compare m.toInt n.toInt))
  text (c : Comparison) (s t : String) :
    db.truth c (.text s) (.text t) = .ofBool (c.accepts (compareOfLessAndEq s.toList t.toList))

/-- Whether a value equals one of some items. -/
def truthIn (db : Database) (a : Value) (items : List Value) : Truth :=
  .any (items.map (db.truth .eq a))

end Database

/-- The truth of a condition on a row, but for patterns, the text of a base statement and a list
without items, of which no IN is made. -/
def Condition.truth? (db : Database) (row : String → Value) : Condition → Option Truth
  | .never => some .no
  | .isNull field => some (.ofBool (row field.name).isNull)
  | .isNotNull field => some (.ofBool !(row field.name).isNull)
  | .compare field comparison operand => some (db.truth comparison (row field.name) operand)
  | .oneOf field operands =>
    if operands.isEmpty then none else some (db.truthIn (row field.name) operands)
  | .not condition => (condition.truth? db row).map Truth.not
  | .like _ _ _ => none
  | .given _ => none

/-! ### Reading a clause -/

/-- Text that is still to be read, with the values of its placeholders. -/
structure Unread where
  text : List Char
  params : List Value

namespace Unread

def skip? (word : String) (u : Unread) : Option Unread :=
  (u.text.dropPrefix? word.toList).map fun text => ⟨text, u.params⟩

def name? (u : Unread) : Option (String × Unread) :=
  (u.skip? "\"").bind fun u =>
    (skip? "\"" ⟨u.text.dropWhile isNameChar, u.params⟩).map
      (String.ofList (u.text.takeWhile isNameChar), ·)

def value? (p : Placeholder) (u : Unread) : Option (Value × Unread) :=
  match u.skip? p.token, u.params with
  | some rest, v :: params => some (v, ⟨rest.text, params⟩)
  | _, _ => none

def values? (p : Placeholder) : Nat → Unread → Option (List Value × Unread)
  | 0, _ => none
  | fuel + 1, u =>
    (u.value? p).bind fun (v, u) =>
      match u.skip? ", " with
      | some rest => (values? p fuel rest).map fun (vs, u) => (v :: vs, u)
      | none => some ([v], u)

def comparison? (u : Unread) : Option (Comparison × Unread) :=
  [(Comparison.eq, " = "), (.gt, " > "), (.gte, " >= "), (.lt, " < "), (.lte, " <= ")].findSome?
    fun (c, word) => (u.skip? word).map (c, ·)

def test? (db : Database) (p : Placeholder) (a : Value) (u : Unread) : Option (Truth × Unread) :=
  match u.skip? " IS NULL", u.skip? " IS NOT NULL", u.skip? " IN (" with
  | some u, _, _ => some (.ofBool a.isNull, u)
  | _, some u, _ => some (.ofBool !a.isNull, u)
  | _, _, some u =>
    (u.values? p (u.params.length + 1)).bind fun (vs, u) => (u.skip? ")").map (db.truthIn a vs, ·)
  | _, _, _ =>
    u.comparison?.bind fun (c, u) => (u.value? p).map fun (b, u) => (db.truth c a b, u)

/-- Passes over a condition, in which no more than `depth` negations are nested. -/
def condition? (db : Database) (p : Placeholder) (row : String → Value) :
    Nat → Unread → Option (Truth × Unread)
  | 0, _ => none
  | depth + 1, u =>
    match u.skip? "NOT (", u.skip? "1 = 0" with
    | some u, _ =>
      (condition? db p row depth u).bind fun (t, u) => (u.skip? ")").map (t.not, ·)
    | _, some u => some (.no, u)
    | _, _ => u.name?.bind fun (column, u) => u.test? db p (row column)

def conditions? (db : Database) (p : Placeholder) (row : String → Value) (depth : Nat) :
    Nat → Unread → Option (List Truth × Unread)
  | 0, _ => none
  | fuel + 1, u =>
    (u.condition? db p row depth).bind fun (t, u) =>
      match u.skip? " AND " with
      | some rest => (conditions? db p row depth fuel rest).map fun (ts, u) => (t :: ts, u)
      | none => some ([t], u)

/-- The truths of the conditions of a WHERE clause, where no clause has none. -/
def clause? (db : Database) (p : Placeholder) (row : String → Value) (u : Unread) :
    Option (List Truth) :=
  match u.skip? " WHERE " with
  | some rest =>
    match rest.conditions? db p row (rest.text.length + 1) (rest.text.length + 1) with
    | some (ts, ⟨[], []⟩) => some ts
    | _ => none
  | none => if u.text.isEmpty && u.params.isEmpty then some [] else none

end Unread

def Fragment.truths? (db : Database) (p : Placeholder) (row : String → Value) (f : Fragment) :
    Option (List Truth) :=
  Unread.clause? db p row ⟨f.sql.toList, f.params⟩

/-- Whether a database keeps a row: whether all conditions of the WHERE clause are true on it. -/
def Clauses.keeps (db : Database) (d : Dialect) (row : String → Value) (c : Clauses) : Bool :=
  ((c.writeConditions d).truths? db d.placeholder row).map Truth.all = some .yes

/-! ### Written conditions are read -/

namespace Unread

@[simp] theorem skip?_append (word : String) (rest : List Char) (params : List Value) :
    skip? word ⟨word.toList ++ rest, params⟩ = some ⟨rest, params⟩ := by
  have h : (word.toList ++ rest).dropPrefix? word.toList = some rest :=
    List.dropPrefix?_eq_some_iff.mpr ⟨word.toList, rfl, by simp⟩
  rw [skip?, h]
  rfl

theorem name?_sql (i : Identifier) (rest : List Char) (params : List Value) :
    name? ⟨i.sql.toList ++ rest, params⟩ = some (i.name, ⟨rest, params⟩) := by
  have hopen : skip? "\"" ⟨i.sql.toList ++ rest, params⟩ =
      some ⟨i.chars ++ '"' :: rest, params⟩ := by
    rw [i.toList_sql, ← skip?_append "\"" (i.chars ++ '"' :: rest)]
    simp
  have htake : (i.chars ++ '"' :: rest).takeWhile isNameChar = i.chars := by
    rw [List.takeWhile_append_of_pos i.safe]
    exact List.append_nil _
  have hdrop : (i.chars ++ '"' :: rest).dropWhile isNameChar = '"' :: rest := by
    rw [List.dropWhile_append_of_pos i.safe]
    rfl
  rw [name?, hopen, Option.bind_some, htake, hdrop]
  exact congrArg (Option.map (i.name, ·)) (skip?_append "\"" rest params)

theorem value?_token (p : Placeholder) (v : Value) (rest : List Char) (params : List Value) :
    value? p ⟨p.token.toList ++ rest, v :: params⟩ = some (v, ⟨rest, params⟩) := by
  simp only [value?, skip?_append]

theorem values?_bindAll (p : Placeholder) {vs : List Value} (hvs : vs ≠ []) (rest : List Char)
    (params : List Value) (hrest : ∀ vs, skip? ", " ⟨rest, vs⟩ = none) {fuel : Nat}
    (hfuel : vs.length ≤ fuel) :
    values? p fuel ⟨(p.bindAll vs).sql.toList ++ rest, vs ++ params⟩ =
      some (vs, ⟨rest, params⟩) := by
  rw [p.sql_bindAll]
  induction vs generalizing fuel with
  | nil => exact absurd rfl hvs
  | cons v vs ih =>
    obtain ⟨fuel, rfl⟩ : ∃ n, fuel = n + 1 :=
      Nat.exists_eq_add_one_of_ne_zero (Nat.ne_of_gt (Nat.lt_of_lt_of_le (by simp) hfuel))
    cases vs with
    | nil =>
      simp only [List.map_cons, List.map_nil, String.intercalate_singleton, List.cons_append,
        List.nil_append, values?, value?_token, Option.bind_some, hrest]
    | cons w vs =>
      have hfuel' : (w :: vs).length ≤ fuel := by simpa using hfuel
      have hmore := ih (List.cons_ne_nil w vs) hfuel'
      simp only [List.map_cons, String.intercalate_cons_cons, String.toList_append,
        List.append_assoc, List.cons_append, values?, value?_token, Option.bind_some,
        skip?_append] at hmore ⊢
      rw [hmore]
      rfl

theorem comparison?_operator (c : Comparison) (rest : List Char) (params : List Value) :
    comparison? ⟨(" " ++ c.operator ++ " ").toList ++ rest, params⟩ =
      some (c, ⟨rest, params⟩) := by
  cases c <;> simp [comparison?, skip?, Comparison.operator, List.dropPrefix?]

variable {db : Database} {d : Dialect} {row : String → Value}

theorem test?_compare (db : Database) (a b : Value) (c : Comparison) (p : Placeholder)
    (rest : List Char) (params : List Value) :
    test? db p a ⟨(" " ++ c.operator ++ " ").toList ++ (p.token.toList ++ rest), b :: params⟩ =
      some (db.truth c a b, ⟨rest, params⟩) := by
  have hother (word : String) (hword : word ∈ [" IS NULL", " IS NOT NULL", " IN ("]) :
      skip? word ⟨(" " ++ c.operator ++ " ").toList ++ (p.token.toList ++ rest), b :: params⟩ =
        none := by
    simp only [List.mem_cons, List.not_mem_nil, or_false] at hword
    obtain rfl | rfl | rfl := hword <;> cases c <;>
      simp [skip?, Comparison.operator, List.dropPrefix?]
  rw [test?, hother " IS NULL" (by simp), hother " IS NOT NULL" (by simp),
    hother " IN (" (by simp)]
  simp only [comparison?_operator, Option.bind_some, value?_token, Option.map_some]

theorem test?_oneOf (db : Database) (a : Value) {vs : List Value} (hvs : vs ≠ []) (p : Placeholder)
    (rest : List Char) (params : List Value) :
    test? db p a ⟨" IN (".toList ++ ((p.bindAll vs).sql.toList ++ (")".toList ++ rest)),
      vs ++ params⟩ = some (db.truthIn a vs, ⟨rest, params⟩) := by
  have hother (word : String) (hword : word ∈ [" IS NULL", " IS NOT NULL"]) (cs : List Char) :
      skip? word ⟨" IN (".toList ++ cs, vs ++ params⟩ = none := by
    simp only [List.mem_cons, List.not_mem_nil, or_false] at hword
    obtain rfl | rfl := hword <;> simp [skip?, List.dropPrefix?]
  have hclose (qs : List Value) : skip? ", " ⟨")".toList ++ rest, qs⟩ = none := by
    simp [skip?, List.dropPrefix?]
  have hfuel : vs.length ≤ (vs ++ params).length + 1 := by
    rw [List.length_append]
    omega
  rw [test?, hother " IS NULL" (by simp), hother " IS NOT NULL" (by simp), skip?_append]
  simp only [values?_bindAll p hvs _ _ hclose hfuel, Option.bind_some, skip?_append,
    Option.map_some]

theorem condition?_sql (db : Database) (p : Placeholder) (row : String → Value) (i : Identifier)
    (depth : Nat) (rest : List Char) (params : List Value) :
    condition? db p row (depth + 1) ⟨i.sql.toList ++ rest, params⟩ =
      test? db p (row i.name) ⟨rest, params⟩ := by
  have hother (word : String) (hword : word ∈ ["NOT (", "1 = 0"]) :
      skip? word ⟨i.sql.toList ++ rest, params⟩ = none := by
    simp only [List.mem_cons, List.not_mem_nil, or_false] at hword
    obtain rfl | rfl := hword <;> simp [skip?, i.toList_sql, List.dropPrefix?]
  rw [condition?, hother "NOT (" (by simp), hother "1 = 0" (by simp)]
  simp only [name?_sql, Option.bind_some]

/-- The text of a condition is read as the condition it was written from. -/
theorem condition?_write {c : Condition} {t : Truth} (h : c.truth? db row = some t)
    (rest : List Char) (params : List Value) {depth : Nat}
    (hdepth : (c.write d).sql.toList.length ≤ depth + 1) :
    condition? db d.placeholder row (depth + 1)
      ⟨(c.write d).sql.toList ++ rest, (c.write d).params ++ params⟩ =
      some (t, ⟨rest, params⟩) := by
  induction c generalizing t rest params depth with
  | never =>
    obtain rfl := Option.some.inj h
    simp [condition?, Condition.write, skip?, List.dropPrefix?]
  | isNull field =>
    obtain rfl := Option.some.inj h
    simp only [Condition.write, Fragment.sql_ofText, Fragment.params_ofText, List.nil_append,
      String.toList_append, List.append_assoc, condition?_sql, test?, skip?_append]
  | isNotNull field =>
    obtain rfl := Option.some.inj h
    simp only [Condition.write, Fragment.sql_ofText, Fragment.params_ofText, List.nil_append,
      String.toList_append, List.append_assoc, condition?_sql]
    simp [test?, skip?, List.dropPrefix?]
  | compare field comparison operand =>
    obtain rfl := Option.some.inj h
    have htest := test?_compare db (row field.name) operand comparison d.placeholder rest params
    simp only [Condition.write, Placeholder.bind, Fragment.sql_append, Fragment.sql_ofText,
      Fragment.params_append, Fragment.params_ofText, List.nil_append, List.cons_append,
      String.toList_append, List.append_assoc, condition?_sql] at htest ⊢
    exact htest
  | oneOf field operands =>
    simp only [Condition.truth?, List.isEmpty_iff] at h
    split at h
    · cases h
    · obtain rfl := Option.some.inj h
      have htest := test?_oneOf db (row field.name) ‹_› d.placeholder rest params
      simp only [Condition.write, Fragment.sql_append, Fragment.sql_ofText,
        Fragment.params_append, Fragment.params_ofText, Placeholder.params_bindAll,
        List.nil_append, List.append_nil, String.toList_append, List.append_assoc,
        condition?_sql, htest]
  | not c ih =>
    obtain ⟨s, hs, rfl⟩ := Option.map_eq_some_iff.mp h
    have hopen : "NOT (".toList.length = 5 := by decide
    simp only [Condition.write, Fragment.sql_append, Fragment.sql_ofText, Fragment.params_append,
      Fragment.params_ofText, List.nil_append, List.append_nil, String.toList_append,
      List.append_assoc, List.length_append] at hdepth ⊢
    -- The text between the parentheses is shorter, so depth is left to read it.
    obtain ⟨depth, rfl⟩ : ∃ n, depth = n + 1 := Nat.exists_eq_succ_of_ne_zero (by omega)
    have hinner : (c.write d).sql.toList.length ≤ depth + 1 := by omega
    rw [condition?, skip?_append]
    simp only [ih hs _ _ hinner, Option.bind_some, skip?_append, Option.map_some]
  | like field ignoreCase pattern => cases h
  | given fragment => cases h

theorem length_le_intercalate (sep : String) {texts : List String} {s : String} (h : s ∈ texts) :
    s.toList.length ≤ (sep.intercalate texts).toList.length := by
  induction texts with
  | nil => cases h
  | cons t rest ih =>
    cases rest with
    | nil =>
      obtain rfl := List.mem_singleton.mp h
      exact Nat.le_of_eq (by rw [String.intercalate_singleton])
    | cons u rest =>
      rw [String.intercalate_cons_cons, String.toList_append, String.toList_append,
        List.length_append, List.length_append]
      rcases List.mem_cons.mp h with rfl | h
      · omega
      · have := ih h
        omega

theorem count_le_intercalate (sep : String) (hsep : 0 < sep.toList.length)
    (texts : List String) :
    texts.length ≤ (sep.intercalate texts).toList.length + 1 := by
  induction texts with
  | nil => exact Nat.zero_le _
  | cons t rest ih =>
    cases rest with
    | nil => simp
    | cons u rest =>
      rw [String.intercalate_cons_cons, String.toList_append, String.toList_append,
        List.length_append, List.length_append, List.length_cons]
      omega

/-- Conditions that are joined by AND are read one by one. -/
theorem conditions?_write {c : Condition} {cs : List Condition} {ts : List Truth}
    (h : List.Forall₂ (fun c t => c.truth? db row = some t) (c :: cs) ts) {depth fuel : Nat}
    (hdepth : ∀ x ∈ c :: cs, (x.write d).sql.toList.length ≤ depth + 1)
    (hfuel : cs.length ≤ fuel) :
    conditions? db d.placeholder row (depth + 1) (fuel + 1)
      ⟨(" AND ".intercalate ((c :: cs).map fun x => (x.write d).sql)).toList,
        (c :: cs).flatMap fun x => (x.write d).params⟩ = some (ts, ⟨[], []⟩) := by
  induction cs generalizing c ts fuel with
  | nil =>
    obtain ⟨t, ts, hc, hts, rfl⟩ := List.forall₂_cons_left_iff.mp h
    obtain rfl := List.forall₂_nil_left_iff.mp hts
    have hread := condition?_write hc [] [] (hdepth c List.mem_cons_self)
    simp only [List.append_nil] at hread
    simp only [List.map_cons, List.map_nil, String.intercalate_singleton, List.flatMap_cons,
      List.flatMap_nil, List.append_nil, conditions?, hread, Option.bind_some]
    rfl
  | cons c' cs ih =>
    obtain ⟨t, ts, hc, hts, rfl⟩ := List.forall₂_cons_left_iff.mp h
    obtain ⟨fuel, rfl⟩ : ∃ n, fuel = n + 1 :=
      Nat.exists_eq_add_one_of_ne_zero (Nat.ne_of_gt (Nat.lt_of_lt_of_le (by simp) hfuel))
    have hmore := ih hts (fun x hx => hdepth x (List.mem_cons_of_mem _ hx))
      (Nat.le_of_succ_le_succ hfuel)
    rw [List.map_cons] at hmore
    rw [List.flatMap_cons, List.map_cons, List.map_cons, String.intercalate_cons_cons,
      conditions?, String.toList_append, String.toList_append, List.append_assoc,
      condition?_write hc _ _ (hdepth c List.mem_cons_self)]
    simp only [Option.bind_some, skip?_append, hmore, Option.map_some]

end Unread

/-- The WHERE clause of some conditions is read as these conditions. -/
theorem Clauses.truths?_writeConditions {db : Database} {d : Dialect} {row : String → Value}
    {c : Clauses} {ts : List Truth}
    (h : List.Forall₂ (fun c t => c.truth? db row = some t) c.conditions ts) :
    (c.writeConditions d).truths? db d.placeholder row = some ts := by
  obtain ⟨head, conditions, groupBy, orderBy, bounds⟩ := c
  cases conditions with
  | nil =>
    obtain rfl := List.forall₂_nil_left_iff.mp h
    rfl
  | cons c cs =>
    have hfuel := Unread.count_le_intercalate " AND " (by decide)
      ((c :: cs).map fun x => (x.write d).sql)
    rw [List.length_map] at hfuel
    have hdepth (x : Condition) (hx : x ∈ c :: cs) :=
      Unread.length_le_intercalate " AND "
        (List.mem_map_of_mem (f := fun x : Condition => (x.write d).sql) hx)
    have hread := Unread.conditions?_write h (fun x hx => Nat.le_succ_of_le (hdepth x hx))
      (Nat.le_of_succ_le_succ hfuel)
    have hsql : (writeConditions d ⟨head, c :: cs, groupBy, orderBy, bounds⟩).sql =
        " WHERE " ++ " AND ".intercalate ((c :: cs).map fun x => (x.write d).sql) := by
      rw [writeConditions, List.map_cons, Fragment.sql_series_cons, ← List.map_cons, List.map_map]
      rfl
    have hparams : (writeConditions d ⟨head, c :: cs, groupBy, orderBy, bounds⟩).params =
        (c :: cs).flatMap fun x => (x.write d).params := by
      rw [writeConditions, Fragment.params_series, List.flatMap_map]
    rw [Fragment.truths?, hsql, hparams, String.toList_append, Unread.clause?,
      Unread.skip?_append]
    simp only [hread]

end QueryChain
