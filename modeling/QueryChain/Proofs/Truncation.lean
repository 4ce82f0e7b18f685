import Mathlib.Data.Nat.Find
import QueryChain.Proofs.Boundaries
import QueryChain.Proofs.Transparency

/-!
Texts that are shortened to a number of bytes. Going back from the limit to where a character ends
finds the longest start that fits and splits no character, and it is what the log shows.
-/

namespace QueryChain

open Text

theorem takeBytes_isPrefix (limit : Nat) (cs : List Char) : takeBytes limit cs <+: cs := by
  induction cs generalizing limit with
  | nil => exact List.nil_prefix
  | cons c cs ih =>
    rw [takeBytes]
    split
    · exact List.cons_prefix_cons.mpr ⟨rfl, ih _⟩
    · exact List.nil_prefix

theorem byteLength_takeBytes (limit : Nat) (cs : List Char) :
    byteLength (takeBytes limit cs) ≤ limit := by
  induction cs generalizing limit with
  | nil => exact Nat.zero_le limit
  | cons c cs ih =>
    rw [takeBytes]
    split
    · rename_i hfits
      have hrest := ih (limit - c.utf8Size)
      rw [byteLength]
      omega
    · exact Nat.zero_le limit

theorem prefix_takeBytes {limit : Nat} {a cs : List Char} (h : a <+: cs)
    (hfits : byteLength a ≤ limit) : a <+: takeBytes limit cs := by
  induction cs generalizing limit a with
  | nil => exact h
  | cons c cs ih =>
    cases a with
    | nil => exact List.nil_prefix
    | cons d a =>
      obtain ⟨rfl, ha⟩ := List.cons_prefix_cons.mp h
      rw [byteLength] at hfits
      rw [takeBytes, if_pos (by omega)]
      exact List.cons_prefix_cons.mpr ⟨rfl, ih ha (by omega)⟩

theorem takeBytes_eq_self {limit : Nat} {cs : List Char} (h : byteLength cs ≤ limit) :
    takeBytes limit cs = cs :=
  (takeBytes_isPrefix limit cs).eq_of_length_le (prefix_takeBytes List.prefix_rfl h).length_le

namespace Text

/-- Whether `t` is the start of `s` that ends with a whole character, takes at most `limit` bytes,
and is the longest of this kind. -/
structure IsLongestStart (limit : Nat) (s t : String) : Prop where
  start : t.toList <+: s.toList
  boundary : IsBoundary s t.utf8ByteSize
  fits : t.utf8ByteSize ≤ limit
  longest : ∀ n, IsBoundary s n → n ≤ limit → n ≤ t.utf8ByteSize

/-- The start of a text that a limit leaves of it. If the text is too long, one goes back from the
limit, byte by byte, to a boundary. -/
def startWithin? (limit : Nat) (s : String) : Option String :=
  if s.utf8ByteSize ≤ limit then some s
  else slice? s 0 (Nat.findGreatest (IsBoundary s) limit)

theorem isLongestStart_takeBytes (limit : Nat) (s : String) :
    IsLongestStart limit s (String.ofList (takeBytes limit s.toList)) := by
  obtain ⟨rest, hs⟩ := takeBytes_isPrefix limit s.toList
  refine ⟨?start, ?boundary, ?fits, ?longest⟩
  case start =>
    rw [String.toList_ofList]
    exact takeBytes_isPrefix limit s.toList
  case boundary =>
    rw [utf8ByteSize_ofList]
    exact isBoundary_iff.mpr ⟨_, rest, hs.symm, rfl⟩
  case fits =>
    rw [utf8ByteSize_ofList]
    exact byteLength_takeBytes limit s.toList
  case longest =>
    intro n hn hlimit
    obtain ⟨a, b, hab, rfl⟩ := isBoundary_iff.mp hn
    obtain ⟨more, hmore⟩ := prefix_takeBytes ⟨b, hab.symm⟩ hlimit
    rw [utf8ByteSize_ofList, ← hmore, byteLength_append]
    exact Nat.le_add_right _ _

/-- The search ends at the end of the longest start. -/
theorem IsLongestStart.findGreatest_eq {limit : Nat} {s t : String} (h : IsLongestStart limit s t) :
    Nat.findGreatest (IsBoundary s) limit = t.utf8ByteSize :=
  Nat.le_antisymm
    (h.longest _ (Nat.findGreatest_spec h.fits h.boundary) (Nat.findGreatest_le limit))
    (Nat.le_findGreatest h.fits h.boundary)

theorem startWithin?_eq (limit : Nat) (s : String) :
    startWithin? limit s = some (String.ofList (takeBytes limit s.toList)) := by
  rw [startWithin?]
  split
  · rename_i hfits
    rw [← byteLength_toList] at hfits
    rw [takeBytes_eq_self hfits, String.ofList_toList]
  · obtain ⟨rest, hs⟩ := takeBytes_isPrefix limit s.toList
    have hslice := slice?_between [] (takeBytes limit s.toList) rest
    rw [List.nil_append, hs, String.ofList_toList] at hslice
    rw [(isLongestStart_takeBytes limit s).findGreatest_eq, utf8ByteSize_ofList]
    exact hslice

end Text

/-! ### The text in the log -/

def Request.sql : Request → String
  | .query sql _ | .execute sql _ | .executeMany sql _ => sql
  | .commit => "COMMIT"

namespace LogSettings

variable {σ : Type}

/-- Whether a call over the connection `c` with a log is the call itself and adds, if the log is on,
one event that shows the statement as `text`. -/
def Shows (l : LogSettings) (c : Connection σ) (r : Request) (text : String) : Prop :=
  ∀ j : Journal σ, ∃ e : Event, e.fields.lookup "sql" = some (.text text) ∧
    r.send (l.connection c) j = ((r.send c j).1, l.append e (r.send c j).2)

theorem shorten_eq (l : LogSettings) (limit : Nat) (sql : String) :
    (l.change (.maxLength limit)).shorten sql =
      if sql.utf8ByteSize ≤ limit then sql
      else String.ofList (takeBytes limit sql.toList) ++ "..." := by
  show (if limit < byteLength sql.toList then String.ofList (takeBytes limit sql.toList) ++ "..."
    else sql) = _
  rw [byteLength_toList]
  by_cases hfits : sql.utf8ByteSize ≤ limit
  · rw [if_pos hfits, if_neg (Nat.not_lt.mpr hfits)]
  · rw [if_neg hfits, if_pos (Nat.lt_of_not_le hfits)]

theorem shows_shorten (l : LogSettings) (c : Connection σ) (r : Request) :
    l.Shows c r (l.shorten r.sql) := by
  have haround {α : Type} (call : LoggedCall) (sql : String) (parameters : Nat) (rows : α → Nat)
      (m : Session σ α) (f : α → Reply) (j : Journal σ) :
      ∃ e : Event, e.fields.lookup "sql" = some (.text (l.shorten sql)) ∧
        (f <$> l.around call sql parameters rows m) j =
          (((f <$> m) j).1, l.append e ((f <$> m) j).2) := by
    rw [Session.map_eq, Session.map_eq, around]
    exact ⟨_, by simp [event, List.lookup_cons], rfl⟩
  intro j
  cases r with
  | query sql params => exact haround _ _ _ _ _ _ j
  | execute sql params => exact haround _ _ _ _ _ _ j
  | executeMany sql batches => exact haround _ _ _ _ _ _ j
  | commit => exact haround _ _ _ _ _ _ j

/-- Of a statement that is longer than the limit the log shows the longest start that splits no
character, with three points behind it. Every other statement is shown as it is, and so are all of
them without a limit. -/
theorem shows_longest_start (l : LogSettings) (c : Connection σ) (r : Request) (limit : Nat) :
    ∃ t, startWithin? limit r.sql = some t ∧ IsLongestStart limit r.sql t ∧
      (l.change (.maxLength limit)).Shows c r
        (if r.sql.utf8ByteSize ≤ limit then r.sql else t ++ "...") ∧
      (l.change .noMaxLength).Shows c r r.sql := by
  refine ⟨_, startWithin?_eq limit r.sql, isLongestStart_takeBytes limit r.sql, ?_, ?_⟩
  · rw [← shorten_eq]
    exact shows_shorten _ c r
  · exact shows_shorten _ c r

end LogSettings

end QueryChain
