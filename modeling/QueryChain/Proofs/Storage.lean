import QueryChain.Proofs.JsonText
import QueryChain.Row
import QueryChain.Sqlite.Basic

/-!
Containers in plain columns. A list, a JSON array and a JSON object are stored as their JSON text,
on whatever way they get there, and what holds no float is read back as it was. That needs no more of
the library that writes and reads the text than that it is as documented.
-/

namespace QueryChain

namespace Value

/-- Whether a value holds no float. -/
inductive Integral : Value → Prop
  | null : Integral .null
  | bool (b : Bool) : Integral (.bool b)
  | int (n : Int64) : Integral (.int n)
  | text (s : String) : Integral (.text s)
  | blob (bytes : List UInt8) : Integral (.blob bytes)
  | timestamp (t : Time.Moment) : Integral (.timestamp t)
  | json {j : Json} (h : j.Integral) : Integral (.json j)
  | list {items : List Value} (each : ∀ v ∈ items, Integral v) : Integral (.list items)

theorem Integral.toJson {v : Value} (h : v.Integral) (lib : Libraries) :
    (lib.toJson v).Integral := by
  induction h with
  | null => exact .null
  | bool b => exact .bool b
  | int n => exact .whole _
  | text s => exact .text s
  | timestamp t => exact .text _
  | json h => exact h
  | blob bytes =>
    refine .array fun j hj => ?_
    obtain ⟨b, -, rfl⟩ := List.mem_map.mp hj
    exact .whole _
  | list each ih =>
    refine .array fun j hj => ?_
    rw [Libraries.toJsonItems_eq_map] at hj
    obtain ⟨v, hv, rfl⟩ := List.mem_map.mp hj
    exact ih v hv

variable {lib : Libraries} {v : Value}

/-- A container is bound as its JSON text. -/
theorem toSqlite_of_isStructured (h : v.isStructured = true) :
    lib.toSqlite v = .text (lib.json.display (lib.toJson v)) := by
  cases v with
  | list items => rfl
  | json j =>
    cases j with
    | array items => rfl
    | object members => rfl
    | null | bool _ | whole _ | float _ | text _ => cases h
  | null | bool _ | int _ | float _ | text _ | blob _ | timestamp _ => cases h

theorem toStorage?_of_isStructured (h : v.isStructured = true) :
    lib.toStorage? v = (lib.json.serialize? (lib.toJson v)).map .text := if_pos h

/-- Both writers of a library write what holds no float alike, namely as its compact text. -/
theorem serialize?_eq_display {json : JsonLibrary} (hjson : json.IsDocumented) {j : Json}
    (h : j.Integral) : json.serialize? j = some (json.display j) := by
  obtain ⟨write, hwrite, hserialize⟩ := hjson.serializes
  have hsame : write j = (json.display j).toList := hwrite.unique hjson.displays h
  rw [hserialize, hsame, String.ofList_toList]

theorem parse?_display {json : JsonLibrary} (hjson : json.IsDocumented) {j : Json}
    (h : j.Integral) (hdepth : j.depth ≤ Json.maxDepth) : json.parse? (json.display j) = some j := by
  have hread := hjson.parses (hjson.displays.denotes h hdepth)
  rwa [String.ofList_toList] at hread

/-- Whatever library is at hand, a container without floats, nested no deeper than is read, is
stored as one JSON text, be it as the value of an assignment or as a parameter, and is read back
from it as its JSON form. -/
theorem decodeJson_stored (hlib : lib.json.IsDocumented) (h : v.Integral)
    (hstructured : v.isStructured = true) (hdepth : (lib.toJson v).depth ≤ Json.maxDepth) :
    ∃ text, lib.toStorage? v = some (.text text) ∧ lib.toSqlite v = .text text ∧
      (lib.toStorage? v).map lib.toSqlite = some (lib.toSqlite v) ∧
      lib.decodeJson (lib.toSqlite v).stored.toValue = .ok (lib.toJson v) := by
  have hstored : lib.toStorage? v = some (.text (lib.json.display (lib.toJson v))) := by
    rw [toStorage?_of_isStructured hstructured, serialize?_eq_display hlib (h.toJson lib),
      Option.map_some]
  have hread : lib.decodeJson (.text (lib.json.display (lib.toJson v))) = .ok (lib.toJson v) := by
    rw [Libraries.decodeJson, parse?_display hlib (h.toJson lib) hdepth]
  rw [toSqlite_of_isStructured hstructured, hstored]
  exact ⟨_, rfl, rfl, rfl, hread⟩

/-- Bytes, and an object with the greatest count under a quote, in one list. -/
theorem decodeJson_stored_of_nested :
    ∃ v : Value, Libraries.own.json.IsDocumented ∧ v.Integral ∧ v.isStructured = true ∧
      v.toJson.depth ≤ Json.maxDepth ∧
      v.toSqlite = .text "[[0,255],\x7b\"\\\"\":18446744073709551615,\"é\":[-7]\x7d,\"\\u0001\"]" ∧
      decodeJson v.toSqlite.stored.toValue = .ok v.toJson := by
  let members : List (String × Json) :=
    [("\"", .whole ⟨2 ^ 64 - 1, by decide, by decide⟩),
      ("é", .array [.whole ⟨-7, by decide, by decide⟩])]
  let v : Value := .list [.blob [0, 255], .json (.object members), .text "\x01"]
  have hminus : ∀ j ∈ [Json.whole ⟨-7, by decide, by decide⟩], j.Integral :=
    List.forall_mem_singleton.mpr (.whole _)
  have hmembers : ∀ m ∈ members, m.2.Integral :=
    List.forall_mem_cons.mpr ⟨.whole _, List.forall_mem_singleton.mpr (.array hminus)⟩
  have hv : v.Integral := by
    refine .list (List.forall_mem_cons.mpr ⟨.blob _, List.forall_mem_cons.mpr ⟨?_, ?_⟩⟩)
    · exact .json (.object (by decide) hmembers)
    · exact List.forall_mem_singleton.mpr (.text _)
  have hlib : Libraries.own.json.IsDocumented := JsonLibrary.isDocumented_own
  obtain ⟨text, -, -, -, hread⟩ := decodeJson_stored hlib hv rfl (by decide)
  refine ⟨v, hlib, hv, rfl, by decide, ?_, hread⟩
  unfold v members
  decide +kernel

end Value

end QueryChain
