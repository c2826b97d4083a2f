import MotionTemplate.Composition.Scale
import MotionTemplate.Proofs.KeyMap

/-! Scaling by paths. What stands at a path of keys is scaled by the last key alone: a number or a
numeric text under a key of lengths is multiplied, and everything else stays as it is. -/
namespace MotionTemplate

namespace Json

/-- What stands at a path of keys. Only objects are entered. -/
def at? : Json → List String → Option Json
  | j, [] => some j
  | .object fields, key :: rest => (KeyMap.lookup key fields).bind (·.at? rest)
  | _, _ :: _ => none

def isObject : Json → Bool
  | .object _ => true
  | _ => false

variable {j : Json} (factor : Float) (key : String)

theorem object_or_not_isObject (j : Json) : (∃ fields, j = .object fields) ∨ j.isObject = false := by
  cases j with
  | object fields => exact .inl ⟨fields, rfl⟩
  | null | bool | number | string | array | unreadable => exact .inr rfl

theorem at?_cons_of_not_isObject (h : j.isObject = false) (rest : List String) :
    j.at? (key :: rest) = none := by
  cases j with
  | object fields => exact nomatch h
  | null | bool | number | string | array | unreadable => rfl

/-- A value that is no object is scaled as a whole, if its key is one of lengths. -/
theorem scaleEntry_of_not_isObject (h : j.isObject = false) :
    scaleEntry factor key j = if key ∈ lengthKeys then scaleLength factor j else j := by
  cases j with
  | object fields => exact nomatch h
  | null | bool | number | string | array | unreadable => rw [scaleEntry]; exact nofun

theorem scaleLength_of_isFinite {n : Float} (h : j.numeric? = some n)
    (hn : (n * factor).isFinite) : scaleLength factor j = .number (.real (n * factor)) := by
  rw [scaleLength, h]
  exact if_pos hn

/-- Without a number, or without one that can be multiplied, a length stays. -/
theorem scaleLength_of_not_isFinite
    (h : ∀ n, j.numeric? = some n → (n * factor).isFinite = false) : scaleLength factor j = j := by
  rw [scaleLength]
  split
  · next n hn => exact if_neg (ne_true_of_eq_false (h n hn))
  · rfl

theorem numeric?_number {x : Float} (h : x.isFinite) : (number (.real x)).numeric? = some x :=
  if_pos h

/-- The number under a key of lengths is multiplied, if the product is finite. -/
theorem numeric?_scaleEntry (hkey : key ∈ lengthKeys)
    (h : ∀ n, j.numeric? = some n → (n * factor).isFinite) :
    (scaleEntry factor key j).numeric? = j.numeric?.map (· * factor) := by
  obtain ⟨fields, rfl⟩ | hj := j.object_or_not_isObject
  · rfl
  · rw [scaleEntry_of_not_isObject factor key hj, if_pos hkey]
    cases hn : j.numeric? with
    | none =>
      have hstays : ∀ n, j.numeric? = some n → (n * factor).isFinite = false := by simp [hn]
      rw [scaleLength_of_not_isFinite factor hstays, hn]
      rfl
    | some n =>
      rw [scaleLength_of_isFinite factor hn (h n hn), numeric?_number (h n hn)]
      rfl

/-- Nothing becomes an object by scaling. -/
theorem isObject_scaleEntry (h : j.isObject = false) :
    (scaleEntry factor key j).isObject = false := by
  have hlength : (scaleLength factor j).isObject = false := by
    rw [scaleLength]
    split
    · split
      · rfl
      · exact h
    · exact h
  rw [scaleEntry_of_not_isObject factor key h]
  split
  · exact hlength
  · exact h

theorem scaleFields_eq_map (fields : List (String × Json)) :
    scaleFields factor fields = fields.map fun e => (e.1, scaleEntry factor e.1 e.2) := by
  induction fields with
  | nil => rfl
  | cons e rest ih => rw [scaleFields, ih]; rfl

theorem names_scaleFields (fields : List (String × Json)) :
    (scaleFields factor fields).map (·.1) = fields.map (·.1) := by
  rw [scaleFields_eq_map, List.map_map]
  rfl

theorem lookup_scaleFields (fields : List (String × Json)) :
    KeyMap.lookup key (scaleFields factor fields) =
      (KeyMap.lookup key fields).map (scaleEntry factor key) := by
  rw [scaleFields_eq_map, KeyMap.lookup_mapWithKey]

/-- What stands at a path is scaled under the last key of the path. -/
theorem at?_scaleEntry (path : List String) :
    (scaleEntry factor key j).at? path =
      (j.at? path).map (scaleEntry factor (path.getLastD key)) := by
  induction path generalizing key j with
  | nil => rfl
  | cons next rest ih =>
    obtain ⟨fields, rfl⟩ | hj := j.object_or_not_isObject
    · rw [scaleEntry, at?, at?, lookup_scaleFields, List.getLastD_cons]
      cases KeyMap.lookup next fields with
      | none => rfl
      | some inner => exact ih next
    · have hscaled := isObject_scaleEntry factor key hj
      rw [at?_cons_of_not_isObject next hscaled, at?_cons_of_not_isObject next hj]
      rfl

end Json

/-- What stands in a map at the end of a path of keys. -/
def KeyMap.entryAt? (m : KeyMap Json) (path : List String) (key : String) : Option Json :=
  (Json.object m.entries).at? (path ++ [key])

theorem entryAt?_scaleMap (factor : Float) (m : KeyMap Json) (path : List String) (key : String) :
    (scaleMap factor m).entryAt? path key =
      (m.entryAt? path key).map (Json.scaleEntry factor key) := by
  have hmap : Json.object (scaleMap factor m).entries =
      Json.scaleEntry factor key (.object m.entries) := by
    rw [Json.scaleEntry, Json.scaleFields_eq_map]
    rfl
  rw [KeyMap.entryAt?, hmap, Json.at?_scaleEntry, List.getLastD_concat]
  rfl

/-- Scaling changes lengths and nothing else. Each path leads to something exactly where it did. A
value there that is no object becomes the product with the factor if the last key is one of lengths,
the value has a number and the product is finite, and is as it was if not. Lists are as they were,
and objects have the keys they had. -/
theorem scaling_changes_lengths_only (factor : Float) (m : KeyMap Json) (path : List String)
    (key : String) :
    let before := m.entryAt? path key
    let now := (scaleMap factor m).entryAt? path key
    (now.isSome ↔ before.isSome) ∧
      (∀ j, before = some j → j.isObject = false →
        (∀ n, key ∈ lengthKeys → j.numeric? = some n → (n * factor).isFinite →
          now = some (.number (.real (n * factor)))) ∧
        ((∀ n, key ∈ lengthKeys → j.numeric? = some n → (n * factor).isFinite = false) →
          now = some j)) ∧
      (∀ items, before = some (.array items) → now = some (.array items)) ∧
      ∀ fields, before = some (.object fields) →
        ∃ scaled, now = some (.object scaled) ∧ scaled.map (·.1) = fields.map (·.1) := by
  intro before now
  have hnow : now = before.map (Json.scaleEntry factor key) := entryAt?_scaleMap factor m path key
  have hvalue (j : Json) (hj : before = some j) (ho : j.isObject = false) :
      now = some (if key ∈ lengthKeys then Json.scaleLength factor j else j) := by
    rw [hnow, hj, ← Json.scaleEntry_of_not_isObject factor key ho]
    rfl
  refine ⟨?_, fun j hj ho => ⟨fun n hkey hn hfinite => ?_, fun hstays => ?_⟩, fun items hj => ?_,
    fun fields hj => ?_⟩
  · rw [hnow, Option.isSome_map]
  · rw [hvalue j hj ho, if_pos hkey, Json.scaleLength_of_isFinite factor hn hfinite]
  · rw [hvalue j hj ho]
    split
    · next hkey => rw [Json.scaleLength_of_not_isFinite factor fun n => hstays n hkey]
    · rfl
  · rw [hvalue _ hj rfl]
    split <;> rfl
  · refine ⟨Json.scaleFields factor fields, ?_, Json.names_scaleFields factor fields⟩
    rw [hnow, hj]
    rfl

/-- A size in words and a length inside an object are halved, a list and what is no length are not. -/
example :
    (scaleMap 0.5 (.ofList
      [("fontSize", .string " 64 "), ("opacity", .number (.real 0.5)),
       ("shadow", .object
        [("blur", .number (.whole 20)), ("x", .array [.number (.whole 4)])])])).entries =
      [("fontSize", .number (.real 32.0)), ("opacity", .number (.real 0.5)),
       ("shadow", .object
        [("blur", .number (.real 10.0)), ("x", .array [.number (.whole 4)])])] := by
  decide +kernel

end MotionTemplate
