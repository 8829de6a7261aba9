import Flowchart.Json.Token
import Flowchart.Proofs.Keyed

/-!
# The parts of a JSON value

What is said of every value that occurs in another (`Json.Part`) is said of the items of an array
and of the values of the fields of an object. Induction over a value goes through them
(`Json.inductOn`). A value whose objects have distinct keys is like itself (`Json.alike_self`).
-/

set_option autoImplicit false

namespace Flowchart.Json

/-- Induction over the values of the items and of the fields. -/
@[elab_as_elim]
theorem inductOn {motive : Json → Prop} (v : Json) (null : motive .null)
    (bool : ∀ b, motive (.bool b)) (int : ∀ n, motive (.int n)) (float : ∀ x, motive (.float x))
    (str : ∀ t, motive (.str t)) (arr : ∀ items, (∀ w ∈ items, motive w) → motive (.arr items))
    (obj : ∀ fields, (∀ key w, (key, w) ∈ fields → motive w) → motive (.obj fields)) :
    motive v := by
  cases v with
  | null => exact null
  | bool b => exact bool b
  | int n => exact int n
  | float x => exact float x
  | str t => exact str t
  | arr items => exact arr items fun w _ => inductOn w null bool int float str arr obj
  | obj fields => exact obj fields fun _ w _ => inductOn w null bool int float str arr obj
termination_by sizeOf v
decreasing_by
  · next hw =>
      have hlt := List.sizeOf_lt_of_mem hw
      simp only [Json.arr.sizeOf_spec]
      omega
  · next hw =>
      have hlt := List.sizeOf_lt_of_mem hw
      simp only [Prod.mk.sizeOf_spec] at hlt
      simp only [Json.obj.sizeOf_spec]
      omega

/-- A value occurs in another: it is the same, or occurs in an item or in the value of a field. -/
inductive Part : Json → Json → Prop where
  | self (v : Json) : Part v v
  | item {v w : Json} {items : List Json} (hmem : w ∈ items) (h : Part v w) : Part v (.arr items)
  | field {v w : Json} {key : Text} {fields : List (Text × Json)} (hmem : (key, w) ∈ fields)
      (h : Part v w) : Part v (.obj fields)

theorem Part.trans {u v w : Json} (huv : Part u v) (hvw : Part v w) : Part u w := by
  induction hvw with
  | self => exact huv
  | item hmem _ ih => exact .item hmem ih
  | field hmem _ ih => exact .field hmem ih

/-! ## Conditions on all parts -/

/-- A condition holds of every value that occurs in a value. -/
def Everywhere (P : Json → Prop) (v : Json) : Prop := ∀ w, Part w v → P w

section

variable {P : Json → Prop}

theorem Everywhere.self {v : Json} (h : v.Everywhere P) : P v := h v (.self v)

theorem Everywhere.of_part {v w : Json} (h : w.Everywhere P) (hv : Part v w) : v.Everywhere P :=
  fun u hu => h u (hu.trans hv)

@[simp] theorem everywhere_null : Everywhere P .null ↔ P .null :=
  ⟨fun h => h.self, fun h _ hw => by cases hw; exact h⟩

@[simp] theorem everywhere_bool (b : Bool) : Everywhere P (.bool b) ↔ P (.bool b) :=
  ⟨fun h => h.self, fun h _ hw => by cases hw; exact h⟩

@[simp] theorem everywhere_int (n : Int) : Everywhere P (.int n) ↔ P (.int n) :=
  ⟨fun h => h.self, fun h _ hw => by cases hw; exact h⟩

@[simp] theorem everywhere_float (x : Binary64) : Everywhere P (.float x) ↔ P (.float x) :=
  ⟨fun h => h.self, fun h _ hw => by cases hw; exact h⟩

@[simp] theorem everywhere_str (t : Text) : Everywhere P (.str t) ↔ P (.str t) :=
  ⟨fun h => h.self, fun h _ hw => by cases hw; exact h⟩

@[simp] theorem everywhere_arr (items : List Json) :
    Everywhere P (.arr items) ↔ P (.arr items) ∧ ∀ v ∈ items, Everywhere P v := by
  constructor
  · intro h
    exact ⟨h.self, fun v hv => h.of_part (.item hv (.self v))⟩
  · rintro ⟨hself, h⟩ w (_ | ⟨hmem, hpart⟩ | _)
    · exact hself
    · exact h _ hmem w hpart

@[simp] theorem everywhere_obj (fields : List (Text × Json)) :
    Everywhere P (.obj fields) ↔ P (.obj fields) ∧ ∀ field ∈ fields, Everywhere P field.2 := by
  constructor
  · intro h
    exact ⟨h.self, fun field hfield => h.of_part (.field hfield (.self _))⟩
  · rintro ⟨hself, h⟩ w (_ | _ | ⟨hmem, hpart⟩)
    · exact hself
    · exact h _ hmem w hpart

end

/-- No two fields of an object have the same key. -/
def HasDistinctKeys : Json → Prop
  | obj fields => (fields.map Prod.fst).Nodup
  | _ => True

/-- An integer has no more digits than are read. -/
def HasReadableDigits : Json → Prop
  | int n => (Numeral.decimal n.natAbs).length ≤ maxIntegerDigits
  | _ => True

/-- In no object that occurs in the value, two fields have the same key. -/
def DistinctKeys (v : Json) : Prop := v.Everywhere HasDistinctKeys

/-- No number that occurs in the value is not-a-number. -/
def NoNaN (v : Json) : Prop := v.Everywhere (· ≠ .float .nan)

/-- No integer that occurs in the value has more digits than are read. -/
def ReadableIntegers (v : Json) : Prop := v.Everywhere HasReadableDigits

/-! ## Likeness -/

theorem alikeItems_self {items : List Json} (h : ∀ v ∈ items, v.alike v = true) :
    alikeItems items items = true := by
  induction items with
  | nil => rfl
  | cons v items ih =>
      rw [alikeItems, h v (by simp), ih fun w hw => h w (List.mem_cons_of_mem v hw)]
      rfl

theorem alikeFields_of_lookup {fields others : List (Text × Json)}
    (h : ∀ key v, (key, v) ∈ fields → others.lookup key = some v ∧ v.alike v = true) :
    alikeFields fields others = true := by
  induction fields with
  | nil => rfl
  | cons field fields ih =>
      obtain ⟨key, v⟩ := field
      obtain ⟨hlookup, hv⟩ := h key v (by simp)
      rw [alikeFields, hlookup, ih fun k w hw => h k w (List.mem_cons_of_mem _ hw)]
      simp [hv]

/-- A value is like itself. -/
theorem alike_self {v : Json} (h : DistinctKeys v) : v.alike v = true := by
  induction v using inductOn with
  | null => rfl
  | bool b => simp [alike, sameNumber, wholeNumber?]
  | int n => simp [alike, sameNumber, wholeNumber?]
  | float x => simp [alike, sameNumber, wholeNumber?, Binary64.sameValue]
  | str t => simp [alike]
  | arr items ih =>
      exact alikeItems_self fun v hv => ih v hv (((everywhere_arr items).mp h).2 v hv)
  | obj fields ih =>
      have hfields : alikeFields fields fields = true := by
        refine alikeFields_of_lookup fun key v hv => ⟨Keyed.lookup_of_mem h.self hv, ?_⟩
        exact ih key v hv (((everywhere_obj fields).mp h).2 _ hv)
      simp [alike, hfields]

/-- Whether a value is a number, the truth values included. -/
def isNumber : Json → Bool
  | bool _ | int _ | float _ => true
  | _ => false

/-- A number that does not count as given is zero. -/
theorem alike_zero {v : Json} (hnumber : v.isNumber = true) (hfalsy : v.isTruthy = false) :
    v.alike (.int 0) = true := by
  cases v with
  | bool b =>
      obtain rfl : b = false := hfalsy
      rfl
  | int n =>
      obtain rfl : n = 0 := by simpa [isTruthy] using hfalsy
      rfl
  | float x => simpa [isTruthy, alike, sameNumber, wholeNumber?, Binary64.isZero] using hfalsy
  | _ => cases hnumber

end Flowchart.Json
