import Flowchart.Proofs.Json.Number
import Flowchart.Proofs.Json.Part

/-!
# Line ends in written JSON

A carriage return inside a string is written as an escape, so the text of a value has none unless
the style puts one between the parts (`Json.return_not_mem_write`).
-/

set_option autoImplicit false

namespace Flowchart

/-- A written number consists of digits, signs, the point and the letter of the exponent. -/
theorem NumberText.not_mem_text {n : NumberText} (h : n.Proper) {c : Char}
    (hdigit : c.isDigit = false) (hc : c ∉ ['-', '.', 'e', '+']) : c ∉ n.text := by
  have hwhole : c ∉ n.whole := fun hmem => by
    rw [h.isDigit_whole c hmem] at hdigit
    cases hdigit
  have hpadded (k m : Nat) : c ∉ List.replicate k '0' ++ Numeral.decimal m := fun hmem => by
    rw [isDigit_of_mem_padded hmem] at hdigit
    cases hdigit
  have hfraction := h.isDigit_fraction
  simp only [List.mem_cons, List.not_mem_nil, or_false, not_or] at hc
  obtain ⟨negative, whole, fraction, exponent⟩ := n
  simp only [text, List.mem_append, not_or]
  refine ⟨?_, hwhole, ?_, ?_⟩
  · cases negative <;> simp [hc.1]
  · cases fraction with
    | none => simp
    | some f =>
        simp only [Option.elim_some, List.mem_cons, not_or]
        refine ⟨hc.2.1, fun hmem => ?_⟩
        rw [hfraction f rfl c hmem] at hdigit
        cases hdigit
  · cases exponent with
    | none => simp
    | some e =>
        have hdigits := hpadded (2 - (Numeral.decimal e.natAbs).length) e.natAbs
        simp only [Option.elim_some, Binary64.exponentText, List.append_assoc]
        rw [List.mem_append, not_or]
        refine ⟨?_, hdigits⟩
        split <;> simp [hc.1, hc.2.2.1, hc.2.2.2]

namespace Json

/-! ## Values without parts -/

theorem return_not_mem_number {n : NumberText} (h : n.Proper) : '\r' ∉ n.text :=
  NumberText.not_mem_text h rfl (by decide)

theorem return_not_mem_float (x : Binary64) : '\r' ∉ x.text specialWords := by
  cases x with
  | finite negative rank =>
      obtain ⟨n, hproper, htext, -⟩ := Binary64.exists_numberText specialWords negative rank
      rw [htext]
      exact return_not_mem_number hproper
  | infinite negative => cases negative <;> decide
  | nan => decide

theorem return_not_mem_unitEscape (n : Nat) : '\r' ∉ unitEscape n := by
  have hdigit : ∀ d < 16, '\r' ≠ hexDigit d := by decide
  have hmod (m : Nat) : '\r' ≠ hexDigit (m % 16) := hdigit _ (Nat.mod_lt _ (by decide))
  simp [unitEscape, hmod]

theorem return_not_mem_character (s : Style) (c : Char) : '\r' ∉ s.character c := by
  unfold Style.character
  split
  · next e he =>
      unfold shortEscape? at he
      split at he <;> cases he <;> decide
  · next hnone =>
      split
      · rw [characterEscape]
        split
        · exact return_not_mem_unitEscape _
        · simp [return_not_mem_unitEscape]
      · rw [List.mem_singleton]
        rintro rfl
        cases hnone

theorem return_not_mem_string (s : Style) (t : Text) : '\r' ∉ s.string t := by
  simp [Style.string, return_not_mem_character]

/-! ## All values -/

section

variable {s : Style} (hbreak : ∀ depth, '\r' ∉ s.lineBreak depth)

include hbreak

theorem return_not_mem_writeItems {depth : Nat} {items : List Json}
    (h : ∀ w ∈ items, '\r' ∉ writeAt s depth w) : '\r' ∉ writeItems s depth items := by
  induction items with
  | nil => simp [writeItems]
  | cons w items ih =>
      have hw := h w (by simp)
      have hmore := ih fun u hu => h u (List.mem_cons_of_mem w hu)
      simp [writeItems, hbreak, hw, hmore]

variable (hcolon : '\r' ∉ s.colon)

include hcolon

theorem return_not_mem_writeFields {depth : Nat} {fields : List (Text × Json)}
    (h : ∀ key w, (key, w) ∈ fields → '\r' ∉ writeAt s depth w) :
    '\r' ∉ writeFields s depth fields := by
  induction fields with
  | nil => simp [writeFields]
  | cons field fields ih =>
      obtain ⟨key, w⟩ := field
      have hw := h key w (by simp)
      have hmore := ih fun k u hu => h k u (List.mem_cons_of_mem _ hu)
      simp [writeFields, hbreak, hcolon, return_not_mem_string, hw, hmore]

/-- The text of a value has no carriage return. -/
theorem return_not_mem_writeAt (v : Json) (depth : Nat) : '\r' ∉ writeAt s depth v := by
  induction v using inductOn generalizing depth with
  | null =>
      rw [writeAt]
      decide
  | bool b => cases b <;> rw [writeAt] <;> decide
  | int n =>
      rw [writeAt, ← text_integerText]
      exact return_not_mem_number (proper_integerText n)
  | float x =>
      rw [writeAt]
      exact return_not_mem_float x
  | str t =>
      rw [writeAt]
      exact return_not_mem_string s t
  | arr items ih =>
      cases items with
      | nil => simp [writeAt]
      | cons v items =>
          have hv := ih v (by simp) (depth + 1)
          have hmore := return_not_mem_writeItems hbreak fun w hw =>
            ih w (List.mem_cons_of_mem v hw) (depth + 1)
          simp [writeAt, hbreak, hv, hmore]
  | obj fields ih =>
      cases fields with
      | nil => simp [writeAt]
      | cons field fields =>
          obtain ⟨key, v⟩ := field
          have hv := ih key v (by simp) (depth + 1)
          have hmore := return_not_mem_writeFields hbreak hcolon fun k w hw =>
            ih k w (List.mem_cons_of_mem _ hw) (depth + 1)
          simp [writeAt, hbreak, hcolon, return_not_mem_string, hv, hmore]

end

/-- The text of a file has no carriage return. -/
theorem return_not_mem_write (v : Json) : '\r' ∉ v.write .indented :=
  return_not_mem_writeAt (fun depth => by simp [Style.indented]) (by decide) v 0

end Json

end Flowchart
