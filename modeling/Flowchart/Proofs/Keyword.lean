import Flowchart.Diagram.Statement
import Flowchart.Proofs.Declaration

/-!
# Keywords before other text

Whether a line starts with a keyword is decided before the first blank: a source is taken for a
header or a subgraph in every line exactly if it reads as a statement
(`Keyword.isFraming_append_blank`). An identifier with a delimiter after it is never taken for one
(`Keyword.starts_identifier_opening`).
-/

set_option autoImplicit false

namespace Flowchart

/-! ## Characters of identifiers -/

theorem isBlank_of_ascii {c : Char} (h : 33 ≤ c.toNat) (h' : c.toNat < 133) :
    isBlank c = false := by
  have h9 : ¬ c.toNat < 9 := by omega
  have h14 : ¬ c.toNat < 14 := by omega
  have h28 : ¬ c.toNat < 28 := by omega
  have h33 : ¬ c.toNat < 33 := by omega
  simp [isBlank, blanks, CodeSet.contains_cons, h9, h14, h28, h33, h']

/-- No blank is a part of an identifier. -/
theorem isBlank_of_isIdentifierPart {c : Char} (h : Text.isIdentifierPart c = true) :
    isBlank c = false := by
  -- a letter of either case, a digit or the underscore
  change ((decide ('A'.val ≤ c.val ∧ c.val ≤ 'Z'.val) ||
    (decide ('a'.val ≤ c.val) && decide (c.val ≤ 'z'.val))) ||
      (decide ('0'.val ≤ c.val) && decide (c.val ≤ '9'.val)) || c == '_') = true at h
  simp only [Bool.or_eq_true, Bool.and_eq_true, decide_eq_true_eq, beq_iff_eq,
    UInt32.le_iff_toNat_le] at h
  have hval : c.val.toNat = c.toNat := rfl
  rcases h with ((h | h) | h) | rfl
  · exact isBlank_of_ascii (by simp at h; omega) (by simp at h; omega)
  · exact isBlank_of_ascii (by simp at h; omega) (by simp at h; omega)
  · exact isBlank_of_ascii (by simp at h; omega) (by simp at h; omega)
  · decide

namespace Keyword

/-! ## Where a keyword ends -/

theorem endsHere_append (t : Text) (c : Char) (x : Text) :
    endsHere (t ++ c :: x) = endsHere (t ++ [c]) := by
  cases t <;> rfl

/-- A keyword does not reach beyond a character that it cannot hold. -/
theorem after?_append_short {keyword t : Text} {c : Char} (hc : fold c ∉ keyword)
    (hlen : t.length < keyword.length) (x : Text) : after? keyword (t ++ c :: x) = none := by
  rw [after?, if_neg]
  intro h
  refine hc (h ▸ List.mem_map_of_mem ?_)
  obtain ⟨n, hn⟩ : ∃ n, keyword.length = t.length + (n + 1) :=
    ⟨keyword.length - t.length - 1, by omega⟩
  rw [hn, List.take_length_add_append, List.take_succ_cons]
  exact List.mem_append_right t List.mem_cons_self

theorem after?_append_long {keyword t : Text} (hlen : keyword.length ≤ t.length) (x : Text) :
    after? keyword (t ++ x) = (after? keyword t).map (· ++ x) := by
  simp only [after?, List.take_append_of_le_length hlen, List.drop_append_of_le_length hlen]
  split <;> rfl

/-- Whether a line starts with a keyword is decided before the first character that the keyword
cannot hold. -/
theorem starts_append_stop {keyword : Text} {c : Char} (hc : fold c ∉ keyword) (t x : Text) :
    starts keyword (t ++ c :: x) = starts keyword (t ++ [c]) := by
  rw [starts, starts]
  -- either the keyword would reach the character, or it ends before and what follows it decides
  rcases Nat.lt_or_ge t.length keyword.length with hlen | hlen
  · rw [after?_append_short hc hlen, after?_append_short hc hlen]
  · rw [after?_append_long hlen, after?_append_long hlen]
    cases after? keyword t with
    | none => rfl
    | some rest => exact endsHere_append rest c x

/-- A text without blanks up to a character that the keyword cannot hold does not start with it. -/
theorem starts_of_not_blank {keyword t : Text} {c : Char} (hc : fold c ∉ keyword)
    (hblank : isBlank c = false) (ht : ∀ d ∈ t, isBlank d = false) (x : Text) :
    starts keyword (t ++ c :: x) = false := by
  rw [starts]
  rcases Nat.lt_or_ge t.length keyword.length with hlen | hlen
  · rw [after?_append_short hc hlen]
    rfl
  · rw [after?_append_long hlen, after?]
    split
    -- the word goes on after the keyword, with a character that is no blank
    · cases hd : t.drop keyword.length with
      | nil => exact hblank
      | cons d rest => exact ht d (List.drop_subset _ _ (hd ▸ List.mem_cons_self))
    · rfl

/-! ## Headers and subgraphs -/

theorem isHeader_append_blank (t x : Text) : isHeader (t ++ ' ' :: x) = isHeader (t ++ [' ']) := by
  simp only [isHeader, headers, List.any_cons, List.any_nil]
  rw [starts_append_stop (by decide) t x, starts_append_stop (by decide) t x]

theorem isSubgraph_append_blank (t x : Text) :
    isSubgraph (t ++ ' ' :: x) = isSubgraph (t ++ [' ']) :=
  starts_append_stop (by decide) t x

/-- A line is framing because of what stands before its first blank. -/
theorem isFraming_append_blank (t x : Text) :
    Statement.isFraming (t ++ ' ' :: x) = readsAsStatement t := by
  have hend : (t ++ ' ' :: x == "end".toList) = false := by
    rw [beq_eq_false_iff_ne]
    intro h
    have hmem : ' ' ∈ "end".toList := h ▸ List.mem_append_right t List.mem_cons_self
    revert hmem
    decide
  rw [Statement.isFraming, hend, Bool.or_false, isHeader_append_blank, isSubgraph_append_blank]
  rfl

/-- The first character of an opening. -/
def openings : Text := ['[', '(', '\x7b']

theorem exists_opening (shape : Shape) : ∃ o x, shape.opening = o :: x ∧ o ∈ openings := by
  cases shape <;> exact ⟨_, _, rfl, by decide⟩

/-- An identifier with a delimiter after it is no keyword. -/
theorem starts_identifier_opening {keyword id : Text} (hid : Text.isIdentifier id = true) {o : Char}
    (ho : o ∈ openings) (hkeyword : (openings.any fun o => keyword.contains (fold o)) = false)
    (x : Text) :
    starts keyword (id ++ o :: x) = false := by
  have hblank : isBlank o = false :=
    Bool.eq_false_iff.mpr (List.any_eq_false.mp (rfl : openings.any isBlank = false) o ho)
  exact starts_of_not_blank (fun hmem =>
    List.any_eq_false.mp hkeyword o ho (List.contains_iff_mem.mpr hmem)) hblank
    (fun d hd => isBlank_of_isIdentifierPart (Text.isIdentifierPart_of_mem hid d hd)) x

theorem isHeader_identifier_opening {id : Text} (hid : Text.isIdentifier id = true) {o : Char}
    (ho : o ∈ openings) (x : Text) : isHeader (id ++ o :: x) = false := by
  simp only [isHeader, headers, List.any_cons, List.any_nil]
  rw [starts_identifier_opening hid ho rfl, starts_identifier_opening hid ho rfl]
  rfl

theorem isSubgraph_identifier_opening {id : Text} (hid : Text.isIdentifier id = true) {o : Char}
    (ho : o ∈ openings) (x : Text) : isSubgraph (id ++ o :: x) = false :=
  starts_identifier_opening hid ho rfl x

/-- A declaration in full is no header, no subgraph and no end. -/
theorem isFraming_identifier_opening {id : Text} (hid : Text.isIdentifier id = true) {o : Char}
    (ho : o ∈ openings) (x : Text) : Statement.isFraming (id ++ o :: x) = false := by
  have hend : (id ++ o :: x == "end".toList) = false := by
    rw [beq_eq_false_iff_ne]
    intro h
    have hmem : o ∈ "end".toList := h ▸ List.mem_append_right id List.mem_cons_self
    have hnot : (openings.any fun o => "end".toList.contains o) = false := rfl
    exact List.any_eq_false.mp hnot o ho (List.contains_iff_mem.mpr hmem)
  rw [Statement.isFraming, hend, isHeader_identifier_opening hid ho,
    isSubgraph_identifier_opening hid ho]
  rfl

/-- A declaration in full does not read as a statement. -/
theorem readsAsStatement_identifier_opening {id : Text} (hid : Text.isIdentifier id = true)
    {o : Char} (ho : o ∈ openings) (x : Text) : readsAsStatement (id ++ o :: x) = false := by
  rw [readsAsStatement, List.append_assoc, List.cons_append, isHeader_identifier_opening hid ho,
    isSubgraph_identifier_opening hid ho]
  rfl

end Keyword

end Flowchart
