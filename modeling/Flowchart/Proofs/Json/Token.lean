import Flowchart.Proofs.Json.Number
import Flowchart.Proofs.Json.Text

/-!
# The tokens of what was written

Marks, words, strings and numbers each make one token in front of what follows (`Json.Lexes`), and
blanks make none (`Json.tokensFrom_blanks`). Only a number needs a text after it that does not go
on with it.
-/

set_option autoImplicit false

namespace Flowchart.Json

/-! ## One token -/

/-- A text makes one token in front of another text. -/
def Lexes (w : Text) (token : Token) (rest : Text) : Prop :=
  ∀ position, tokensFrom 0 position (w ++ rest) =
    (position, token) :: tokensFrom 0 (position + w.length) rest

/-- The code points of a token are passed over. -/
theorem tokensFrom_skip (position : Nat) (t rest : Text) :
    tokensFrom t.length position (t ++ rest) = tokensFrom 0 (position + t.length) rest := by
  induction t generalizing position with
  | nil => rfl
  | cons c t ih =>
      rw [List.length_cons, List.cons_append, tokensFrom, ih, Nat.add_right_comm, Nat.add_assoc]

/-- Blanks make no token. -/
theorem tokensFrom_blanks {blanks : Text} (h : ∀ c ∈ blanks, isSpace c = true) (position : Nat)
    (rest : Text) :
    tokensFrom 0 position (blanks ++ rest) = tokensFrom 0 (position + blanks.length) rest := by
  induction blanks generalizing position with
  | nil => rfl
  | cons c blanks ih =>
      have hmore : ∀ d ∈ blanks, isSpace d = true := fun d hd => h d (List.mem_cons_of_mem c hd)
      rw [List.cons_append, tokensFrom, if_pos (h c (by simp)), ih hmore, List.length_cons,
        Nat.add_right_comm, Nat.add_assoc]

theorem lexes_of_tokenAt {c : Char} {more rest : Text} {token : Token} (hc : isSpace c = false)
    (h : ∀ position, tokenAt position c (more ++ rest) =
      (token, some (position + (c :: more).length))) : Lexes (c :: more) token rest := by
  intro position
  have hskip : position + (c :: more).length - (position + 1) = more.length := by
    rw [List.length_cons]
    omega
  rw [List.cons_append, tokensFrom, hc, if_neg (by decide), h]
  dsimp only
  rw [hskip, tokensFrom_skip, List.length_cons, Nat.add_assoc, Nat.add_comm 1]

/-! ## Marks, words and strings -/

theorem lexes_mark {c : Char} {token : Token} (h : mark? c = some token) (rest : Text) :
    Lexes [c] token rest := by
  have hc : isSpace c = false := by
    unfold mark? at h
    split at h
    all_goals first | rfl | cases h
  refine lexes_of_tokenAt hc fun position => ?_
  rw [tokenAt, h]
  rfl

theorem lexes_string (s : Style) (t rest : Text) : Lexes (s.string t) (.text t) rest := by
  refine lexes_of_tokenAt rfl fun position => ?_
  have hread := stringFrom_text s position (position + 1) t rest
  have htext : (t.flatMap s.character).append ['"'] ++ rest =
      t.flatMap s.character ++ '"' :: rest := by simp
  rw [htext, tokenAt, hread]
  simp [mark?]
  omega

theorem lexes_word {word : Text} {v : Json} (h : (word, v) ∈ literals) (rest : Text) :
    Lexes word (.atom v) rest := by
  simp only [literals, List.mem_cons, Prod.mk.injEq, List.not_mem_nil, or_false] at h
  rcases h with ⟨rfl, rfl⟩ | ⟨rfl, rfl⟩ | ⟨rfl, rfl⟩ | ⟨rfl, rfl⟩ | ⟨rfl, rfl⟩ | ⟨rfl, rfl⟩
  all_goals exact lexes_of_tokenAt rfl fun _ => rfl

/-! ## Numbers -/

/-- A written number begins with a digit, or with a minus and a digit. -/
theorem exists_cons_of_proper {n : NumberText} (h : n.Proper) :
    ∃ c more, n.text = c :: more ∧
      (c.isDigit = true ∨ c = '-' ∧ ∃ d ∈ more.head?, d.isDigit = true) := by
  have hdigits := h.isDigit_whole
  obtain ⟨d, digits, hcons⟩ := List.exists_cons_of_ne_nil h.whole_ne_nil
  obtain ⟨negative, whole, fraction, exponent⟩ := n
  dsimp only at hcons hdigits
  subst hcons
  have hd := hdigits d (by simp)
  cases negative with
  | false => exact ⟨d, _, rfl, Or.inl hd⟩
  | true => exact ⟨'-', _, rfl, Or.inr ⟨rfl, d, rfl, hd⟩⟩

/-- The first two characters of a word are no digits. -/
theorem exists_of_mem_literals {word : Text} {v : Json} (h : (word, v) ∈ literals) :
    ∃ a b more, word = a :: b :: more ∧ a.isDigit = false ∧ b.isDigit = false := by
  simp only [literals, List.mem_cons, Prod.mk.injEq, List.not_mem_nil, or_false] at h
  rcases h with ⟨rfl, -⟩ | ⟨rfl, -⟩ | ⟨rfl, -⟩ | ⟨rfl, -⟩ | ⟨rfl, -⟩ | ⟨rfl, -⟩
  all_goals exact ⟨_, _, _, rfl, rfl, rfl⟩

/-- No mark, quote, blank or word begins like a number. -/
theorem tokenAt_number {c : Char} {rest : Text}
    (hc : c.isDigit = true ∨ c = '-' ∧ ∃ d ∈ rest.head?, d.isDigit = true) {n : NumberText}
    {width : Nat} (hread : number? (c :: rest) = some (n, width)) (position : Nat) :
    isSpace c = false ∧
      tokenAt position c rest = (numberToken n, some (position + width)) := by
  have hne (d : Char) (hd : d.isDigit = false) (hdash : d ≠ '-') : c ≠ d := by
    rintro rfl
    rcases hc with hc | ⟨hc, -⟩
    · rw [hd] at hc
      cases hc
    · exact hdash hc
  have hmark : mark? c = none := by
    unfold mark?
    split
    all_goals first | rfl | exact absurd rfl (hne _ (by decide) (by decide))
  have hspace : isSpace c = false := by
    simp [isSpace, hne ' ' (by decide) (by decide), hne '\t' (by decide) (by decide),
      hne '\n' (by decide) (by decide), hne '\r' (by decide) (by decide)]
  have hwords : (literals.find? fun l => l.1.isPrefixOf (c :: rest)) = none := by
    rw [List.find?_eq_none]
    rintro ⟨word, v⟩ hword hprefix
    obtain ⟨a, b, more, rfl, ha, hb⟩ := exists_of_mem_literals hword
    obtain ⟨tail, htail⟩ := List.isPrefixOf_iff_prefix.mp hprefix
    cases htail
    rcases hc with hc | ⟨-, d, hd, hdigit⟩
    · rw [ha] at hc
      cases hc
    · cases hd
      rw [hb] at hdigit
      cases hdigit
  rw [tokenAt, hmark]
  dsimp only
  rw [if_neg (hne '"' (by decide) (by decide)), hwords, hread]
  exact ⟨hspace, rfl⟩

theorem lexes_number {n : NumberText} (h : n.Proper) {rest : Text} (hrest : EndsNumber rest) :
    Lexes n.text (numberToken n) rest := by
  obtain ⟨c, more, hcons, hc⟩ := exists_cons_of_proper h
  have hread := number?_text h hrest
  rw [hcons] at hread ⊢
  have hhead : c.isDigit = true ∨ c = '-' ∧ ∃ d ∈ (more ++ rest).head?, d.isDigit = true := by
    rcases hc with hc | ⟨hc, d, hd, hdigit⟩
    · exact Or.inl hc
    · exact Or.inr ⟨hc, d, List.mem_head?_append_of_mem_head? hd, hdigit⟩
  have htoken := tokenAt_number hhead hread
  exact lexes_of_tokenAt (htoken 0).1 fun position => (htoken position).2

end Flowchart.Json
