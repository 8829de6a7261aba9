import Flowchart.Text

/-!
# Vocabularies and names

Shapes and directions are small vocabularies: finitely many words, each with its own name. An
editor may also store a name that the vocabulary lacks; `Named α` holds either. Names and `Named`
values correspond one to one (`Named.name_ofName`, `Named.ofName_name`), so nothing is lost by
storing one for the other.
-/

namespace Flowchart

/-- A finite vocabulary: its words in their customary order, each with a name of its own. -/
class Vocabulary (α : Type) where
  words : List α
  name : α → Text
  mem_words : ∀ a, a ∈ words
  name_injective : ∀ a b, name a = name b → a = b

namespace Vocabulary

variable {α : Type} [Vocabulary α]

/-- The word of a name. -/
def ofName? (name : Text) : Option α :=
  (words : List α).find? fun a => decide (Vocabulary.name a = name)

theorem name_of_ofName? {t : Text} {a : α} (h : ofName? t = some a) : name a = t := by
  simpa using List.find?_some h

@[simp] theorem ofName?_name (a : α) : ofName? (name a) = some a := by
  cases h : (ofName? (name a) : Option α) with
  | some b => rw [name_injective b a (name_of_ofName? h)]
  | none =>
      have := List.find?_eq_none.mp h a (mem_words a)
      simp at this

end Vocabulary

/-- A word of a vocabulary, or a name that the vocabulary lacks. -/
inductive Named (α : Type) [Vocabulary α] where
  | known (word : α)
  | foreign (name : Text) (isForeign : Vocabulary.ofName? name = (none : Option α))

namespace Named

variable {α : Type} [Vocabulary α]

/-- The name of a word, known or not. -/
def name : Named α → Text
  | known word => Vocabulary.name word
  | foreign name _ => name

/-- What a name stands for. -/
def ofName (t : Text) : Named α :=
  match h : (Vocabulary.ofName? t : Option α) with
  | some word => known word
  | none => foreign t h

/-- The word of the vocabulary, if it is one. -/
def word? : Named α → Option α
  | known word => some word
  | foreign _ _ => none

/-- The word of the vocabulary, or the given one for a name that it lacks. -/
def wordOr (fallback : α) (n : Named α) : α := n.word?.getD fallback

@[simp] theorem name_ofName (t : Text) : (ofName t : Named α).name = t := by
  unfold ofName
  split
  · next h => exact Vocabulary.name_of_ofName? h
  · rfl

theorem ofName_name (n : Named α) : ofName n.name = n := by
  unfold ofName
  cases n with
  | known word =>
      split
      · next h =>
          rw [name, Vocabulary.ofName?_name] at h
          cases h
          rfl
      · next h => simp [name] at h
  | foreign t isForeign =>
      split
      · next h =>
          rw [name, isForeign] at h
          cases h
      · rfl

instance : DecidableEq (Named α) := fun m n =>
  decidable_of_iff (m.name = n.name)
    ⟨fun h => by rw [← ofName_name m, ← ofName_name n, h], fun h => h ▸ rfl⟩

end Named

end Flowchart
