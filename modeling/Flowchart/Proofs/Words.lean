import Flowchart.CommandLine.Task

/-!
# The words that a command accepts

Reading words of which none is left over follows a grammar (`CommandLine.Accepts`): a command is
read exactly if it accepts its words and its input is not missing
(`CommandLine.readCommand_eq_ok_iff`). The grammar is closed under leaving out the switches for the
output file (`CommandLine.Accepts.withoutOutput`), which comes to the same before and after the
words are told apart (`CommandLine.Word.ofTexts_withoutOutput`).
-/

set_option autoImplicit false

namespace Flowchart.CommandLine

/-! ## Accepted words -/

/-- Whether the input of a command is still missing. -/
def Given.LacksInput (g : Given) (c : Command) : Prop :=
  c.takesInput = true ∧ g.input = none

/-- The words that a command accepts, none of which is left over, and what is given to the command
before and after them. The separator has to stand right before or behind the input. -/
inductive Accepts (c : Command) : Given → List Word → Given → Prop where
  | done (g : Given) : Accepts c g [] g
  | input {g g' : Given} {t : Text} {rest : List Word} (hg : g.LacksInput c)
      (h : Accepts c { g with input := some t } rest g') : Accepts c g (.operand t :: rest) g'
  | inputSeparator {g g' : Given} {t : Text} {rest : List Word} (hg : g.LacksInput c)
      (h : Accepts c { g with input := some t } rest g') :
      Accepts c g (.operand t :: .separator :: rest) g'
  | separatorInput {g g' : Given} {t : Text} {rest : List Word} (hg : g.LacksInput c)
      (h : Accepts c { g with input := some t } rest g') :
      Accepts c g (.separator :: .operand t :: rest) g'
  | attached {g g' : Given} {isLetter : Bool} {value : Text} {rest : List Word}
      (h : Accepts c { g with output := some value } rest g') :
      Accepts c g (.switch .output isLetter (some value) :: rest) g'
  | value {g g' : Given} {isLetter : Bool} {t : Text} {rest : List Word}
      (h : Accepts c { g with output := some t } rest g') :
      Accepts c g (.switch .output isLetter none :: .operand t :: rest) g'
  | flag {g g' : Given} {s : Switch} {isLetter : Bool} {rest : List Word} (hhelp : s ≠ .help)
      (houtput : s ≠ .output) (h : Accepts c (g.withFlag s) rest g') :
      Accepts c g (.switch s isLetter none :: rest) g'

theorem Given.lacksInput_iff (g : Given) (c : Command) :
    (c.takesInput && g.input.isNone) = true ↔ g.LacksInput c := by
  simp [LacksInput]

theorem Given.withOperand_of_lacksInput {g : Given} {c : Command} (h : g.LacksInput c) (t : Text) :
    g.withOperand c t = { g with input := some t } := by
  rw [withOperand, if_pos ((lacksInput_iff g c).mpr h)]

@[simp] theorem Given.leftOver_withFlag (g : Given) (s : Switch) :
    (g.withFlag s).leftOver = g.leftOver := by
  cases s <;> rfl

theorem Given.leftOver_of_withOperand {g : Given} {c : Command} {t : Text}
    (h : (g.withOperand c t).leftOver = []) : g.leftOver = [] := by
  unfold withOperand at h
  split at h
  · exact h
  · simp at h

@[simp] theorem Given.leftOver_withLeftOver (g : Given) (t : Text) :
    (g.withLeftOver t).leftOver = g.leftOver ++ [t] := rfl

/-- What is left over once stays so. -/
theorem leftOver_of_readWords {c : Command} {g g' : Given} {words : List Word}
    (h : readWords c g words = .ok g') (hg' : g'.leftOver = []) : g.leftOver = [] := by
  fun_induction readWords c g words with
  | case1 =>
      cases h
      exact hg'
  | case2 _ _ _ _ ih | case4 _ _ _ _ ih | case5 _ _ _ _ ih =>
      exact Given.leftOver_of_withOperand (ih h)
  | case3 _ _ _ _ ih | case6 _ _ _ _ ih => simpa using ih h
  | case7 _ _ _ ih | case8 _ _ _ _ ih | case9 _ _ _ ih => simpa using ih h
  | case11 _ _ _ _ ih | case12 _ _ _ _ ih => exact ih h
  | case15 _ _ _ _ _ _ _ ih => simpa using ih h
  | case10 | case13 | case14 => cases h

/-- Words of which none is left over are accepted. -/
theorem accepts_of_readWords {c : Command} {g g' : Given} {words : List Word}
    (h : readWords c g words = .ok g') (hg' : g'.leftOver = []) : Accepts c g words g' := by
  fun_induction readWords c g words with
  | case1 =>
      cases h
      exact .done g'
  | case2 g t rest hinput ih =>
      have hg := (g.lacksInput_iff c).mp hinput
      exact .inputSeparator hg (g.withOperand_of_lacksInput hg t ▸ ih h)
  | case4 g t rest hseparator ih =>
      by_cases hinput : (c.takesInput && g.input.isNone) = true
      · have hg := (g.lacksInput_iff c).mp hinput
        exact .input hg (g.withOperand_of_lacksInput hg t ▸ ih h)
      · -- an operand that does not become the input is left over
        have hleft := leftOver_of_readWords h hg'
        simp [Given.withOperand, hinput] at hleft
  | case5 g t rest hinput ih =>
      have hg := (g.lacksInput_iff c).mp hinput
      exact .separatorInput hg (g.withOperand_of_lacksInput hg t ▸ ih h)
  | case3 | case6 | case7 | case8 | case9 =>
      -- a word is left over here
      have hleft := leftOver_of_readWords h hg'
      simp at hleft
  | case11 g isLetter value rest ih => exact .attached (ih h)
  | case12 g isLetter t rest ih => exact .value (ih h)
  | case15 g s isLetter rest hhelp hvalue houtput ih => exact .flag hhelp houtput (ih h)
  | case10 | case13 | case14 => cases h

/-- Accepted words are read, and none is left over. -/
theorem Accepts.readWords_eq {c : Command} {g g' : Given} {words : List Word}
    (h : Accepts c g words g') (hg : g.leftOver = []) :
    readWords c g words = .ok g' ∧ g'.leftOver = [] := by
  induction h with
  | done g => exact ⟨rfl, hg⟩
  | @input g g' t rest hinput h ih =>
      -- a separator behind the input would go with it, and none is accepted after that
      have hrest : ∀ more, rest ≠ .separator :: more := by
        rintro more rfl
        cases h with
        | separatorInput hinput' => cases hinput'.2
      refine ⟨?_, (ih hg).2⟩
      rw [readWords, g.withOperand_of_lacksInput hinput]
      · exact (ih hg).1
      · exact hrest
  | @inputSeparator g g' t rest hinput h ih =>
      refine ⟨?_, (ih hg).2⟩
      rw [readWords, if_pos ((g.lacksInput_iff c).mpr hinput), g.withOperand_of_lacksInput hinput]
      exact (ih hg).1
  | @separatorInput g g' t rest hinput h ih =>
      refine ⟨?_, (ih hg).2⟩
      rw [readWords, if_pos ((g.lacksInput_iff c).mpr hinput), g.withOperand_of_lacksInput hinput]
      exact (ih hg).1
  | attached h ih => exact ih hg
  | value h ih => exact ih hg
  | @flag g g' s isLetter rest hhelp houtput h ih =>
      have hread := ih (by simpa using hg)
      refine ⟨?_, hread.2⟩
      rw [readWords]
      · exact hread.1
      · exact hhelp
      · exact fun _ _ _ => houtput
      · exact houtput

/-- No accepted word may stand for several switches. -/
theorem Accepts.findSome?_mistake? {c : Command} {g g' : Given} {words : List Word}
    (h : Accepts c g words g') : words.findSome? Word.mistake? = none := by
  induction h <;> simp_all [Word.mistake?]

/-- A command is read if its words are accepted, its input is not missing, and nothing was left over
before. -/
theorem readCommand_eq_ok_iff (keepsSeparator : Bool) (leftOver : List Text) (c : Command)
    (texts : List Text) (task : Task) :
    readCommand keepsSeparator leftOver c texts = .ok task ↔
      leftOver = [] ∧ ∃ g, Accepts c {} (Word.ofTexts (.command c) texts) g ∧
        ¬ g.LacksInput c ∧ g.task keepsSeparator c = task := by
  unfold readCommand
  dsimp only
  constructor
  · intro h
    split at h
    · cases h
    · cases hread : readWords c {} (Word.ofTexts (.command c) texts) with
      | error stop =>
          rw [hread] at h
          cases h
      | ok g =>
          rw [hread] at h
          simp only [bind, Except.bind] at h
          split at h
          · cases h
          · next hinput =>
              split at h
              · next hleft =>
                  rw [List.isEmpty_iff, List.append_eq_nil_iff] at hleft
                  exact ⟨hleft.1, g, accepts_of_readWords hread hleft.2,
                    fun hg => hinput ((g.lacksInput_iff c).mpr hg), Except.ok.inj h⟩
              · cases h
  · rintro ⟨rfl, g, haccepts, hinput, rfl⟩
    obtain ⟨hread, hleft⟩ := haccepts.readWords_eq rfl
    rw [haccepts.findSome?_mistake?]
    simp only [hread, bind, Except.bind]
    rw [if_neg fun hg => hinput ((g.lacksInput_iff c).mp hg), hleft]
    rfl

/-! ## Words without the output file -/

/-- Words without the switches for the output file and their values. -/
def Word.withoutOutput : List Word → List Word
  | [] => []
  | .switch .output _ none :: .operand _ :: rest => withoutOutput rest
  | .switch .output _ _ :: rest => withoutOutput rest
  | w :: rest => w :: withoutOutput rest

theorem Accepts.withoutOutput {c : Command} {g g' : Given} {words : List Word}
    (h : Accepts c g words g') :
    Accepts c { g with output := none } (Word.withoutOutput words) { g' with output := none } := by
  induction h with
  | done g => exact .done _
  | input hg h ih => exact .input hg ih
  | inputSeparator hg h ih => exact .inputSeparator hg ih
  | separatorInput hg h ih => exact .separatorInput hg ih
  | attached h ih => exact ih
  | value h ih => exact ih
  | @flag g g' s isLetter rest hhelp houtput h ih =>
      have hflag : { g.withFlag s with output := none } =
          ({ g with output := none } : Given).withFlag s := by cases s <;> rfl
      rw [hflag] at ih
      have hkept : Word.withoutOutput (.switch s isLetter none :: rest) =
          .switch s isLetter none :: Word.withoutOutput rest := by
        cases s with
        | output => exact absurd rfl houtput
        | _ => rfl
      rw [hkept]
      exact .flag hhelp houtput ih

/-- The words after a command without the switches for the output file. A switch without a value
attached takes the operand after it along; behind the separator there are no switches. -/
def withoutOutput (p : Page) : List Text → List Text
  | [] => []
  | t :: rest =>
    match Word.ofText p t with
    | .separator => t :: rest
    | .switch .output _ (some _) => withoutOutput p rest
    | .switch .output _ none =>
      match rest with
      | [] => []
      | value :: more =>
        if (Word.ofText p value).isOperand then withoutOutput p more
        else withoutOutput p (value :: more)
    | _ => t :: withoutOutput p rest

theorem Word.withoutOutput_operands (texts : List Text) :
    Word.withoutOutput (texts.map .operand) = texts.map .operand := by
  induction texts with
  | nil => rfl
  | cons t rest ih => rw [List.map_cons, Word.withoutOutput, ih] <;> simp

theorem Word.ofTexts_cons {p : Page} {t : Text} (h : Word.ofText p t ≠ .separator)
    (rest : List Text) : Word.ofTexts p (t :: rest) = Word.ofText p t :: Word.ofTexts p rest := by
  rw [Word.ofTexts]
  split
  · next hseparator => exact absurd hseparator h
  · rfl

theorem Word.withoutOutput_cons {w : Word} (h : ∀ isLetter attached,
    w ≠ .switch .output isLetter attached) (rest : List Word) :
    Word.withoutOutput (w :: rest) = w :: Word.withoutOutput rest := by
  rw [Word.withoutOutput]
  · exact fun isLetter t more heq _ => h isLetter none heq
  · exact h

theorem Word.head?_ofTexts (p : Page) (t : Text) (rest : List Text) :
    (Word.ofTexts p (t :: rest)).head? = some (Word.ofText p t) := by
  rw [Word.ofTexts]
  split
  · next hseparator => rw [hseparator, List.head?_cons]
  · rfl

/-- A switch that no operand follows has no value to take along. -/
theorem Word.withoutOutput_bare {isLetter : Bool} {words : List Word}
    (h : ∀ t, words.head? ≠ some (.operand t)) :
    Word.withoutOutput (.switch .output isLetter none :: words) = Word.withoutOutput words := by
  cases words with
  | nil => rfl
  | cons w rest =>
      cases w with
      | operand t => exact absurd rfl (h t)
      | _ => rfl

/-- Leaving out the switches before or after the words are told apart comes to the same. -/
theorem Word.ofTexts_withoutOutput (p : Page) (texts : List Text) :
    Word.ofTexts p (CommandLine.withoutOutput p texts) =
      Word.withoutOutput (Word.ofTexts p texts) := by
  fun_induction CommandLine.withoutOutput p texts with
  | case1 => rfl
  | case2 t rest hword =>
      rw [Word.ofTexts, hword]
      exact (congrArg _ (withoutOutput_operands rest)).symm
  | case3 t rest isLetter value hword ih =>
      rw [ofTexts_cons (by simp [hword]), hword]
      exact ih
  | case4 t isLetter hword =>
      rw [ofTexts_cons (by simp [hword]), hword]
      rfl
  | case5 t isLetter hword value more hoperand ih =>
      rw [ofTexts_cons (by simp [hword]), hword]
      cases hvalue : ofText p value with
      | operand text =>
          rw [ofTexts_cons (by simp [hvalue]), hvalue]
          exact ih
      | _ => simp [hvalue, isOperand] at hoperand
  | case6 t isLetter hword value more hoperand ih =>
      have hhead : ∀ t, (ofTexts p (value :: more)).head? ≠ some (.operand t) := by
        intro t ht
        rw [head?_ofTexts] at ht
        exact hoperand (by rw [Option.some.inj ht, isOperand])
      rw [ofTexts_cons (by simp [hword]), hword, ih, withoutOutput_bare hhead]
  | case7 t rest hseparator hattached hbare ih =>
      rw [ofTexts_cons hseparator, ofTexts_cons hseparator, withoutOutput_cons, ih]
      rintro isLetter (_ | value) hword
      · exact hbare isLetter hword
      · exact hattached isLetter value hword

/-! ## What words are made of -/

/-- What a word is made of: the text itself, or a switch that the page knows. -/
def Word.MadeOf (p : Page) (t : Text) : Word → Prop
  | .operand text | .unknown text | .ambiguous text _ => text = t
  | .separator => t = separatorText
  | .switch s _ _ => s ∈ p.switches

theorem Page.mem_switches_of_mem {p : Page} {name : Text} {s : Switch}
    (h : (name, s) ∈ p.switchNames) : s ∈ p.switches := by
  simp only [switchNames, List.mem_flatMap, List.mem_map] at h
  obtain ⟨s', hs', name', -, heq⟩ := h
  exact (Prod.mk.inj heq).2 ▸ hs'

theorem Page.mem_switches_of_switch? {p : Page} {name : Text} {s : Switch}
    (h : p.switch? name = some s) : s ∈ p.switches := by
  obtain ⟨before, after, heq, -⟩ := List.lookup_eq_some_iff.mp h
  have hmem : (name, s) ∈ p.switchNames := heq ▸ by simp
  exact mem_switches_of_mem hmem

theorem Word.madeOf_ofOther (p : Page) (t : Text) : (Word.ofOther t).MadeOf p t := by
  unfold ofOther
  split <;> rfl

theorem Word.madeOf_ofLong (p : Page) (t : Text) : (Word.ofLong p t).MadeOf p t := by
  unfold ofLong
  dsimp only
  split
  · exact madeOf_ofOther p t
  · next name s hstart =>
      have hmem : (name, s) ∈ p.switchNames :=
        (List.mem_filter.mp (hstart ▸ List.mem_singleton_self _)).1
      exact Page.mem_switches_of_mem hmem
  · rfl

theorem Word.madeOf_ofShort (p : Page) (t : Text) : (Word.ofShort p t).MadeOf p t := by
  unfold ofShort
  split
  · next s hname => exact Page.mem_switches_of_switch? hname
  · exact madeOf_ofOther p t

theorem Word.madeOf_ofText (p : Page) (t : Text) : (Word.ofText p t).MadeOf p t := by
  unfold ofText
  dsimp only
  split
  · next hseparator => exact hseparator
  split
  · rfl
  split
  · next s hname => exact Page.mem_switches_of_switch? hname
  split
  · next s _ value hname _ => exact Page.mem_switches_of_switch? hname
  split
  · exact madeOf_ofShort p t
  · exact madeOf_ofLong p t

/-- An operand is the word itself. -/
theorem Word.text_of_ofText {p : Page} {t text : Text} (h : Word.ofText p t = .operand text) :
    text = t := by
  have hmade := madeOf_ofText p t
  rwa [h] at hmade

/-- A page finds no switches that it does not know. -/
theorem Word.mem_switches_of_mem_ofTexts {p : Page} {texts : List Text} {s : Switch}
    {isLetter : Bool} {attached : Option Text}
    (h : .switch s isLetter attached ∈ Word.ofTexts p texts) : s ∈ p.switches := by
  induction texts with
  | nil => cases h
  | cons t rest ih =>
      rw [ofTexts] at h
      split at h
      · simp at h
      · rcases List.mem_cons.mp h with heq | hrest
        · have hmade := madeOf_ofText p t
          rwa [← heq] at hmade
        · exact ih hrest

end Flowchart.CommandLine
