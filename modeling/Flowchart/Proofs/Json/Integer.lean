import Flowchart.Proofs.Json.RoundTrip

/-!
# Integers that are read

Every integer that is read has no more digits than are read (`Json.readableIntegers_of_read`): the
digits are counted when the text is cut into tokens, and the value is put together from the tokens
only. So a text is read as its value whenever it is read at all, also with blanks after it
(`Json.read_write_blanks`).
-/

set_option autoImplicit false

namespace Flowchart.Json

/-! ## Digits -/

theorem isDigit_of_mem_wholePart {t : Text} {c : Char} (h : c ∈ wholePart t) :
    c.isDigit = true := by
  unfold wholePart at h
  split at h
  · rw [List.mem_singleton.mp h]
    decide
  · exact List.mem_takeWhile_imp h

theorem wholePart_of_number? {t : Text} {n : NumberText} {width : Nat}
    (h : number? t = some (n, width)) : n.whole ≠ [] ∧ ∀ c ∈ n.whole, c.isDigit = true := by
  simp only [number?, Option.ite_none_left_eq_some] at h
  obtain ⟨hne, heq⟩ := h
  obtain ⟨rfl, -⟩ := Prod.mk.inj (Option.some.inj heq)
  exact ⟨by simpa using hne, fun c hc => isDigit_of_mem_wholePart hc⟩

theorem readableIntegers_numberToken {n : NumberText} (hne : n.whole ≠ [])
    (hdigits : ∀ c ∈ n.whole, c.isDigit = true) {v : Json} (h : numberToken n = .atom v) :
    v.ReadableIntegers := by
  unfold numberToken at h
  split at h
  · cases h
    simp [ReadableIntegers, HasReadableDigits]
  · split at h
    · cases h
    · next hlength =>
        obtain rfl := Token.atom.inj h
        have hlt : (Binary64.signed n.negative (Numeral.decimalValue n.whole)).natAbs <
            10 ^ n.whole.length := by
          have hvalue := Numeral.decimalValue_lt_pow hdigits
          unfold Binary64.signed
          split
          · rwa [Int.natAbs_neg, Int.natAbs_natCast]
          · rwa [Int.natAbs_natCast]
        refine (everywhere_int _).mpr ?_
        exact Nat.le_trans (Numeral.length_ofNat_le (List.length_pos_iff.mpr hne) hlt)
          (Nat.not_lt.mp hlength)

/-- Every value that is a token has readable integers. -/
theorem readableIntegers_tokenAt {position : Nat} {c : Char} {rest : Text} {v : Json}
    (h : (tokenAt position c rest).1 = .atom v) : v.ReadableIntegers := by
  unfold tokenAt at h
  split at h
  · next token hmark =>
      obtain rfl : token = .atom v := h
      unfold mark? at hmark
      split at hmark <;> cases hmark
  · split at h
    · split at h <;> cases h
    · split at h
      · next word w hfind =>
          obtain rfl := Token.atom.inj h
          have hword := List.mem_of_find?_eq_some hfind
          simp only [literals, List.mem_cons, Prod.mk.injEq, List.not_mem_nil, or_false] at hword
          rcases hword with ⟨-, rfl⟩ | ⟨-, rfl⟩ | ⟨-, rfl⟩ | ⟨-, rfl⟩ | ⟨-, rfl⟩ | ⟨-, rfl⟩
          all_goals simp [ReadableIntegers, HasReadableDigits]
      · split at h
        · next n width hread =>
            obtain ⟨hne, hdigits⟩ := wholePart_of_number? hread
            exact readableIntegers_numberToken hne hdigits h
        · cases h

theorem readableIntegers_of_mem_tokensFrom {skip position : Nat} {t : Text} {p : Nat} {v : Json}
    (h : (p, Token.atom v) ∈ tokensFrom skip position t) : v.ReadableIntegers := by
  fun_induction tokensFrom skip position t with
  | case1 skip position => simp at h
  | case2 skip position c rest ih => exact ih h
  | case3 position c rest hspace ih => exact ih h
  | case4 position c rest hspace token htoken =>
      obtain ⟨-, rfl⟩ := Prod.mk.inj (List.mem_singleton.mp h)
      exact readableIntegers_tokenAt (congrArg Prod.fst htoken)
  | case5 position c rest hspace token next htoken ih =>
      rcases List.mem_cons.mp h with heq | hmem
      · obtain ⟨-, rfl⟩ := Prod.mk.inj heq
        exact readableIntegers_tokenAt (congrArg Prod.fst htoken)
      · exact ih hmem

/-! ## Values -/

theorem readableIntegers_str (t : Text) : (str t).ReadableIntegers := (everywhere_str t).mpr trivial

theorem readableIntegers_arr {items : List Json} (h : ∀ v ∈ items, v.ReadableIntegers) :
    (arr items).ReadableIntegers := (everywhere_arr items).mpr ⟨trivial, h⟩

theorem readableIntegers_obj {fields : List (Text × Json)}
    (h : ∀ field ∈ fields, field.2.ReadableIntegers) : (obj fields).ReadableIntegers :=
  (everywhere_obj fields).mpr ⟨trivial, h⟩

theorem readableIntegers_assign {fields : List (Text × Json)} {key : Text} {v : Json}
    (h : ∀ field ∈ fields, field.2.ReadableIntegers) (hv : v.ReadableIntegers) :
    ∀ field ∈ Keyed.assign key v fields, field.2.ReadableIntegers := by
  induction fields with
  | nil =>
      intro field hfield
      rw [Keyed.assign] at hfield
      rwa [List.mem_singleton.mp hfield]
  | cons entry fields ih =>
      obtain ⟨k, w⟩ := entry
      intro field hfield
      rw [Keyed.assign] at hfield
      split at hfield
      · rcases List.mem_cons.mp hfield with rfl | hmem
        · exact hv
        · exact h field (List.mem_cons_of_mem _ hmem)
      · rcases List.mem_cons.mp hfield with rfl | hmem
        · exact h _ List.mem_cons_self
        · exact ih (fun f hf => h f (List.mem_cons_of_mem _ hf)) field hmem

/-- What an open array or object holds has readable integers. -/
def Frame.ReadableIntegers : Frame → Prop
  | .array items => ∀ v ∈ items, v.ReadableIntegers
  | .object fields _ => ∀ field ∈ fields, field.2.ReadableIntegers

/-- What was read before the next token has readable integers. -/
def Expected.ReadableIntegers : Expected → Prop
  | .key fields | .colon fields _ => ∀ field ∈ fields, field.2.ReadableIntegers
  | .afterValue v => v.ReadableIntegers
  | _ => True

/-- A value is put together from what is held and from the tokens. -/
theorem readableIntegers_of_readTokens {frames : List Frame} {expected : Expected}
    {tokens : List (Nat × Token)} {v : Json} (h : readTokens frames expected tokens = .ok v)
    (hframes : ∀ frame ∈ frames, frame.ReadableIntegers) (hexpected : expected.ReadableIntegers)
    (htokens : ∀ p w, (p, Token.atom w) ∈ tokens → w.ReadableIntegers) : v.ReadableIntegers := by
  -- a step fails, or passes on what is held; only after a value are items and fields put together
  fun_induction readTokens frames expected tokens with
  | case26 position rest w items outer ih =>
      rw [List.forall_mem_cons] at hframes
      refine ih h ?_ trivial fun p u hu => htokens p u (List.mem_cons_of_mem _ hu)
      exact List.forall_mem_cons.mpr
        ⟨List.forall_mem_cons.mpr ⟨hexpected, hframes.1⟩, hframes.2⟩
  | case27 position rest w items outer ih =>
      rw [List.forall_mem_cons] at hframes
      refine ih h hframes.2 (readableIntegers_arr fun u hu => ?_)
        fun p u hu => htokens p u (List.mem_cons_of_mem _ hu)
      rcases List.mem_cons.mp (List.mem_reverse.mp hu) with rfl | hmem
      · exact hexpected
      · exact hframes.1 u hmem
  | case28 position rest w fields key outer ih =>
      rw [List.forall_mem_cons] at hframes
      exact ih h hframes.2 (readableIntegers_assign hframes.1 hexpected)
        fun p u hu => htokens p u (List.mem_cons_of_mem _ hu)
  | case29 position rest w fields key outer ih =>
      rw [List.forall_mem_cons] at hframes
      exact ih h hframes.2 (readableIntegers_obj (readableIntegers_assign hframes.1 hexpected))
        fun p u hu => htokens p u (List.mem_cons_of_mem _ hu)
  | _ => grind [Frame.ReadableIntegers, Expected.ReadableIntegers, readableIntegers_str,
      readableIntegers_arr, readableIntegers_obj]

/-- **Every value that is read has readable integers.** -/
theorem readableIntegers_of_read {t : Text} {v : Json} (h : read t = .ok v) :
    v.ReadableIntegers := by
  unfold read at h
  split at h
  · cases h
  · exact readableIntegers_of_readTokens h (fun _ hframe => nomatch hframe) trivial
      fun _ _ hmem => readableIntegers_of_mem_tokensFrom hmem

/-- Blanks after a text that was written do not matter, if the text is read at all. -/
theorem read_write_blanks {s : Style} (hs : s.Readable) {v : Json} (hkeys : DistinctKeys v)
    (h : read (v.write s) = .ok v) {blanks : Text} (hblanks : ∀ c ∈ blanks, isSpace c = true) :
    read (v.write s ++ blanks) = .ok v :=
  read_write_append hs hkeys (readableIntegers_of_read h) hblanks

end Flowchart.Json
