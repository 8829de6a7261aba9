import Flowchart.Json.Reader
import Flowchart.Proofs.Json.Part
import Flowchart.Proofs.Json.Token
import Flowchart.Proofs.Keyed

/-!
# Reading the value that was written

A value is written in such a way that reading the text gives it back (`Json.read_write`), in every
style that puts no more than blanks between the parts (`Json.Style.Readable`). The keys of each
object must be distinct, because a second value under a key would take the place of the first, and
no integer may have more digits than reading allows.

Reading moves from point to point (`Json.Point.LeadsTo`). The text of a value leads from a place
where a value may stand to the place after it; that is shown for each kind of value from the same of
its parts, and the text in front of which it stands is left open until the end.
-/

set_option autoImplicit false

namespace Flowchart.Json

/-! ## Styles -/

/-- A style that puts blanks between the parts, and a colon after each key. -/
structure Style.Readable (s : Style) : Prop where
  isSpace_lineBreak : ∀ depth, ∀ c ∈ s.lineBreak depth, isSpace c = true
  exists_colon : ∃ blanks, s.colon = ':' :: blanks ∧ ∀ c ∈ blanks, isSpace c = true

theorem readable_indented : Style.indented.Readable where
  isSpace_lineBreak depth c hc := by
    rcases List.mem_cons.mp hc with rfl | hc
    · rfl
    · rw [List.eq_of_mem_replicate hc]
      rfl
  exists_colon := ⟨[' '], rfl, by simp [isSpace]⟩

theorem readable_compact : Style.compact.Readable where
  isSpace_lineBreak depth c hc := by cases hc
  exists_colon := ⟨[], rfl, by simp⟩

/-! ## Points in reading -/

/-- What is open, what may come next, and the text that is left. -/
structure Point where
  frames : List Frame
  expected : Expected
  text : Text

/-- Reading from one point comes to the other, wherever in the text it starts. -/
def Point.LeadsTo (a b : Point) : Prop :=
  ∀ position, ∃ next, readTokens a.frames a.expected (tokensFrom 0 position a.text) =
    readTokens b.frames b.expected (tokensFrom 0 next b.text)

namespace Point.LeadsTo

theorem trans {a b c : Point} (hab : a.LeadsTo b) (hbc : b.LeadsTo c) : a.LeadsTo c := by
  intro position
  obtain ⟨next, hnext⟩ := hab position
  obtain ⟨last, hlast⟩ := hbc next
  exact ⟨last, hnext.trans hlast⟩

/-- Blanks are passed over. -/
theorem blanks (frames : List Frame) (expected : Expected) {b : Text}
    (hb : ∀ c ∈ b, isSpace c = true) (rest : Text) :
    Point.LeadsTo ⟨frames, expected, b ++ rest⟩ ⟨frames, expected, rest⟩ :=
  fun position => ⟨position + b.length, by rw [tokensFrom_blanks hb]⟩

/-- A token takes one step. -/
theorem token {w rest : Text} {t : Token} (hw : Lexes w t rest) {frames frames' : List Frame}
    {expected expected' : Expected}
    (h : ∀ position tokens, readTokens frames expected ((position, t) :: tokens) =
      readTokens frames' expected' tokens) :
    Point.LeadsTo ⟨frames, expected, w ++ rest⟩ ⟨frames', expected', rest⟩ :=
  fun position => ⟨position + w.length, by rw [hw, h]⟩

end Point.LeadsTo

/-- Wherever a value may stand, the text in front of another that does not go on with a number is
read as the value. -/
def Reads (w : Text) (v : Json) : Prop :=
  ∀ frames expected rest, expected = .value ∨ expected = .itemOrClose → EndsNumber rest →
    Point.LeadsTo ⟨frames, expected, w ++ rest⟩ ⟨frames, .afterValue v, rest⟩

/-! ## Values without parts -/

theorem reads_of_atom {w : Text} {v : Json}
    (h : ∀ rest, EndsNumber rest → Lexes w (.atom v) rest) : Reads w v := by
  rintro frames expected rest (rfl | rfl) hrest
  · exact .token (h rest hrest) fun _ _ => rfl
  · exact .token (h rest hrest) fun _ _ => rfl

theorem reads_word {word : Text} {v : Json} (h : (word, v) ∈ literals) : Reads word v :=
  reads_of_atom fun rest _ => lexes_word h rest

theorem reads_string (s : Style) (t : Text) : Reads (s.string t) (.str t) := by
  rintro frames expected rest (rfl | rfl) -
  · exact .token (lexes_string s t rest) fun _ _ => rfl
  · exact .token (lexes_string s t rest) fun _ _ => rfl

theorem reads_integer {n : Int} (h : (Numeral.decimal n.natAbs).length ≤ maxIntegerDigits) :
    Reads (Numeral.signedDecimal n) (.int n) := by
  refine reads_of_atom fun rest hrest => ?_
  rw [← text_integerText, ← numberToken_integerText h]
  exact lexes_number (proper_integerText n) hrest

/-- The text of a number, an infinite one included, is read as that number. -/
theorem reads_float (x : Binary64) : Reads (x.text specialWords) (.float x) := by
  cases x with
  | finite negative rank =>
      obtain ⟨n, hproper, htext, hfloat, hvalue⟩ :=
        Binary64.exists_numberText specialWords negative rank
      refine reads_of_atom fun rest hrest => ?_
      rw [htext, ← hvalue, ← numberToken_of_float hfloat]
      exact lexes_number hproper hrest
  | infinite negative =>
      have hpositive : ("Infinity".toList, float (.infinite false)) ∈ literals := by simp [literals]
      have hnegative : ("-Infinity".toList, float (.infinite true)) ∈ literals := by simp [literals]
      cases negative with
      | false => exact reads_word hpositive
      | true => exact reads_word hnegative
  | nan =>
      have hnan : ("NaN".toList, float .nan) ∈ literals := by simp [literals]
      exact reads_word hnan

/-! ## What follows a value -/

theorem endsNumber_nil : EndsNumber [] := by
  intro c hc
  cases hc

theorem endsNumber_mark {c : Char} {token : Token} (h : mark? c = some token) (rest : Text) :
    EndsNumber (c :: rest) := by
  rintro d ⟨⟩
  unfold mark? at h
  split at h
  all_goals first | decide | cases h

/-- Blanks do not go on with a number. -/
theorem endsNumber_blanks {b rest : Text} (hb : ∀ c ∈ b, isSpace c = true)
    (hrest : EndsNumber rest) : EndsNumber (b ++ rest) := by
  cases b with
  | nil => exact hrest
  | cons c b =>
      rintro d ⟨⟩
      have hc := hb c (by simp)
      simp only [isSpace, Bool.or_eq_true, beq_iff_eq] at hc
      rcases hc with ((rfl | rfl) | rfl) | rfl <;> decide

/-- No value begins with a byte order mark. -/
theorem readTokens_byteOrderMark (rest : Text) :
    readTokens [] .value (tokens ('\uFEFF' :: rest)) = .error (.malformed .expectedValue 0) := rfl

/-! ## Arrays -/

section

variable {s : Style} (hs : s.Readable)

include hs

/-- What stands after an item: more of them, or the end of the array. -/
theorem endsNumber_items (depth outer : Nat) (items : List Json) (rest : Text) :
    EndsNumber (writeItems s depth items ++ (s.lineBreak outer ++ ']' :: rest)) := by
  cases items with
  | nil =>
      rw [writeItems, List.nil_append]
      exact endsNumber_blanks (hs.isSpace_lineBreak outer) (endsNumber_mark rfl rest)
  | cons v items => exact endsNumber_mark rfl _

/-- The items after the first, and the end of the array. -/
theorem items_leadsTo (depth outer : Nat) (frames : List Frame) (rest : Text) {items : List Json}
    (hitems : ∀ w ∈ items, Reads (writeAt s depth w) w) (before : List Json) (v : Json) :
    Point.LeadsTo
      ⟨.array before :: frames, .afterValue v,
        writeItems s depth items ++ (s.lineBreak outer ++ ']' :: rest)⟩
      ⟨frames, .afterValue (.arr (before.reverse ++ v :: items)), rest⟩ := by
  induction items generalizing before v with
  | nil =>
      have hbreak := Point.LeadsTo.blanks (.array before :: frames) (.afterValue v)
        (hs.isSpace_lineBreak outer) (']' :: rest)
      have hclose : Point.LeadsTo ⟨.array before :: frames, .afterValue v, [']'] ++ rest⟩
          ⟨frames, .afterValue (.arr (before.reverse ++ [v])), rest⟩ :=
        .token (lexes_mark rfl rest) fun _ _ => by simp [readTokens]
      exact hbreak.trans hclose
  | cons w items ih =>
      have hmore := ih (fun u hu => hitems u (List.mem_cons_of_mem w hu)) (v :: before) w
      have hw := hitems w (by simp) (.array (v :: before) :: frames) .value _ (Or.inl rfl)
        (endsNumber_items hs depth outer items rest)
      have hbreak := Point.LeadsTo.blanks (.array (v :: before) :: frames) .value
        (hs.isSpace_lineBreak depth)
        (writeAt s depth w ++ (writeItems s depth items ++ (s.lineBreak outer ++ ']' :: rest)))
      have hcomma : Point.LeadsTo ⟨.array before :: frames, .afterValue v,
          [','] ++ (s.lineBreak depth ++ (writeAt s depth w ++
            (writeItems s depth items ++ (s.lineBreak outer ++ ']' :: rest))))⟩
          ⟨.array (v :: before) :: frames, .value, _⟩ :=
        .token (lexes_mark rfl _) fun _ _ => by simp [readTokens]
      have hall := hcomma.trans (hbreak.trans (hw.trans hmore))
      simpa [writeItems] using hall

/-- An array is read from its items. -/
theorem reads_array (depth : Nat) {items : List Json}
    (hitems : ∀ w ∈ items, Reads (writeAt s (depth + 1) w) w) :
    Reads (writeAt s depth (.arr items)) (.arr items) := by
  intro frames expected rest hexpected _
  have hopen (text : Text) : Point.LeadsTo ⟨frames, expected, ['['] ++ text⟩
      ⟨.array [] :: frames, .itemOrClose, text⟩ := by
    rcases hexpected with rfl | rfl
    · exact .token (lexes_mark rfl text) fun _ _ => rfl
    · exact .token (lexes_mark rfl text) fun _ _ => rfl
  cases items with
  | nil =>
      have hclose : Point.LeadsTo ⟨.array [] :: frames, .itemOrClose, [']'] ++ rest⟩
          ⟨frames, .afterValue (.arr []), rest⟩ := .token (lexes_mark rfl rest) fun _ _ => rfl
      exact (hopen _).trans hclose
  | cons v items =>
      have hv := hitems v (by simp) (.array [] :: frames) .itemOrClose _ (Or.inr rfl)
        (endsNumber_items hs (depth + 1) depth items rest)
      have hbreak := Point.LeadsTo.blanks (.array [] :: frames) .itemOrClose
        (hs.isSpace_lineBreak (depth + 1)) (writeAt s (depth + 1) v ++
          (writeItems s (depth + 1) items ++ (s.lineBreak depth ++ ']' :: rest)))
      have hmore := items_leadsTo hs (depth + 1) depth frames rest
        (fun w hw => hitems w (List.mem_cons_of_mem v hw)) [] v
      have hall := (hopen _).trans (hbreak.trans (hv.trans hmore))
      simpa [writeAt] using hall

/-! ## Objects -/

/-- What stands after the value of a field: more of them, or the end of the object. -/
theorem endsNumber_fields (depth outer : Nat) (fields : List (Text × Json)) (rest : Text) :
    EndsNumber (writeFields s depth fields ++ (s.lineBreak outer ++ '\x7d' :: rest)) := by
  cases fields with
  | nil =>
      rw [writeFields, List.nil_append]
      exact endsNumber_blanks (hs.isSpace_lineBreak outer) (endsNumber_mark rfl rest)
  | cons field fields => exact endsNumber_mark rfl _

/-- A key and the colon after it. -/
theorem key_leadsTo (frames : List Frame) (expected : Expected) {before : List (Text × Json)}
    (hexpected : ∀ position key tokens, readTokens frames expected ((position, .text key) :: tokens) =
      readTokens frames (.colon before key) tokens) (key text : Text) :
    Point.LeadsTo ⟨frames, expected, s.string key ++ (s.colon ++ text)⟩
      ⟨.object before key :: frames, .value, text⟩ := by
  obtain ⟨blanks, hcolon, hblanks⟩ := hs.exists_colon
  have hkey : Point.LeadsTo ⟨frames, expected, s.string key ++ (s.colon ++ text)⟩
      ⟨frames, .colon before key, s.colon ++ text⟩ :=
    .token (lexes_string s key _) fun position tokens => hexpected position key tokens
  have hmark : Point.LeadsTo ⟨frames, .colon before key, [':'] ++ (blanks ++ text)⟩
      ⟨.object before key :: frames, .value, blanks ++ text⟩ :=
    .token (lexes_mark rfl _) fun _ _ => rfl
  have hbreak := Point.LeadsTo.blanks (.object before key :: frames) .value hblanks text
  rw [hcolon] at hkey ⊢
  exact hkey.trans (hmark.trans hbreak)

/-- The fields after the first, and the end of the object. -/
theorem fields_leadsTo (depth outer : Nat) (frames : List Frame) (rest : Text)
    {fields : List (Text × Json)}
    (hfields : ∀ key w, (key, w) ∈ fields → Reads (writeAt s depth w) w)
    (before : List (Text × Json)) (key : Text) (v : Json)
    (hkeys : ((before ++ (key, v) :: fields).map Prod.fst).Nodup) :
    Point.LeadsTo
      ⟨.object before key :: frames, .afterValue v,
        writeFields s depth fields ++ (s.lineBreak outer ++ '\x7d' :: rest)⟩
      ⟨frames, .afterValue (.obj (before ++ (key, v) :: fields)), rest⟩ := by
  have hnew : key ∉ before.map Prod.fst := by
    rw [List.map_append, List.nodup_append] at hkeys
    intro hmem
    exact hkeys.2.2 key hmem key (by simp) rfl
  have hassign := Keyed.assign_of_not_mem hnew v
  induction fields generalizing before key v with
  | nil =>
      have hbreak := Point.LeadsTo.blanks (.object before key :: frames) (.afterValue v)
        (hs.isSpace_lineBreak outer) ('\x7d' :: rest)
      have hclose : Point.LeadsTo ⟨.object before key :: frames, .afterValue v, ['\x7d'] ++ rest⟩
          ⟨frames, .afterValue (.obj (before ++ [(key, v)])), rest⟩ :=
        .token (lexes_mark rfl rest) fun _ _ => by simp [readTokens, hassign]
      exact hbreak.trans hclose
  | cons field fields ih =>
      obtain ⟨next, w⟩ := field
      have hsplit : before ++ (key, v) :: (next, w) :: fields =
          (before ++ [(key, v)]) ++ (next, w) :: fields := by simp
      rw [hsplit] at hkeys ⊢
      have hnext : next ∉ (before ++ [(key, v)]).map Prod.fst := by
        rw [List.map_append, List.nodup_append] at hkeys
        intro hmem
        exact hkeys.2.2 next hmem next (by simp) rfl
      have hmore := ih (fun k u hu => hfields k u (List.mem_cons_of_mem _ hu))
        (before ++ [(key, v)]) next w hkeys hnext (Keyed.assign_of_not_mem hnext w)
      have hw := hfields next w (by simp) (.object (before ++ [(key, v)]) next :: frames) .value _
        (Or.inl rfl) (endsNumber_fields hs depth outer fields rest)
      have hkey := key_leadsTo hs frames (.key (before ++ [(key, v)]))
        (fun _ _ _ => rfl) next (writeAt s depth w ++
          (writeFields s depth fields ++ (s.lineBreak outer ++ '\x7d' :: rest)))
      have hbreak := Point.LeadsTo.blanks frames (.key (before ++ [(key, v)]))
        (hs.isSpace_lineBreak depth) (s.string next ++ (s.colon ++ (writeAt s depth w ++
          (writeFields s depth fields ++ (s.lineBreak outer ++ '\x7d' :: rest)))))
      have hcomma (text : Text) : Point.LeadsTo
          ⟨.object before key :: frames, .afterValue v, [','] ++ text⟩
          ⟨frames, .key (before ++ [(key, v)]), text⟩ :=
        .token (lexes_mark rfl _) fun _ _ => by simp [readTokens, hassign]
      have hall := (hcomma _).trans (hbreak.trans (hkey.trans (hw.trans hmore)))
      simpa [writeFields] using hall

/-- An object is read from the values of its fields. -/
theorem reads_object (depth : Nat) {fields : List (Text × Json)}
    (hkeys : (fields.map Prod.fst).Nodup)
    (hfields : ∀ key w, (key, w) ∈ fields → Reads (writeAt s (depth + 1) w) w) :
    Reads (writeAt s depth (.obj fields)) (.obj fields) := by
  intro frames expected rest hexpected _
  have hopen (text : Text) : Point.LeadsTo ⟨frames, expected, ['\x7b'] ++ text⟩
      ⟨frames, .keyOrClose, text⟩ := by
    rcases hexpected with rfl | rfl
    · exact .token (lexes_mark rfl text) fun _ _ => rfl
    · exact .token (lexes_mark rfl text) fun _ _ => rfl
  cases fields with
  | nil =>
      have hclose : Point.LeadsTo ⟨frames, .keyOrClose, ['\x7d'] ++ rest⟩
          ⟨frames, .afterValue (.obj []), rest⟩ := .token (lexes_mark rfl rest) fun _ _ => rfl
      exact (hopen _).trans hclose
  | cons field fields =>
      obtain ⟨key, v⟩ := field
      have hmore := fields_leadsTo hs (depth + 1) depth frames rest
        (fun k w hw => hfields k w (List.mem_cons_of_mem _ hw)) [] key v hkeys
      have hv := hfields key v (by simp) (.object [] key :: frames) .value _ (Or.inl rfl)
        (endsNumber_fields hs (depth + 1) depth fields rest)
      have hkey := key_leadsTo hs frames .keyOrClose (fun _ _ _ => rfl) key
        (writeAt s (depth + 1) v ++
          (writeFields s (depth + 1) fields ++ (s.lineBreak depth ++ '\x7d' :: rest)))
      have hbreak := Point.LeadsTo.blanks frames .keyOrClose (hs.isSpace_lineBreak (depth + 1))
        (s.string key ++ (s.colon ++ (writeAt s (depth + 1) v ++
          (writeFields s (depth + 1) fields ++ (s.lineBreak depth ++ '\x7d' :: rest)))))
      have hall := (hopen _).trans (hbreak.trans (hkey.trans (hv.trans hmore)))
      simpa [writeAt] using hall

/-! ## All values -/

/-- Every value is read where it was written. -/
theorem reads_writeAt {v : Json} (hkeys : DistinctKeys v) (hintegers : ReadableIntegers v)
    (depth : Nat) : Reads (writeAt s depth v) v := by
  induction v using inductOn generalizing depth with
  | null =>
      rw [writeAt]
      exact reads_word (by simp [literals])
  | bool b =>
      cases b with
      | false =>
          rw [writeAt]
          exact reads_word (by simp [literals])
      | true =>
          rw [writeAt]
          exact reads_word (by simp [literals])
  | int n => exact reads_integer hintegers.self
  | float x => exact reads_float x
  | str t => exact reads_string s t
  | arr items ih =>
      have hkeys := ((everywhere_arr items).mp hkeys).2
      have hintegers := ((everywhere_arr items).mp hintegers).2
      exact reads_array hs depth fun w hw => ih w hw (hkeys w hw) (hintegers w hw) (depth + 1)
  | obj fields ih =>
      have hvalues := ((everywhere_obj fields).mp hkeys).2
      have hintegers := ((everywhere_obj fields).mp hintegers).2
      exact reads_object hs depth hkeys.self fun key w hw =>
        ih key w hw (hvalues _ hw) (hintegers _ hw) (depth + 1)

/-- Reading the text of a value, with blanks after it, gives the value. -/
theorem read_write_append {v : Json} (hkeys : DistinctKeys v) (hintegers : ReadableIntegers v)
    {blanks : Text} (hblanks : ∀ c ∈ blanks, isSpace c = true) :
    read (v.write s ++ blanks) = .ok v := by
  have hend : EndsNumber blanks := by
    have hends := endsNumber_blanks hblanks endsNumber_nil
    rwa [List.append_nil] at hends
  obtain ⟨next, hnext⟩ := reads_writeAt hs hkeys hintegers 0 [] .value blanks (Or.inl rfl) hend 0
  have hfinish : tokensFrom 0 next blanks = [(next + blanks.length, .finish)] := by
    rw [← List.append_nil blanks, tokensFrom_blanks hblanks]
    simp [tokensFrom]
  have htokens : readTokens [] .value (tokens (v.write s ++ blanks)) = .ok v := by
    rw [hfinish] at hnext
    exact hnext
  have hmark : (v.write s ++ blanks).head? ≠ some '\uFEFF' := by
    intro hhead
    obtain ⟨rest, hrest⟩ := List.head?_eq_some_iff.mp hhead
    rw [hrest, readTokens_byteOrderMark] at htokens
    cases htokens
  rw [read, if_neg hmark, htokens]

/-- Reading the text of a value gives the value. -/
theorem read_write {v : Json} (hkeys : DistinctKeys v) (hintegers : ReadableIntegers v) :
    read (v.write s) = .ok v := by
  have h := read_write_append hs hkeys hintegers (fun c (hc : c ∈ ([] : Text)) => nomatch hc)
  rwa [List.append_nil] at h

end

end Flowchart.Json
