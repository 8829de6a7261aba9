import Flowchart.Diagram.Statement
import Mathlib.Data.List.DropRight

/-!
# Trimmed lines

A line that is kept has no blank at either end (`trimmed_of_keptLine?`), and writing a trimmed text
after an indentation gives it back (`keptLine?_append`), unless it looks like a comment or a fence
or ends with a semicolon. Lines without line feeds are what joined lines are cut into
(`Text.lines_unlines`).
-/

set_option autoImplicit false

namespace Flowchart

namespace Text

/-! ## Blanks at the ends -/

/-- A text with no blank at either end. -/
structure Trimmed (t : Text) : Prop where
  head : ∀ c ∈ t.head?, isBlank c = false
  last : ∀ c ∈ t.getLast?, isBlank c = false

theorem trimStart_eq_self {t : Text} (h : ∀ c ∈ t.head?, isBlank c = false) : t.trimStart = t := by
  cases t with
  | nil => rfl
  | cons c rest =>
      rw [trimStart, List.dropWhile_cons_of_neg]
      simp [h c rfl]

theorem head?_trimStart (t : Text) : ∀ c ∈ t.trimStart.head?, isBlank c = false := by
  intro c hc
  have h := List.head?_dropWhile_not isBlank t
  rw [Option.mem_def] at hc
  rw [trimStart] at hc
  rw [hc] at h
  exact h

theorem trimStart_suffix (t : Text) : t.trimStart <:+ t := List.dropWhile_suffix _

theorem exists_blanks_trimStart (t : Text) :
    ∃ b, t = b ++ t.trimStart ∧ ∀ c ∈ b, isBlank c = true :=
  ⟨t.takeWhile isBlank, List.takeWhile_append_dropWhile.symm, fun _ hc => List.mem_takeWhile_imp hc⟩

theorem trimStart_blank (t : Text) : trimStart (' ' :: t) = trimStart t := rfl

/-- Blanks before a text are passed over. -/
theorem trimStart_append_of_blank {u : Text} (h : ∀ c ∈ u, isBlank c = true) (t : Text) :
    trimStart (u ++ t) = t.trimStart :=
  List.dropWhile_append_of_pos h

/-- What follows a text that is not all blank stays as it is. -/
theorem trimStart_append {u : Text} (h : u.trimStart ≠ []) (t : Text) :
    trimStart (u ++ t) = u.trimStart ++ t := by
  rw [trimStart, List.dropWhile_append, if_neg]
  · rfl
  · simpa [trimStart] using h

theorem trimStart_eq_nil_iff (t : Text) : t.trimStart = [] ↔ ∀ c ∈ t, isBlank c = true :=
  List.dropWhile_eq_nil_iff

theorem dropEndWhile_isPrefix (p : Char → Bool) (t : Text) : dropEndWhile p t <+: t :=
  List.rdropWhile_prefix p t

/-- A text whose last character does not satisfy the predicate is left as it is. -/
theorem dropEndWhile_eq_self {p : Char → Bool} {t : Text} (h : ∀ c ∈ t.getLast?, p c = false) :
    dropEndWhile p t = t := by
  refine List.rdropWhile_eq_self_iff.mpr fun hne => ?_
  rw [h (t.getLast hne) (List.getLast?_eq_some_getLast hne)]
  exact Bool.false_ne_true

/-- What is dropped at the end of a text satisfies the predicate. -/
theorem exists_dropped (p : Char → Bool) (t : Text) :
    ∃ x, t = dropEndWhile p t ++ x ∧ ∀ c ∈ x, p c = true := by
  refine ⟨(t.reverse.takeWhile p).reverse, ?_, fun c hc => ?_⟩
  · rw [dropEndWhile, ← List.reverse_append, List.takeWhile_append_dropWhile, List.reverse_reverse]
  · exact List.mem_takeWhile_imp (List.mem_reverse.mp hc)

theorem getLast?_dropEndWhile (p : Char → Bool) (t : Text) :
    ∀ c ∈ (dropEndWhile p t).getLast?, p c = false := by
  intro c hc
  have hne : dropEndWhile p t ≠ [] := by
    intro h
    rw [h] at hc
    cases hc
  have hlast := List.rdropWhile_last_not p t hne
  rw [Option.mem_def, List.getLast?_eq_some_getLast hne, Option.some.injEq] at hc
  rw [← hc]
  exact Bool.eq_false_iff.mpr hlast

/-- The first character of a prefix that is not empty is that of the text. -/
theorem head?_of_isPrefix {u t : Text} (h : u <+: t) : ∀ c ∈ u.head?, c ∈ t.head? := by
  obtain ⟨v, rfl⟩ := h
  intro c hc
  cases u with
  | nil => cases hc
  | cons d rest => exact hc

theorem getLast?_of_suffix {u t : Text} (h : u <:+ t) : ∀ c ∈ u.getLast?, c ∈ t.getLast? := by
  obtain ⟨v, rfl⟩ := h
  intro c hc
  rw [Option.mem_def] at hc ⊢
  rw [List.getLast?_append, hc]
  rfl

theorem exists_getLast? {t : Text} (hne : t ≠ []) : ∃ c, t.getLast? = some c :=
  ⟨t.getLast hne, List.getLast?_eq_some_getLast hne⟩

theorem trim_isPrefix (t : Text) : t.trim <+: t.trimStart := dropEndWhile_isPrefix _ _

theorem trimmed_trim (t : Text) : Trimmed t.trim where
  head := fun c hc => head?_trimStart t c (head?_of_isPrefix (trim_isPrefix t) c hc)
  last := getLast?_dropEndWhile isBlank t.trimStart

theorem Trimmed.trim_eq {t : Text} (h : Trimmed t) : t.trim = t := by
  rw [trim, trimStart_eq_self h.head]
  exact dropEndWhile_eq_self h.last

theorem trimmed_iff (t : Text) : Trimmed t ↔ t.trim = t :=
  ⟨Trimmed.trim_eq, fun h => h ▸ trimmed_trim t⟩

/-- A trimmed text is read through blanks before it. -/
theorem Trimmed.trim_append {u t : Text} (hu : ∀ c ∈ u, isBlank c = true) (h : Trimmed t) :
    trim (u ++ t) = t := by
  rw [trim, trimStart_append_of_blank hu, trimStart_eq_self h.head]
  exact dropEndWhile_eq_self h.last

/-- Nothing is trimmed at the end of a text that does not end with a blank. -/
theorem trim_eq_trimStart {t : Text} (h : ∀ c ∈ t.getLast?, isBlank c = false) :
    t.trim = t.trimStart :=
  dropEndWhile_eq_self fun c hc => h c (getLast?_of_suffix (trimStart_suffix t) c hc)

theorem trim_ne_nil {t : Text} (hne : t ≠ []) (h : ∀ c ∈ t.getLast?, isBlank c = false) :
    t.trim ≠ [] := by
  obtain ⟨c, hc⟩ := exists_getLast? hne
  rw [trim_eq_trimStart h, Ne, trimStart_eq_nil_iff]
  intro hblank
  have hlast := hblank c (List.mem_of_getLast? hc)
  rw [h c hc] at hlast
  cases hlast

/-- A text of which nothing is left is blank. -/
theorem isBlank_of_trim_eq_nil {t : Text} (h : t.trim = []) : ∀ c ∈ t, isBlank c = true := by
  obtain ⟨b, hb, hblank⟩ := exists_blanks_trimStart t
  have hstart : ∀ c ∈ t.trimStart, isBlank c = true := List.rdropWhile_eq_nil_iff.mp h
  intro c hc
  rw [hb] at hc
  exact (List.mem_append.mp hc).elim (hblank c) (hstart c)

theorem trim_subset {t : Text} {c : Char} (h : c ∈ t.trim) : c ∈ t :=
  (trimStart_suffix t).subset ((trim_isPrefix t).subset h)

theorem Trimmed.append {s t : Text} (hs : ∀ c ∈ s.head?, isBlank c = false) (hs' : s ≠ [])
    (ht : ∀ c ∈ t.getLast?, isBlank c = false) (ht' : t ≠ []) : Trimmed (s ++ t) where
  head := by
    cases s with
    | nil => exact absurd rfl hs'
    | cons c rest => exact hs
  last := by
    rw [List.getLast?_append_of_ne_nil _ ht']
    exact ht

/-- Blanks after a text are dropped with those at its end. -/
theorem trimEnd_append_of_blank {u : Text} (h : ∀ c ∈ u, isBlank c = true) (t : Text) :
    trimEnd (t ++ u) = t.trimEnd := by
  have hu : ∀ c ∈ u.reverse, isBlank c = true := fun c hc => h c (List.mem_reverse.mp hc)
  rw [trimEnd, dropEndWhile, List.reverse_append, List.dropWhile_append_of_pos hu]
  rfl

/-- Blanks on both sides of a text make no difference to what is left of it. -/
theorem trim_between_blanks {u v : Text} (hu : ∀ c ∈ u, isBlank c = true)
    (hv : ∀ c ∈ v, isBlank c = true) (t : Text) : trim (u ++ t ++ v) = t.trim := by
  rw [List.append_assoc, trim, trimStart_append_of_blank hu]
  by_cases ht : t.trimStart = []
  · have hblank : ∀ c ∈ t ++ v, isBlank c = true := by
      intro c hc
      exact (List.mem_append.mp hc).elim ((trimStart_eq_nil_iff t).mp ht c) (hv c)
    rw [trim, ht, (trimStart_eq_nil_iff (t ++ v)).mpr hblank]
  · rw [trimStart_append ht, trimEnd_append_of_blank hv, trim]

/-- A character that is not blank keeps the end of a text from being trimmed. -/
theorem trim_concat {c : Char} (hc : ¬ isBlank c = true) (t : Text) :
    trim (t ++ [c]) = t.trimStart ++ [c] := by
  have hstart : trimStart (t ++ [c]) = t.trimStart ++ [c] := by
    by_cases ht : t.trimStart = []
    · rw [trimStart_append_of_blank ((trimStart_eq_nil_iff t).mp ht), ht]
      exact List.dropWhile_cons_of_neg hc
    · exact trimStart_append ht [c]
  rw [trim, hstart]
  exact List.rdropWhile_concat_neg _ _ _ hc

/-! ## Lines of a text -/

/-- Lines without line feeds are read back from the text that joins them. -/
theorem lines_unlines {ls : List Text} (h : ∀ l ∈ ls, '\n' ∉ l) (hne : ls ≠ []) :
    (unlines ls).lines = ls :=
  List.splitOn_intercalate '\n' h hne

theorem unlines_cons (l : Text) {ls : List Text} (h : ls ≠ []) :
    unlines (l :: ls) = l ++ '\n' :: unlines ls := by
  rw [unlines, List.intercalate_cons_of_ne_nil h, List.append_assoc]
  rfl

/-- A line that comes last is joined by a line feed. -/
theorem unlines_concat {ls : List Text} (h : ls ≠ []) (l : Text) :
    unlines (ls ++ [l]) = unlines ls ++ '\n' :: l := by
  induction ls with
  | nil => exact absurd rfl h
  | cons first rest ih =>
      by_cases hrest : rest = []
      · rw [hrest, List.singleton_append, unlines_cons first (List.cons_ne_nil l []), unlines,
          unlines, List.intercalate_singleton, List.intercalate_singleton]
      · rw [List.cons_append, unlines_cons first (List.append_ne_nil_of_left_ne_nil hrest [l]),
          ih hrest, unlines_cons first hrest, List.append_assoc]
        rfl

/-- The lines of two texts with a line feed between them are those of the one and of the other. -/
theorem lines_append (t u : Text) : (t ++ '\n' :: u).lines = t.lines ++ u.lines :=
  List.splitOn_append_cons_self t u

theorem not_mem_of_mem_lines {t l : Text} (h : l ∈ t.lines) : '\n' ∉ l := by
  -- one character at a time: a line feed begins a new piece, any other joins the first one
  rw [lines, List.splitOn_eq_splitOnP] at h
  induction t generalizing l with
  | nil => simp_all
  | cons c rest ih =>
      rw [List.splitOnP_cons_eq_if_modifyHead] at h
      by_cases hc : c = '\n'
      · simp only [hc, beq_self_eq_true, if_true, List.mem_cons] at h
        rcases h with rfl | h
        · exact List.not_mem_nil
        · exact ih h
      · rw [if_neg (by simpa using hc)] at h
        cases hs : rest.splitOnP (· == '\n') with
        | nil => exact absurd hs (List.splitOnP_ne_nil _ _)
        | cons first more =>
            rw [hs, List.modifyHead_cons, List.mem_cons] at h
            rcases h with rfl | h
            · intro hmem
              rcases List.mem_cons.mp hmem with hmem | hmem
              · exact hc hmem.symm
              · exact ih (l := first) (by simp [hs]) hmem
            · exact ih (by simp [hs, h])

end Text

/-! ## Kept lines -/

/-- Whether a line is a comment or a fence. -/
def isRemark (line : Text) : Bool := "%%".toList.isPrefixOf line || "```".toList.isPrefixOf line

/-- A word does not reach beyond a character that it does not hold. -/
theorem isPrefixOf_append_stop {word : Text} {c : Char} (hc : c ∉ word) (s x : Text) :
    word.isPrefixOf (s ++ c :: x) = word.isPrefixOf s := by
  induction word generalizing s with
  | nil => rfl
  | cons d rest ih =>
      have hd : (d == c) = false := by
        rw [beq_eq_false_iff_ne]
        rintro rfl
        exact hc List.mem_cons_self
      cases s with
      | nil => simp [List.isPrefixOf, hd]
      | cons e more =>
          simp only [List.cons_append, List.isPrefixOf]
          rw [ih (fun hmem => hc (List.mem_cons_of_mem d hmem))]

theorem isRemark_append_stop {c : Char} (hc : c ≠ '%' ∧ c ≠ '`') (s x : Text) :
    isRemark (s ++ c :: x) = isRemark s := by
  rw [isRemark, isRemark, isPrefixOf_append_stop (by simpa using hc.1) s x,
    isPrefixOf_append_stop (by simpa using hc.2) s x]

/-- What begins a remark begins every line that it begins. -/
theorem isRemark_of_isPrefix {u t : Text} (h : u <+: t) (hu : isRemark u = true) :
    isRemark t = true := by
  simp only [isRemark, Bool.or_eq_true, List.isPrefixOf_iff_prefix] at hu ⊢
  exact hu.imp (fun hp => hp.trans h) (fun hp => hp.trans h)

theorem keptLine?_eq_some_iff (line kept : Text) :
    keptLine? line = some kept ↔
      isRemark line.trim = false ∧ kept ≠ [] ∧
        (Text.dropEndWhile (· == ';') line.trim).trimEnd = kept := by
  have hnil : (Text.dropEndWhile (· == ';') []).trimEnd = [] := rfl
  rw [keptLine?, Bool.or_assoc]
  change (if (line.trim.isEmpty || isRemark line.trim) = true then none else _) = _ ↔ _
  cases hr : isRemark line.trim with
  | true => simp
  | false =>
      cases ht : line.trim with
      | nil =>
          rw [hnil]
          simp only [List.isEmpty_nil, Bool.true_or, if_true]
          constructor
          · intro h
            cases h
          · rintro ⟨-, hne, rfl⟩
            exact absurd rfl hne
      | cons c rest =>
          cases hk : (Text.dropEndWhile (· == ';') (c :: rest)).trimEnd with
          | nil => simp +contextual
          | cons d more =>
              suffices d :: more = kept → kept ≠ [] by simpa
              rintro rfl
              exact List.cons_ne_nil d more

theorem keptLine?_eq_none_iff (line : Text) :
    keptLine? line = none ↔ isRemark line.trim = true ∨
      (Text.dropEndWhile (· == ';') line.trim).trimEnd = [] := by
  rw [Option.eq_none_iff_forall_not_mem]
  simp only [Option.mem_def, keptLine?_eq_some_iff]
  constructor
  · intro h
    by_contra hkept
    rw [not_or, Bool.not_eq_true] at hkept
    exact h _ ⟨hkept.1, hkept.2, rfl⟩
  · rintro (hremark | hnil) kept ⟨hno, hne, hkept⟩
    · rw [hremark] at hno
      cases hno
    · exact hne (hkept.symm.trans hnil)

/-- What is kept of a line depends on whether it is a remark and on what is left of it. -/
theorem keptLine?_congr {line line' : Text} (hremark : isRemark line'.trim = isRemark line.trim)
    (hleft : (Text.dropEndWhile (· == ';') line'.trim).trimEnd =
      (Text.dropEndWhile (· == ';') line.trim).trimEnd) : keptLine? line' = keptLine? line := by
  ext kept
  rw [keptLine?_eq_some_iff, keptLine?_eq_some_iff, hremark, hleft]

/-- Blanks at the end of a line do not make it a remark. -/
theorem isRemark_trim (line : Text) : isRemark line.trim = isRemark line.trimStart := by
  obtain ⟨dropped, hdropped, hblank⟩ := Text.exists_dropped isBlank line.trimStart
  rw [← Text.trimEnd, ← Text.trim] at hdropped
  cases dropped with
  | nil => rw [hdropped, List.append_nil]
  | cons c rest =>
      have hc : isBlank c = true := hblank c List.mem_cons_self
      have hsign : c ≠ '%' ∧ c ≠ '`' := by
        constructor
        · rintro rfl
          exact absurd hc (by decide)
        · rintro rfl
          exact absurd hc (by decide)
      rw [hdropped, isRemark_append_stop hsign]

section Kept

variable {line kept : Text} (h : keptLine? line = some kept)

include h

theorem isPrefix_of_keptLine? : kept <+: line.trim := by
  obtain ⟨-, -, rfl⟩ := (keptLine?_eq_some_iff line kept).mp h
  exact (Text.dropEndWhile_isPrefix _ _).trans (Text.dropEndWhile_isPrefix _ _)

theorem ne_nil_of_keptLine? : kept ≠ [] := ((keptLine?_eq_some_iff line kept).mp h).2.1

/-- A line loses no more than blanks and semicolons. -/
theorem exists_dropped_of_keptLine? :
    ∃ dropped, line.trim = kept ++ dropped ∧ ∀ c ∈ dropped, c = ';' ∨ isBlank c = true := by
  obtain ⟨-, -, hkept⟩ := (keptLine?_eq_some_iff line kept).mp h
  obtain ⟨x, hx, hsemicolon⟩ := Text.exists_dropped (· == ';') line.trim
  obtain ⟨y, hy, hblank⟩ := Text.exists_dropped isBlank (Text.dropEndWhile (· == ';') line.trim)
  rw [← Text.trimEnd, hkept] at hy
  -- semicolons are dropped before blanks, so they stand last
  refine ⟨y ++ x, by rw [← List.append_assoc, ← hy, ← hx], ?_⟩
  intro c hc
  rcases List.mem_append.mp hc with hc | hc
  · exact Or.inr (hblank c hc)
  · exact Or.inl (by simpa using hsemicolon c hc)

/-- A line of which nothing is dropped does not end with a semicolon. -/
theorem getLast?_ne_of_keptLine? (hwhole : line.trim = kept) : ∀ c ∈ kept.getLast?, c ≠ ';' := by
  obtain ⟨-, hne, hkept⟩ := (keptLine?_eq_some_iff line kept).mp h
  rw [hwhole] at hkept
  -- dropping semicolons shortens no more than dropping blanks after it
  have hself : Text.dropEndWhile (· == ';') kept = kept := by
    refine (Text.dropEndWhile_isPrefix _ kept).eq_of_length_le ?_
    have hlength :=
      (Text.dropEndWhile_isPrefix isBlank (Text.dropEndWhile (· == ';') kept)).length_le
    rwa [← Text.trimEnd, hkept] at hlength
  have hlast := Text.getLast?_dropEndWhile (· == ';') kept
  rw [hself] at hlast
  intro c hc
  simpa using hlast c hc

/-- What is kept of a line is trimmed. -/
theorem trimmed_of_keptLine? : Text.Trimmed kept where
  head := fun c hc =>
    (Text.trimmed_trim line).head c (Text.head?_of_isPrefix (isPrefix_of_keptLine? h) c hc)
  last := by
    obtain ⟨-, -, rfl⟩ := (keptLine?_eq_some_iff line kept).mp h
    exact Text.getLast?_dropEndWhile isBlank _

theorem isRemark_of_keptLine? : isRemark kept = false := by
  obtain ⟨hr, -, -⟩ := (keptLine?_eq_some_iff line kept).mp h
  cases hk : isRemark kept with
  | false => rfl
  | true => rw [isRemark_of_isPrefix (isPrefix_of_keptLine? h) hk] at hr; cases hr

theorem not_mem_of_keptLine? (hline : '\n' ∉ line) : '\n' ∉ kept := fun hmem =>
  hline (Text.trim_subset ((isPrefix_of_keptLine? h).subset hmem))

end Kept

/-- A trimmed text after blanks is kept whole, unless it is a remark or ends with a semicolon. -/
theorem keptLine?_append {indent body : Text} (hindent : ∀ c ∈ indent, isBlank c = true)
    (htrim : Text.Trimmed body) (hne : body ≠ []) (hremark : isRemark body = false)
    (hlast : ∀ c ∈ body.getLast?, c ≠ ';') : keptLine? (indent ++ body) = some body := by
  rw [keptLine?_eq_some_iff, htrim.trim_append hindent]
  refine ⟨hremark, hne, ?_⟩
  rw [Text.dropEndWhile_eq_self fun c hc => by simpa using hlast c hc]
  exact Text.dropEndWhile_eq_self htrim.last

theorem keptLines_append (t u : Text) :
    keptLines (t ++ '\n' :: u) = keptLines t ++ keptLines u := by
  rw [keptLines, Text.lines_append, List.filterMap_append]
  rfl

/-- The lines that a diagram keeps are trimmed, not empty, no remarks and without line feeds. -/
theorem keptLines_spec {t line : Text} (h : line ∈ keptLines t) :
    Text.Trimmed line ∧ line ≠ [] ∧ isRemark line = false ∧ '\n' ∉ line := by
  obtain ⟨whole, hmem, hkept⟩ := List.mem_filterMap.mp h
  exact ⟨trimmed_of_keptLine? hkept, ne_nil_of_keptLine? hkept, isRemark_of_keptLine? hkept,
    not_mem_of_keptLine? hkept (Text.not_mem_of_mem_lines hmem)⟩

end Flowchart
