import Flowchart.Proofs.Split

/-!
# The grammar of connections

What a line must look like to connect two nodes, and how it is split, said without a reader. A line
connects exactly if it consists of a source, blanks, an arrow and a rest (`Connection.Parts`). Of
all such sources the shortest counts, and of the arrows after it and the blanks that follow it the
longest that leaves a rest (`Connection.Split`); the rest gives a label and a target
(`Connection.Ending`). The reader of connections does that and nothing else
(`Connection.ofLine?_grammar`).
-/

set_option autoImplicit false

namespace Flowchart

/-! ## The longest arrow first -/

namespace Arrow

theorem pairwise_runLengths (sign : Char) (t : Text) : (runLengths sign t).Pairwise (· > ·) := by
  obtain ⟨k, r, rfl, hr⟩ := exists_run sign t
  rw [runLengths_run hr, List.pairwise_append]
  refine ⟨?_, ?_, ?_⟩
  · split <;> simp
  · rw [List.pairwise_map]
    refine List.pairwise_lt_range.imp_of_mem fun hi hj hlt => ?_
    rw [List.mem_range] at hi hj
    omega
  · -- the tip comes after the whole run
    intro m hm n hn
    obtain ⟨j, hj, rfl⟩ := List.mem_map.mp hn
    split at hm
    · obtain rfl := List.mem_singleton.mp hm
      omega
    · cases hm

theorem pairwise_dottedLengths (t : Text) : (dottedLengths t).Pairwise (· > ·) := by
  unfold dottedLengths
  dsimp only
  split
  · split
    · exact .nil
    · split <;> simp
  · exact .nil

/-- An arrow of one sign begins with the sign twice. -/
theorem exists_of_mem_runLengths {sign : Char} (hs : sign ≠ '>') {n : Nat} {t : Text}
    (h : n ∈ runLengths sign t) : ∃ rest, t = sign :: sign :: rest := by
  rcases (mem_runLengths_iff hs n t).mp h with ⟨more, r, rfl, -⟩ | ⟨more, r, rfl, -⟩
  · exact ⟨_, rfl⟩
  · exact ⟨_, rfl⟩

theorem exists_of_mem_dottedLengths {n : Nat} {t : Text} (h : n ∈ dottedLengths t) :
    ∃ rest, t = '-' :: '.' :: rest := by
  rcases (mem_dottedLengths_iff n t).mp h with ⟨dots, r, rfl, -⟩ | ⟨dots, r, rfl, -⟩
  · exact ⟨_, rfl⟩
  · exact ⟨_, rfl⟩

/-- Longer arrows are tried before shorter ones. -/
theorem pairwise_lengths (t : Text) : (lengths t).Pairwise (· > ·) := by
  -- the three kinds of arrows differ in the first two characters, so only one list has any lengths
  have hequals : '=' ≠ '>' := by decide
  have hdash : '-' ≠ '>' := by decide
  rw [lengths, List.pairwise_append, List.pairwise_append]
  refine ⟨⟨pairwise_dottedLengths t, pairwise_runLengths '=' t, ?_⟩, pairwise_runLengths '-' t, ?_⟩
  · intro m hm n hn
    obtain ⟨x, hx⟩ := exists_of_mem_dottedLengths hm
    obtain ⟨y, hy⟩ := exists_of_mem_runLengths hequals hn
    cases hx.symm.trans hy
  · intro m hm n hn
    obtain ⟨y, hy⟩ := exists_of_mem_runLengths hdash hn
    rcases List.mem_append.mp hm with hm | hm
    · obtain ⟨x, hx⟩ := exists_of_mem_dottedLengths hm
      cases hx.symm.trans hy
    · obtain ⟨x, hx⟩ := exists_of_mem_runLengths hequals hm
      cases hx.symm.trans hy

end Arrow

/-! ## Blanks, but not the last character -/

/-- A text without the blanks at its start; of a text of blanks alone the last one is left. -/
def Text.trimStartButLast (t : Text) : Text :=
  if t.trimStart = [] then t.drop (t.length - 1) else t.trimStart

namespace Text

theorem trimStartButLast_of_head? {t : Text} (hne : t ≠ []) (h : ∀ c ∈ t.head?, isBlank c = false) :
    t.trimStartButLast = t := by
  rw [trimStartButLast, trimStart_eq_self h, if_neg hne]

theorem trimStartButLast_cons {c : Char} (hc : isBlank c = true) {t : Text} (hne : t ≠ []) :
    trimStartButLast (c :: t) = t.trimStartButLast := by
  have htrim : trimStart (c :: t) = t.trimStart := List.dropWhile_cons_of_pos hc
  have hdrop : (c :: t).drop ((c :: t).length - 1) = t.drop (t.length - 1) := by
    have hpos := List.length_pos_iff.mpr hne
    rw [List.length_cons, show t.length + 1 - 1 = t.length - 1 + 1 by omega, List.drop_succ_cons]
  rw [trimStartButLast, htrim, hdrop]
  rfl

theorem trimStartButLast_suffix (t : Text) : t.trimStartButLast <:+ t := by
  rw [trimStartButLast]
  split
  · exact List.drop_suffix _ t
  · exact trimStart_suffix t

theorem trimStartButLast_ne_nil {t : Text} (hne : t ≠ []) : t.trimStartButLast ≠ [] := by
  rw [trimStartButLast]
  split
  · have hpos := List.length_pos_iff.mpr hne
    rw [← List.length_pos_iff, List.length_drop]
    omega
  · next h => exact h

end Text

/-- Dropping blanks once more changes nothing. -/
theorem Text.trimStartButLast_trimStartButLast (t : Text) :
    t.trimStartButLast.trimStartButLast = t.trimStartButLast := by
  by_cases hblank : t.trimStart = []
  · have hlast : t.trimStartButLast.length ≤ 1 := by
      rw [trimStartButLast, if_pos hblank, List.length_drop]
      omega
    cases hu : t.trimStartButLast with
    | nil => rfl
    | cons c rest =>
        obtain rfl : rest = [] := by simpa [hu] using hlast
        rw [trimStartButLast]
        split
        · rfl
        · next h =>
            exact (List.dropWhile_suffix isBlank).eq_of_length_le (List.length_pos_iff.mpr h)
  · have hne : t.trimStartButLast ≠ [] := by rwa [trimStartButLast, if_neg hblank]
    refine trimStartButLast_of_head? hne ?_
    rw [trimStartButLast, if_neg hblank]
    exact head?_trimStart t

namespace Connection

/-- A reading that succeeds on every text but the empty one passes over all blanks but a last
character. -/
theorem afterBlanks_eq_trimStartButLast {α : Type} {read : Text → Option α} {t : Text}
    (hnil : read [] = none) (hread : ∀ u, u <:+ t → u ≠ [] → (read u).isSome = true)
    (hne : t ≠ []) :
    afterBlanks read t = read t.trimStartButLast := by
  induction t with
  | nil => exact absurd rfl hne
  | cons c rest ih =>
      rw [afterBlanks]
      split
      · next hc =>
          cases rest with
          | nil =>
              rw [afterBlanks, hnil, Option.none_or, Text.trimStartButLast]
              split
              · rfl
              · next h => exact absurd (List.dropWhile_cons_of_pos hc) h
          | cons d more =>
              have hrest : d :: more ≠ [] := List.cons_ne_nil d more
              have hread' : ∀ u, u <:+ d :: more → u ≠ [] → (read u).isSome = true :=
                fun u hu => hread u (hu.trans (List.suffix_cons c _))
              have hsome : (read (Text.trimStartButLast (d :: more))).isSome = true :=
                hread' _ (Text.trimStartButLast_suffix _) (Text.trimStartButLast_ne_nil hrest)
              rw [ih hread' hrest, Option.or_of_isSome hsome, Text.trimStartButLast_cons hc hrest]
      · next hc =>
          rw [Text.trimStartButLast_of_head? hne]
          rintro d ⟨⟩
          simpa using hc

/-! ## What follows an arrow -/

theorem afterBlanks_target? {t : Text} (hlf : '\n' ∉ t) (hne : t ≠ []) :
    afterBlanks target? t = some t.trimStartButLast := by
  have hread : ∀ u, u <:+ t → u ≠ [] → target? u = some u := fun u hu hune =>
    target?_of_ne_nil (fun hmem => hlf (hu.subset hmem)) hune
  rw [afterBlanks_eq_trimStartButLast target?_nil
    (fun u hu hune => by rw [hread u hu hune]; rfl) hne]
  exact hread _ (Text.trimStartButLast_suffix t) (Text.trimStartButLast_ne_nil hne)

/-- How what follows an arrow is divided, when the blanks before each part are dropped: a text
between bars is the label, if something follows it, and that is the target; without such a label
all of it is the target. -/
inductive Ending (r : Text) : Option Text → Text → Prop where
  | labelled (label rest : Text) (h : r.trimStartButLast = '|' :: (label ++ '|' :: rest))
      (hlabel : '|' ∉ label) (hrest : rest ≠ []) : Ending r (some label) rest.trimStartButLast
  | plain (h : ¬ StartsLabelled r.trimStartButLast) : Ending r none r.trimStartButLast

theorem labelAndTarget?_eq {r : Text} (hlf : '\n' ∉ r) (hne : r ≠ []) :
    labelAndTarget? r =
      (labelled? r.trimStartButLast).or (some (none, r.trimStartButLast)) := by
  have htarget : ∀ u, u <:+ r → u ≠ [] → afterBlanks target? u = some (Text.trimStartButLast u) :=
    fun u hu hune => afterBlanks_target? (fun hmem => hlf (hu.subset hmem)) hune
  rw [labelAndTarget?, afterBlanks_eq_trimStartButLast rfl _ hne,
    htarget _ (Text.trimStartButLast_suffix r) (Text.trimStartButLast_ne_nil hne),
    Text.trimStartButLast_trimStartButLast]
  · rfl
  · intro u hu hune
    rw [htarget u hu hune, Option.isSome_or, Option.isSome_map, Option.isSome_some, Bool.or_true]

theorem labelAndTarget?_eq_some_iff {r : Text} (hlf : '\n' ∉ r) (hne : r ≠ []) (l : Option Text)
    (q : Text) : labelAndTarget? r = some (l, q) ↔ Ending r l q := by
  have hlf' : '\n' ∉ r.trimStartButLast := fun hmem =>
    hlf ((Text.trimStartButLast_suffix r).subset hmem)
  rw [labelAndTarget?_eq hlf hne]
  constructor
  · intro h
    rcases Option.or_eq_some_iff.mp h with h | ⟨hnone, h⟩
    · obtain ⟨x, after, q', hs, hx, hq, hparts⟩ := exists_of_labelled? h
      obtain ⟨rfl, rfl⟩ := Prod.mk.injEq .. ▸ hparts
      have hafter : after ≠ [] := by
        rintro rfl
        cases hq
      rw [afterBlanks_target? (fun hmem => hlf' (by simp [hs, hmem])) hafter,
        Option.some.injEq] at hq
      rw [← hq]
      exact .labelled x after hs hx hafter
    · cases h
      exact .plain ((labelled?_eq_none_iff hlf').mp hnone)
  · intro h
    cases h with
    | labelled x rest hs hx hrest =>
        rw [hs, labelled?_bars hx,
          afterBlanks_target? (fun hmem => hlf' (by simp [hs, hmem])) hrest]
        rfl
    | plain hbar => rw [(labelled?_eq_none_iff hlf').mpr hbar, Option.none_or]

/-! ## What follows the source -/

/-- A line that consists of a source, blanks, an arrow and a rest. -/
structure Parts (line source blanks arrow rest : Text) : Prop where
  line_eq : line = source ++ (blanks ++ (arrow ++ rest))
  source_ne_nil : source ≠ []
  isBlank : ∀ c ∈ blanks, isBlank c = true
  token : Arrow.Token arrow
  rest_ne_nil : rest ≠ []

/-- The way in which a line is split: its source is as short as it can be; then come all the blanks
that there are, the longest arrow that leaves a rest, and the rest. -/
structure Split (line : Text) (k : Connection) (blanks rest : Text) : Prop
    extends Parts line k.source blanks k.arrow rest where
  shortest : ∀ {p w a r : Text}, Parts line p w a r → k.source.length ≤ p.length
  allBlanks : (blanks ++ (k.arrow ++ rest)).trimStart = k.arrow ++ rest
  longest : ∀ {a r : Text}, k.arrow ++ rest = a ++ r → Arrow.Token a → r ≠ [] →
    a.length ≤ k.arrow.length
  ending : Ending rest k.label k.target

/-- An arrow begins with no blank. -/
theorem trimStart_token {a : Text} (ha : Arrow.Token a) (r : Text) :
    Text.trimStart (a ++ r) = a ++ r := by
  refine Text.trimStart_eq_self fun c hc => ?_
  cases a with
  | nil => exact absurd rfl ha.ne_nil
  | cons d more =>
      obtain rfl := Option.mem_some_iff.mp hc
      exact Arrow.isBlank_of_mem_signs d (ha.subset_signs d List.mem_cons_self)

/-- A text can be read after a source exactly if it consists of blanks, an arrow and a rest. -/
theorem isSome_afterSource?_iff_parts {t : Text} (hlf : '\n' ∉ t) :
    (afterSource? t).isSome = true ↔
      ∃ w a r, t = w ++ (a ++ r) ∧ (∀ c ∈ w, isBlank c = true) ∧ Arrow.Token a ∧ r ≠ [] := by
  rw [isSome_afterSource?_iff hlf]
  constructor
  · rintro ⟨n, hn, hlt⟩
    obtain ⟨a, r, hstart, ha, rfl⟩ := (Arrow.mem_lengths_iff n _).mp hn
    obtain ⟨w, hw, hblank⟩ := Text.exists_blanks_trimStart t
    refine ⟨w, a, r, by rw [← hstart, ← hw], hblank, ha, ?_⟩
    rintro rfl
    rw [hstart, List.append_nil] at hlt
    exact Nat.lt_irrefl _ hlt
  · rintro ⟨w, a, r, rfl, hblank, ha, hne⟩
    have hpos := List.length_pos_iff.mpr hne
    rw [Text.trimStart_append_of_blank hblank, trimStart_token ha]
    refine ⟨a.length, (Arrow.mem_lengths_iff _ _).mpr ⟨a, r, rfl, ha, rfl⟩, ?_⟩
    rw [List.length_append]
    omega

/-- The arrow that is read after a source is the longest that leaves a rest. -/
theorem exists_longest_of_afterSource? {t a q : Text} {l : Option Text} (hlf : '\n' ∉ t)
    (h : afterSource? t = some (a, l, q)) :
    ∃ r, t.trimStart = a ++ r ∧ Arrow.Token a ∧ r ≠ [] ∧
      (∀ {a' r' : Text}, a ++ r = a' ++ r' → Arrow.Token a' → r' ≠ [] → a'.length ≤ a.length) ∧
      labelAndTarget? r = some (l, q) := by
  obtain ⟨before, n, after, hlengths, hread, hnone⟩ := List.findSome?_eq_some_iff.mp h
  obtain ⟨⟨l', q'⟩, hparts, heq⟩ := Option.map_eq_some_iff.mp hread
  obtain ⟨b, r, hstart, hb, rfl⟩ := (Arrow.mem_lengths_iff n t.trimStart).mp (by simp [hlengths])
  rw [hstart, List.take_left, Prod.mk.injEq, Prod.mk.injEq] at heq
  obtain ⟨rfl, rfl, rfl⟩ := heq
  rw [hstart, List.drop_left] at hparts
  refine ⟨r, hstart, hb, ?_, ?_, hparts⟩
  · rintro rfl
    cases hparts
  · -- an arrow that leaves a rest would have been read, so it is not among those tried before
    intro a' r' heq ha' hne
    have hmem : a'.length ∈ Arrow.lengths t.trimStart :=
      (Arrow.mem_lengths_iff _ _).mpr ⟨a', r', hstart.trans heq, ha', rfl⟩
    have hlf' : '\n' ∉ r' := fun hmem' => by
      have hsub := (Text.trimStart_suffix t).subset (a := '\n')
      rw [hstart, heq] at hsub
      exact hlf (hsub (List.mem_append_right a' hmem'))
    have hsorted := Arrow.pairwise_lengths t.trimStart
    rw [hlengths] at hmem hsorted
    rcases List.mem_append.mp hmem with hmem | hmem
    · have hskipped := hnone _ hmem
      rw [hstart, heq, List.drop_left, Option.map_eq_none_iff] at hskipped
      have hsome := (isSome_labelAndTarget?_iff hlf').mpr hne
      rw [hskipped] at hsome
      cases hsome
    · rcases List.mem_cons.mp hmem with heq' | hmem
      · exact Nat.le_of_eq heq'
      · exact Nat.le_of_lt ((List.pairwise_cons.mp (List.pairwise_append.mp hsorted).2.1).1 _ hmem)

/-- After a source, the longest arrow that leaves a rest is read. -/
theorem afterSource?_eq_some_iff {t : Text} (hlf : '\n' ∉ t) (a q : Text) (l : Option Text) :
    afterSource? t = some (a, l, q) ↔
      ∃ r, t.trimStart = a ++ r ∧ Arrow.Token a ∧ r ≠ [] ∧
        (∀ {a' r' : Text}, a ++ r = a' ++ r' → Arrow.Token a' → r' ≠ [] → a'.length ≤ a.length) ∧
        Ending r l q := by
  have hlf' : '\n' ∉ t.trimStart := fun hmem => hlf ((Text.trimStart_suffix t).subset hmem)
  constructor
  · intro h
    obtain ⟨r, hstart, ha, hne, hlongest, hparts⟩ := exists_longest_of_afterSource? hlf h
    rw [hstart] at hlf'
    have hr : '\n' ∉ r := fun hmem => hlf' (List.mem_append_right a hmem)
    exact ⟨r, hstart, ha, hne, hlongest, (labelAndTarget?_eq_some_iff hr hne l q).mp hparts⟩
  · rintro ⟨r, hstart, ha, hne, hlongest, hending⟩
    have hr : '\n' ∉ r := by
      rw [hstart] at hlf'
      exact fun hmem => hlf' (List.mem_append_right a hmem)
    obtain ⟨w, hw, hblank⟩ := Text.exists_blanks_trimStart t
    obtain ⟨⟨a', l', q'⟩, h⟩ := Option.isSome_iff_exists.mp
      ((isSome_afterSource?_iff_parts hlf).mpr ⟨w, a, r, by rw [← hstart, ← hw], hblank, ha, hne⟩)
    obtain ⟨r', hstart', ha', hne', hlongest', hparts'⟩ := exists_longest_of_afterSource? hlf h
    -- two longest arrows at one place are the same
    have heq : a ++ r = a' ++ r' := hstart.symm.trans hstart'
    have hlength : a.length = a'.length :=
      Nat.le_antisymm (hlongest' heq.symm ha hne) (hlongest heq ha' hne')
    obtain ⟨rfl, rfl⟩ := List.append_inj heq hlength
    rw [(labelAndTarget?_eq_some_iff hr hne l q).mpr hending] at hparts'
    cases hparts'
    exact h

/-! ## Whole lines -/

theorem isSome_ofLine?_iff_parts {line : Text} (hlf : '\n' ∉ line) :
    (ofLine? line).isSome = true ↔ ∃ p w a r, Parts line p w a r := by
  rw [isSome_ofLine?_iff hlf]
  constructor
  · rintro ⟨p, t, rfl, hp, ht⟩
    have hlf' : '\n' ∉ t := fun hmem => hlf (List.mem_append_right p hmem)
    obtain ⟨w, a, r, rfl, hblank, ha, hne⟩ := (isSome_afterSource?_iff_parts hlf').mp ht
    exact ⟨p, w, a, r, rfl, hp, hblank, ha, hne⟩
  · rintro ⟨p, w, a, r, rfl, hp, hblank, ha, hne⟩
    have hlf' : '\n' ∉ w ++ (a ++ r) := fun hmem => hlf (List.mem_append_right p hmem)
    exact ⟨p, _, rfl, hp, (isSome_afterSource?_iff_parts hlf').mpr ⟨w, a, r, rfl, hblank, ha, hne⟩⟩

theorem exists_split_of_ofLine? {line : Text} (hlf : '\n' ∉ line) {k : Connection}
    (h : ofLine? line = some k) : ∃ w r, Split line k w r := by
  obtain ⟨t, rfl, hne, ht, -⟩ := (ofLine?_eq_some_iff hlf k).mp h
  have hlf' : '\n' ∉ t := fun hmem => hlf (List.mem_append_right _ hmem)
  obtain ⟨r, hstart, ha, hr, hlongest, hending⟩ := (afterSource?_eq_some_iff hlf' _ _ _).mp ht
  obtain ⟨w, hw, hblank⟩ := Text.exists_blanks_trimStart t
  rw [hstart] at hw
  refine ⟨w, r, ⟨by rw [← hw], hne, hblank, ha, hr⟩, ?_, by rw [← hw, hstart], hlongest, hending⟩
  rintro p w' a' r' ⟨hline, hp, hblank', ha', hr'⟩
  have ht' : '\n' ∉ w' ++ (a' ++ r') := fun hmem => hlf (hline ▸ List.mem_append_right p hmem)
  rw [hline] at h hlf
  exact (source_isPrefix hlf h hp
    ((isSome_afterSource?_iff_parts ht').mpr ⟨w', a', r', rfl, hblank', ha', hr'⟩)).length_le

/-- A line is split in that way at one place only. -/
theorem ofLine?_of_split {line : Text} (hlf : '\n' ∉ line) {k : Connection} {w r : Text}
    (h : Split line k w r) : ofLine? line = some k := by
  have hline := h.line_eq
  refine (ofLine?_eq_some_iff hlf k).mpr ⟨_, hline, h.source_ne_nil, ?_, ?_⟩
  · have hlf' : '\n' ∉ w ++ (k.arrow ++ r) := fun hmem =>
      hlf (hline ▸ List.mem_append_right k.source hmem)
    exact (afterSource?_eq_some_iff hlf' _ _ _).mpr
      ⟨r, h.allBlanks, h.token, h.rest_ne_nil, h.longest, h.ending⟩
  · -- a source that ends earlier would be shorter than the shortest
    intro u hu hsuffix
    obtain ⟨more, hmore⟩ := hsuffix
    obtain ⟨c, tail, hsource⟩ := List.exists_cons_of_ne_nil h.source_ne_nil
    have hk : k.source = c :: (more ++ u) := by rw [hsource, hmore, hsource, List.tail_cons]
    rw [← Option.not_isSome_iff_eq_none]
    intro hread
    have hline' : line = (c :: more) ++ (u ++ (w ++ (k.arrow ++ r))) := by
      rw [hline, hk]
      simp
    have hlf' : '\n' ∉ u ++ (w ++ (k.arrow ++ r)) := fun hmem =>
      hlf (hline' ▸ List.mem_append_right _ hmem)
    obtain ⟨w', a', r', heq, hblank, ha, hne⟩ := (isSome_afterSource?_iff_parts hlf').mp hread
    have hle := h.shortest ⟨hline'.trans (by rw [heq]), List.cons_ne_nil c more, hblank, ha, hne⟩
    have hpos := List.length_pos_iff.mpr hu
    rw [hk] at hle
    simp only [List.length_cons, List.length_append] at hle
    omega

/-- **The grammar of connections.** A line without line feeds connects exactly if it consists of a
source, blanks, an arrow and a rest, none of them empty but the blanks. It is split after the
shortest such source, the blanks after it, and the longest arrow that then leaves a rest; a text
between bars at the start of the rest is the label, if something follows it, and what remains is the
target, without the blanks before it unless it is nothing but blanks. -/
theorem ofLine?_grammar {line : Text} (hlf : '\n' ∉ line) :
    ((ofLine? line).isSome = true ↔ ∃ p w a r, Parts line p w a r) ∧
      ∀ k, ofLine? line = some k ↔ ∃ w r, Split line k w r := by
  refine ⟨isSome_ofLine?_iff_parts hlf, fun k => ?_⟩
  constructor
  · exact exists_split_of_ofLine? hlf
  · rintro ⟨w, r, h⟩
    exact ofLine?_of_split hlf h

/-- Two dashes in a source are no arrow; at the end of a line an arrow gives up its tip, if it is
one without it, and connects nothing otherwise. -/
theorem ofLine?_grammar_tips :
    (∃ w r, Split "a--b -.->".toList ⟨"a--b".toList, "-.-".toList, none, ['>']⟩ w r) ∧
      ¬ ∃ p w a r, Parts "a -->".toList p w a r := by
  constructor
  · exact ((ofLine?_grammar (by decide)).2 _).mp (by decide)
  · intro h
    have hsome := (ofLine?_grammar (by decide)).1.mpr h
    revert hsome
    decide

end Connection

end Flowchart
