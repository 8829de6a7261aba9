import Flowchart.Diagram.Connection
import Flowchart.Proofs.Arrow
import Flowchart.Proofs.Line

/-!
# Reading connections

What the reader of connections does on a line without line feeds. Its source is the shortest start
of the line that an arrow with something after it can follow, so no arrow begins inside the source
(`Connection.ofLine?_eq_some_iff`); any text that an arrow starts, and that goes on after the arrow,
can be read to its end (`Connection.isSome_afterSource?_iff`). Conversely a source without arrows,
an arrow, and a target that is not taken for a label are read back as they were written
(`Connection.ofLine?_source`, `Connection.afterSource?_connector`).
-/

set_option autoImplicit false

namespace Flowchart.Connection

/-! ## Blanks that are passed over -/

section AfterBlanks

variable {α : Type} (read : Text → Option α)

/-- If the reading succeeds after all blanks, none is given back. -/
theorem afterBlanks_eq {t : Text} (h : (read t.trimStart).isSome = true) :
    afterBlanks read t = read t.trimStart := by
  -- the reader passes over as many blanks as it can first, and never comes back if it succeeds
  induction t with
  | nil => rfl
  | cons c rest ih =>
      rw [afterBlanks]
      cases hc : isBlank c with
      | true =>
          rw [Text.trimStart, List.dropWhile_cons_of_pos hc] at h ⊢
          rw [if_pos rfl, ih h]
          exact Option.or_of_isSome h
      | false =>
          rw [Text.trimStart_eq_self (by simpa using hc)]
          rfl

theorem isSome_afterBlanks {t : Text} (h : (read t).isSome = true) :
    (afterBlanks read t).isSome = true := by
  cases t with
  | nil => exact h
  | cons c rest =>
      rw [afterBlanks]
      split
      · rw [Option.isSome_or, h, Bool.or_true]
      · exact h

/-- What is read after blanks is read at some place among the blanks. -/
theorem exists_of_afterBlanks {t : Text} {y : α} (h : afterBlanks read t = some y) :
    ∃ u v, t = u ++ v ∧ (∀ c ∈ u, isBlank c = true) ∧ read v = some y := by
  induction t with
  | nil => exact ⟨[], [], rfl, by simp, h⟩
  | cons c rest ih =>
      rw [afterBlanks] at h
      split at h
      · next hc =>
          rcases Option.or_eq_some_iff.mp h with h | ⟨-, h⟩
          · obtain ⟨u, v, rfl, hu, hv⟩ := ih h
            refine ⟨c :: u, v, rfl, ?_, hv⟩
            intro d hd
            rcases List.mem_cons.mp hd with rfl | hd
            · exact hc
            · exact hu d hd
          · exact ⟨[], c :: rest, rfl, by simp, h⟩
      · exact ⟨[], c :: rest, rfl, by simp, h⟩

end AfterBlanks

/-! ## Targets and labels -/

theorem target?_nil : target? [] = none := rfl

theorem target?_of_ne_nil {t : Text} (hlf : '\n' ∉ t) (hne : t ≠ []) : target? t = some t := by
  have htake : t.takeWhile (· != '\n') = t := by
    rw [List.takeWhile_eq_self_iff]
    intro c hc
    simpa using fun h : c = '\n' => hlf (h ▸ hc)
  have hdrop : t.dropWhile (· != '\n') = [] := by
    rw [List.dropWhile_eq_nil_iff]
    intro c hc
    simpa using fun h : c = '\n' => hlf (h ▸ hc)
  simp [target?, htake, hdrop, hne]

theorem target?_eq_some_iff {t q : Text} (hlf : '\n' ∉ t) :
    target? t = some q ↔ t ≠ [] ∧ t = q := by
  by_cases hne : t = []
  · simp [hne, target?_nil]
  · simp [target?_of_ne_nil hlf hne, hne]

/-- A label is what stands between two bars, and a target follows it. -/
theorem labelled?_bars {x after : Text} (hx : '|' ∉ x) :
    labelled? ('|' :: (x ++ '|' :: after)) =
      (afterBlanks target? after).map fun q => (some x, q) := by
  have hall : ∀ c ∈ x, (c != '|') = true := by
    intro c hc
    simpa using fun h : c = '|' => hx (h ▸ hc)
  have hdrop : (x ++ '|' :: after).dropWhile (· != '|') = '|' :: after := by
    rw [List.dropWhile_append_of_pos hall]
    rfl
  have htake : (x ++ '|' :: after).takeWhile (· != '|') = x := by
    rw [List.takeWhile_append_of_pos hall]
    simp
  rw [labelled?, hdrop, htake]

theorem exists_of_labelled? {t : Text} {parts : Option Text × Text}
    (h : labelled? t = some parts) :
    ∃ x after q, t = '|' :: (x ++ '|' :: after) ∧ '|' ∉ x ∧ afterBlanks target? after = some q ∧
      parts = (some x, q) := by
  cases t with
  | nil => cases h
  | cons c rest =>
      by_cases hc : c = '|'
      -- the next bar closes the label, if there is one
      · subst hc
        have hsplit : rest = rest.takeWhile (· != '|') ++ rest.dropWhile (· != '|') :=
          List.takeWhile_append_dropWhile.symm
        have hx : '|' ∉ rest.takeWhile (· != '|') := by
          intro hmem
          simpa using List.mem_takeWhile_imp hmem
        cases hd : rest.dropWhile (· != '|') with
        | nil =>
            rw [labelled?, hd] at h
            cases h
        | cons d after =>
            have hdbar : d = '|' := by
              have := List.head_dropWhile_not (· != '|') (l := rest) (by simp [hd])
              simpa [hd] using this
            subst hdbar
            rw [hd] at hsplit
            rw [hsplit, labelled?_bars hx] at h
            obtain ⟨q, hq, hparts⟩ := Option.map_eq_some_iff.mp h
            exact ⟨_, after, q, by rw [← hsplit], hx, hq, hparts.symm⟩
      · rw [labelled?] at h
        · cases h
        · intro rest' heq
          rw [List.cons.injEq] at heq
          exact hc heq.1

/-- Whether a text begins like a label, with something after it. -/
def StartsLabelled (t : Text) : Prop :=
  ∃ x after, t = '|' :: (x ++ '|' :: after) ∧ '|' ∉ x ∧ after ≠ []

theorem labelled?_eq_none_iff {t : Text} (hlf : '\n' ∉ t) :
    labelled? t = none ↔ ¬ StartsLabelled t := by
  constructor
  · rintro h ⟨x, after, rfl, hx, hne⟩
    have hlf' : '\n' ∉ after := fun hmem => hlf (by simp [hmem])
    rw [labelled?_bars hx, Option.map_eq_none_iff] at h
    have hsome := isSome_afterBlanks target? (t := after) (by rw [target?_of_ne_nil hlf' hne]; rfl)
    rw [h] at hsome
    cases hsome
  · intro h
    rw [Option.eq_none_iff_forall_ne_some]
    intro parts hparts
    obtain ⟨x, after, q, rfl, hx, hq, -⟩ := exists_of_labelled? hparts
    refine h ⟨x, after, rfl, hx, ?_⟩
    rintro rfl
    cases hq

/-! ## What follows an arrow -/

/-- After an arrow, a target alone. -/
theorem labelAndTarget?_target {q : Text} (hlf : '\n' ∉ q) (hne : q ≠ [])
    (hhead : ∀ c ∈ q.head?, isBlank c = false) (hbar : ¬ StartsLabelled q) :
    labelAndTarget? (' ' :: q) = some (none, q) := by
  have hstart : Text.trimStart (' ' :: q) = q := by
    rw [Text.trimStart_blank, Text.trimStart_eq_self hhead]
  have htarget : afterBlanks target? q = some q := by
    have h := target?_of_ne_nil hlf hne
    rw [afterBlanks_eq target? (by rw [Text.trimStart_eq_self hhead, h]; rfl),
      Text.trimStart_eq_self hhead, h]
  -- a label is tried first and fails, so all that follows the blank is the target
  have hread : (labelled? q).or ((afterBlanks target? q).map fun t => (none, t)) =
      some (none, q) := by
    rw [(labelled?_eq_none_iff hlf).mpr hbar, htarget]
    rfl
  rw [labelAndTarget?, afterBlanks_eq _ (by rw [hstart, hread]; rfl), hstart, hread]

/-- After an arrow, a label between bars and a target. -/
theorem labelAndTarget?_label {x q : Text} (hx : '|' ∉ x) (hlf : '\n' ∉ q) (hne : q ≠ [])
    (hhead : ∀ c ∈ q.head?, isBlank c = false) :
    labelAndTarget? ('|' :: (x ++ '|' :: ' ' :: q)) = some (some x, q) := by
  have hstart : Text.trimStart (' ' :: q) = q := by
    rw [Text.trimStart_blank, Text.trimStart_eq_self hhead]
  have htarget : afterBlanks target? (' ' :: q) = some q := by
    have h := target?_of_ne_nil hlf hne
    rw [afterBlanks_eq target? (by rw [hstart, h]; rfl), hstart, h]
  have hbar : Text.trimStart ('|' :: (x ++ '|' :: ' ' :: q)) = '|' :: (x ++ '|' :: ' ' :: q) :=
    Text.trimStart_eq_self (by rintro c ⟨⟩; decide)
  have hread : labelled? ('|' :: (x ++ '|' :: ' ' :: q)) = some (some x, q) := by
    rw [labelled?_bars hx, htarget]
    rfl
  rw [labelAndTarget?, afterBlanks_eq _ (by rw [hbar, hread]; rfl), hbar, hread]
  rfl

/-- After an arrow, what begins like a label is one. -/
theorem exists_labelAndTarget?_of_startsLabelled {q : Text} (hlf : '\n' ∉ q)
    (h : StartsLabelled q) : ∃ x q', labelAndTarget? (' ' :: q) = some (some x, q') := by
  have hstart : Text.trimStart (' ' :: q) = q := by
    obtain ⟨x, after, rfl, -, -⟩ := h
    rw [Text.trimStart_blank, Text.trimStart_eq_self]
    rintro c ⟨⟩
    decide
  obtain ⟨parts, hparts⟩ := Option.ne_none_iff_exists'.mp
    (mt (labelled?_eq_none_iff hlf).mp (not_not_intro h))
  obtain ⟨x, after, q', -, -, -, rfl⟩ := exists_of_labelled? hparts
  have hread : (labelled? q).or ((afterBlanks target? q).map fun t => (none, t)) =
      some (some x, q') := by
    rw [hparts]
    rfl
  exact ⟨x, q', by rw [labelAndTarget?, afterBlanks_eq _ (by rw [hstart, hread]; rfl), hstart,
    hread]⟩

/-- Something can be read after an arrow as soon as something follows it. -/
theorem isSome_labelAndTarget?_iff {t : Text} (hlf : '\n' ∉ t) :
    (labelAndTarget? t).isSome = true ↔ t ≠ [] := by
  constructor
  · rintro h rfl
    cases h
  · intro hne
    refine isSome_afterBlanks _ ?_
    have h : (afterBlanks target? t).isSome = true :=
      isSome_afterBlanks target? (by rw [target?_of_ne_nil hlf hne]; rfl)
    rw [Option.isSome_or, Option.isSome_map, h, Bool.or_true]

/-- What is read after an arrow: the target is an end of the text and not empty, and a label holds
no bar and is a part of the text. -/
theorem labelAndTarget?_spec {t q : Text} {l : Option Text} (hlf : '\n' ∉ t)
    (h : labelAndTarget? t = some (l, q)) :
    q ≠ [] ∧ q <:+ t ∧ ∀ x ∈ l, '|' ∉ x ∧ x <:+: t := by
  -- with or without a label, the target is an end of what remains
  have htarget : ∀ {after : Text}, after <:+ t → afterBlanks target? after = some q →
      q ≠ [] ∧ q <:+ t := by
    intro after hafter hq
    obtain ⟨u, v, rfl, -, hv⟩ := exists_of_afterBlanks target? hq
    have hvt : v <:+ t := (List.suffix_append u v).trans hafter
    obtain ⟨hne, rfl⟩ := (target?_eq_some_iff fun hmem => hlf (hvt.subset hmem)).mp hv
    exact ⟨hne, hvt⟩
  obtain ⟨u, v, rfl, -, hv⟩ := exists_of_afterBlanks _ h
  rcases Option.or_eq_some_iff.mp hv with hv | ⟨-, hv⟩
  · obtain ⟨x, after, q', rfl, hx, hq, hparts⟩ := exists_of_labelled? hv
    obtain ⟨rfl, rfl⟩ := Prod.mk.injEq .. ▸ hparts
    have hafter : after <:+ u ++ '|' :: (x ++ '|' :: after) :=
      ⟨u ++ '|' :: (x ++ ['|']), by simp⟩
    refine ⟨(htarget hafter hq).1, (htarget hafter hq).2, ?_⟩
    rintro y hy
    obtain rfl : x = y := by simpa using hy
    exact ⟨hx, u ++ ['|'], '|' :: after, by simp⟩
  · obtain ⟨q', hq, hparts⟩ := Option.map_eq_some_iff.mp hv
    obtain ⟨rfl, rfl⟩ := Prod.mk.injEq .. ▸ hparts
    refine ⟨(htarget (List.suffix_append u v) hq).1, (htarget (List.suffix_append u v) hq).2, ?_⟩
    rintro y hy
    cases hy

/-! ## What follows the source -/

/-- A text can be read after a source exactly if an arrow starts it, blanks apart, and something
follows the arrow. -/
theorem isSome_afterSource?_iff {t : Text} (hlf : '\n' ∉ t) :
    (afterSource? t).isSome = true ↔
      ∃ n ∈ Arrow.lengths t.trimStart, n < t.trimStart.length := by
  have hlf' : ∀ n, '\n' ∉ t.trimStart.drop n := fun n hmem =>
    hlf ((Text.trimStart_suffix t).subset ((List.drop_suffix n _).subset hmem))
  rw [afterSource?, List.findSome?_isSome_iff]
  constructor
  · rintro ⟨n, hn, h⟩
    rw [Option.isSome_map, isSome_labelAndTarget?_iff (hlf' n)] at h
    exact ⟨n, hn, by simpa using h⟩
  · rintro ⟨n, hn, h⟩
    refine ⟨n, hn, ?_⟩
    rw [Option.isSome_map, isSome_labelAndTarget?_iff (hlf' n)]
    simpa using h

theorem afterSource?_spec {t a q : Text} {l : Option Text} (hlf : '\n' ∉ t)
    (h : afterSource? t = some (a, l, q)) :
    Arrow.Token a ∧ q ≠ [] ∧ q <:+ t ∧ ∀ x ∈ l, '|' ∉ x ∧ x <:+: t := by
  obtain ⟨n, hn, h⟩ := List.exists_of_findSome?_eq_some h
  obtain ⟨⟨l', q'⟩, hparts, heq⟩ := Option.map_eq_some_iff.mp h
  rw [Prod.mk.injEq, Prod.mk.injEq] at heq
  obtain ⟨rfl, rfl, rfl⟩ := heq
  obtain ⟨a, r, hr, ha, rfl⟩ := (Arrow.mem_lengths_iff n _).mp hn
  have hsuf : t.trimStart.drop a.length <:+ t :=
    (List.drop_suffix _ _).trans (Text.trimStart_suffix t)
  obtain ⟨hne, hq, hl⟩ := labelAndTarget?_spec (fun hmem => hlf (hsuf.subset hmem)) hparts
  refine ⟨?_, hne, hq.trans hsuf, fun x hx => ⟨(hl x hx).1, (hl x hx).2.trans hsuf.isInfix⟩⟩
  rw [hr, List.take_left]
  exact ha

/-- The arrows that edges are written with. -/
def connectors : List Text := ["-->".toList, "-.->".toList, "==>".toList]

/-- An arrow that edges are written with is read whole. -/
theorem afterSource?_connector {a b q : Text} {l : Option Text} (ha : a ∈ connectors)
    (h : labelAndTarget? b = some (l, q)) : afterSource? (' ' :: (a ++ b)) = some (a, l, q) := by
  simp only [connectors, List.mem_cons, List.not_mem_nil, or_false] at ha
  -- the whole connector is the first length that is tried, and the rest can be read
  rcases ha with rfl | rfl | rfl
  · rw [show afterSource? (' ' :: ("-->".toList ++ b)) =
        [3].findSome? fun n => (labelAndTarget? (("-->".toList ++ b).drop n)).map fun parts =>
          (("-->".toList ++ b).take n, parts) from rfl]
    simp [h]
  · rw [show afterSource? (' ' :: ("-.->".toList ++ b)) =
        [4, 3].findSome? fun n => (labelAndTarget? (("-.->".toList ++ b).drop n)).map fun parts =>
          (("-.->".toList ++ b).take n, parts) from rfl]
    simp [h]
  · rw [show afterSource? (' ' :: ("==>".toList ++ b)) =
        [3].findSome? fun n => (labelAndTarget? (("==>".toList ++ b).drop n)).map fun parts =>
          (("==>".toList ++ b).take n, parts) from rfl]
    simp [h]

/-! ## Whole lines -/

/-- **A line is split at its shortest source.** -/
theorem ofLine?_eq_some_iff {line : Text} (hlf : '\n' ∉ line) (k : Connection) :
    ofLine? line = some k ↔
      ∃ r, line = k.source ++ r ∧ k.source ≠ [] ∧
        afterSource? r = some (k.arrow, k.label, k.target) ∧
        ∀ u, u ≠ [] → u <:+ k.source.tail → afterSource? (u ++ r) = none := by
  -- the first character is the whole source if the rest can be read after it; if not, it comes
  -- before the source of the rest
  induction line generalizing k with
  | nil =>
      constructor
      · intro h
        cases h
      · rintro ⟨r, heq, hne, -⟩
        exact absurd (List.append_eq_nil_iff.mp heq.symm).1 hne
  | cons c rest ih =>
      obtain ⟨source, arrow, label, target⟩ := k
      have hc : c ≠ '\n' := fun h => hlf (h ▸ List.mem_cons_self)
      have hrest : '\n' ∉ rest := fun h => hlf (List.mem_cons_of_mem c h)
      rw [ofLine?, if_neg hc]
      cases hafter : afterSource? rest with
      | some parts =>
          obtain ⟨a, l, q⟩ := parts
          constructor
          · rintro ⟨⟩
            refine ⟨rest, rfl, List.cons_ne_nil c [], hafter, ?_⟩
            intro u hne hu
            exact absurd (List.suffix_nil.mp hu) hne
          · rintro ⟨r, heq, hne, hr, hnone⟩
            cases source with
            | nil => exact absurd rfl hne
            | cons d more =>
                simp only [List.cons_append, List.cons.injEq] at heq
                obtain ⟨rfl, rfl⟩ := heq
                cases more with
                | nil =>
                    rw [List.nil_append, hr, Option.some.injEq] at hafter
                    cases hafter
                    rfl
                | cons e more =>
                    rw [hnone (e :: more) (List.cons_ne_nil e more) (List.suffix_refl _)] at hafter
                    cases hafter
      | none =>
          rw [Option.map_eq_some_iff]
          constructor
          · rintro ⟨k, hk, heq⟩
            cases heq
            obtain ⟨r, hr, hne, hparts, hnone⟩ := (ih hrest k).mp hk
            refine ⟨r, by rw [hr]; rfl, List.cons_ne_nil c k.source, hparts, ?_⟩
            intro u hu hsuf
            -- the longest end of the source is the line after its first character
            cases hs : k.source with
            | nil => exact absurd hs hne
            | cons d more =>
                rw [List.tail_cons, hs, List.suffix_cons_iff] at hsuf
                rcases hsuf with rfl | hsuf
                · rw [← hs, ← hr, hafter]
                · exact hnone u hu (by rw [hs]; exact hsuf)
          · rintro ⟨r, heq, hne, hr, hnone⟩
            cases source with
            | nil => exact absurd rfl hne
            | cons d more =>
                simp only [List.cons_append, List.cons.injEq] at heq
                obtain ⟨rfl, rfl⟩ := heq
                cases more with
                | nil =>
                    rw [List.nil_append, hr] at hafter
                    cases hafter
                | cons e more =>
                    refine ⟨⟨e :: more, arrow, label, target⟩, ?_, rfl⟩
                    refine (ih hrest _).mpr ⟨r, rfl, List.cons_ne_nil e more, hr, ?_⟩
                    intro u hu hsuf
                    exact hnone u hu (hsuf.trans (List.suffix_cons e more))

/-! ## Sources -/

/-- No arrow begins inside a source, after its first character. -/
theorem not_hasArrow_tail {line : Text} (hlf : '\n' ∉ line) {k : Connection}
    (h : ofLine? line = some k) : ¬ Arrow.HasArrow k.source.tail := by
  obtain ⟨r, rfl, hne, hr, hnone⟩ := (ofLine?_eq_some_iff hlf k).mp h
  intro harrow
  obtain ⟨u, hu, hlen⟩ := (Arrow.hasArrow_iff_suffix _).mp harrow
  obtain ⟨n, hn⟩ := List.exists_mem_of_ne_nil _ hlen
  have hune : u ≠ [] := by
    rintro rfl
    exact hlen rfl
  have hsource : u <:+ k.source := hu.trans (List.tail_suffix _)
  have hlf' : '\n' ∉ u ++ r := by
    rintro hmem
    rcases List.mem_append.mp hmem with hmem | hmem
    · exact hlf (List.mem_append_left r (hsource.subset hmem))
    · exact hlf (List.mem_append_right _ hmem)
  have hrne : r ≠ [] := by
    rintro rfl
    cases hr
  -- an arrow starts with no blank, so nothing is passed over before it
  have hstart : Text.trimStart (u ++ r) = u ++ r := by
    obtain ⟨a, x, rfl, ha, -⟩ := (Arrow.mem_lengths_iff n u).mp hn
    refine Text.trimStart_eq_self fun c hc => ?_
    have hca : c ∈ a := by
      cases a with
      | nil => exact absurd rfl ha.ne_nil
      | cons d more =>
          rw [List.cons_append, List.cons_append, List.head?_cons, Option.mem_some_iff] at hc
          exact hc ▸ List.mem_cons_self
    exact Arrow.isBlank_of_mem_signs c (ha.subset_signs c hca)
  -- it could be read, so the source would have ended before it
  have hsome : (afterSource? (u ++ r)).isSome = true := by
    rw [isSome_afterSource?_iff hlf', hstart]
    refine ⟨n, Arrow.mem_lengths_append hn r, ?_⟩
    rw [List.length_append]
    have := (Arrow.length_of_mem_lengths hn).2
    have := List.length_pos_iff.mpr hrne
    omega
  rw [hnone u hune hu] at hsome
  cases hsome

/-- The source of a trimmed line is trimmed. -/
theorem trimmed_source {line : Text} (hlf : '\n' ∉ line) (htrim : Text.Trimmed line)
    {k : Connection} (h : ofLine? line = some k) : Text.Trimmed k.source := by
  obtain ⟨r, rfl, hne, hr, hnone⟩ := (ofLine?_eq_some_iff hlf k).mp h
  refine ⟨fun c hc => htrim.head c (Text.head?_of_isPrefix (List.prefix_append _ r) c hc), ?_⟩
  intro c hc
  cases hblank : isBlank c with
  | false => rfl
  | true =>
      exfalso
      obtain ⟨s, hs⟩ := List.getLast?_eq_some_iff.mp hc
      cases s with
      | nil =>
          -- the line would start with a blank
          have hhead := htrim.head c (by rw [hs]; rfl)
          rw [hblank] at hhead
          cases hhead
      | cons d s =>
          -- the source could have ended one character before
          have hread := hnone [c] (List.cons_ne_nil c []) (by rw [hs]; exact ⟨s, rfl⟩)
          have hstart : Text.trimStart ([c] ++ r) = r.trimStart :=
            Text.trimStart_append_of_blank (by simpa using hblank) r
          rw [afterSource?, hstart] at hread
          rw [afterSource?, hread] at hr
          cases hr

/-- **Reading back a written connection.** A trimmed source without arrows, a blank, and what can be
read after a source are split where they were joined. -/
theorem ofLine?_source {s x a q : Text} {l : Option Text} (hlf : '\n' ∉ s) (hx : '\n' ∉ x)
    (hne : s ≠ []) (hlast : ∀ c ∈ s.getLast?, isBlank c = false) (harrow : ¬ Arrow.HasArrow s.tail)
    (hafter : afterSource? (' ' :: x) = some (a, l, q)) :
    ofLine? (s ++ ' ' :: x) = some ⟨s, a, l, q⟩ := by
  have hline : '\n' ∉ s ++ ' ' :: x := by
    simp [hlf, hx]
  refine (ofLine?_eq_some_iff hline _).mpr ⟨' ' :: x, rfl, hne, hafter, ?_⟩
  -- an end of the source that is read with the rest would have to start with an arrow, and no arrow
  -- reaches across the blank
  intro (u : Text) hune hu
  have hstart : u.trimStart ≠ [] := by
    intro h
    have hblank := (Text.trimStart_eq_nil_iff u).mp h
    obtain ⟨c, hc⟩ := Text.exists_getLast? hune
    have hcs := hlast c (Text.getLast?_of_suffix (hu.trans (List.tail_suffix s)) c hc)
    rw [hblank c (List.mem_of_getLast? hc)] at hcs
    cases hcs
  have hlengths : Arrow.lengths (Text.trimStart (u ++ ' ' :: x)) = [] := by
    rw [Text.trimStart_append hstart]
    by_contra hcon
    obtain ⟨n, hn⟩ := List.exists_mem_of_ne_nil _ hcon
    have hn' := Arrow.mem_lengths_append_stop (by decide) x hn
    exact harrow ((Arrow.hasArrow_iff_suffix _).mpr
      ⟨_, (Text.trimStart_suffix u).trans hu, List.ne_nil_of_mem hn'⟩)
  rw [afterSource?, hlengths]
  rfl

/-- A line without arrows connects nothing. -/
theorem ofLine?_eq_none {line : Text} (hlf : '\n' ∉ line) (h : ¬ Arrow.HasArrow line.tail) :
    ofLine? line = none := by
  rw [Option.eq_none_iff_forall_ne_some]
  intro k hk
  obtain ⟨r, rfl, hne, hr, -⟩ := (ofLine?_eq_some_iff hlf k).mp hk
  have hlf' : '\n' ∉ r := fun hmem => hlf (List.mem_append_right _ hmem)
  obtain ⟨n, hn, -⟩ := (isSome_afterSource?_iff hlf').mp (by rw [hr]; rfl)
  -- a source is not empty, so the arrow begins after the first character
  refine h ((Arrow.hasArrow_iff_suffix _).mpr ⟨r.trimStart, ?_, List.ne_nil_of_mem hn⟩)
  cases hs : k.source with
  | nil => exact absurd hs hne
  | cons c more => exact (Text.trimStart_suffix r).trans (List.suffix_append more r)

end Flowchart.Connection
