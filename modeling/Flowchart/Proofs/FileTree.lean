import Flowchart.FileTree

/-!
# Reading the file that was written

An entry put where a path leads is found there by walking the path again
(`FileTree.descend_put`): all that the walk passes is a directory, so it is not the place that
changed. So a file that was written is read back (`FileTree.read_write`), whatever directories were
made on the way. A new file takes the place of nothing: all other files are read as before
(`FileTree.read_put`), and paths lead to it or where they led before (`FileTree.descend_of_put`).
Writing changes nothing but the file and the directories on the way to it that were missing
(`FileTree.wrote_of_write`).
-/

set_option autoImplicit false

namespace Flowchart.FileTree

variable {tree : FileTree} {here location : Location} {found : Option Entry}

/-- What a walk finds is what stands at the location that it leads to. -/
theorem get?_of_descend {names : List Text} (h : tree.descend here names = .ok (location, found)) :
    tree.get? location = found := by
  induction names generalizing here with
  | nil =>
      cases h
      rfl
  | cons name names ih =>
      rw [descend] at h
      split at h
      · split at h
        · cases h
        · exact ih h
      · cases h
      · cases h

theorem ne_nil_of_not_directory (h : tree.get? location ≠ some .directory) : location ≠ [] := by
  rintro rfl
  exact h rfl

theorem get?_put_self (hlocation : location ≠ []) (entry : Entry) :
    (tree.put location entry).get? location = some entry := by
  simp [get?, put, Keyed.get?_put, hlocation]

/-- A walk passes through directories only. So it leads to the same place in every tree that has all
of them. -/
theorem descend_of_keeps {after : FileTree} {names : List Text}
    (hkeeps : ∀ l, tree.get? l = some .directory → after.get? l = some .directory)
    (h : tree.descend here names = .ok (location, found)) :
    after.descend here names = .ok (location, after.get? location) := by
  induction names generalizing here with
  | nil =>
      cases h
      rfl
  | cons name names ih =>
      rw [descend] at h ⊢
      split at h
      · next hdirectory =>
          rw [hkeeps here hdirectory]
          dsimp only
          split at h
          · cases h
          · next hshort =>
              rw [if_neg hshort]
              exact ih h
      · cases h
      · cases h

/-- Putting an entry where no directory stands keeps all directories. -/
theorem keeps_put (hplace : tree.get? location ≠ some .directory) (entry : Entry) :
    ∀ l, tree.get? l = some .directory → (tree.put location entry).get? l = some .directory := by
  intro l hl
  have hne : l ≠ location := by
    rintro rfl
    exact hplace hl
  rw [get?_put_of_ne tree entry hne, hl]

/-- A path that leads to a file, or to nothing, leads there after an entry is put in that place. -/
theorem descend_put {names : List Text} (h : tree.descend here names = .ok (location, found))
    (hfound : found ≠ some .directory) (entry : Entry) :
    (tree.put location entry).descend here names = .ok (location, some entry) := by
  have hplace : tree.get? location ≠ some .directory := get?_of_descend h ▸ hfound
  rw [descend_of_keeps (keeps_put hplace entry) h,
    get?_put_self (ne_nil_of_not_directory hplace)]

/-- A path leads somewhere if it keeps to the limits and can be walked. -/
theorem locate_eq_ok_iff (tree : FileTree) (p : FilePath) (x : Location × Option Entry) :
    tree.locate p = .ok x ↔
      p.hasNull = false ∧ p.isTooLong = false ∧ tree.descend (tree.start p) p.names = .ok x := by
  unfold locate
  cases p.hasNull <;> cases p.isTooLong <;> simp

theorem locate_put {p : FilePath} (h : tree.locate p = .ok (location, found))
    (hfound : found ≠ some .directory) (entry : Entry) :
    (tree.put location entry).locate p = .ok (location, some entry) := by
  rw [locate_eq_ok_iff] at h ⊢
  exact ⟨h.1, h.2.1, descend_put h.2.2 hfound entry⟩

/-- A file that was put where a path leads is read there. -/
theorem read_writeFile {p : FilePath} {content : Bytes} {after : FileTree}
    (h : tree.writeFile p content = (.ok (), after)) : after.read p = .ok content := by
  unfold writeFile at h
  split at h
  · cases h
  · cases h
  · next location found hdirectory hlocate =>
      cases h
      have hfound : found ≠ some .directory := fun hfound => hdirectory hfound
      rw [read, locate_put hlocate hfound]

/-- A file that was written is read back. -/
theorem read_write {p : FilePath} {content : Bytes} {after : FileTree}
    (h : tree.write p content = (.ok (), after)) : after.read p = .ok content := by
  unfold write at h
  split at h
  · exact read_writeFile h
  · next failed =>
      exact absurd h (failed after)

/-! ## A new file -/

/-- A path that leads to something leads there still after an entry is put where nothing stood. -/
theorem descend_put_of_some {names : List Text} {entry found : Entry} {there : Location}
    (hnone : tree.get? location = none) (h : tree.descend here names = .ok (there, some found)) :
    (tree.put location entry).descend here names = .ok (there, some found) := by
  have hfound : tree.get? there = some found := get?_of_descend h
  have hne : there ≠ location := by
    rintro rfl
    rw [hnone] at hfound
    cases hfound
  rw [descend_of_keeps (keeps_put (by simp [hnone]) entry) h, get?_put_of_ne tree entry hne, hfound]

/-- After a file is put in a place, a path leads there or where it led before. -/
theorem descend_of_put {names : List Text} {content : Bytes} {there : Location}
    (hlocation : location ≠ [])
    (h : (tree.put location (.file content)).descend here names = .ok (there, found)) :
    there = location ∨ tree.descend here names = .ok (there, found) := by
  induction names generalizing here with
  | nil =>
      obtain ⟨rfl, hfound⟩ := Prod.mk.inj (Except.ok.inj h)
      by_cases heq : here = location
      · exact .inl heq
      · rw [get?_put_of_ne tree _ heq] at hfound
        exact .inr (by rw [descend, hfound])
  | cons name names ih =>
      rw [descend] at h
      split at h
      · next hdirectory =>
          have hne : here ≠ location := by
            rintro rfl
            rw [get?_put_self hlocation] at hdirectory
            cases hdirectory
          rw [get?_put_of_ne tree _ hne] at hdirectory
          split at h
          · cases h
          · next hshort =>
              rw [descend, hdirectory]
              dsimp only
              rw [if_neg hshort]
              exact ih h
      · cases h
      · cases h

/-- A walk to its end passes through the directory before the last name. -/
theorem descend_parent {names : List Text} {name : Text}
    (h : tree.descend here (names ++ [name]) = .ok (location, found)) :
    ∃ directory, tree.descend here names = .ok (directory, some .directory) ∧
      location = directory.step name := by
  induction names generalizing here with
  | nil =>
      rw [List.nil_append, descend] at h
      split at h
      · next hdirectory =>
          split at h
          · cases h
          · obtain ⟨rfl, -⟩ := Prod.mk.inj (Except.ok.inj h)
            exact ⟨here, by rw [descend, hdirectory], rfl⟩
      · cases h
      · cases h
  | cons first names ih =>
      rw [List.cons_append, descend] at h
      split at h
      · next hdirectory =>
          split at h
          · cases h
          · next hshort =>
              obtain ⟨directory, hdescend, hstep⟩ := ih h
              refine ⟨directory, ?_, hstep⟩
              rw [descend, hdirectory]
              dsimp only
              rw [if_neg hshort, hdescend]
      · cases h
      · cases h

/-! ### Paths without their last name -/

theorem byteLength_append (s t : Text) :
    FilePath.byteLength (s ++ t) = FilePath.byteLength s + FilePath.byteLength t := by
  rw [FilePath.byteLength, Utf8.encode, List.flatMap_append, List.length_append]
  rfl

theorem intercalate_dropLast_prefix (names : List Text) :
    List.intercalate ['/'] names.dropLast <+: List.intercalate ['/'] names := by
  induction names with
  | nil => exact List.prefix_refl _
  | cons name names ih =>
      cases names with
      | nil => exact List.nil_prefix
      | cons next names =>
          rw [List.dropLast_cons_cons, List.intercalate_cons_cons]
          cases hrest : (next :: names).dropLast with
          | nil =>
              rw [List.intercalate_singleton, List.append_assoc]
              exact List.prefix_append _ _
          | cons first rest =>
              rw [hrest] at ih
              rw [List.intercalate_cons_cons]
              exact (List.prefix_append_right_inj _).mpr ih

/-- A path without its last name is no longer. -/
theorem isTooLong_parent {p : FilePath} (h : p.isTooLong = false) : p.parent.isTooLong = false := by
  obtain ⟨rest, hrest⟩ := intercalate_dropLast_prefix p.names
  have hwhole : p.root ++ List.intercalate ['/'] p.names =
      p.root ++ List.intercalate ['/'] p.names.dropLast ++ rest := by
    rw [List.append_assoc, hrest]
  simp only [FilePath.isTooLong, decide_eq_false_iff_not, Nat.not_lt] at h ⊢
  unfold FilePath.toText at h ⊢
  -- a path without any name is a dot, which is not too long
  cases hparent : p.root ++ List.intercalate ['/'] p.names.dropLast with
  | nil =>
      simp only [FilePath.parent, hparent]
      decide
  | cons c t =>
      rw [hparent] at hwhole
      simp only [hwhole] at h
      have hlength : FilePath.byteLength (c :: t ++ rest) ≤ FilePath.longestPath := h
      rw [byteLength_append] at hlength
      simp only [FilePath.parent, hparent]
      omega

theorem hasNull_parent {p : FilePath} (h : p.hasNull = false) : p.parent.hasNull = false := by
  rw [FilePath.hasNull, List.any_eq_false] at h ⊢
  exact fun name hname => h name ((List.dropLast_sublist _).mem hname)

/-- The place that a path leads to is in the directory that it leads to without its last name. -/
theorem locate_parent {p : FilePath} (hnames : p.names ≠ [])
    (h : tree.locate p = .ok (location, found)) :
    ∃ directory, tree.locate p.parent = .ok (directory, some .directory) ∧
      location = directory.step (p.names.getLast hnames) := by
  obtain ⟨hnull, hlong, hdescend⟩ := (locate_eq_ok_iff tree p _).mp h
  rw [← List.dropLast_concat_getLast hnames] at hdescend
  obtain ⟨directory, hparent, hstep⟩ := descend_parent hdescend
  refine ⟨directory, ?_, hstep⟩
  exact (locate_eq_ok_iff tree p.parent _).mpr
    ⟨hasNull_parent hnull, isTooLong_parent hlong, hparent⟩

/-- A file is written where a path leads to nothing: no directory has to be made. -/
theorem write_of_locate {p : FilePath} (hnames : p.names ≠ [])
    (h : tree.locate p = .ok (location, none)) (content : Bytes) :
    tree.write p content = (.ok (), tree.put location (.file content)) := by
  obtain ⟨directory, hparent, -⟩ := locate_parent hnames h
  have hmake : tree.makeDirectory p.parent = (.ok (), tree) := by
    rw [makeDirectory, hparent]
  have hmakeAll : tree.makeDirectories p.names.length p.parent = (.ok (), tree) := by
    cases p.names.length with
    | zero => exact hmake
    | succ depth => simp only [makeDirectories, hparent, hmake]
  rw [write, hmakeAll]
  simp only [writeFile, h]

/-- A file is read as before after an entry is put where nothing stood. -/
theorem read_put {p : FilePath} {content : Bytes} {entry : Entry}
    (hnone : tree.get? location = none) (h : tree.read p = .ok content) :
    (tree.put location entry).read p = .ok content := by
  unfold read at h
  split at h
  · next there content hlocate =>
      obtain rfl := Except.ok.inj h
      have hput : (tree.put location entry).locate p = .ok (there, some (.file content)) := by
        rw [locate_eq_ok_iff] at hlocate ⊢
        exact ⟨hlocate.1, hlocate.2.1, descend_put_of_some hnone hlocate.2.2⟩
      rw [read, hput]
  · cases h
  · cases h
  · cases h

/-! ## What writing changes -/

theorem locate_of_keeps {after : FileTree} {p : FilePath}
    (hstart : after.workingDirectory = tree.workingDirectory)
    (hkeeps : ∀ l, tree.get? l = some .directory → after.get? l = some .directory)
    (h : tree.locate p = .ok (location, found)) :
    after.locate p = .ok (location, after.get? location) := by
  obtain ⟨hnull, hlong, hdescend⟩ := (locate_eq_ok_iff tree p _).mp h
  refine (locate_eq_ok_iff after p _).mpr ⟨hnull, hlong, ?_⟩
  rw [start, hstart]
  exact descend_of_keeps hkeeps hdescend

theorem get?_of_locate {p : FilePath} (h : tree.locate p = .ok (location, found)) :
    tree.get? location = found :=
  get?_of_descend ((locate_eq_ok_iff tree p _).mp h).2.2

/-- A tree has grown toward a path: all that has changed is that there are new directories where the
path leads, or where it leads without some of its last names. -/
structure GrownToward (tree : FileTree) (p : FilePath) (after : FileTree) : Prop where
  workingDirectory : after.workingDirectory = tree.workingDirectory
  changed : ∀ l, after.get? l ≠ tree.get? l →
    tree.get? l = none ∧ ∃ q ∈ p.ancestors, after.locate q = .ok (l, some .directory)

namespace GrownToward

variable {p : FilePath} {made after : FileTree}

theorem keeps (h : tree.GrownToward p after) :
    ∀ l, tree.get? l = some .directory → after.get? l = some .directory := by
  intro l hl
  by_cases hsame : after.get? l = tree.get? l
  · rw [hsame, hl]
  · rw [(h.changed l hsame).1] at hl
    cases hl

theorem refl (tree : FileTree) (p : FilePath) : tree.GrownToward p tree :=
  ⟨rfl, fun _ h => absurd rfl h⟩

theorem trans {q : FilePath} (hq : tree.GrownToward q made) (hsub : q.ancestors ⊆ p.ancestors)
    (hp : made.GrownToward p after) : tree.GrownToward p after where
  workingDirectory := hp.workingDirectory.trans hq.workingDirectory
  changed := by
    intro l hl
    by_cases hsame : made.get? l = tree.get? l
    · exact hsame ▸ hp.changed l (hsame ▸ hl)
    · -- a directory that was made first is still there
      obtain ⟨hnone, a, ha, hlocate⟩ := hq.changed l hsame
      refine ⟨hnone, a, hsub ha, ?_⟩
      rw [locate_of_keeps hp.workingDirectory hp.keeps hlocate,
        hp.keeps l (get?_of_locate hlocate)]

end GrownToward

theorem mem_ancestors_iff (p q : FilePath) :
    q ∈ p.ancestors ↔ ∃ k, k ≤ p.names.length ∧ q = { p with names := p.names.take k } := by
  constructor
  · intro h
    obtain ⟨n, -, rfl⟩ := List.mem_map.mp h
    exact ⟨p.names.length - n, Nat.sub_le _ _, rfl⟩
  · rintro ⟨k, hk, rfl⟩
    refine List.mem_map.mpr ⟨p.names.length - k, List.mem_range.mpr (by omega), ?_⟩
    rw [Nat.sub_sub_self hk]

theorem mem_ancestors_self (p : FilePath) : p ∈ p.ancestors :=
  (mem_ancestors_iff p p).mpr ⟨p.names.length, Nat.le_refl _, by rw [List.take_length]⟩

theorem ancestors_parent_subset (p : FilePath) : p.parent.ancestors ⊆ p.ancestors := by
  intro q hq
  obtain ⟨k, hk, rfl⟩ := (mem_ancestors_iff p.parent q).mp hq
  refine (mem_ancestors_iff p _).mpr ⟨min k (p.names.length - 1), by omega, ?_⟩
  simp only [FilePath.parent, List.dropLast_eq_take, List.take_take]

theorem grownToward_makeDirectory (p : FilePath) :
    tree.GrownToward p (tree.makeDirectory p).2 := by
  unfold makeDirectory
  split
  · next location hlocate =>
      refine ⟨rfl, fun l hl => ?_⟩
      by_cases hplace : l = location
      · subst hplace
        exact ⟨get?_of_locate hlocate, p, mem_ancestors_self p, locate_put hlocate (by simp) _⟩
      · exact absurd (get?_put_of_ne tree _ hplace) hl
  · exact .refl tree p
  · exact .refl tree p
  · exact .refl tree p

/-- Making directories lets the tree grow toward the path, also if it fails. -/
theorem grownToward_makeDirectories (depth : Nat) (p : FilePath) :
    tree.GrownToward p (tree.makeDirectories depth p).2 := by
  induction depth generalizing p with
  | zero => exact grownToward_makeDirectory p
  | succ depth ih =>
      rw [makeDirectories]
      split
      · have hparent : tree.GrownToward p.parent (tree.makeDirectories depth p.parent).2 :=
          ih p.parent
        split
        · next made hmade =>
            rw [hmade] at hparent
            exact hparent.trans (ancestors_parent_subset p) (grownToward_makeDirectory p)
        · exact hparent.trans (ancestors_parent_subset p) (.refl _ p)
      · exact grownToward_makeDirectory p

/-- What a tree is after a file was written: the file can be read, and nothing else has changed but
that there are directories on the way to it where nothing stood. -/
structure Wrote (tree : FileTree) (p : FilePath) (content : Bytes) (after : FileTree) : Prop where
  read : after.read p = .ok content
  workingDirectory : after.workingDirectory = tree.workingDirectory
  changed : ∀ l, after.get? l ≠ tree.get? l →
    (∃ entry, after.locate p = .ok (l, entry)) ∨
      tree.get? l = none ∧ ∃ q ∈ p.parent.ancestors, after.locate q = .ok (l, some .directory)

theorem exists_place_of_writeFile {p : FilePath} {content : Bytes} {after : FileTree}
    (h : tree.writeFile p content = (.ok (), after)) :
    ∃ location found, tree.locate p = .ok (location, found) ∧ found ≠ some .directory ∧
      after = tree.put location (.file content) := by
  unfold writeFile at h
  split at h
  · cases h
  · cases h
  · next location found hdirectory hlocate =>
      cases h
      exact ⟨location, found, hlocate, fun hfound => hdirectory hfound, rfl⟩

theorem exists_made_of_write {p : FilePath} {content : Bytes} {after : FileTree}
    (h : tree.write p content = (.ok (), after)) :
    ∃ made, tree.GrownToward p.parent made ∧ made.writeFile p content = (.ok (), after) := by
  have hgrown : tree.GrownToward p.parent (tree.makeDirectories p.names.length p.parent).2 :=
    grownToward_makeDirectories p.names.length p.parent
  unfold write at h
  split at h
  · next made hmade =>
      rw [hmade] at hgrown
      exact ⟨made, hgrown, h⟩
  · next failed => exact absurd h (failed after)

/-- **Writing a file changes nothing else**, but directories on the way to it are made. -/
theorem wrote_of_write {p : FilePath} {content : Bytes} {after : FileTree}
    (h : tree.write p content = (.ok (), after)) : tree.Wrote p content after := by
  obtain ⟨made, hgrown, hwrite⟩ := exists_made_of_write h
  obtain ⟨location, found, hlocate, hfound, rfl⟩ := exists_place_of_writeFile hwrite
  refine ⟨read_writeFile hwrite, hgrown.workingDirectory, fun l hl => ?_⟩
  by_cases hne : l = location
  · subst hne
    exact .inl ⟨_, locate_put hlocate hfound _⟩
  · rw [get?_put_of_ne made _ hne] at hl
    obtain ⟨hnone, q, hq, hdirectory⟩ := hgrown.changed l hl
    have hplace : made.get? location ≠ some .directory := get?_of_locate hlocate ▸ hfound
    have hstart : (made.put location (.file content)).workingDirectory = made.workingDirectory :=
      rfl
    have hkept := locate_of_keeps hstart (keeps_put hplace _) hdirectory
    rw [get?_put_of_ne made _ hne, get?_of_locate hdirectory] at hkept
    exact .inr ⟨hnone, q, hq, hkept⟩

end Flowchart.FileTree
