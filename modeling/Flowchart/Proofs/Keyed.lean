import Mathlib.Data.List.Basic
import Mathlib.Data.List.Induction
import Flowchart.Keyed

/-!
# Keys and values of collections

A collection is determined by its keys, in order, and by what a look-up finds: its values are those
found under its keys (`Keyed.values_eq_filterMap`).
-/

set_option autoImplicit false

namespace Flowchart.Keyed

variable {κ α : Type} [DecidableEq κ]

omit [DecidableEq κ] in
/-- A collection is its entries. -/
theorem eq_of_entries {m m' : Keyed κ α} (h : m.entries = m'.entries) : m = m' := by
  cases m
  cases m'
  cases h
  rfl

theorem mem_keys_iff (m : Keyed κ α) (key : κ) : key ∈ m.keys ↔ (m.get? key).isSome = true := by
  rw [get?, List.lookup_isSome_iff, keys, List.mem_map]
  constructor
  · rintro ⟨entry, hmem, rfl⟩
    exact ⟨entry, hmem, by simp⟩
  · rintro ⟨entry, hmem, heq⟩
    exact ⟨entry, hmem, (beq_iff_eq.mp heq).symm⟩

theorem get?_eq_none_iff (m : Keyed κ α) (key : κ) : m.get? key = none ↔ key ∉ m.keys := by
  rw [mem_keys_iff]
  cases m.get? key <;> simp

theorem contains_eq_true_iff (m : Keyed κ α) (key : κ) : m.contains key = true ↔ key ∈ m.keys :=
  (mem_keys_iff m key).symm

omit [DecidableEq κ] in
/-- A look-up finds every entry, because no other has the same key. -/
theorem lookup_of_mem [BEq κ] [LawfulBEq κ] {key : κ} {value : α} :
    ∀ {entries : List (κ × α)}, (entries.map Prod.fst).Nodup → (key, value) ∈ entries →
      entries.lookup key = some value
  | [], _, h => absurd h List.not_mem_nil
  | (k, v) :: rest, hnodup, h => by
      rw [List.map_cons, List.nodup_cons] at hnodup
      rw [List.lookup_cons]
      rcases List.mem_cons.mp h with heq | hmem
      · rw [Prod.mk.injEq] at heq
        simp [heq.1, heq.2]
      · have hne : (key == k) = false := by
          rw [beq_eq_false_iff_ne]
          rintro rfl
          exact hnodup.1 (List.mem_map.mpr ⟨_, hmem, rfl⟩)
        rw [hne]
        exact lookup_of_mem hnodup.2 hmem

theorem get?_eq_some_iff (m : Keyed κ α) (key : κ) (value : α) :
    m.get? key = some value ↔ (key, value) ∈ m.entries := by
  constructor
  · intro h
    obtain ⟨before, after, heq, -⟩ := List.lookup_eq_some_iff.mp h
    rw [heq]
    exact List.mem_append_right before List.mem_cons_self
  · exact lookup_of_mem m.distinct

theorem values_eq_filterMap (m : Keyed κ α) : m.values = m.keys.filterMap m.get? := by
  rw [values, keys, List.filterMap_map, ← List.filterMap_eq_map]
  apply List.filterMap_congr
  intro entry hmem
  exact (lookup_of_mem m.distinct hmem).symm

theorem mem_values_iff (m : Keyed κ α) (value : α) :
    value ∈ m.values ↔ ∃ key, m.get? key = some value := by
  rw [values_eq_filterMap, List.mem_filterMap]
  constructor
  · rintro ⟨key, -, h⟩
    exact ⟨key, h⟩
  · rintro ⟨key, h⟩
    exact ⟨key, (mem_keys_iff m key).mpr (by rw [h]; rfl), h⟩

theorem mem_values {m : Keyed κ α} {key : κ} {value : α} (h : m.get? key = some value) :
    value ∈ m.values :=
  (mem_values_iff m value).mpr ⟨key, h⟩

/-- An entry with a new key comes last. -/
theorem assign_of_not_mem {key : κ} {entries : List (κ × α)} (h : key ∉ entries.map Prod.fst)
    (value : α) : assign key value entries = entries ++ [(key, value)] := by
  induction entries with
  | nil => rfl
  | cons entry entries ih =>
      obtain ⟨k, v⟩ := entry
      simp only [List.map_cons, List.mem_cons, not_or] at h
      rw [assign, if_neg (Ne.symm h.1), ih h.2, List.cons_append]

/-- A value under a new key comes last. -/
theorem values_put_of_not_mem {m : Keyed κ α} {key : κ} (h : key ∉ m.keys) (value : α) :
    (m.put key value).values = m.values ++ [value] := by
  have hsame : m.keys.filterMap (m.put key value).get? = m.keys.filterMap m.get? := by
    apply List.filterMap_congr
    intro k hk
    rw [get?_put, if_neg]
    rintro rfl
    exact h hk
  rw [values_eq_filterMap, keys_put, if_neg h, List.filterMap_append, hsame, ← values_eq_filterMap]
  simp [get?_put]

/-- What a new value leaves as it was under its key is left as it was everywhere. -/
theorem map_values_put {β : Type} {m : Keyed κ α} {key : κ} {old new : α} {f : α → β}
    (h : m.get? key = some old) (hf : f new = f old) :
    (m.put key new).values.map f = m.values.map f := by
  have hkey : key ∈ m.keys := (mem_keys_iff m key).mpr (by rw [h]; rfl)
  rw [values_eq_filterMap, values_eq_filterMap, keys_put, if_pos hkey, List.map_filterMap,
    List.map_filterMap]
  apply List.filterMap_congr
  intro k _
  rw [get?_put]
  by_cases hk : k = key
  · subst hk
    simp [h, hf]
  · simp [hk]

/-! ## Writing pairs -/

theorem putAll_concat (m : Keyed κ α) (pairs : List (κ × α)) (pair : κ × α) :
    m.putAll (pairs ++ [pair]) = (m.putAll pairs).put pair.1 pair.2 := by
  simp [putAll]

/-- Pairs with distinct keys are kept as they are written. -/
theorem entries_putAll {pairs : List (κ × α)} (h : (pairs.map Prod.fst).Nodup) :
    (empty.putAll pairs).entries = pairs := by
  induction pairs using List.reverseRecOn with
  | nil => rfl
  | append_singleton pairs pair ih =>
      rw [List.map_append, List.nodup_append] at h
      have hnew : pair.1 ∉ pairs.map Prod.fst := by
        intro hmem
        exact h.2.2 _ hmem pair.1 (by simp) rfl
      rw [putAll_concat]
      calc ((empty.putAll pairs).put pair.1 pair.2).entries
          = assign pair.1 pair.2 (empty.putAll pairs).entries := rfl
        _ = assign pair.1 pair.2 pairs := by rw [ih h.1]
        _ = pairs ++ [pair] := assign_of_not_mem hnew pair.2

/-- Every key stands where it was first written. -/
theorem keys_putAll [BEq κ] [LawfulBEq κ] (pairs : List (κ × α)) :
    (empty.putAll pairs).keys = (pairs.map Prod.fst).eraseDups := by
  induction pairs using List.reverseRecOn with
  | nil => rfl
  | append_singleton pairs pair ih =>
      rw [putAll_concat, keys_put, ih, List.map_append, List.eraseDups_append]
      by_cases h : pair.1 ∈ pairs.map Prod.fst
      · simp [h, List.removeAll, List.mem_eraseDups.mpr h]
      · simp [h, List.removeAll, List.eraseDups_cons]

/-- A look-up finds the value that was written last. -/
theorem exists_last_of_get?_putAll {pairs : List (κ × α)} {key : κ} {value : α}
    (h : (empty.putAll pairs).get? key = some value) :
    ∃ before later, pairs = before ++ (key, value) :: later ∧ ∀ pair ∈ later, pair.1 ≠ key := by
  induction pairs using List.reverseRecOn with
  | nil => cases h
  | append_singleton pairs pair ih =>
      rw [putAll_concat, get?_put] at h
      by_cases hkey : key = pair.1
      · rw [if_pos hkey, Option.some.injEq] at h
        exact ⟨pairs, [], by rw [hkey, ← h], by simp⟩
      · rw [if_neg hkey] at h
        obtain ⟨before, later, rfl, hlater⟩ := ih h
        refine ⟨before, later ++ [pair], by simp, ?_⟩
        intro other hother
        rcases List.mem_append.mp hother with hmem | hmem
        · exact hlater other hmem
        · rw [List.mem_singleton.mp hmem]
          exact Ne.symm hkey

omit [DecidableEq κ] in
theorem length_keys (m : Keyed κ α) : m.keys.length = m.size := List.length_map _

omit [DecidableEq κ] in
theorem length_values (m : Keyed κ α) : m.values.length = m.size := List.length_map _

omit [DecidableEq κ] in
theorem nodup_keys (m : Keyed κ α) : m.keys.Nodup := m.distinct

end Flowchart.Keyed
