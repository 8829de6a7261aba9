/-!
# Keyed collections

Values under distinct keys, in the order in which the keys first came. Writing under a key that is
present keeps its place; writing under a new key adds it at the end (`Keyed.keys_put`), and a
look-up sees the last value written (`Keyed.get?_put`).
-/

namespace Flowchart

/-- Values under distinct keys, in the order of insertion. -/
structure Keyed (κ α : Type) where
  entries : List (κ × α) := []
  distinct : (entries.map Prod.fst).Nodup := by simp

namespace Keyed

variable {κ α : Type} [DecidableEq κ]

/-! ## Lists of entries -/

/-- The entries with `value` under `key`, in the place of the old value or at the end. -/
def assign (key : κ) (value : α) : List (κ × α) → List (κ × α)
  | [] => [(key, value)]
  | (k, v) :: rest => if k = key then (key, value) :: rest else (k, v) :: assign key value rest

theorem keys_assign (key : κ) (value : α) (entries : List (κ × α)) :
    (assign key value entries).map Prod.fst =
      if key ∈ entries.map Prod.fst then entries.map Prod.fst
      else entries.map Prod.fst ++ [key] := by
  induction entries with
  | nil => simp [assign]
  | cons entry rest ih =>
      obtain ⟨k, v⟩ := entry
      by_cases hk : k = key
      · subst hk
        simp [assign]
      · have hk' : key ≠ k := fun h => hk h.symm
        simp only [assign, if_neg hk, List.map_cons, ih, List.mem_cons, hk', false_or]
        split <;> simp

theorem lookup_assign (key key' : κ) (value : α) (entries : List (κ × α)) :
    (assign key value entries).lookup key' =
      if key' = key then some value else entries.lookup key' := by
  induction entries with
  | nil =>
      rw [assign, List.lookup_cons]
      by_cases h : key' = key
      · simp [h]
      · simp [h, beq_eq_false_iff_ne.mpr h]
  | cons entry rest ih =>
      obtain ⟨k, v⟩ := entry
      rw [assign]
      by_cases hk : k = key
      · subst hk
        rw [if_pos rfl, List.lookup_cons, List.lookup_cons]
        by_cases h : key' = k
        · simp [h]
        · simp [h, beq_eq_false_iff_ne.mpr h]
      · rw [if_neg hk, List.lookup_cons, List.lookup_cons, ih]
        by_cases h : key' = k
        · have hkey : key' ≠ key := fun e => hk (h ▸ e)
          simp [h, h ▸ hkey]
        · simp [beq_eq_false_iff_ne.mpr h]

/-! ## Collections -/

/-- The collection without entries. -/
def empty : Keyed κ α := {}

/-- The keys, in the order in which they came. -/
def keys (m : Keyed κ α) : List κ := m.entries.map Prod.fst

/-- The values, in the order of their keys. -/
def values (m : Keyed κ α) : List α := m.entries.map Prod.snd

/-- The number of entries. -/
def size (m : Keyed κ α) : Nat := m.entries.length

/-- The value under a key. -/
def get? (m : Keyed κ α) (key : κ) : Option α := m.entries.lookup key

/-- Whether a key is present. -/
def contains (m : Keyed κ α) (key : κ) : Bool := (m.get? key).isSome

/-- Writing a value under a key. -/
def put (m : Keyed κ α) (key : κ) (value : α) : Keyed κ α where
  entries := assign key value m.entries
  distinct := by
    rw [keys_assign]
    split
    · exact m.distinct
    · next h =>
        rw [List.nodup_append]
        refine ⟨m.distinct, by simp, ?_⟩
        intro a ha b hb hab
        rw [List.mem_singleton] at hb
        exact h (hb ▸ hab ▸ ha)

/-- Writing pairs one after the other. -/
def putAll (m : Keyed κ α) (pairs : List (κ × α)) : Keyed κ α :=
  pairs.foldl (fun m pair => m.put pair.1 pair.2) m

theorem get?_put (m : Keyed κ α) (key key' : κ) (value : α) :
    (m.put key value).get? key' = if key' = key then some value else m.get? key' :=
  lookup_assign key key' value m.entries

theorem keys_put (m : Keyed κ α) (key : κ) (value : α) :
    (m.put key value).keys = if key ∈ m.keys then m.keys else m.keys ++ [key] :=
  keys_assign key value m.entries

end Keyed

end Flowchart
