import Mathlib

/-!
# Insertion-ordered maps

A JavaScript `Map` remembers the order in which its keys came in, and setting a key again changes
the entry in its place.  Where the values know their keys, the map is the list of its values.

* `set`, `setAll` and `ofList` build one, `has` and `get` read it.  What they build has no key twice
  (`nodup_set`, `nodup_ofList`).
* `add` and `addAll` are a `Set`: the map whose values are their own keys.
-/

namespace Keyed

open List

variable {α κ : Type*} [DecidableEq κ]

section

variable (key : α → κ)

/-- `map.set(key(x), x)`. -/
def set (x : α) : List α → List α
  | [] => [x]
  | y :: ys => if key y = key x then x :: ys else y :: set x ys

/-- Set every element, in order. -/
def setAll (xs m : List α) : List α := xs.foldl (fun m x => set key x m) m

/-- `new Map(xs.map(x => [key(x), x]))`. -/
def ofList (xs : List α) : List α := setAll key xs []

/-- `map.get(k)`. -/
def get (k : κ) (m : List α) : Option α := m.find? fun x => key x = k

/-- `map.has(k)`. -/
def has (k : κ) (m : List α) : Bool := m.any fun x => key x = k

end

section

variable {key : α → κ} {x y : α} {m : List α} {k : κ}

theorem has_iff : has key k m = true ↔ ∃ x ∈ m, key x = k := by
  simp [has]

theorem mem_of_mem_set (h : y ∈ set key x m) : y = x ∨ y ∈ m := by
  induction m with
  | nil => exact .inl (mem_singleton.mp h)
  | cons _ _ ih =>
    rw [set] at h
    split at h
    · rcases mem_cons.mp h with h | h
      · exact .inl h
      · exact .inr (mem_cons_of_mem _ h)
    · rcases mem_cons.mp h with h | h
      · exact .inr (h ▸ mem_cons_self)
      · exact (ih h).imp_right (mem_cons_of_mem _)

theorem mem_set_self : x ∈ set key x m := by
  induction m with
  | nil => exact mem_singleton.mpr rfl
  | cons _ _ ih =>
    rw [set]
    split
    · exact mem_cons_self
    · exact mem_cons_of_mem _ ih

theorem mem_set_of_ne (h : y ∈ m) (hne : key y ≠ key x) : y ∈ set key x m := by
  induction m with
  | nil => cases h
  | cons _ _ ih =>
    rw [set]
    split
    · rename_i hz
      rcases mem_cons.mp h with rfl | h
      · exact absurd hz hne
      · exact mem_cons_of_mem _ h
    · rcases mem_cons.mp h with rfl | h
      · exact mem_cons_self
      · exact mem_cons_of_mem _ (ih h)

/-- A new key goes to the end. -/
theorem set_eq_append (h : ∀ y ∈ m, key y ≠ key x) : set key x m = m ++ [x] := by
  induction m with
  | nil => rfl
  | cons z _ ih =>
    rw [set, if_neg (h z mem_cons_self), ih fun y hy => h y (mem_cons_of_mem _ hy), cons_append]

theorem nodup_set (h : (m.map key).Nodup) : ((set key x m).map key).Nodup := by
  induction m with
  | nil => simp [set]
  | cons _ _ ih =>
    rw [map_cons, nodup_cons] at h
    rw [set]
    split
    · rename_i hz
      rw [map_cons, nodup_cons, ← hz]
      exact h
    rename_i hz
    rw [map_cons, nodup_cons]
    refine ⟨fun hmem => ?_, ih h.2⟩
    obtain ⟨y, hy, hkey⟩ := mem_map.mp hmem
    rcases mem_of_mem_set hy with rfl | hy
    · exact hz hkey.symm
    · exact h.1 (hkey ▸ mem_map_of_mem hy)

section

variable {xs : List α}

theorem setAll_cons : setAll key (x :: xs) m = setAll key xs (set key x m) := rfl

theorem mem_of_mem_setAll (h : y ∈ setAll key xs m) : y ∈ xs ∨ y ∈ m := by
  induction xs generalizing m with
  | nil => exact .inr h
  | cons _ _ ih =>
    rcases ih h with hy | hy
    · exact .inl (mem_cons_of_mem _ hy)
    rcases mem_of_mem_set hy with rfl | hy
    · exact .inl mem_cons_self
    · exact .inr hy

/-- An element stays when none of those that follow has its key. -/
theorem mem_setAll_of_mem (h : y ∈ m) (hne : ∀ x ∈ xs, key y ≠ key x) : y ∈ setAll key xs m := by
  induction xs generalizing m with
  | nil => exact h
  | cons x _ ih =>
    exact ih (mem_set_of_ne h (hne x mem_cons_self)) fun x' hx' => hne x' (mem_cons_of_mem _ hx')

/-- Elements with different keys are all there in the end. -/
theorem mem_setAll (hnd : (xs.map key).Nodup) (h : y ∈ xs) : y ∈ setAll key xs m := by
  induction xs generalizing m with
  | nil => cases h
  | cons _ _ ih =>
    rw [map_cons, nodup_cons] at hnd
    rw [setAll_cons]
    rcases mem_cons.mp h with rfl | h
    · refine mem_setAll_of_mem mem_set_self fun x' hx' hkey => hnd.1 ?_
      exact hkey ▸ mem_map_of_mem hx'
    · exact ih hnd.2 h

theorem nodup_setAll (h : (m.map key).Nodup) : ((setAll key xs m).map key).Nodup := by
  induction xs generalizing m with
  | nil => exact h
  | cons _ _ ih => exact ih (nodup_set h)

theorem nodup_ofList : ((ofList key xs).map key).Nodup := nodup_setAll nodup_nil

theorem mem_of_mem_ofList (h : y ∈ ofList key xs) : y ∈ xs := by
  rcases mem_of_mem_setAll h with h | h
  · exact h
  · cases h

end

end

/-! ## Sets -/

/-- `set.add(x)`. -/
def add (x : κ) (s : List κ) : List κ := set id x s

/-- Add every element, in order. -/
def addAll (s : List κ) (xs : List κ) : List κ := xs.foldl (fun s x => add x s) s

@[simp] theorem mem_add {x y : κ} {s : List κ} : y ∈ add x s ↔ y = x ∨ y ∈ s := by
  refine ⟨mem_of_mem_set, ?_⟩
  rintro (rfl | hy)
  · exact mem_set_self
  by_cases hxy : y = x
  · exact hxy ▸ mem_set_self
  · exact mem_set_of_ne hy hxy

@[simp] theorem mem_addAll {y : κ} {s xs : List κ} : y ∈ addAll s xs ↔ y ∈ s ∨ y ∈ xs := by
  induction xs generalizing s with
  | nil => simp [addAll]
  | cons x xs ih =>
    have hcs : addAll s (x :: xs) = addAll (add x s) xs := rfl
    rw [hcs, ih, mem_add, mem_cons]
    tauto

end Keyed
