import Mathlib

/-!
# Sorted tables

A table kept in the order of its keys, as a `BTreeMap` is, whose values know their keys: the table is
the list of its values.

* `insert` replaces what has the key, `erase` removes it, `get` looks it up.  Membership after each
  is an equivalence (`mem_insert`, `mem_erase`), with no assumption on the table.
* `Unique` says that no two values have one key, which makes `get` the converse of membership
  (`get_eq_some`); `nodup_insert` and `nodup_erase` keep the list of the keys free of duplicates.
* `sum_le_sum` compares two totals, when every entry on the left has one of at least its weight on
  the right under the same key.
-/

namespace SortedTable

open List

variable {α κ : Type*} [LinearOrder κ] (key : α → κ)

/-- `map.remove(k)`. -/
def erase (k : κ) (m : List α) : List α := m.filter fun x => key x ≠ k

/-- `map.insert(key(x), x)`. -/
def insert (x : α) (m : List α) : List α :=
  (erase key (key x) m).orderedInsert (fun y z => key y ≤ key z) x

/-- `map.get(k)`. -/
def get (k : κ) (m : List α) : Option α := m.find? fun x => key x = k

/-- No two values have one key. -/
def Unique (m : List α) : Prop := ∀ x ∈ m, ∀ y ∈ m, key x = key y → x = y

variable {key} {x y : α} {k : κ} {m : List α}

@[simp] theorem mem_erase : y ∈ erase key k m ↔ y ∈ m ∧ key y ≠ k := by
  simp [erase]

@[simp] theorem mem_insert : y ∈ insert key x m ↔ y = x ∨ (y ∈ m ∧ key y ≠ key x) := by
  simp [insert]

theorem mem_insert_self : x ∈ insert key x m := mem_insert.mpr (.inl rfl)

theorem forall_mem_erase {P : α → Prop} (h : ∀ y ∈ m, P y) : ∀ y ∈ erase key k m, P y :=
  fun y hy => h y (mem_erase.mp hy).1

theorem forall_mem_insert {P : α → Prop} (hx : P x) (h : ∀ y ∈ m, P y) :
    ∀ y ∈ insert key x m, P y := by
  intro y hy
  rcases mem_insert.mp hy with rfl | ⟨hy, -⟩
  · exact hx
  · exact h y hy

/-- What is replaced by itself stays. -/
theorem mem_insert_of_mem (hy : y ∈ m) (h : key y = key x → y = x) : y ∈ insert key x m := by
  by_cases heq : key y = key x
  · exact mem_insert.mpr (.inl (h heq))
  · exact mem_insert.mpr (.inr ⟨hy, heq⟩)

theorem exists_key_insert (h : ∃ y ∈ m, key y = k) : ∃ y ∈ insert key x m, key y = k := by
  obtain ⟨y, hy, rfl⟩ := h
  by_cases heq : key y = key x
  · exact ⟨x, mem_insert.mpr (.inl rfl), heq.symm⟩
  · exact ⟨y, mem_insert.mpr (.inr ⟨hy, heq⟩), rfl⟩

theorem exists_key_erase {k' : κ} (h : ∃ y ∈ m, key y = k') (hne : k' ≠ k) :
    ∃ y ∈ erase key k m, key y = k' := by
  obtain ⟨y, hy, rfl⟩ := h
  exact ⟨y, mem_erase.mpr ⟨hy, hne⟩, rfl⟩

theorem mem_of_get (h : get key k m = some x) : x ∈ m := mem_of_find?_eq_some h

theorem key_of_get (h : get key k m = some x) : key x = k := by
  simpa using find?_some h

theorem ne_of_get_eq_none (h : get key k m = none) (hx : x ∈ m) : key x ≠ k := by
  simpa using find?_eq_none.mp h x hx

theorem get_eq_some (huq : Unique key m) (hx : x ∈ m) : get key (key x) m = some x := by
  cases hget : get key (key x) m with
  | none => exact absurd rfl (ne_of_get_eq_none hget hx)
  | some y => rw [huq y (mem_of_get hget) x hx (key_of_get hget)]

omit [LinearOrder κ] in
theorem unique_nil : Unique key ([] : List α) := by
  intro x hx
  cases hx

theorem unique_erase (h : Unique key m) : Unique key (erase key k m) := by
  intro y hy z hz heq
  exact h y (mem_erase.mp hy).1 z (mem_erase.mp hz).1 heq

theorem unique_insert (h : Unique key m) : Unique key (insert key x m) := by
  intro y hy z hz heq
  rcases mem_insert.mp hy with rfl | ⟨hy, hyx⟩ <;> rcases mem_insert.mp hz with rfl | ⟨hz, hzx⟩
  · rfl
  · exact absurd heq.symm hzx
  · exact absurd heq hyx
  · exact h y hy z hz heq

theorem nodup_erase (h : (m.map key).Nodup) : ((erase key k m).map key).Nodup :=
  h.sublist (filter_sublist.map key)

theorem nodup_insert (h : (m.map key).Nodup) : ((insert key x m).map key).Nodup := by
  have hperm : ((insert key x m).map key).Perm (key x :: (erase key (key x) m).map key) :=
    (perm_orderedInsert _ x _).map key
  rw [hperm.nodup_iff, nodup_cons]
  refine ⟨fun hmem => ?_, nodup_erase h⟩
  obtain ⟨y, hy, heq⟩ := mem_map.mp hmem
  exact (mem_erase.mp hy).2 heq

/-! ## Totals -/

omit [LinearOrder κ] in
theorem sum_le_sum {β : Type*} {key' : β → κ} {weight : α → ℕ} {weight' : β → ℕ} {xs : List β}
    (hnd : (xs.map key').Nodup)
    (hcov : ∀ x ∈ xs, ∃ y ∈ m, key y = key' x ∧ weight' x ≤ weight y) :
    (xs.map weight').sum ≤ (m.map weight).sum := by
  induction xs generalizing m with
  | nil => simp
  | cons x xs ih =>
    rw [map_cons, nodup_cons] at hnd
    obtain ⟨y, hy, hkey, _⟩ := hcov x mem_cons_self
    obtain ⟨before, after, rfl⟩ := append_of_mem hy
    -- the entry that covers `x` covers nothing else, so the rest is covered without it
    have hrs : ∀ z ∈ xs, ∃ w ∈ before ++ after, key w = key' z ∧ weight' z ≤ weight w := by
      intro z hz
      obtain ⟨w, hw, hwkey, hwle⟩ := hcov z (mem_cons_of_mem _ hz)
      have hne : w ≠ y := by
        rintro rfl
        exact hnd.1 (mem_map.mpr ⟨z, hz, hwkey.symm.trans hkey⟩)
      refine ⟨w, ?_, hwkey, hwle⟩
      simpa [hne] using hw
    have hsum := ih hnd.2 hrs
    simp only [map_append, map_cons, sum_append, sum_cons] at hsum ⊢
    omega

end SortedTable
