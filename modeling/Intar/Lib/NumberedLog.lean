import Mathlib

/-!
# Slices of a numbered log

The entries of an append-only log carry numbers that go up.  A reader takes a stretch of it by its
numbers, and what it takes does not depend on what is appended later.

* `slice` is the stretch above one number and up to another.
* Adjacent slices make one slice (`slice_append_slice`).
* A slice is the same in a log that has grown, if it ends below the new numbers
  (`slice_append_of_lt`).
-/

namespace NumberedLog

open List

variable {α : Type*} (number : α → ℕ)

/-- The numbers go up. -/
def Ordered (log : List α) : Prop := log.Pairwise fun x y => number x < number y

/-- The entries with a number above `a` and at most `b`. -/
def slice (log : List α) (a b : ℕ) : List α := log.filter fun x => a < number x ∧ number x ≤ b

variable {number} {log rest : List α} {x : α} {a b c : ℕ}

theorem mem_slice : x ∈ slice number log a b ↔ x ∈ log ∧ a < number x ∧ number x ≤ b := by
  simp [slice]

theorem ordered_nil : Ordered number ([] : List α) := List.Pairwise.nil

theorem Ordered.concat (h : Ordered number log) (hlt : ∀ y ∈ log, number y < number x) :
    Ordered number (log ++ [x]) := by
  refine pairwise_append.mpr ⟨h, pairwise_singleton _ _, ?_⟩
  intro y hy z hz
  rw [mem_singleton.mp hz]
  exact hlt y hy

theorem Ordered.slice (h : Ordered number log) (a b : ℕ) : Ordered number (slice number log a b) :=
  List.Pairwise.filter _ h

/-- No entry of an empty range. -/
theorem slice_self : slice number log a a = [] := by
  rw [slice, filter_eq_nil_iff]
  intro x _ hx
  have := of_decide_eq_true hx
  omega

/-- What a slice does not reach does not change it. -/
theorem slice_append_of_lt (h : ∀ y ∈ rest, b < number y) :
    slice number (log ++ rest) a b = slice number log a b := by
  have hrs : slice number rest a b = [] := by
    rw [slice, filter_eq_nil_iff]
    intro y hy hin
    have := of_decide_eq_true hin
    have := h y hy
    omega
  rw [slice, filter_append]
  show slice number log a b ++ slice number rest a b = slice number log a b
  rw [hrs, append_nil]

/-- Up to the last number, a slice is all that comes after its start. -/
theorem filter_lt_eq_slice (h : ∀ y ∈ log, number y ≤ b) :
    (log.filter fun y => a < number y) = slice number log a b := by
  refine filter_congr fun y hy => ?_
  simp [h y hy]

theorem slice_cons_of_mem (h : a < number x ∧ number x ≤ b) :
    slice number (x :: log) a b = x :: slice number log a b :=
  filter_cons_of_pos (decide_eq_true h)

theorem slice_cons_of_not_mem (h : ¬ (a < number x ∧ number x ≤ b)) :
    slice number (x :: log) a b = slice number log a b :=
  filter_cons_of_neg (by simpa using h)

/-- **Adjacent slices make one slice.** -/
theorem slice_append_slice (h : Ordered number log) (hab : a ≤ b) (hbc : b ≤ c) :
    slice number log a b ++ slice number log b c = slice number log a c := by
  induction log with
  | nil => rfl
  | cons x log ih =>
    obtain ⟨hx, htail⟩ := pairwise_cons.mp h
    have ih := ih htail
    by_cases hle : number x ≤ b
    · rw [slice_cons_of_not_mem (a := b) (b := c) (by omega)]
      by_cases hlt : a < number x
      · rw [slice_cons_of_mem ⟨hlt, hle⟩, slice_cons_of_mem ⟨hlt, Nat.le_trans hle hbc⟩, cons_append,
          ih]
      · rw [slice_cons_of_not_mem (by omega), slice_cons_of_not_mem (by omega), ih]
    · -- the numbers go up, so nothing of the first slice comes any more
      have hno : slice number log a b = [] := by
        rw [eq_nil_iff_forall_not_mem]
        intro y hy
        have := mem_slice.mp hy
        have := hx y this.1
        omega
      rw [hno, nil_append] at ih
      rw [slice_cons_of_not_mem (a := a) (b := b) (by omega), hno, nil_append]
      by_cases hc : number x ≤ c
      · rw [slice_cons_of_mem ⟨by omega, hc⟩, slice_cons_of_mem ⟨by omega, hc⟩, ih]
      · rw [slice_cons_of_not_mem (by omega), slice_cons_of_not_mem (by omega), ih]

/-- The last entry has the largest number. -/
theorem Ordered.le_getLast (h : Ordered number log) (hne : log ≠ []) (hx : x ∈ log) :
    number x ≤ number (log.getLast hne) := by
  rw [← dropLast_append_getLast hne] at h hx
  rcases mem_append.mp hx with hx | hx
  · exact Nat.le_of_lt ((pairwise_append.mp h).2.2 x hx _ (mem_singleton_self _))
  · exact Nat.le_of_eq (congrArg number (mem_singleton.mp hx))

end NumberedLog
