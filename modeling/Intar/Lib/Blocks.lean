import Mathlib

/-!
# Lists in blocks

A list cut into blocks of one size, of which only the last can be short, as files are when they are
stored or sent in pieces.

* `block c i xs` is the block at an index.  A list is determined by its length and its blocks
  (`ext_block`), and `batches` is the list of them.  Pieces of one width can be read back from their
  concatenation (`eq_of_flatMap_eq`).
* `writeAt` is a write at an offset: what stood there is replaced, and a gap before it is filled.
  Written over a whole block it changes that block and no other (`block_writeAt`).
-/

namespace Blocks

open List

variable {α : Type*} {c i j : ℕ} {xs ys : List α}

/-- The block at index `i`, of `c` elements unless the list ends before. -/
def block (c i : ℕ) (xs : List α) : List α := (xs.drop (i * c)).take c

@[simp] theorem length_block : (block c i xs).length = min c (xs.length - i * c) := by
  simp [block]

theorem getElem?_block {k : ℕ} (h : k < c) : (block c i xs)[k]? = xs[i * c + k]? := by
  rw [block, getElem?_take_of_lt h, getElem?_drop]

/-- Every position lies in the block of its quotient. -/
theorem getElem?_eq_block (hc : 0 < c) (o : ℕ) : xs[o]? = (block c (o / c) xs)[o % c]? := by
  rw [getElem?_block (Nat.mod_lt o hc), Nat.div_add_mod']

/-- **A list is its blocks.** -/
theorem ext_block (hc : 0 < c) (h : ∀ i, block c i xs = block c i ys) : xs = ys := by
  apply ext_getElem?
  intro o
  calc xs[o]? = (block c (o / c) xs)[o % c]? := getElem?_eq_block hc o
    _ = (block c (o / c) ys)[o % c]? := by rw [h]
    _ = ys[o]? := (getElem?_eq_block hc o).symm

theorem block_eq_nil (h : xs.length ≤ i * c) : block c i xs = [] := by
  rw [block, drop_eq_nil_of_le h, take_nil]

theorem block_replicate {n : ℕ} {x : α} :
    block c i (List.replicate n x) = List.replicate (min c (n - i * c)) x := by
  rw [block, drop_replicate, take_replicate]

/-! ## Cutting a list -/

/-- The blocks in order: `xs.chunks(c)`. -/
def batches (c : ℕ) (xs : List α) : List (List α) :=
  (List.range ((xs.length + c - 1) / c)).map fun i => block c i xs

theorem flatMap_block (n : ℕ) :
    (List.range n).flatMap (fun i => block c i xs) = xs.take (n * c) := by
  induction n with
  | zero => simp
  | succ n ih =>
    rw [range_succ, flatMap_append, ih, Nat.succ_mul, take_add]
    simp [block]

@[simp] theorem flatten_batches (hc : 0 < c) : (batches c xs).flatten = xs := by
  rw [batches, ← flatMap_def, flatMap_block, take_of_length_le]
  have h := Nat.lt_div_mul_add (a := xs.length + c - 1) hc
  omega

theorem length_le_of_mem_batches {b : List α} (h : b ∈ batches c xs) : b.length ≤ c := by
  obtain ⟨i, -, rfl⟩ := mem_map.mp h
  rw [length_block]
  exact Nat.min_le_left _ _

variable {β : Type*} {offset : ℕ}

theorem block_map (f : α → β) : block c i (xs.map f) = (block c i xs).map f := by
  rw [block, block, map_take, map_drop]

theorem batches_map (f : α → β) : batches c (xs.map f) = (batches c xs).map (List.map f) := by
  rw [batches, batches, length_map, map_map]
  exact map_congr_left fun i _ => block_map f

/-- Pieces of one width are found again in their concatenation. -/
theorem eq_of_flatMap_eq {w : ℕ} {f g : β → List α} (hf : ∀ i, (f i).length = w)
    (hg : ∀ i, (g i).length = w) {l : List β} (h : l.flatMap f = l.flatMap g) :
    ∀ i ∈ l, f i = g i := by
  induction l with
  | nil => simp
  | cons i l ih =>
    rw [flatMap_cons, flatMap_cons] at h
    obtain ⟨hhe, htail⟩ := append_inj h ((hf i).trans (hg i).symm)
    rw [forall_mem_cons]
    exact ⟨hhe, ih htail⟩

/-! ## Writing at an offset -/

/-- `ys` written at an offset, with `fill` in a gap behind the end. -/
def writeAt (fill : α) (offset : ℕ) (ys xs : List α) : List α :=
  xs.take offset ++ List.replicate (offset - xs.length) fill ++ ys ++ xs.drop (offset + ys.length)

variable {fill : α}

theorem length_writeAt (h : offset + ys.length ≤ xs.length) :
    (writeAt fill offset ys xs).length = xs.length := by
  simp only [writeAt, length_append, length_take, length_replicate, length_drop]
  omega

/-- A write inside the list changes the positions it covers. -/
theorem getElem?_writeAt (h : offset + ys.length ≤ xs.length) (o : ℕ) :
    (writeAt fill offset ys xs)[o]? =
      if offset ≤ o ∧ o < offset + ys.length then ys[o - offset]? else xs[o]? := by
  have hgap : offset - xs.length = 0 := by omega
  have hpre : (xs.take offset).length = offset := by
    rw [length_take]
    omega
  rw [writeAt, hgap, replicate_zero, append_nil]
  split
  case isTrue hin =>
    rw [getElem?_append_left (by rw [length_append]; omega), getElem?_append_right (by omega), hpre]
  case isFalse hout =>
    rcases Nat.lt_or_ge o offset with hlt | _
    · rw [getElem?_append_left (by rw [length_append]; omega),
        getElem?_append_left (by omega), getElem?_take_of_lt hlt]
    rw [getElem?_append_right (by rw [length_append]; omega), getElem?_drop, length_append, hpre]
    congr 1
    omega

/-- A block written in its place is that block afterwards, and no other block changes. -/
theorem block_writeAt (hlen : ys.length = min c (xs.length - i * c)) (hi : i * c ≤ xs.length) :
    block c j (writeAt fill (i * c) ys xs) = if j = i then ys else block c j xs := by
  apply ext_getElem?
  intro k
  rcases Nat.lt_or_ge k c with hk | hk
  case inr =>
    have hno : ∀ zs : List α, zs.length ≤ c → zs[k]? = none := fun zs hz =>
      getElem?_eq_none (by omega)
    rw [hno _ (by rw [length_block]; omega)]
    split
    · rw [hno _ (by omega)]
    · rw [hno _ (by rw [length_block]; omega)]
  case inl =>
    rw [getElem?_block hk, getElem?_writeAt (by omega)]
    by_cases hji : j = i
    · subst hji
      rw [if_pos rfl]
      split
      · congr 1
        omega
      · rw [getElem?_eq_none (by omega), getElem?_eq_none (by omega)]
    · rw [if_neg hji, getElem?_block hk, if_neg]
      -- positions of different blocks differ
      rintro ⟨_, _⟩
      have hdiv : (j * c + k) / c = i := by
        rw [Nat.div_eq_iff (by omega)]
        omega
      rw [Nat.mul_comm, Nat.mul_add_div (by omega), Nat.div_eq_of_lt hk] at hdiv
      omega

end Blocks
