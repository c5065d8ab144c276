import Mathlib

/-!
# Atomic batches of guarded statements over tables

A batch is a list of statements that a database runs one after another in one transaction: a
statement that violates a constraint fails, and then the whole batch leaves the state as it was.

* `Statement` is one statement: it fails, or gives the next state and the number of rows it
  affected.
* `Batch.exec` runs the statements in order, and `Batch.commit` is the state after the
  transaction: the last state, or on an error the first one.
* `Batch.commit_invariant` and `Batch.commit_rel` reduce a fact about a batch to its statements.
* `Table` has the row operations the statements are made of: `update`, `delete`, `insert` with a
  key that must be new, `insertUnder` unique indexes, and `select` with an order and a limit.
-/

/-- One statement of a batch on a state `σ`: it fails with a constraint error, or gives the next
state and how many rows it affected. -/
abbrev Statement (σ ε : Type*) := σ → Except ε (σ × Nat)

namespace Batch

variable {σ ε : Type*}

/-- Run the statements in order; the first that fails ends the run. -/
def exec : List (Statement σ ε) → σ → Except ε (σ × List Nat)
  | [], s => .ok (s, [])
  | q :: qs, s =>
    match q s with
    | .error e => .error e
    | .ok (s', n) =>
      match exec qs s' with
      | .error e => .error e
      | .ok (s'', ns) => .ok (s'', n :: ns)

/-- The state after the transaction: all statements took effect, or none did. -/
def commit (qs : List (Statement σ ε)) (s : σ) : σ :=
  match exec qs s with
  | .ok (s', _) => s'
  | .error _ => s

variable {q : Statement σ ε} {qs : List (Statement σ ε)} {s t : σ} {ns : List Nat} {e : ε}
  {R : σ → σ → Prop}

/-- What a successful batch did, statement by statement. -/
theorem exec_cons_eq_ok :
    exec (q :: qs) s = .ok (t, ns) ↔
      ∃ s' n ns', q s = .ok (s', n) ∧ exec qs s' = .ok (t, ns') ∧ ns = n :: ns' := by
  rw [exec]
  split
  · rename_i he
    simp [he]
  rename_i s' n hq
  split
  · rename_i he
    simp [hq, he]
  rename_i ns' hs
  simp only [hq, Except.ok.injEq, Prod.mk.injEq]
  constructor
  · rintro ⟨rfl, rfl⟩
    exact ⟨s', n, ns', ⟨rfl, rfl⟩, hs, rfl⟩
  · rintro ⟨_, _, _, ⟨rfl, rfl⟩, h, rfl⟩
    rw [hs, Except.ok.injEq, Prod.mk.injEq] at h
    exact ⟨h.1, by rw [h.2]⟩

/-- A batch can be cut in two. -/
theorem exec_append_eq_ok {rs : List (Statement σ ε)} {u : σ} :
    exec (qs ++ rs) s = .ok (u, ns) ↔
      ∃ t ns₁ ns₂, exec qs s = .ok (t, ns₁) ∧ exec rs t = .ok (u, ns₂) ∧ ns = ns₁ ++ ns₂ := by
  induction qs generalizing s ns with
  | nil =>
    constructor
    · intro h
      exact ⟨s, [], ns, rfl, h, rfl⟩
    · rintro ⟨_, _, _, hnil, h, rfl⟩
      cases hnil
      exact h
  | cons _ _ ih =>
    rw [List.cons_append, exec_cons_eq_ok]
    constructor
    · rintro ⟨s', n, _, hq, hrst, rfl⟩
      obtain ⟨t, ns₁, ns₂, hqs, hrs, rfl⟩ := ih.mp hrst
      exact ⟨t, n :: ns₁, ns₂, exec_cons_eq_ok.mpr ⟨s', n, ns₁, hq, hqs, rfl⟩, hrs, rfl⟩
    · rintro ⟨t, _, ns₂, hqs, hrs, rfl⟩
      obtain ⟨s', n, ns', hq, hrst, rfl⟩ := exec_cons_eq_ok.mp hqs
      exact ⟨s', n, ns' ++ ns₂, hq, ih.mpr ⟨t, ns', ns₂, hrst, hrs, rfl⟩, rfl⟩

/-- A batch fails where the first of its statements fails. -/
theorem exec_cons_eq_error :
    exec (q :: qs) s = .error e ↔
      q s = .error e ∨ ∃ s' n, q s = .ok (s', n) ∧ exec qs s' = .error e := by
  rw [exec]
  split
  · rename_i he
    simp [he]
  rename_i hq
  split
  · rename_i he
    simp [hq, he]
  rename_i hs
  simp only [hq, reduceCtorEq, false_or, false_iff, not_exists, not_and]
  intro t m htm hfail
  cases htm
  rw [hs] at hfail
  cases hfail

/-- A batch whose statements find nothing to do does nothing. -/
theorem exec_of_idle (hq : ∀ q ∈ qs, q s = .ok (s, 0)) :
    exec qs s = .ok (s, List.replicate qs.length 0) := by
  induction qs with
  | nil => rfl
  | cons q _ ih =>
    have hrs := ih fun q' hq' => hq q' (List.mem_cons_of_mem _ hq')
    rw [exec, hq q List.mem_cons_self]
    simp only [hrs]
    rfl

theorem commit_of_ok (h : exec qs s = .ok (t, ns)) : commit qs s = t := by
  rw [commit, h]

theorem commit_of_error (h : exec qs s = .error e) : commit qs s = s := by
  rw [commit, h]

/-- A relation that every statement's success stays in relates the ends of a batch. -/
theorem exec_rel (hrefl : ∀ s, R s s) (htrans : ∀ {a b c}, R a b → R b c → R a c)
    (hq : ∀ q ∈ qs, ∀ s s' n, q s = .ok (s', n) → R s s') (h : exec qs s = .ok (t, ns)) :
    R s t := by
  induction qs generalizing s ns with
  | nil =>
    simp only [exec, Except.ok.injEq, Prod.mk.injEq] at h
    exact h.1 ▸ hrefl s
  | cons q _ ih =>
    obtain ⟨s', n, _, hs, hrs, -⟩ := exec_cons_eq_ok.mp h
    exact htrans (hq q (by simp) s s' n hs) (ih (fun q' hq' => hq q' (by simp [hq'])) hrs)

theorem commit_rel (hrefl : ∀ s, R s s) (htrans : ∀ {a b c}, R a b → R b c → R a c)
    (hq : ∀ q ∈ qs, ∀ s s' n, q s = .ok (s', n) → R s s') (s : σ) : R s (commit qs s) := by
  rw [commit]
  split
  · rename_i h
    exact exec_rel hrefl htrans hq h
  · exact hrefl s

end Batch

namespace Table

variable {ρ κ ε : Type*}

/-- `UPDATE … SET f WHERE p`. -/
def update (p : ρ → Bool) (f : ρ → ρ) (t : List ρ) : List ρ := t.map fun r => if p r then f r else r

/-- `DELETE … WHERE p`. -/
def delete (p : ρ → Bool) (t : List ρ) : List ρ := t.filter fun r => !p r

/-- `INSERT` of one row under a unique key: it fails when the key is taken. -/
def insert [DecidableEq κ] (key : ρ → κ) (r : ρ) (t : List ρ) : Option (List ρ) :=
  if t.any fun x => decide (key x = key r) then none else some (t ++ [r])

/-- A unique index: which two rows collide in it, and the error a collision gives. -/
structure UniqueIndex (ρ ε : Type*) where
  collide : ρ → ρ → Bool
  error : ε

/-- `INSERT` of one row under unique indexes; the first index in which the row collides names the
error. -/
def insertUnder (indexes : List (UniqueIndex ρ ε)) (r : ρ) (t : List ρ) : Except ε (List ρ) :=
  match indexes.find? fun i => t.any fun x => i.collide x r with
  | some i => .error i.error
  | none => .ok (t ++ [r])

/-- No two rows collide. -/
def Respects (indexes : List (UniqueIndex ρ ε)) (t : List ρ) : Prop :=
  t.Pairwise fun a b => ∀ i ∈ indexes, i.collide a b = false

/-- `SELECT … WHERE p ORDER BY rank LIMIT n`, where a negative limit is no limit. -/
def select (p : ρ → Bool) (rank : ρ → Int) (limit : Int) (t : List ρ) : List ρ :=
  let rows := (t.filter p).insertionSort fun a b => rank a ≤ rank b
  if limit < 0 then rows else rows.take limit.toNat

variable {p : ρ → Bool} {f : ρ → ρ} {t : List ρ} {r : ρ} {g : ρ → κ}

theorem mem_update : r ∈ update p f t ↔ ∃ x ∈ t, (if p x then f x else x) = r := by
  simp [update]

/-- An update does not show in what it keeps of every row. -/
theorem map_update (hg : ∀ r, g (f r) = g r) : (update p f t).map g = t.map g := by
  rw [update, List.map_map]
  refine List.map_congr_left fun r _ => ?_
  rw [Function.comp_apply]
  split
  · exact hg r
  · rfl

theorem map_update_subset (hg : ∀ r, g (f r) = g r) : (update p f t).map g ⊆ t.map g := by
  rw [map_update hg]
  exact List.Subset.refl _

theorem map_delete_subset : (delete p t).map g ⊆ t.map g :=
  List.map_subset g List.filter_sublist.subset

@[simp] theorem mem_delete : r ∈ delete p t ↔ r ∈ t ∧ p r = false := by
  simp [delete]

theorem insert_eq_ite [DecidableEq κ] (key : ρ → κ) (r : ρ) (t : List ρ) :
    insert key r t = if key r ∈ t.map key then none else some (t ++ [r]) := by
  simp [insert, List.mem_map]

theorem insert_eq_some [DecidableEq κ] {key : ρ → κ} {t' : List ρ} :
    insert key r t = some t' ↔ (∀ x ∈ t, key x ≠ key r) ∧ t' = t ++ [r] := by
  rw [insert]
  split
  · rename_i h
    obtain ⟨x, hx, hk⟩ := List.any_eq_true.mp h
    simp only [reduceCtorEq, false_iff, not_and]
    intro hnew
    exact absurd (of_decide_eq_true hk) (hnew x hx)
  · rename_i h
    simp only [Option.some.injEq]
    constructor
    · rintro rfl
      refine ⟨fun x hx hk => h (List.any_eq_true.mpr ⟨x, hx, decide_eq_true hk⟩), rfl⟩
    · rintro ⟨-, rfl⟩
      rfl

section

variable {indexes : List (UniqueIndex ρ ε)} {r : ρ} {t t' : List ρ}

theorem insertUnder_eq_ok : insertUnder indexes r t = .ok t' ↔
    (∀ i ∈ indexes, ∀ x ∈ t, i.collide x r = false) ∧ t' = t ++ [r] := by
  rw [insertUnder]
  split
  · rename_i i hi
    have hany := List.find?_some (p := fun i : UniqueIndex ρ ε => t.any fun x => i.collide x r) hi
    obtain ⟨x, hx, hcol⟩ := List.any_eq_true.mp hany
    simp only [reduceCtorEq, false_iff, not_and]
    intro hfr
    rw [hfr i (List.mem_of_find?_eq_some hi) x hx] at hcol
    cases hcol
  · rename_i hno
    have hfr : ∀ i ∈ indexes, ∀ x ∈ t, i.collide x r = false := by
      intro i hi x hx
      have hi' := List.find?_eq_none.mp hno i hi
      exact Bool.eq_false_iff.mpr fun hcol => hi' (List.any_eq_true.mpr ⟨x, hx, hcol⟩)
    rw [Except.ok.injEq]
    exact ⟨fun h => ⟨hfr, h.symm⟩, fun h => h.2.symm⟩

theorem Respects.insertUnder (h : Respects indexes t)
    (hins : insertUnder indexes r t = .ok t') : Respects indexes t' := by
  obtain ⟨hfr, rfl⟩ := insertUnder_eq_ok.mp hins
  refine List.pairwise_append.mpr ⟨h, List.pairwise_singleton _ _, ?_⟩
  intro x hx y hy i hi
  rw [List.mem_singleton.mp hy]
  exact hfr i hi x hx

/-- Two rows that collide in an index are one row. -/
theorem Respects.eq_of_collide (h : Respects indexes t) {i : UniqueIndex ρ ε} (hi : i ∈ indexes)
    (hsymm : ∀ a b, i.collide a b = i.collide b a) {a b : ρ} (ha : a ∈ t) (hb : b ∈ t)
    (hcol : i.collide a b = true) : a = b := by
  by_contra hne
  have hpairs : t.Pairwise fun a b => i.collide a b = false := h.imp fun hall => hall i hi
  have : Std.Symm fun a b => i.collide a b = false := ⟨fun a b hab => (hsymm b a).trans hab⟩
  have hfls := hpairs.forall ha hb hne
  rw [hcol] at hfls
  cases hfls

/-- Rows may change as long as no two of them begin to collide. -/
theorem Respects.update (h : Respects indexes t) {p : ρ → Bool} {f : ρ → ρ}
    (hf : ∀ i ∈ indexes, ∀ a b, i.collide a b = false →
      i.collide (if p a then f a else a) (if p b then f b else b) = false) :
    Respects indexes (update p f t) := by
  refine List.pairwise_map.mpr (h.imp ?_)
  intro a b hab i hi
  exact hf i hi a b (hab i hi)

end

end Table
