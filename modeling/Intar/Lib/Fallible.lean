import Mathlib

/-!
# Computations that may throw

Small facts about `Except` for code that runs through a list and stops at the first throw: what a
success says about each element, and about the list of results.
-/

namespace Fallible

variable {ε α β : Type}

variable {x : Except ε α} {f : α → Except ε β} {b : β} {p : Prop} {a : α} {as : List α}
  {out : List β}

/-- A sequence succeeds only when both of its parts do. -/
theorem bind_eq_ok : (x >>= f) = .ok b ↔ ∃ a, x = .ok a ∧ f a = .ok b := by
  cases x with
  | error | ok => simp [bind, Except.bind]

@[simp] theorem ok_bind (a : α) (f : α → Except ε β) : (Except.ok a >>= f) = f a := rfl

/-- `ensure!`: throw unless the condition holds. -/
def ensure (p : Prop) [Decidable p] (e : ε) : Except ε Unit := if p then .ok () else .error e

@[simp] theorem ensure_eq_ok [Decidable p] {e : ε} {u : Unit} : ensure p e = .ok u ↔ p := by
  rw [ensure]
  split_ifs with h
  · exact iff_of_true rfl h
  · exact iff_of_false nofun h

theorem ensure_of [Decidable p] (h : p) (e : ε) : ensure p e = .ok () := if_pos h

theorem mapError_eq_ok {ε' : Type} {f : ε → ε'} : x.mapError f = .ok a ↔ x = .ok a := by
  cases x with
  | error => exact iff_of_false nofun nofun
  | ok => simp [Except.mapError]

theorem map_eq_ok {f : α → β} : (f <$> x) = .ok b ↔ ∃ a, x = .ok a ∧ f a = b := by
  cases x with
  | error | ok => simp [Functor.map, Except.map]

/-- Apply `f` to each element, in order, up to the first throw. -/
def each (f : α → Except ε β) : List α → Except ε (List β)
  | [] => .ok []
  | a :: as => do
    let b ← f a
    let bs ← each f as
    return b :: bs

theorem each_cons_eq_ok :
    each f (a :: as) = .ok out ↔ ∃ b bs, f a = .ok b ∧ each f as = .ok bs ∧ out = b :: bs := by
  rw [each, bind_eq_ok]
  constructor
  · rintro ⟨b, hb, h⟩
    obtain ⟨bs, hbs, h⟩ := bind_eq_ok.mp h
    cases h
    exact ⟨b, bs, hb, hbs, rfl⟩
  · rintro ⟨b, bs, hb, hbs, rfl⟩
    exact ⟨b, hb, bind_eq_ok.mpr ⟨bs, hbs, rfl⟩⟩

/-- When nothing threw, every element has its result among the results. -/
theorem exists_mem_of_each (h : each f as = .ok out) (ha : a ∈ as) : ∃ b ∈ out, f a = .ok b := by
  induction as generalizing out with
  | nil => cases ha
  | cons _ _ ih =>
    obtain ⟨b, _, hb, hbs, rfl⟩ := each_cons_eq_ok.mp h
    rcases List.mem_cons.mp ha with rfl | ha
    · exact ⟨b, by simp, hb⟩
    obtain ⟨c, hc, hfc⟩ := ih hbs ha
    exact ⟨c, by simp [hc], hfc⟩

/-- And every result comes from an element. -/
theorem exists_of_mem_each (h : each f as = .ok out) (hb : b ∈ out) : ∃ a ∈ as, f a = .ok b := by
  induction as generalizing out with
  | nil =>
    cases h
    cases hb
  | cons a _ ih =>
    obtain ⟨_, _, hc, hcs, rfl⟩ := each_cons_eq_ok.mp h
    rcases List.mem_cons.mp hb with rfl | hb
    · exact ⟨a, by simp, hc⟩
    obtain ⟨a', ha', hfa'⟩ := ih hcs hb
    exact ⟨a', by simp [ha'], hfa'⟩

/-- When no element throws, nothing does. -/
theorem each_ok (h : ∀ a ∈ as, ∃ b, f a = .ok b) : ∃ out, each f as = .ok out := by
  induction as with
  | nil => exact ⟨[], rfl⟩
  | cons _ _ ih =>
    rw [List.forall_mem_cons] at h
    obtain ⟨b, hb⟩ := h.1
    obtain ⟨bs, hbs⟩ := ih h.2
    exact ⟨b :: bs, each_cons_eq_ok.mpr ⟨b, bs, hb, hbs, rfl⟩⟩

/-- What each result keeps of its element, the results keep of the elements, in order. -/
theorem map_eq_of_each {γ : Type} {g : β → γ} {k : α → γ} (hf : ∀ a b, f a = .ok b → g b = k a)
    (h : each f as = .ok out) :
    out.map g = as.map k := by
  induction as generalizing out with
  | nil =>
    cases h
    rfl
  | cons a _ ih =>
    obtain ⟨b, _, hb, hbs, rfl⟩ := each_cons_eq_ok.mp h
    rw [List.map_cons, List.map_cons, hf a b hb, ih hbs]

end Fallible
