import Mathlib

/-!
# Runs of a deterministic step function

A system whose only nondeterminism is *which* action happens next, and with which inputs, is a
total function `step : σ → α → σ`: the label carries every choice (the process that moves, the
clock it reads, the random id it draws), and an interleaving of any length is a list of labels.

* `run` is the state a list of actions leads to.
* `run_invariant` is the induction over a run: what each step preserves holds at the end of every
  run.  `run_rel` is its form for a preorder each step goes up in, and `run_reaches` for what one of
  the actions establishes.
* `Along` says of every step of a run that it meets a condition.
* `Throughout` says of every state a run goes through that it has a property, the first and the last
  included.  It is what a run that may break off anywhere leaves behind.
-/

namespace Trace

open List

variable {σ α ε : Type*} (step : σ → α → σ)

/-- The state the actions `acts` lead to from `s`. -/
def run (s : σ) (acts : List α) : σ := acts.foldl step s

@[simp] theorem run_nil (s : σ) : run step s [] = s := rfl

@[simp] theorem run_cons (s : σ) (a : α) (acts : List α) :
    run step s (a :: acts) = run step (step s a) acts := rfl

@[simp] theorem run_append (s : σ) (as bs : List α) :
    run step s (as ++ bs) = run step (run step s as) bs :=
  foldl_append

variable {step}

theorem run_concat (s : σ) (acts : List α) (a : α) :
    run step s (acts ++ [a]) = step (run step s acts) a := foldl_append

variable {P : σ → Prop} {acts : List α} {s : σ}

/-- **The invariant rule.**  What every step of a run preserves, the run preserves. -/
theorem run_invariant_of_mem (hstp : ∀ s, ∀ a ∈ acts, P s → P (step s a)) (h : P s) :
    P (run step s acts) := by
  induction acts generalizing s with
  | nil => exact h
  | cons a _ ih =>
    refine ih (fun s b hb => hstp s b (mem_cons_of_mem _ hb)) ?_
    exact hstp s a mem_cons_self h

theorem run_invariant (hstp : ∀ s a, P s → P (step s a)) (h : P s) (acts : List α) :
    P (run step s acts) :=
  run_invariant_of_mem (fun s a _ => hstp s a) h

/-- A preorder that every step goes up in relates the two ends of every run. -/
theorem run_rel {R : σ → σ → Prop} (hrefl : ∀ s, R s s) (htrans : ∀ {s t u}, R s t → R t u → R s u)
    (hstp : ∀ s a, R s (step s a)) (s : σ) (acts : List α) : R s (run step s acts) := by
  induction acts generalizing s with
  | nil => exact hrefl s
  | cons a _ ih => exact htrans (hstp s a) (ih (step s a))

/-- What an action establishes and every step preserves holds after a run with that action. -/
theorem run_reaches {a : α} (hstp : ∀ s b, P s → P (step s b)) (hact : ∀ s, P (step s a)) (s : σ)
    (h : a ∈ acts) : P (run step s acts) := by
  obtain ⟨_, rest, rfl⟩ := append_of_mem h
  rw [run_append, run_cons]
  exact run_invariant hstp (hact _) rest

/-! ## Conditions on the steps of a run -/

variable (step) in
/-- Every step of the run meets `Q`, which is told the state before it and the action. -/
def Along (Q : σ → α → Prop) (s : σ) (acts : List α) : Prop :=
  ∀ before a after, acts = before ++ a :: after → Q (run step s before) a

section

variable {Q : σ → α → Prop} {s : σ} {a : α} {acts before : List α}

theorem along_nil : Along step Q s [] := by
  intro _ _ _ h
  simp at h

theorem along_cons_iff : Along step Q s (a :: acts) ↔ Q s a ∧ Along step Q (step s a) acts := by
  constructor
  · intro h
    refine ⟨h [] a acts rfl, fun before b after hsp => ?_⟩
    exact h (a :: before) b after (by rw [hsp, cons_append])
  rintro ⟨ha, hrs⟩ before b after hsp
  cases before with
  | nil =>
    obtain ⟨rfl, -⟩ := List.cons.inj hsp
    exact ha
  | cons x before =>
    obtain ⟨rfl, hacts⟩ := List.cons.inj hsp
    exact hrs before b after hacts

/-- A condition that can be decided can be decided along a run. -/
instance decidableAlong [∀ s a, Decidable (Q s a)] : ∀ s acts, Decidable (Along step Q s acts)
  | _, [] => isTrue along_nil
  | s, a :: acts =>
    have := decidableAlong (step s a) acts
    decidable_of_iff (Q s a ∧ Along step Q (step s a) acts) along_cons_iff.symm

theorem along_of_mem (h : ∀ a ∈ acts, ∀ s, Q s a) : Along step Q s acts := by
  intro _ a _ hsp
  exact h a (by simp [hsp]) _

theorem Along.of_prefix (h : Along step Q s acts) (hpre : before <+: acts) :
    Along step Q s before := by
  obtain ⟨rest, rfl⟩ := hpre
  intro b a after hsp
  exact h b a (after ++ rest) (by rw [hsp, append_assoc, cons_append])

theorem Along.last (h : Along step Q s (acts ++ [a])) : Q (run step s acts) a := h acts a [] rfl

/-- A run goes on meeting a condition when its next step does. -/
theorem Along.concat (h : Along step Q s acts) (ha : Q (run step s acts) a) :
    Along step Q s (acts ++ [a]) := by
  intro before x after hsp
  rcases eq_nil_or_concat after with rfl | ⟨rest, y, rfl⟩
  · obtain ⟨rfl, hx⟩ := append_inj' hsp rfl
    cases hx
    exact ha
  · have hsp' : acts ++ [a] = (before ++ x :: rest) ++ [y] := by simpa using hsp
    obtain ⟨hacts, -⟩ := append_inj' hsp' rfl
    exact h before x rest hacts

theorem Along.imp {Q' : σ → α → Prop} (h : Along step Q s acts) (himp : ∀ s a, Q s a → Q' s a) :
    Along step Q' s acts :=
  fun before a after hsp => himp _ _ (h before a after hsp)

/-- The induction over a run whose steps meet a condition. -/
theorem Along.invariant {P : σ → Prop} (h : Along step Q s acts)
    (hstp : ∀ s a, P s → Q s a → P (step s a)) (hs : P s) : P (run step s acts) := by
  induction acts using List.reverseRecOn with
  | nil => exact hs
  | append_singleton _ _ ih =>
    rw [run_append]
    exact hstp _ _ (ih (h.of_prefix (prefix_append _ _))) h.last

end

/-! ## Every state of a run -/

variable (step) in
/-- Every state the run goes through has `P`. -/
def Throughout (P : σ → Prop) (s : σ) (acts : List α) : Prop :=
  ∀ before, before <+: acts → P (run step s before)

section

variable {P : σ → Prop} {s : σ} {a : α} {acts rest : List α}

theorem throughout_nil (h : P s) : Throughout step P s [] := by
  intro _ hpre
  rw [prefix_nil.mp hpre]
  exact h

theorem throughout_cons (h : P s) (hrs : Throughout step P (step s a) acts) :
    Throughout step P s (a :: acts) := by
  intro _ hpre
  rcases prefix_cons_iff.mp hpre with rfl | ⟨after, rfl, haft⟩
  · exact h
  · exact hrs after haft

theorem throughout_singleton (h : P s) (h' : P (step s a)) : Throughout step P s [a] :=
  throughout_cons h (throughout_nil h')

theorem Throughout.last (h : Throughout step P s acts) : P (run step s acts) := h acts prefix_rfl

theorem Throughout.append (h : Throughout step P s acts)
    (hrs : Throughout step P (run step s acts) rest) : Throughout step P s (acts ++ rest) := by
  intro before hpre
  rcases prefix_or_prefix_of_prefix hpre (prefix_append acts rest) with hle | ⟨after, rfl⟩
  · exact h before hle
  rw [run_append]
  exact hrs after ((prefix_append_right_inj acts).mp hpre)

end

end Trace
