import Mathlib

/-!
# Shared holders against one exclusive holder

The abstract lock behind every reader–writer gate: any number of *shared* holders, or one
*exclusive* one, never both.  A step lets a shared holder in while nobody is exclusive, lets
shared holders go, grants the exclusive side when no shared holder is left, or ends it.

`Steps.safe` is the point of the lock.  A concrete gate is shown to be one by giving the lock its
state stands for and proving that each of its steps is `Steps`.
-/

/-- The shared holders, and whether the exclusive side is taken. -/
@[ext] structure SharedExclusive (η : Type*) where
  holders : Set η
  exclusive : Bool

namespace SharedExclusive

variable {η : Type*} {l l' : SharedExclusive η}

/-- One move on the lock. -/
inductive Step : SharedExclusive η → SharedExclusive η → Prop
  /-- A shared holder enters while nobody is exclusive. -/
  | enter {l : SharedExclusive η} (h : η) (free : l.exclusive = false) :
    Step l { l with holders := insert h l.holders }
  /-- Shared holders leave. -/
  | leave {l : SharedExclusive η} {hs : Set η} (sub : hs ⊆ l.holders) :
    Step l { l with holders := hs }
  /-- The exclusive side is granted when no shared holder is left. -/
  | acquire {l : SharedExclusive η} (none : l.holders = ∅) : Step l { l with exclusive := true }
  /-- The exclusive side ends. -/
  | release {l : SharedExclusive η} : Step l { l with exclusive := false }

/-- Any number of moves. -/
abbrev Steps : SharedExclusive η → SharedExclusive η → Prop := Relation.ReflTransGen Step

/-- The exclusive holder is alone. -/
def Safe (l : SharedExclusive η) : Prop := l.exclusive = true → l.holders = ∅

theorem Step.safe (h : Step l l') (hs : l.Safe) : l'.Safe := by
  cases h with
  | enter h free =>
    intro hex
    rw [free] at hex
    cases hex
  | leave sub =>
    intro hex
    exact Set.subset_eq_empty sub (hs hex)
  | acquire none => exact fun _ => none
  | release => exact nofun

theorem Steps.safe (h : Steps l l') (hs : l.Safe) : l'.Safe := by
  induction h with
  | refl => exact hs
  | tail _ hstp ih => exact hstp.safe ih

/-- Letting holders go and perhaps ending the exclusive side is a run of the lock. -/
theorem steps_of_le (hh : l'.holders ⊆ l.holders) (he : l'.exclusive = true → l.exclusive = true) :
    Steps l l' := by
  have h₁ : Step l { l with holders := l'.holders } := .leave hh
  cases hl' : l'.exclusive with
  | true =>
    have : ({ l with holders := l'.holders } : SharedExclusive η) = l' :=
      SharedExclusive.ext rfl (by rw [hl', he hl'])
    exact this ▸ .single h₁
  | false =>
    have h₂ : Step { l with holders := l'.holders } l' := by
      have : l' = { ({ l with holders := l'.holders } : SharedExclusive η) with
          exclusive := false } := SharedExclusive.ext rfl hl'
      exact this ▸ .release
    exact (Relation.ReflTransGen.single h₁).tail h₂

end SharedExclusive
