import Intar.Lib.Trace

/-!
# Versioned cells

A cell whose value carries a version that every write raises by one.  Its past is its first value
and the list of the writes, and its value now is the run of those writes (`Trace.run`).

Optimistic concurrency rests on one fact about such a cell: a value it once held, with the version
it has now, *is* the value it has now (`eq_run_of_version_eq`).  So a write that is conditional on
the version read is conditional on the value read, however long ago the read was.
-/

namespace Versioned

open Trace

variable {δ μ : Type*} (apply : δ → μ → δ) (version : δ → Nat)

/-- Every write of the log raises the version by one. -/
def Bumps (base : δ) (log : List μ) : Prop :=
  Along apply (fun d m => version (apply d m) = version d + 1) base log

/-- The cell has held `d`: it was the value after some part of the log. -/
def Held (base : δ) (log : List μ) (d : δ) : Prop :=
  ∃ before, before <+: log ∧ d = run apply base before

variable {apply version} {base d : δ} {log : List μ} {m : μ}

/-- The version counts the writes. -/
theorem Bumps.version_run (h : Bumps apply version base log) :
    version (run apply base log) = version base + log.length := by
  induction log using List.reverseRecOn with
  | nil => rfl
  | append_singleton _ _ ih =>
    have hlog := ih (Along.of_prefix h (List.prefix_append _ _))
    have hm := Along.last h
    rw [run_append, run_cons, run_nil, hm, hlog, List.length_append, List.length_singleton]
    omega

theorem held_run : Held apply base log (run apply base log) := ⟨log, List.prefix_refl log, rfl⟩

theorem Held.concat (h : Held apply base log d) : Held apply base (log ++ [m]) d := by
  obtain ⟨before, hpre, hd⟩ := h
  exact ⟨before, hpre.trans (List.prefix_append _ _), hd⟩

/-- **The version identifies the value.**  What the cell once held under its present version is what
it holds now. -/
theorem Bumps.eq_run_of_version_eq (h : Bumps apply version base log) (hd : Held apply base log d)
    (hver : version d = version (run apply base log)) : d = run apply base log := by
  obtain ⟨before, hpre, rfl⟩ := hd
  have hbef := Bumps.version_run (Along.of_prefix h hpre)
  have hlen : before.length = log.length := by
    have hlog := h.version_run
    omega
  rw [hpre.eq_of_length hlen]

end Versioned
