import Intar.Jailer.MemoryChanges
import Intar.Jailer.HostChanges

/-!
# Ending a unit

The sequences of changes that stop a unit, destroy it and clean up behind it.  They leave the memory of
the daemon alone, and they keep the invariant after each of their changes.  What they report is true of
the host: where the drain is proven the unit is not running, and where nothing failed there is no
metadata left either.
-/

namespace Intar.Jailer

open SortedTable (erase mem_erase)
open Trace (run throughout_nil throughout_cons throughout_singleton)

/-- The invariant holds in every state the changes go through. -/
def Keeps (G : Guards) (s : State) (changes : List Change) : Prop :=
  Trace.Throughout State.apply (Inv G) s changes

/-- Nothing but the host is another. -/
structure SameMemory (s s' : State) : Prop where
  core : s'.toJailerdCore = s.toJailerdCore
  running : s'.running = s.running
  tasks : s'.tasks = s.tasks
  checks : s'.checks = s.checks
  births : s'.births = s.births

namespace SameMemory

variable {s s' s'' : State}

theorem refl (s : State) : SameMemory s s := ⟨rfl, rfl, rfl, rfl, rfl⟩

variable (h : SameMemory s s')

include h

theorem trans (h' : SameMemory s' s'') : SameMemory s s'' :=
  ⟨h'.core.trans h.core, h'.running.trans h.running, h'.tasks.trans h.tasks,
    h'.checks.trans h.checks, h'.births.trans h.births⟩

theorem records : s'.records = s.records := congrArg (·.records) h.core

theorem pending : s'.pendingCpuReservations = s.pendingCpuReservations :=
  congrArg (·.pendingCpuReservations) h.core

theorem allocated : s'.allocatedIdentities = s.allocatedIdentities :=
  congrArg (·.allocatedIdentities) h.core

end SameMemory

variable {G : Guards} {s : State} {generation : ValidatedId} {a : HostAnswers}

/-! ## One operation on the file system -/

theorem run_took (s : State) (answer : Answer) (change : Change) :
    run State.apply s (answer.took change) =
      if answer = .failed then s else s.apply change := by
  rw [Answer.took]
  split <;> rfl

theorem keeps_took {answer : Answer} {change : Change} (h : Inv G s)
    (h' : Inv G (s.apply change)) : Keeps G s (answer.took change) := by
  rw [Answer.took]
  split
  · exact throughout_nil h
  · exact throughout_singleton h h'

/-! ## Stop and destroy -/

theorem not_live_drain (s : State) (generation : ValidatedId) :
    ¬ (s.apply (.drain generation)).Live generation := by
  rintro ⟨_, hun, heq⟩
  exact (mem_erase.mp hun).2 heq

theorem drain_drain (s : State) (generation : ValidatedId) :
    (s.apply (.drain generation)).apply (.drain generation) = s.apply (.drain generation) := by
  simp [State.apply, erase, List.filter_filter]

theorem run_stopAndDestroy (s : State) (generation : ValidatedId) (a : HostAnswers) :
    run State.apply s (stopAndDestroy generation a) =
      if a.drainProven then s.apply (.drain generation) else s := by
  cases hstp : a.stop <;> cases hdestroy : a.destroy <;>
    simp [stopAndDestroy, HostAnswers.drainProven, hstp, hdestroy, run, drain_drain]

theorem keeps_stopAndDestroy (h : Inv G s) : Keeps G s (stopAndDestroy generation a) := by
  have hdrn := h.drain generation
  rw [stopAndDestroy]
  split <;> split
  · exact throughout_cons h (throughout_singleton hdrn (hdrn.drain generation))
  · exact throughout_singleton h hdrn
  · exact throughout_singleton h hdrn
  · exact throughout_nil h

/-! ## Quarantine behind a drained unit -/

theorem keeps_endUnit (h : Inv G s)
    (htks : G.destroys → ∀ task ∈ s.tasks, task.generation = generation →
      ∀ r, task.stage ≠ .starting r) : Keeps G s (endUnit generation a) := by
  refine Trace.Throughout.append (keeps_stopAndDestroy h) ?_
  rw [run_stopAndDestroy]
  cases a.drainProven with
  | false => exact throughout_nil h
  | true =>
    have hdrn := h.drain generation
    exact keeps_took hdrn (hdrn.remove (not_live_drain s generation) htks)

theorem run_endUnit (s : State) (generation : ValidatedId) (a : HostAnswers) :
    run State.apply s (endUnit generation a) =
      if a.drainProven then
        if a.quarantine = .failed then s.apply (.drain generation)
        else (s.apply (.drain generation)).apply (.remove generation)
      else s := by
  rw [endUnit, Trace.run_append, run_stopAndDestroy]
  cases a.drainProven with
  | false => rfl
  | true => exact run_took _ _ _

theorem sameMemory_endUnit (s : State) (generation : ValidatedId) (a : HostAnswers) :
    SameMemory s (run State.apply s (endUnit generation a)) := by
  rw [run_endUnit]
  split
  · split <;> exact ⟨rfl, rfl, rfl, rfl, rfl⟩
  · exact SameMemory.refl s

/-- What is on the host besides the generation stays. -/
theorem frame_endUnit {s t : State} {generation : ValidatedId} {a : HostAnswers}
    (ht : run State.apply s (endUnit generation a) = t) :
    (∀ u ∈ t.units, u ∈ s.units) ∧ (∀ m ∈ t.metadata, m ∈ s.metadata) ∧
      (∀ m ∈ s.metadata, m.generation ≠ generation → m ∈ t.metadata) ∧
      t.reservations = s.reservations := by
  rw [← ht, run_endUnit]
  split
  · split
    · exact ⟨fun u hu => (mem_erase.mp hu).1, fun m hm => hm, fun m hm _ => hm, rfl⟩
    exact ⟨fun u hu => (mem_erase.mp hu).1, fun m hm => (mem_erase.mp hm).1,
      fun m hm hne => mem_erase.mpr ⟨hm, hne⟩, rfl⟩
  · exact ⟨fun u hu => hu, fun m hm => hm, fun m hm _ => hm, rfl⟩

theorem not_live_endUnit (s : State) (generation : ValidatedId) (h : a.drainProven = true) :
    ¬ (run State.apply s (endUnit generation a)).Live generation := by
  rw [run_endUnit, if_pos h]
  split
  · exact not_live_drain s generation
  · exact not_live_drain s generation

theorem not_onDisk_endUnit (s : State) (generation : ValidatedId) (h : a.drainProven = true)
    (hq : a.quarantine = .done) :
    ¬ (run State.apply s (endUnit generation a)).OnDisk generation := by
  rw [run_endUnit, if_pos h, if_neg (by simp [hq])]
  rintro ⟨_, hrec, heq⟩
  exact (mem_erase.mp hrec).2 heq

/-! ## Rollback -/

theorem clean_of_rollback (h : (rollbackFailedLaunch generation a).1 = []) :
    a.drainProven = true ∧ a.quarantine = .done := by
  by_cases hprov : a.drainProven = true
  · refine ⟨hprov, ?_⟩
    by_contra hq
    simp [rollbackFailedLaunch, hprov, hq] at h
  · simp [rollbackFailedLaunch, hprov] at h

theorem keeps_failLaunch (h : Inv G s) (htk : ∀ task ∈ s.tasks, task.generation ≠ generation) :
    Keeps G s (failLaunch generation a) := by
  have hend : Keeps G s (endUnit generation a) :=
    keeps_endUnit h fun _ task ht heq => absurd heq (htk task ht)
  have hmem := sameMemory_endUnit s generation a
  have htk' : ∀ task ∈ (run State.apply s (endUnit generation a)).tasks,
      task.generation ≠ generation := by
    rw [hmem.tasks]
    exact htk
  refine hend.append ?_
  split
  · rename_i hcl
    obtain ⟨hprov, hq⟩ := clean_of_rollback hcl
    have hlv := not_live_endUnit s generation hprov
    have hdk := not_onDisk_endUnit s generation hprov hq
    have h₁ := hend.last.discharge (fun hl => absurd hl hlv) htk'
    refine throughout_cons hend.last (throughout_singleton h₁ (h₁.settle ?_ ?_))
    · exact fun _ hl => absurd hl hlv
    · exact fun _ _ _ m hm hgen => absurd ⟨m, hm, hgen⟩ hdk
  · split
    · rename_i hprov
      have h₁ := hend.last.discharge
        (fun hl => absurd hl (not_live_endUnit s generation hprov)) htk'
      exact throughout_cons hend.last (throughout_singleton h₁ h₁.distrust)
    · exact throughout_singleton hend.last hend.last.distrust

theorem keeps_containFailedBootSeal {record : VmRecord} (h : Inv G s)
    (htk : ∀ task ∈ s.tasks, task.generation ≠ record.generation) :
    Keeps G s (containFailedBootSeal record a) := by
  have h₀ := h.distrust
  have hend : Keeps G (s.apply .distrust) (endUnit record.generation a) :=
    keeps_endUnit h₀ fun _ task ht heq => absurd heq (htk task ht)
  refine throughout_cons h (hend.append ?_)
  split
  · rename_i hcl
    obtain ⟨hprov, hq⟩ := clean_of_rollback hcl
    have hlv := not_live_endUnit (s.apply .distrust) record.generation hprov
    have hdk := not_onDisk_endUnit (s.apply .distrust) record.generation hprov hq
    exact throughout_singleton hend.last (hend.last.drop (fun _ _ hl => absurd hl hlv)
      (fun _ hl => absurd hl hlv) fun _ _ _ => hdk)
  · exact throughout_nil hend.last

/-! ## Containment -/

section

variable (config : JailerdConfig) (a : HostAnswers) {launch : LaunchReservation}

variable {config a} in
theorem clean_of_containment {recovery : UnresolvedRecovery}
    (h : (attemptRecoveredContainment config recovery a).1.failures = []) :
    a.drainProven = true ∧ a.quarantine = .done := by
  by_cases hprov : a.drainProven = true
  · refine ⟨hprov, ?_⟩
    by_contra hq
    simp [attemptRecoveredContainment, hprov, hq] at h
  · simp [attemptRecoveredContainment, hprov] at h

/-- What is on the host besides the launch stays, and nothing is added but its identity. -/
structure HostFrame (launch : LaunchReservation) (s s' : State) : Prop where
  units : ∀ u ∈ s'.units, u ∈ s.units
  metadata : ∀ m ∈ s'.metadata, m ∈ s.metadata
  metadata_kept : ∀ m ∈ s.metadata, m.generation ≠ launch.generation → m ∈ s'.metadata
  reservations : ∀ i ∈ s'.reservations, i = launch.identity ∨ i ∈ s.reservations

/-- What an attempt at containment leaves: the memory as it was, and a host that bears out the
outcome. -/
structure ContainedIn (outcome : RecoveryContainmentOutcome) (launch : LaunchReservation)
    (s s' : State) : Prop where
  memory : SameMemory s s'
  frame : HostFrame launch s s'
  drained : outcome.cgroupDrainProven = true → ¬ s'.Live launch.generation
  clean : outcome.failures = [] → outcome.cgroupDrainProven = true ∧ ¬ s'.OnDisk launch.generation

theorem keeps_containment (h : Inv G s) (hbn : launch ∈ s.births)
    (htk : ∀ task ∈ s.tasks, task.generation ≠ launch.generation)
    {result : RecoveryContainmentOutcome × List Change}
    (hres : attemptRecoveredContainment config launch.recovery a = result) :
    Keeps G s result.2 ∧ ContainedIn result.1 launch s (run State.apply s result.2) := by
  subst hres
  -- the identity is reserved first, or nothing happens yet
  obtain ⟨before, hbef, hkp, hsta⟩ : ∃ before,
      (attemptRecoveredContainment config launch.recovery a).2 =
        before ++ endUnit launch.generation a ∧
      Keeps G s before ∧
      (run State.apply s before = s ∨ run State.apply s before = s.apply (.reserve launch.identity)) := by
    refine ⟨_, rfl, ?_, ?_⟩
    · split
      · exact keeps_took h (h.reserve hbn)
      · exact throughout_nil h
    split
    · rw [run_took]
      split
      · exact .inl rfl
      · exact .inr rfl
    · exact .inl rfl
  have hmem : SameMemory s (run State.apply s before) := by
    rcases hsta with heq | heq <;> rw [heq] <;> exact ⟨rfl, rfl, rfl, rfl, rfl⟩
  have hho : (run State.apply s before).units = s.units ∧
      (run State.apply s before).metadata = s.metadata ∧
      ∀ i ∈ (run State.apply s before).reservations, i = launch.identity ∨ i ∈ s.reservations := by
    rcases hsta with heq | heq <;> rw [heq]
    · exact ⟨rfl, rfl, fun i hi => .inr hi⟩
    · exact ⟨rfl, rfl, fun i hi => (SortedTable.mem_insert.mp hi).imp_right (·.1)⟩
  rw [hbef, Trace.run_append]
  obtain ⟨huts, hmeta, hkt, hres⟩ := frame_endUnit (s := run State.apply s before) rfl
  refine ⟨hkp.append (keeps_endUnit hkp.last ?_), ?_, ⟨?_, ?_, ?_, ?_⟩, ?_, ?_⟩
  · intro _ task ht heq
    rw [hmem.tasks] at ht
    exact absurd heq (htk task ht)
  · exact hmem.trans (sameMemory_endUnit _ _ _)
  · exact fun u hu => hho.1 ▸ huts u hu
  · exact fun m hm => hho.2.1 ▸ hmeta m hm
  · exact fun m hm => hkt m (hho.2.1.symm ▸ hm)
  · exact fun i hi => hho.2.2 i (hres ▸ hi)
  · exact fun hprov => not_live_endUnit _ _ hprov
  intro hcl
  obtain ⟨hprov, hq⟩ := clean_of_containment hcl
  exact ⟨hprov, not_onDisk_endUnit _ _ hprov hq⟩

/-- What one more attempt at containment leaves in memory: a charge goes only with a drained unit. -/
structure Retried (launch : LaunchReservation) (s s' : State) : Prop where
  frame : HostFrame launch s s'
  births : s'.births = s.births
  tasks : s'.tasks = s.tasks
  records : s'.records = s.records
  allocated : s'.allocatedIdentities = s.allocatedIdentities
  running : s'.running = s.running
  charges : ∀ c ∈ s.pendingCpuReservations,
    c.generation ≠ launch.generation ∨ s'.Live launch.generation → c ∈ s'.pendingCpuReservations

/-- An attempt at containment, after which the charge and the recovery go as far as it allows. -/
theorem keeps_retryRecovery (h : Inv G s) (hbn : launch ∈ s.births)
    (htk : ∀ task ∈ s.tasks, task.generation ≠ launch.generation) :
    Keeps G s (retryRecovery config launch.recovery a) ∧
      Retried launch s (run State.apply s (retryRecovery config launch.recovery a)) := by
  rw [retryRecovery, Trace.run_append]
  generalize hres : attemptRecoveredContainment config launch.recovery a = result
  obtain ⟨hkp, hdn⟩ := keeps_containment config a h hbn htk hres
  have hmem := hdn.memory
  have htk' : ∀ task ∈ (run State.apply s result.2).tasks,
      task.generation ≠ launch.generation := by
    rw [hmem.tasks]
    exact htk
  have hls := hkp.last
  by_cases hprov : result.1.cgroupDrainProven = true
  · have hlv := hdn.drained hprov
    have h₁ := hls.discharge (fun hl => absurd hl hlv) htk'
    have hcharges : ∀ c ∈ s.pendingCpuReservations, c.generation ≠ launch.generation ∨
        (run State.apply s result.2).Live launch.generation → c ∈ erase (·.generation)
          launch.generation (run State.apply s result.2).pendingCpuReservations := by
      rintro c hc (hne | hl)
      · rw [hmem.pending]
        exact mem_erase.mpr ⟨hc, hne⟩
      · exact absurd hl hlv
    rw [if_pos hprov]
    split
    · rename_i hcl
      have hdk := (hdn.clean hcl).2
      refine ⟨hkp.append (throughout_cons hls (throughout_singleton h₁ (h₁.settle ?_ ?_))),
        ⟨hdn.frame.1, hdn.frame.2, hdn.frame.3, hdn.frame.4⟩, hmem.births, hmem.tasks,
        hmem.records, hmem.allocated, hmem.running, hcharges⟩
      · exact fun _ hl => absurd hl hlv
      · exact fun _ _ _ m hm hgen => absurd ⟨m, hm, hgen⟩ hdk
    · exact ⟨hkp.append (throughout_singleton hls h₁),
        ⟨hdn.frame.1, hdn.frame.2, hdn.frame.3, hdn.frame.4⟩, hmem.births, hmem.tasks,
        hmem.records, hmem.allocated, hmem.running, hcharges⟩
  · have hdty : ¬ result.1.failures = [] := fun hcl => hprov (hdn.clean hcl).1
    rw [if_neg hprov, if_neg hdty]
    refine ⟨hkp.append (throughout_nil hls), hdn.frame, hmem.births, hmem.tasks, hmem.records,
      hmem.allocated, hmem.running, fun c hc _ => ?_⟩
    show c ∈ (run State.apply s _).pendingCpuReservations
    rw [hmem.pending]
    exact hc

end

end Intar.Jailer
