import Intar.Runs.Writers

/-!
# The order of a run's phases

`persistRunState` holds the phase of a run where a report would take it back.  It compares with the
phase that it derives from the stored document, not with the stored one, and the two can differ: a
document whose phase was held has VMs that no longer support it.

* `phases_in_order`: a run that is completed or failed stays so under all reports.  The rank of the
  stored phase does not go down as long as no stored document is ahead of its VMs.
* `Web.phase_goes_back`: a VM that comes up again as a new generation leaves the document ahead of
  it, and the second report of the new generation takes the run from active to provisioning.
-/

namespace Intar.Runs

open Trace

open Host (Millis)
open List

/-! ## Deriving a phase twice -/

section

variable {vms : List RunVmStateDocument} {phase : RunPhase}

theorem deriveRunPhase_of_ended (h : phase = .completed ∨ phase = .failed) :
    deriveRunPhase vms phase = phase := by
  simp [deriveRunPhase, h]

/-- A derived phase is derived from itself. -/
theorem deriveRunPhase_idem (vms : List RunVmStateDocument) (phase : RunPhase) :
    deriveRunPhase vms (deriveRunPhase vms phase) = deriveRunPhase vms phase := by
  by_cases hemp : vms = []
  · simp [deriveRunPhase, hemp]
  by_cases hend : phase = .completed ∨ phase = .failed
  · rw [deriveRunPhase_of_ended hend, deriveRunPhase_of_ended hend]
  have hderived : deriveRunPhase vms phase = deriveRunPhase vms phase := rfl
  conv_rhs at hderived => rw [deriveRunPhase, if_neg hemp, if_neg hend]
  -- The tests are about the VMs, which are the same; only the phase that they start from changes.
  split_ifs at hderived <;> rw [hderived] <;> simp only [deriveRunPhase, *, RunPhase.rank] <;>
    simp_all

theorem recomputeRunState_phase_idem (document : RunStateDocument) :
    (recomputeRunState (recomputeRunState document)).phase = (recomputeRunState document).phase := by
  have hvms : (document.vms.map decorateVmState).map decorateVmState
      = document.vms.map decorateVmState := by
    rw [map_map]
    exact map_congr_left fun vm _ => decorateVmState_idem vm
  rw [recomputeRunState_phase, recomputeRunState_vms, hvms, recomputeRunState_phase,
    deriveRunPhase_idem]

theorem current_phase (row : RunRow) :
    row.current.phase = (recomputeRunState row.stateJson).phase :=
  recomputeRunState_phase_idem row.stateJson

variable {document : RunStateDocument}

theorem recomputeRunState_phase_of_ended
    (h : document.phase = .completed ∨ document.phase = .failed) :
    (recomputeRunState document).phase = document.phase := by
  rw [recomputeRunState_phase, deriveRunPhase_of_ended h]

theorem foldl_applyToVms_phase (runId : String) (reports : List ReportedVm)
    (document : RunStateDocument) :
    (reports.foldl (applyToVms runId) document).phase = document.phase := by
  induction reports generalizing document with
  | nil => rfl
  | cons report _ ih => exact ih (applyToVms runId document report)

/-- No report changes a phase at which a run has ended. -/
theorem deliver_phase_of_ended (runId : String)
    (h : document.phase = .completed ∨ document.phase = .failed) (deliveries : List Delivery) :
    (deliver runId document deliveries).phase = document.phase := by
  refine run_invariant (P := fun d : RunStateDocument => d.phase = document.phase) ?_ rfl deliveries
  intro d delivery hph
  have hend : ∀ reports : List ReportedVm,
      (recomputeRunState (reports.foldl (applyToVms runId) d)).phase = document.phase := by
    intro reports
    have hkt := (foldl_applyToVms_phase runId reports d).trans hph
    rw [recomputeRunState_phase_of_ended (by rw [hkt]; exact h), hkt]
  cases delivery with
  | vm report => exact hend [report.reported]
  | host report => exact hend report.vms

end

/-! ## Writes of reports -/

/-- The step reads the row, or persists what some reports make of it. -/
def PersistsReports (runId : String) : RowAct → Prop
  | .read _ => True
  | .persist _ input _ _ =>
    ∃ deliveries, input.deriveNextState = fun current => deliver runId current deliveries
  | _ => False

/-- The stored phase is one that the stored document still supports. -/
def NotAhead (s : RowState) (_ : RowAct) : Prop :=
  ∀ row, s.row = some row →
    canAdvanceRunPhase row.state (recomputeRunState row.stateJson).phase = true

section

variable {runId : String} {s : RowState} {act : RowAct}

theorem rank_le_merged (input : PersistInput) (row : RunRow) :
    row.current.phase.rank ≤ (input.merged row).phase.rank := by
  rw [PersistInput.merged]
  split
  · rename_i hadv
    exact of_decide_eq_true hadv
  · exact le_rfl

variable {row : RunRow}

/-- A run that has ended is written back as it is. -/
theorem merged_phase_of_ended {input : PersistInput} {deliveries : List Delivery}
    (hderive : input.deriveNextState = fun current => deliver runId current deliveries)
    (hend : row.stateJson.phase = .completed ∨ row.stateJson.phase = .failed) :
    (input.merged row).phase = row.stateJson.phase := by
  have hcur : row.current.phase = row.stateJson.phase := by
    rw [current_phase, recomputeRunState_phase_of_ended hend]
  have hnx : (recomputeRunState (input.deriveNextState row.current)).phase
      = row.stateJson.phase := by
    rw [hderive]
    have hdlv := deliver_phase_of_ended runId (by rw [hcur]; exact hend) deliveries
    rw [recomputeRunState_phase_of_ended (by rw [hdlv, hcur]; exact hend), hdlv, hcur]
  rw [PersistInput.merged]
  split
  · exact hnx
  · exact hcur

/-- What a step may do to the stored phase. -/
structure PhaseKept (s : RowState) (act : RowAct) (s' : RowState) : Prop where
  absent : s.row = none → s'.row = none
  ended : ∀ old new, s.row = some old → s'.row = some new →
    old.state = .completed ∨ old.state = .failed → new.state = old.state
  inOrder : NotAhead s act → ∀ old new, s.row = some old → s'.row = some new →
    old.state.rank ≤ new.state.rank

theorem phaseKept_of_row_eq {s' : RowState} (h : s'.row = s.row) : PhaseKept s act s' := by
  refine ⟨h.trans, ?_, ?_⟩
  · intro _ _ hold hnew _
    rw [h, hold, Option.some.injEq] at hnew
    rw [hnew]
  · intro _ _ _ hold hnew
    rw [h, hold, Option.some.injEq] at hnew
    rw [hnew]

theorem phaseKept_step (hinv : s.Inv) (hact : PersistsReports runId act) :
    PhaseKept s act (s.step act) := by
  cases act with
  | read => exact phaseKept_of_row_eq rfl
  | persist writer input clock expected =>
    obtain ⟨_, hderive⟩ := hact
    rw [RowState.step]
    split
    · exact phaseKept_of_row_eq rfl
    rcases compareAndSet_cases s writer expected fun row stored => input.written row stored clock
      with hsm | hfin | ⟨reader, stored, hrdr, hsto, hupd, hcom⟩
    · rw [hsm]
      exact phaseKept_of_row_eq rfl
    · rw [hfin]
      exact phaseKept_of_row_eq rfl
    -- What was read is what is there, so the row is written from itself.
    have hrd := ((hinv.readers writer reader stored hrdr hsto).2 hupd.symm).1
    rw [hcom, hrd]
    have hagr := hinv.agrees stored hsto
    refine ⟨fun hno => absurd (hsto.symm.trans hno) (by simp), ?_, ?_⟩
    · intro _ _ hold hnew hend
      rw [hsto, Option.some.injEq] at hold
      obtain rfl := Option.some.inj hnew
      subst hold
      rw [hagr] at hend ⊢
      exact merged_phase_of_ended hderive hend
    · intro hahead _ _ hold hnew
      rw [hsto, Option.some.injEq] at hold
      obtain rfl := Option.some.inj hnew
      subst hold
      calc stored.state.rank
          ≤ (recomputeRunState stored.stateJson).phase.rank :=
            of_decide_eq_true (hahead stored hsto)
        _ = stored.current.phase.rank := by rw [current_phase]
        _ ≤ (input.merged stored).phase.rank := rank_le_merged input stored
  | _ => exact hact.elim

/-- The row of a run that nobody has read yet. -/
def RowState.start (row : RunRow) : RowState := ⟨some row, fun _ => none, 0, false⟩

theorem inv_start (h : row.state = row.stateJson.phase) : (RowState.start row).Inv where
  agrees stored hsto := by
    obtain rfl := Option.some.inj hsto
    exact h
  notCancelled := rfl
  noReaders hno := by cases hno
  readers _ _ _ hrdr := by cases hrdr

theorem notCancelling_of_persistsReports (h : PersistsReports runId act) : NotCancelling s act := by
  intro _ _ _ hact
  rw [hact] at h
  exact h.elim

theorem inv_of_persistsReports (hagr : row.state = row.stateJson.phase) {acts : List RowAct}
    (hacts : ∀ act ∈ acts, PersistsReports runId act) :
    (run RowState.step (.start row) acts).Inv := by
  refine inv_of_along (inv_start hagr) fun before act after hsp => ?_
  exact notCancelling_of_persistsReports (hacts act (by simp [hsp]))

/-- **Phases come in order.**  Take two moments of any interleaving of writes of reports.  A run
that has completed or failed at the first is at the second what it was, and the rank of the stored
phase has not gone down if every step found the stored phase supported by the stored document. -/
theorem phases_in_order {row : RunRow} (hagrees : row.state = row.stateJson.phase)
    (before acts : List RowAct) (hacts : ∀ act ∈ before ++ acts, PersistsReports runId act)
    {old new : RunRow} (hold : (run RowState.step (.start row) before).row = some old)
    (hnew : (run RowState.step (.start row) (before ++ acts)).row = some new) :
    (old.state = .completed ∨ old.state = .failed → new.state = old.state) ∧
      (Along RowState.step NotAhead (.start row) (before ++ acts) →
        old.state.rank ≤ new.state.rank) := by
  induction acts using List.reverseRecOn generalizing new with
  | nil =>
    rw [append_nil, hold, Option.some.injEq] at hnew
    rw [hnew]
    exact ⟨fun _ => rfl, fun _ => le_rfl⟩
  | append_singleton acts act ih =>
    rw [← append_assoc] at hacts hnew ⊢
    rw [run_append] at hnew
    have hearlier : ∀ a ∈ before ++ acts, PersistsReports runId a :=
      fun a ha => hacts a (mem_append_left _ ha)
    have hkt : PhaseKept _ act _ :=
      phaseKept_step (inv_of_persistsReports hagrees hearlier) (hacts act (by simp))
    cases hmid : (run RowState.step (.start row) (before ++ acts)).row with
    | none =>
      exact absurd (hnew.symm.trans (hkt.absent hmid)) (by simp)
    | some mid =>
      obtain ⟨hend, hord⟩ := ih hearlier hmid
      constructor
      · intro h
        have hsm := hend h
        rw [← hsm] at h ⊢
        exact hkt.ended mid new hmid hnew h
      · intro hahead
        have hle := hord (hahead.of_prefix (prefix_append _ _))
        exact hle.trans (hkt.inOrder hahead.last mid new hmid hnew)

end

namespace Web

/-- A report is read in and written. -/
def persisted (report : ReportedVm) : List RowAct :=
  [.read 0, .persist 0 (persistReports [report]) report.updatedAtUnixMs true]

theorem persistsReports_persisted (report : ReportedVm) :
    ∀ act ∈ persisted report, PersistsReports "run-1" act := by
  intro _ hact
  rcases mem_pair.mp hact with rfl | rfl
  · trivial
  · exact ⟨[.host ⟨[report]⟩], rfl⟩

theorem notAhead_persisted :
    Along RowState.step NotAhead (.start admitted.row) (persisted (shell "a" 2)) := by
  have hrd : Along RowState.step NotAhead (.start admitted.row) [.read 0] := by
    refine along_nil.concat fun row hrow => ?_
    obtain rfl := Option.some.inj hrow
    decide +kernel
  refine hrd.concat fun row hrow => ?_
  obtain rfl := Option.some.inj hrow
  decide +kernel

theorem phases_in_order_shell :
    (run RowState.step (.start admitted.row) (persisted (shell "a" 2))).row.any
      (fun row => admitted.row.state.rank ≤ row.state.rank) = true := by
  obtain ⟨row, hrow⟩ : ∃ row,
      (run RowState.step (.start admitted.row) (persisted (shell "a" 2))).row = some row :=
    Option.isSome_iff_exists.mp (by decide +kernel)
  have h := phases_in_order rfl [] (persisted (shell "a" 2))
    (persistsReports_persisted (shell "a" 2)) rfl hrow
  rw [hrow]
  simpa using h.2 notAhead_persisted

/-- The VM comes up, and comes up again as another generation, which two reports tell of. -/
def restarted : List RowAct := persisted (shell "a" 2) ++ persisted (boot "b" 3)

theorem phase_goes_back :
    (run RowState.step (.start admitted.row) restarted).row.map (·.state) = some .activeFull ∧
      (run RowState.step (.start admitted.row) (restarted ++ persisted (boot "b" 4))).row.map
        (·.state) = some .provisioning := by
  decide +kernel

end Web

end Intar.Runs
