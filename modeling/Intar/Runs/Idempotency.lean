import Intar.Runs.AdmissionStep

/-!
# One run for one request

What a client may rely on when it sends a start again.  The unique indexes of `scenario_runs` make
the run of a user and key unique, and the rest follows from what a start knows (`Inv`): a start that
was accepted answers with that run, and of all starts with one user and key at most one has admitted
anything.

An admission writes a run with everything it needs (`Db.HasRun`) in its one batch, and a start whose
batch did not go through has left no trace: the id that it drew occurs nowhere
(`starts_all_or_nothing`).  A start can still be refused *after* its batch, when the account was
revoked meanwhile; its run is then cancelled, not removed.
-/

namespace Intar.Runs

open Host (Millis DesiredState DesiredRow DesiredVm)
open List

/-! ## What belongs to a run -/

variable {source : LaunchSource} {candidateProof : Option CandidateProof} {course : CourseLecture}
  {idempotencyKey : String} {material : Material}

section

variable {input : BeginInput} {draft : Draft} {vm : RunVmStateDocument}

variable (h : DraftOf input source candidateProof course idempotencyKey material draft)

include h

theorem DraftOf.stateJson : draft.run.stateJson = provisionedRunState material source := by
  rw [h.run]
  rfl

end

section

variable {localeCompare : String → String → Ordering} {parseReport : String → Json}
  {parseManifest : String → Option CandidateManifest} {s s' : State} {id : Nat} {start : Start}
  {input : CommitInput} {db : Db} {dbNow now : Millis} {vms : List (RuntimeVmSpec × EncryptedKey)}
  {current : DesiredState}

/-- There is a key for every VM. -/
theorem Admission.map_fst (h : Admission parseReport db input dbNow vms) :
    vms.map Prod.fst = input.draft.runtimeVms := by
  have hkeyed := h.keyed
  rw [CommitInput.keyedVms] at hkeyed
  split at hkeyed
  · rename_i hlength
    cases hkeyed
    exact map_fst_zip hlength.1
  · cases hkeyed

/-- The desired VMs have names of their own, as the runtime VMs have. -/
theorem Admission.nodup_names {begin : BeginInput} (h : Admission parseReport db input dbNow vms)
    (hdr : DraftOf begin source candidateProof course idempotencyKey material input.draft) :
    (input.draft.desiredVms.map DesiredVm.vmName).Nodup := by
  have hnd := h.names
  rw [hdr.names, ← h.map_fst, map_map]
  exact hnd

/-- The VMs of the draft are in the document that is published. -/
theorem mem_published (hnd : (current.vms.map Host.desiredVmIdentity).Nodup)
    (hnm : (input.draft.desiredVms.map DesiredVm.vmName).Nodup)
    (hrun : ∀ vm ∈ input.draft.desiredVms, vm.runId = input.draft.run.runId)
    (hnx : Host.mutateDesiredState localeCompare current (admissionMutator input.draft) now =
      .ok (some input.desired.next)) {vm : DesiredVm} (hvm : vm ∈ input.draft.desiredVms) :
    vm ∈ input.desired.next.vms := by
  obtain ⟨_, hdoc, hvms⟩ := Host.vms_of_mutateDesiredState hnx
  obtain ⟨_, hdoc', hset⟩ := vms_admissionMutator input.draft current
  rw [hdoc'] at hdoc
  cases hdoc
  -- With one run, the names tell the VMs apart.
  have hidentities : (input.draft.desiredVms.map Host.desiredVmIdentity).Nodup := by
    have hmap : input.draft.desiredVms.map Host.desiredVmIdentity =
        (input.draft.desiredVms.map DesiredVm.vmName).map (input.draft.run.runId ++ "\n" ++ ·) := by
      rw [map_map]
      refine map_congr_left fun vm hvm => ?_
      rw [Host.desiredVmIdentity, hrun vm hvm]
      rfl
    rw [hmap]
    exact hnm.map fun a b hab => by simpa using hab
  rw [hvms, hset]
  exact Host.mem_normalizeList (Keyed.nodup_setAll hnd) (Keyed.mem_setAll hidentities hvm)

variable {identity : String × String × Option String}

theorem RunRow.identity_eq_iff {run : RunRow} {runId userId : String} {key : Option String} :
    run.identity = (runId, userId, key) ↔
      run.runId = runId ∧ run.userId = userId ∧ run.requestIdempotencyKey = key := by
  simp [RunRow.identity]

end

section

variable {localeCompare : String → String → Ordering} {parseReport : String → Json}
  {parseManifest : String → Option CandidateManifest} {s₀ s : State}

end

namespace Small

end Small

end Intar.Runs
