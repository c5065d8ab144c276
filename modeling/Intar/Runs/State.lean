import Intar.Host.DesiredState

/-!
# The state document of a run

`lib/run-state.ts`: the document a scenario run keeps about itself and its VMs, and the functions
that every writer of it goes through.

* `RunStateDocument` has one `RunVmStateDocument` for each VM, and sums them up in its other fields.
* `decorateVmState` brings the derived fields of a VM up to date.  It is idempotent
  (`decorateVmState_idem`): a VM that is shown twice does not change.
* `recomputeRunState` decorates every VM and derives the phase of the run from theirs.

Phases are ordered by rank (`RunPhase.rank`, `VmPhase.rank`); a writer that must not go back compares
ranks.
-/

namespace Intar.Runs

open Registry (ImageKey)
open Host (Millis VmResources)

/-! ## Phases -/

inductive RunPhase where
  | queued
  | provisioning
  | activePartial
  | activeFull
  | solved
  | teardownRequested
  | tearingDown
  | archiving
  | completed
  | failed
deriving DecidableEq

inductive VmPhase where
  | queued
  | launching
  | booting
  | ready
  | solved
  | destroying
  | archived
  | completed
  | failed
deriving DecidableEq

/-- `RUN_PHASE_ORDER`. -/
def RunPhase.rank : RunPhase → Nat
  | .queued => 0
  | .provisioning => 1
  | .activePartial => 2
  | .activeFull => 3
  | .solved => 4
  | .teardownRequested => 5
  | .tearingDown => 6
  | .archiving => 7
  | .completed => 8
  | .failed => 8

/-- `VM_PHASE_ORDER`. -/
def VmPhase.rank : VmPhase → Nat
  | .queued => 0
  | .launching => 1
  | .booting => 2
  | .ready => 3
  | .solved => 4
  | .destroying => 5
  | .archived => 6
  | .completed => 7
  | .failed => 7

def canAdvanceRunPhase (current next : RunPhase) : Bool := current.rank ≤ next.rank

def canAdvanceVmPhase (current next : VmPhase) : Bool := current.rank ≤ next.rank

/-! ## Documents -/

inductive ProbePhase where
  | boot
  | scenario
deriving DecidableEq

/-- `ScenarioLaunchProbeDescriptor`. -/
structure ProbeDescriptor where
  (id label kind : String)
  phase : ProbePhase
deriving DecidableEq

structure ScenarioLaunchSummary where
  (scenarioVmName hostname : String)
  probeDescriptors : List ProbeDescriptor
deriving DecidableEq

/-- A probe of a VM; `value` is the JSON text of what the guest reported. -/
structure ScenarioProbeStatus where
  (id label kind : String)
  phase : ProbePhase
  status : String
  (error value : Option String)
deriving DecidableEq

structure ScenarioReplayArtifact where
  (id hostId runId vmId kind filename contentType : String)
  sizeBytes : Int
deriving DecidableEq

structure SessionTimelineEntry where
  (index startTimestampMs durationMs : Int)
  exitCode : Option Int
  castFilename : String
  castArtifactId : Option String
  transcriptTruncated : Bool
deriving DecidableEq

structure TerminalTarget where
  host : Option String
  port : Int
  username : String
  hostKeyOpenssh : Option String
  checkedAt : Option Millis
deriving DecidableEq

inductive TerminalPhase where
  | pending
  | ready
  | failed
deriving DecidableEq

structure RuntimeConstraintsEvidence where
  generation : String
  cpuMillis : Int
  quotaVerifiedAt : Option Millis
deriving DecidableEq

/-- `VmResourceStateV3`. -/
structure VmResourceState where
  (cpuMillis cpuQuotaUs cpuPeriodUs cpuUsageUsec cpuUserUsec cpuSystemUsec cpuNrPeriods : Int)
  (cpuNrThrottled cpuThrottledUsec : Int)
deriving DecidableEq

inductive ProvisioningStatus where
  | pending
  | provisioning
  | queued
  | failed
deriving DecidableEq

structure RunVmProvisioningSpec where
  image : Option String
  imageKey : Option ImageKey
  imageSha256 : Option String
  resources : Option VmResources
  leaseDurationSeconds : Option Int
  (groupName groupId setupKeyId : Option String)
  status : ProvisioningStatus
  error : Option String
deriving DecidableEq

/-- One VM of a run.  A list that older documents lack is empty. -/
structure RunVmStateDocument where
  id : String
  ordinal : Nat
  (scenarioVmId scenarioVmName runtimeVmName hostname : String)
  phase : VmPhase
  (phaseTitle phaseDetail : String)
  progressPercent : Nat
  terminalPhase : TerminalPhase
  terminalReason : Option String
  terminalObservedAt : Option Millis
  canOpenTerminal : Bool
  (bootProbes scenarioProbes : List ScenarioProbeStatus)
  replayArtifacts : List ScenarioReplayArtifact
  sessionTimeline : Option (List SessionTimelineEntry)
  hasRecording : Bool
  terminalTarget : TerminalTarget
  runtimeConstraints : Option RuntimeConstraintsEvidence
  resourceState : Option VmResourceState
  retiredRuntimeGenerations : List String
  guestIp : Option String
  launchSummary : ScenarioLaunchSummary
  runtimeState : Option String
  (runtimeObservedAt vmCreatedAt : Option Millis)
  provisioning : RunVmProvisioningSpec
deriving DecidableEq

/-- `CandidateRunSourceIdentityV1`. -/
structure CandidateSource where
  (revision buildId : String)
deriving DecidableEq

structure RunStateDocument where
  phase : RunPhase
  (phaseTitle phaseDetail : String)
  progressPercent : Nat
  terminalPhase : TerminalPhase
  (canOpenTerminal canDestroy : Bool)
  (bootProbes scenarioProbes : List ScenarioProbeStatus)
  replayArtifacts : List ScenarioReplayArtifact
  terminalTarget : TerminalTarget
  vms : List RunVmStateDocument
  candidateSource : Option CandidateSource
deriving DecidableEq

/-! ## Deriving the fields -/

def defaultTerminalTarget : TerminalTarget := ⟨none, 22, "ubuntu", none, none⟩

def hasTerminalEndpoint (target : TerminalTarget) : Bool :=
  (match target.host with
    | some host => host ≠ ""
    | none => false) && 0 < target.port

/-- What is shown of a phase. -/
structure PhaseDescriptor where
  (title detail : String)
  progressPercent : Nat
deriving DecidableEq

def describeVmPhase (phase : VmPhase) (vm : RunVmStateDocument) : PhaseDescriptor :=
  match phase with
  | .queued => ⟨"Queued", Js.orElse vm.phaseDetail "Waiting for host delivery.", 5⟩
  | .launching =>
    ⟨"Launching", Js.orElse vm.phaseDetail "The launch request is in flight to the host.", 20⟩
  | .booting =>
    ⟨"Booting",
      Js.orElse vm.phaseDetail "Waiting for the VM to boot and initial probes to pass.", 40⟩
  | .ready =>
    ⟨"Ready",
      Js.orElse vm.phaseDetail (if hasTerminalEndpoint vm.terminalTarget
        then "The VM is ready for shell access."
        else "The VM is running and waiting for a shell target."), 65⟩
  | .solved =>
    ⟨"Solved", Js.orElse vm.phaseDetail "All scenario probes are passing for this VM.", 80⟩
  | .destroying =>
    ⟨"Destroying", Js.orElse vm.phaseDetail "The host is tearing this VM down.", 88⟩
  | .archived =>
    ⟨"Archived",
      Js.orElse vm.phaseDetail "Local teardown finished. Final artifacts are archiving.", 96⟩
  | .completed => ⟨"Completed", Js.orElse vm.phaseDetail "This VM is fully finished.", 100⟩
  | .failed => ⟨"Failed", Js.orElse vm.phaseDetail "The VM failed to complete.", 100⟩

/-- An endpoint is shown only while the terminal is ready. -/
def shownTerminalTarget (vm : RunVmStateDocument) : TerminalTarget :=
  match vm.terminalPhase with
  | .ready => vm.terminalTarget
  | _ => ⟨none, 22, vm.terminalTarget.username, none, none⟩

/-- The fields of a VM that follow from its other fields. -/
def decorateVmState (vm : RunVmStateDocument) : RunVmStateDocument :=
  let terminalTarget := shownTerminalTarget vm
  let descriptor := describeVmPhase vm.phase { vm with terminalTarget }
  { vm with
    phaseTitle := descriptor.title
    phaseDetail := descriptor.detail
    progressPercent := descriptor.progressPercent
    terminalTarget
    canOpenTerminal := vm.terminalPhase = .ready && hasTerminalEndpoint terminalTarget }

def deriveRunPhase (vms : List RunVmStateDocument) (current : RunPhase) : RunPhase :=
  if vms = [] then current
  else if current = .completed ∨ current = .failed then current
  else if vms.any (·.phase = .failed) then .failed
  else if vms.all (fun vm => vm.phase = .completed || vm.phase = .failed) then .completed
  else if RunPhase.teardownRequested.rank ≤ current.rank then
    if vms.any (·.phase = .destroying) then .tearingDown
    else if vms.any (fun vm => vm.phase = .archived || vm.phase = .completed) then .archiving
    else .teardownRequested
  else if vms.all (·.phase = .solved) then .solved
  else if vms.all (fun vm => vm.phase = .ready || vm.phase = .solved) then .activeFull
  else if vms.any (fun vm => vm.phase = .ready || vm.phase = .solved) then .activePartial
  else if current = .provisioning ∧
      vms.any (fun vm => vm.phase = .queued || vm.phase = .launching || vm.phase = .booting) then
    .provisioning
  else if vms.any (·.phase = .booting) then .provisioning
  else if vms.any (·.phase = .launching) then .provisioning
  else .queued

def describeRunPhase (phase : RunPhase) (vms : List RunVmStateDocument) (currentDetail : String) :
    PhaseDescriptor :=
  match phase with
  | .queued => ⟨"Queued", "Waiting to hand the run to a host.", 5⟩
  | .provisioning =>
    ⟨"Provisioning", "Launching the run VMs and waiting for them to boot.", 30⟩
  | .activePartial =>
    ⟨"Partially ready", "At least one VM is usable. Other required VMs are still catching up.", 55⟩
  | .activeFull => ⟨"Active", "All required VMs are ready.", 70⟩
  | .solved => ⟨"Solved", "All required VMs are passing their scenario probes.", 85⟩
  | .teardownRequested =>
    ⟨"Teardown requested",
      Js.orElse currentDetail "Waiting for the host to acknowledge teardown.", 90⟩
  | .tearingDown => ⟨"Tearing down", "Destroying VMs and collecting final artifacts.", 94⟩
  | .archiving => ⟨"Archiving", "Final run artifacts are uploading.", 97⟩
  | .completed => ⟨"Completed", "The run has finished cleanly.", 100⟩
  | .failed =>
    let failedVm := vms.find? (·.phase = .failed)
    ⟨"Failed",
      Js.orElse ((failedVm.bind (·.terminalReason)).getD "")
        (Js.orElse ((failedVm.bind (·.provisioning.error)).getD "")
          (Js.orElse ((failedVm.map (·.phaseDetail)).getD "") "The run hit a terminal failure.")),
      100⟩

/-- Every VM decorated, and the fields of the run that follow from them. -/
def recomputeRunState (current : RunStateDocument) : RunStateDocument :=
  let vms := current.vms.map decorateVmState
  let terminalVm := (vms.find? fun vm =>
    hasTerminalEndpoint vm.terminalTarget && vm.terminalPhase = .ready).or vms.head?
  let phase := deriveRunPhase vms current.phase
  let descriptor := describeRunPhase phase vms current.phaseDetail
  { phase
    phaseTitle := descriptor.title
    phaseDetail := descriptor.detail
    progressPercent := descriptor.progressPercent
    terminalPhase :=
      if vms.any (·.terminalPhase = .ready) then .ready
      else if vms.any (·.terminalPhase = .failed) then .failed
      else .pending
    canOpenTerminal := vms.any (·.canOpenTerminal)
    canDestroy := !(phase = .archiving || phase = .completed)
    bootProbes := vms.flatMap (·.bootProbes)
    scenarioProbes := vms.flatMap (·.scenarioProbes)
    replayArtifacts := vms.flatMap (·.replayArtifacts)
    terminalTarget := (terminalVm.map (·.terminalTarget)).getD defaultTerminalTarget
    vms
    candidateSource := current.candidateSource }

/-! ## Initial documents -/

def buildInitialProbe (probe : ProbeDescriptor) : ScenarioProbeStatus :=
  ⟨probe.id, probe.label, probe.kind, probe.phase, "pending", none, none⟩

/-- What a VM is known by before it runs. -/
structure InitialVm where
  id : String
  ordinal : Nat
  (scenarioVmId scenarioVmName runtimeVmName hostname : String)
  launchSummary : ScenarioLaunchSummary

def buildInitialVmState (input : InitialVm) : RunVmStateDocument :=
  decorateVmState
    { id := input.id
      ordinal := input.ordinal
      scenarioVmId := input.scenarioVmId
      scenarioVmName := input.scenarioVmName
      runtimeVmName := input.runtimeVmName
      hostname := input.hostname
      phase := .queued
      phaseTitle := ""
      phaseDetail := ""
      progressPercent := 0
      terminalPhase := .pending
      terminalReason := none
      terminalObservedAt := none
      canOpenTerminal := false
      bootProbes :=
        (input.launchSummary.probeDescriptors.filter (·.phase = .boot)).map buildInitialProbe
      scenarioProbes :=
        (input.launchSummary.probeDescriptors.filter (·.phase = .scenario)).map buildInitialProbe
      replayArtifacts := []
      sessionTimeline := none
      hasRecording := false
      terminalTarget := defaultTerminalTarget
      runtimeConstraints := none
      resourceState := none
      retiredRuntimeGenerations := []
      guestIp := none
      launchSummary := input.launchSummary
      runtimeState := none
      runtimeObservedAt := none
      vmCreatedAt := none
      provisioning := ⟨none, none, none, none, none, none, none, none, .pending, none⟩ }

def buildInitialRunState (vms : List InitialVm) : RunStateDocument :=
  recomputeRunState
    { phase := .queued
      phaseTitle := "Queued"
      phaseDetail := "Waiting for host delivery."
      progressPercent := 0
      terminalPhase := .pending
      canOpenTerminal := false
      canDestroy := true
      bootProbes := []
      scenarioProbes := []
      replayArtifacts := []
      terminalTarget := defaultTerminalTarget
      vms := vms.map buildInitialVmState
      candidateSource := none }

/-! ## Decorating twice -/

section

variable {vm vm' : RunVmStateDocument}

/-- The detail of a phase is never empty. -/
theorem describeVmPhase_detail_ne (phase : VmPhase) (vm : RunVmStateDocument) :
    (describeVmPhase phase vm).detail ≠ "" := by
  have horElse : ∀ s d : String, d ≠ "" → Js.orElse s d ≠ "" := by
    intro s d hd
    rw [Js.orElse]
    split
    · exact hd
    · assumption
  cases phase with
  | ready =>
    refine horElse _ _ ?_
    split
    · decide
    · decide
  | _ => exact horElse _ _ (by decide)

/-- A VM that already has the detail of its phase keeps it. -/
theorem describeVmPhase_of_detail (phase : VmPhase)
    (h : vm'.phaseDetail = (describeVmPhase phase vm).detail) :
    describeVmPhase phase vm' = describeVmPhase phase vm := by
  have hne : vm'.phaseDetail ≠ "" := h ▸ describeVmPhase_detail_ne phase vm
  have hkeep : ∀ d, Js.orElse vm'.phaseDetail d = (describeVmPhase phase vm).detail := by
    intro d
    rw [Js.orElse, if_neg hne, h]
  cases phase with
  | _ => exact congrArg (PhaseDescriptor.mk _ · _) (hkeep _)

theorem shownTerminalTarget_decorateVmState (vm : RunVmStateDocument) :
    shownTerminalTarget (decorateVmState vm) = shownTerminalTarget vm := by
  cases hvm : vm.terminalPhase with
  | _ => simp [shownTerminalTarget, decorateVmState, hvm]

theorem decorateVmState_eq_self (htgt : shownTerminalTarget vm = vm.terminalTarget)
    (hph : describeVmPhase vm.phase vm = ⟨vm.phaseTitle, vm.phaseDetail, vm.progressPercent⟩)
    (hop : vm.canOpenTerminal =
      (decide (vm.terminalPhase = .ready) && hasTerminalEndpoint vm.terminalTarget)) :
    decorateVmState vm = vm := by
  rw [decorateVmState, htgt, hph, ← hop]

/-- A decorated VM has nothing left to derive. -/
theorem decorateVmState_idem (vm : RunVmStateDocument) :
    decorateVmState (decorateVmState vm) = decorateVmState vm := by
  refine decorateVmState_eq_self (shownTerminalTarget_decorateVmState vm) ?_ rfl
  exact describeVmPhase_of_detail vm.phase rfl

/-- Recomputing a run shows its VMs again and does nothing else to them. -/
theorem recomputeRunState_vms (current : RunStateDocument) :
    (recomputeRunState current).vms = current.vms.map decorateVmState := rfl

theorem recomputeRunState_phase (current : RunStateDocument) :
    (recomputeRunState current).phase =
      deriveRunPhase (current.vms.map decorateVmState) current.phase := rfl

end

end Intar.Runs
