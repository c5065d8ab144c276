import Intar.Runs.State

/-!
# Applying reports to a run

`lib/run-lifecycle.ts`: a host says what it sees of a VM (`ReportedVm`), and the run's document
takes it in.  Reports come in any order and any number of times.

* `applyReportedVmState` is the whole rule for one VM and one report.  A report that is not about
  the VM, is older than what is known, names a retired generation, or names none when one is known,
  does nothing; the rest is `acceptReport`.
* A report of another generation resets the VM first (`resetVmForRuntimeGeneration`): the old
  generation is retired and all its evidence dropped.
* `projectTerminalReadiness` decides when the terminal is ready.  Readiness stays until a report
  says `failed` or the generation changes.
* `applyVmReportToRunState` and `applyHostReportToRunState` apply one report, or many, to every VM.

What one report can do to a VM is said once: `Applied` separates the reports that are ignored,
`currentGeneration_of_changed` and `currentGeneration_of_not_changed` follow the generation, and
`ready_of_acceptReport` says where a ready terminal comes from.
-/

namespace Intar.Runs

open Host (Millis)

/-! ## Reports -/

/-- `VmPhase` of the bridge protocol. -/
inductive BridgeVmPhase where
  | pending
  | pullingImage
  | creatingDisks
  | booting
  | running
  | ready
  | solved
  | stopping
  | stopped
  | failed
  | absent
deriving DecidableEq

/-- The phase as the protocol spells it. -/
def BridgeVmPhase.text : BridgeVmPhase → String
  | .pending => "pending"
  | .pullingImage => "pulling_image"
  | .creatingDisks => "creating_disks"
  | .booting => "booting"
  | .running => "running"
  | .ready => "ready"
  | .solved => "solved"
  | .stopping => "stopping"
  | .stopped => "stopped"
  | .failed => "failed"
  | .absent => "absent"

inductive VmProbeStatus where
  | unknown
  | pass
  | fail
deriving DecidableEq

def VmProbeStatus.text : VmProbeStatus → String
  | .unknown => "unknown"
  | .pass => "pass"
  | .fail => "fail"

/-- `VmProbeSnapshotV1`; `value` is JSON text. -/
structure VmProbeSnapshot where
  id : String
  status : VmProbeStatus
  (message value : Option String)
deriving DecidableEq

/-- `VmTerminalTargetV1`. -/
structure VmTerminalTarget where
  host : String
  port : Int
  username : String
  checkedAtUnixMs : Millis
deriving DecidableEq

/-- `VmTerminalStateV1`. -/
structure VmTerminalState where
  state : TerminalPhase
  target : Option VmTerminalTarget
  reason : Option String
  observedAtUnixMs : Millis
deriving DecidableEq

/-- `VmRuntimeConstraintsV2`. -/
structure VmRuntimeConstraints where
  generation : String
  cpuMillis : Int
  quotaVerifiedAtUnixMs : Option Millis
deriving DecidableEq

/-- The part of `VmActualStateV2` that a run takes in; of the network it is the guest's address. -/
structure ReportedVm where
  (runId vmName : String)
  phase : BridgeVmPhase
  guestIp : Option String
  terminal : Option VmTerminalState
  runtimeConstraints : Option VmRuntimeConstraints
  resourceState : Option VmResourceState
  sshHostKeysOpenssh : List String
  probes : List VmProbeSnapshot
  error : Option String
  updatedAtUnixMs : Millis
deriving DecidableEq

/-- `VmReportV2`, as far as it is read. -/
structure VmReport where
  (runId vmName : String)
  observedAtUnixMs : Millis
  phase : BridgeVmPhase
  guestIp : Option String
  terminal : Option VmTerminalState
  runtimeConstraints : Option VmRuntimeConstraints
  resourceState : Option VmResourceState
  sshHostKeysOpenssh : List String
  probes : List VmProbeSnapshot
  error : Option String
deriving DecidableEq

/-- `HostStateReportV2`, as far as it is read. -/
structure HostStateReport where
  vms : List ReportedVm
deriving DecidableEq

/-! ## Probes -/

/-- `isVerificationPassed`. -/
def isVerificationPassed (status : String) : Bool :=
  Js.toLowerCase (Js.trim status) ∈
    ["pass", "passed", "passing", "ready", "ok", "success", "succeeded"]

/-- An element of the `probes` of `applyProbeSnapshotToVm`.  For `error` and `value` the outer
`none` says that the object has no such property. -/
structure ProbeUpdate where
  id : String
  (kind status : Option String)
  (error value : Option (Option String))
deriving DecidableEq

/-- The body of `merge`: what an update makes of a probe. -/
def updateProbe (stickyPass : Bool) (probe : ScenarioProbeStatus) (next : ProbeUpdate) :
    ScenarioProbeStatus :=
  let nextStatus := (Js.trimOrNone next.status).getD probe.status
  if stickyPass && isVerificationPassed probe.status && !isVerificationPassed nextStatus then probe
  else
    { probe with
      kind := (Js.trimOrNone next.kind).getD probe.kind
      status := nextStatus
      error := match next.error with
        | some error => Js.trimOrNone error
        | none => probe.error
      value := next.value.getD probe.value }

/-- `merge`. -/
def mergeProbes (updates : List ProbeUpdate) (stickyPass : Bool)
    (probes : List ScenarioProbeStatus) : List ScenarioProbeStatus :=
  probes.map fun probe =>
    match Keyed.get ProbeUpdate.id probe.id updates with
    | none => probe
    | some next => updateProbe stickyPass probe next

/-- A boot probe that has passed stays passed; a scenario probe follows the guest. -/
def applyProbeSnapshotToVm (vm : RunVmStateDocument) (probes : List ProbeUpdate) :
    RunVmStateDocument :=
  let updates := Keyed.ofList ProbeUpdate.id (probes.filter fun probe => probe.id ≠ "")
  decorateVmState
    { vm with
      bootProbes := mergeProbes updates true vm.bootProbes
      scenarioProbes := mergeProbes updates false vm.scenarioProbes }

/-- What a report's snapshot of a probe updates. -/
def VmProbeSnapshot.update (probe : VmProbeSnapshot) : ProbeUpdate where
  id := probe.id
  kind := none
  status := some probe.status.text
  error := some probe.message
  value := some probe.value

/-! ## The phase of a VM -/

def bridgeVmPhaseToRunVmPhase : BridgeVmPhase → VmPhase
  | .pending => .queued
  | .pullingImage => .launching
  | .creatingDisks => .launching
  | .booting => .booting
  | .running => .booting
  | .ready => .ready
  | .solved => .solved
  | .stopping => .destroying
  | .stopped => .archived
  | .absent => .completed
  | .failed => .failed

def describeReportPhase (phase : BridgeVmPhase) (vm : RunVmStateDocument) : String :=
  match phase with
  | .pending => Js.orElse vm.phaseDetail "Waiting for host reconciliation."
  | .pullingImage => "Host is preparing the scenario image."
  | .creatingDisks => "Host is creating VM disks."
  | .booting => "Host reports the VM is running and boot probes are pending."
  | .running => "Host reports the VM is running and boot probes are pending."
  | .ready => "Host reports the VM is ready."
  | .solved => "Host reports all scenario probes are passing."
  | .stopping => "Host is stopping the VM."
  | .stopped => "VM stopped. Waiting for final archival."
  | .absent => "Host confirms the VM is absent."
  | .failed => "Host reports the VM failed."

def bootProbesPassing (vm : RunVmStateDocument) : Bool :=
  vm.bootProbes.all fun probe => isVerificationPassed probe.status

def scenarioPassing (vm : RunVmStateDocument) : Bool :=
  vm.scenarioProbes ≠ [] && vm.scenarioProbes.all fun probe => isVerificationPassed probe.status

/-- A phase of a VM and its detail, on the way through `deriveVmPhase`. -/
structure DerivedPhase where
  phase : VmPhase
  phaseDetail : String
deriving DecidableEq

/-- The phase that is reported, if it is not a step back. -/
def DerivedPhase.report (vm : RunVmStateDocument) (reportPhase : Option BridgeVmPhase)
    (derived : DerivedPhase) : DerivedPhase :=
  match reportPhase with
  | none => derived
  | some reported =>
    if canAdvanceVmPhase derived.phase (bridgeVmPhaseToRunVmPhase reported) then
      ⟨bridgeVmPhaseToRunVmPhase reported, describeReportPhase reported vm⟩
    else derived

/-- An error of the host keeps a VM that has not come further than booting there. -/
def DerivedPhase.collect (collectionError : Option String) (derived : DerivedPhase) :
    DerivedPhase :=
  match collectionError.filter (· ≠ "") with
  | none => derived
  | some error =>
    if canAdvanceVmPhase derived.phase .booting then ⟨.booting, error⟩ else derived

/-- What the probes say. -/
def DerivedPhase.probe (vm : RunVmStateDocument) (derived : DerivedPhase) : DerivedPhase :=
  if scenarioPassing vm && canAdvanceVmPhase derived.phase .solved then
    ⟨.solved, "All scenario probes are passing."⟩
  else if bootProbesPassing vm && canAdvanceVmPhase derived.phase .ready then
    ⟨.ready, if hasTerminalEndpoint vm.terminalTarget
      then "Boot probes passed. Shell target is ready."
      else "Boot probes passed. Waiting for shell target."⟩
  else if canAdvanceVmPhase derived.phase .booting then
    { derived with
      phase := if derived.phase = .queued ∨ derived.phase = .launching then .booting
        else derived.phase }
  else derived

def deriveVmPhase (vm : RunVmStateDocument) (reportPhase : Option BridgeVmPhase)
    (collectionError : Option String) : DerivedPhase :=
  (((⟨vm.phase, vm.phaseDetail⟩ : DerivedPhase).report vm reportPhase).collect
    collectionError).probe vm

/-! ## Runtime generations -/

/-- `reportedGeneration`. -/
def ReportedVm.generation (report : ReportedVm) : Option String :=
  Js.trimOrNone (report.runtimeConstraints.map (·.generation))

/-- `currentGeneration`; an empty name counts as none in every test of it. -/
def currentGeneration (vm : RunVmStateDocument) : Option String :=
  (vm.runtimeConstraints.map (·.generation)).filter (· ≠ "")

/-- Sealing a quota is one-way for a generation: a later snapshot without the verification does not
take it back. -/
def mergeRuntimeConstraints (current : Option RuntimeConstraintsEvidence)
    (reported : Option VmRuntimeConstraints) : Option RuntimeConstraintsEvidence :=
  match reported with
  | none => current
  | some reported =>
    let generation := Js.trim reported.generation
    let fresh : RuntimeConstraintsEvidence :=
      ⟨generation, reported.cpuMillis, reported.quotaVerifiedAtUnixMs⟩
    match current with
    | none => some fresh
    | some current =>
      if (current.generation = "" ∨ current.generation = generation) ∧
          current.quotaVerifiedAt.isSome ∧ current.cpuMillis = reported.cpuMillis ∧
          reported.quotaVerifiedAtUnixMs = none then
        some current
      else some fresh

def resetProbes (probes : List ScenarioProbeStatus) : List ScenarioProbeStatus :=
  probes.map fun probe => { probe with status := "pending", error := none, value := none }

def clearedTerminalTarget (current : RunVmStateDocument) : TerminalTarget :=
  ⟨none, 22, current.terminalTarget.username, none, none⟩

def resetVmForRuntimeGeneration (current : RunVmStateDocument) : RunVmStateDocument :=
  { current with
    retiredRuntimeGenerations := Keyed.addAll []
      (current.retiredRuntimeGenerations ++ (currentGeneration current).toList)
    phase := .booting
    phaseDetail := "A new VM generation is waiting for fresh readiness evidence."
    terminalPhase := .pending
    terminalReason := some "Waiting for the new VM generation to seal its CPU quota."
    terminalObservedAt := none
    terminalTarget := clearedTerminalTarget current
    runtimeConstraints := none
    resourceState := none
    bootProbes := resetProbes current.bootProbes
    scenarioProbes := resetProbes current.scenarioProbes }

/-! ## Terminal readiness -/

structure TerminalProjection where
  phase : TerminalPhase
  reason : Option String
  observedAt : Option Millis
  target : TerminalTarget
deriving DecidableEq

def currentTerminalProjection (current : RunVmStateDocument) : TerminalProjection where
  phase := current.terminalPhase
  reason := current.terminalReason
  observedAt := current.terminalObservedAt
  target := match current.terminalPhase with
    | .ready => current.terminalTarget
    | _ => clearedTerminalTarget current

def quotaReady (expectedCpuMillis : Option Int)
    (runtimeConstraints : Option RuntimeConstraintsEvidence) (observedAtUnixMs : Millis) : Bool :=
  match expectedCpuMillis, runtimeConstraints with
  | some expectedCpuMillis, some constraints =>
    0 < expectedCpuMillis && Js.trim constraints.generation ≠ "" &&
      constraints.cpuMillis = expectedCpuMillis &&
      (match constraints.quotaVerifiedAt with
        | some verifiedAt => 0 < verifiedAt && verifiedAt ≤ observedAtUnixMs
        | none => false)
  | _, _ => false

/-- `hostKeyOpenssh`: the first key that is not blank. -/
def firstHostKey (sshHostKeysOpenssh : List String) : Option String :=
  (sshHostKeysOpenssh.find? fun key => Js.trim key ≠ "").map Js.trim

/-- `explicitReady && target`: the target a report proves ready. -/
def explicitTarget (reported : VmTerminalState)
    (runtimeConstraints : Option RuntimeConstraintsEvidence) (sshHostKeysOpenssh : List String)
    (expectedCpuMillis : Option Int) : Option TerminalTarget :=
  match (if reported.state = .ready then reported.target else none),
      firstHostKey sshHostKeysOpenssh, runtimeConstraints.bind (·.quotaVerifiedAt) with
  | some target, some hostKeyOpenssh, some verifiedAt =>
    if Js.trim target.host ≠ "" ∧ 0 < target.port ∧ Js.trim target.username ≠ "" ∧
        quotaReady expectedCpuMillis runtimeConstraints reported.observedAtUnixMs ∧
        verifiedAt ≤ target.checkedAtUnixMs then
      some ⟨some (Js.trim target.host), target.port, Js.trim target.username,
        some hostKeyOpenssh, some target.checkedAtUnixMs⟩
    else none
  | _, _, _ => none

def projectTerminalReadiness (reported : Option VmTerminalState)
    (runtimeConstraints : Option RuntimeConstraintsEvidence) (sshHostKeysOpenssh : List String)
    (current : RunVmStateDocument) (reportPhase : BridgeVmPhase) : TerminalProjection :=
  match reported with
  | none => currentTerminalProjection current
  | some reported =>
    let expectedCpuMillis := current.provisioning.resources.map (·.cpuMillis)
    if reported.state = .failed ∨ reportPhase = .failed then
      { phase := .failed
        reason := some ((Js.trimOrNone reported.reason).getD "Terminal readiness failed.")
        observedAt := some reported.observedAtUnixMs
        target := clearedTerminalTarget current }
    else
      match explicitTarget reported runtimeConstraints sshHostKeysOpenssh expectedCpuMillis with
      | some target => ⟨.ready, none, some reported.observedAtUnixMs, target⟩
      | none =>
        -- An accepted readiness outlives reports that omit the evidence for it.
        if current.terminalPhase = .ready then currentTerminalProjection current
        else
          { phase := .pending
            reason := match reported.state with
              | .ready =>
                if quotaReady expectedCpuMillis runtimeConstraints reported.observedAtUnixMs then
                  some "Waiting for a complete verified SSH target."
                else some "Waiting for CPU limit verification."
              | _ => reported.reason.map Js.trim
            observedAt := some reported.observedAtUnixMs
            target := clearedTerminalTarget current }

/-! ## One report and one VM -/

def matchesVmReportIdentity (runId runtimeVmName reportRunId reportVmName : String) : Bool :=
  runId = reportRunId && runtimeVmName = reportVmName

/-- The report is older than the last one that was taken in. -/
def observedLater (vm : RunVmStateDocument) (report : ReportedVm) : Bool :=
  match vm.runtimeObservedAt with
  | some observedAt => report.updatedAtUnixMs < observedAt
  | none => false

/-- The report names a retired generation, or none although one is known. -/
def generationRejected (vm : RunVmStateDocument) (report : ReportedVm) : Bool :=
  match report.generation with
  | some generation => generation ∈ vm.retiredRuntimeGenerations
  | none => (currentGeneration vm).isSome

def generationChanged (vm : RunVmStateDocument) (report : ReportedVm) : Bool :=
  match report.generation, currentGeneration vm with
  | some reported, some current => current ≠ reported
  | some _, none =>
    vm.terminalPhase = .ready &&
      ((report.runtimeConstraints.bind (·.quotaVerifiedAtUnixMs)).getD 0 = 0)
  | none, _ => false

def generationBase (vm : RunVmStateDocument) (report : ReportedVm) : RunVmStateDocument :=
  if generationChanged vm report then resetVmForRuntimeGeneration vm else vm

/-- `withRuntimeEvidence`: the VM with the probes, constraints and terminal of the report. -/
def withRuntimeEvidence (vm : RunVmStateDocument) (report : ReportedVm) : RunVmStateDocument :=
  let withProbes :=
    applyProbeSnapshotToVm (generationBase vm report) (report.probes.map VmProbeSnapshot.update)
  let runtimeConstraints :=
    mergeRuntimeConstraints withProbes.runtimeConstraints report.runtimeConstraints
  let terminal := projectTerminalReadiness report.terminal runtimeConstraints
    report.sshHostKeysOpenssh withProbes report.phase
  { withProbes with
    terminalPhase := terminal.phase
    terminalReason := terminal.reason
    terminalObservedAt := terminal.observedAt
    terminalTarget := terminal.target
    runtimeConstraints
    resourceState :=
      if report.resourceState.isSome ∧
          report.runtimeConstraints.map (·.generation) = runtimeConstraints.map (·.generation) then
        report.resourceState
      else withProbes.resourceState }

/-- A report that is taken in. -/
def acceptReport (vm : RunVmStateDocument) (report : ReportedVm) : RunVmStateDocument :=
  let evident := withRuntimeEvidence vm report
  let derived := deriveVmPhase evident (some report.phase) report.error
  decorateVmState
    { evident with
      guestIp := (Js.trimOrNone report.guestIp).or evident.guestIp
      phase := derived.phase
      phaseDetail := derived.phaseDetail
      runtimeState := some report.phase.text
      runtimeObservedAt := some report.updatedAtUnixMs
      vmCreatedAt := evident.vmCreatedAt.or
        (if derived.phase = .queued then none else some report.updatedAtUnixMs) }

def applyReportedVmState (runId : String) (vm : RunVmStateDocument) (report : ReportedVm) :
    RunVmStateDocument :=
  if !matchesVmReportIdentity runId vm.runtimeVmName report.runId report.vmName then vm
  else if observedLater vm report then vm
  else if generationRejected vm report then vm
  else acceptReport vm report

/-! ## Reports and runs -/

/-- The report of one VM, in the form of an entry of a host's report. -/
def VmReport.reported (report : VmReport) : ReportedVm where
  runId := report.runId
  vmName := report.vmName
  phase := report.phase
  guestIp := report.guestIp
  terminal := report.terminal
  runtimeConstraints := report.runtimeConstraints
  resourceState := report.resourceState
  sshHostKeysOpenssh := report.sshHostKeysOpenssh
  probes := report.probes
  error := report.error
  updatedAtUnixMs := report.observedAtUnixMs

/-- One reported VM, applied to every VM of a run. -/
def applyToVms (runId : String) (state : RunStateDocument) (report : ReportedVm) :
    RunStateDocument :=
  { state with vms := state.vms.map fun vm => applyReportedVmState runId vm report }

def applyVmReportToRunState (runId : String) (current : RunStateDocument) (report : VmReport) :
    RunStateDocument :=
  recomputeRunState (applyToVms runId current report.reported)

def applyHostReportToRunState (runId : String) (current : RunStateDocument)
    (report : HostStateReport) : RunStateDocument :=
  recomputeRunState (report.vms.foldl (applyToVms runId) current)

/-! ## What a report does to a VM -/

section

variable {runId : String} {vm : RunVmStateDocument} {report : ReportedVm}

/-- The report is about the VM, not older than the last one, and does not name a generation that was
given up. -/
structure Accepted (runId : String) (vm : RunVmStateDocument) (report : ReportedVm) : Prop where
  run : report.runId = runId
  name : report.vmName = vm.runtimeVmName
  notOlder : observedLater vm report = false
  notRejected : generationRejected vm report = false

/-- What a report makes of a VM. -/
inductive Applied (runId : String) (vm : RunVmStateDocument) (report : ReportedVm) :
    RunVmStateDocument → Prop where
  | ignored : Applied runId vm report vm
  | accepted (h : Accepted runId vm report) : Applied runId vm report (acceptReport vm report)

theorem applied (runId : String) (vm : RunVmStateDocument) (report : ReportedVm) :
    Applied runId vm report (applyReportedVmState runId vm report) := by
  rw [applyReportedVmState]
  split
  · exact .ignored
  rename_i hnmd
  split
  · exact .ignored
  rename_i hlat
  split
  · exact .ignored
  rename_i hrej
  simp only [matchesVmReportIdentity, Bool.not_eq_true, Bool.not_eq_false', Bool.and_eq_true,
    decide_eq_true_eq] at hnmd hlat hrej
  exact .accepted ⟨hnmd.1.symm, hnmd.2.symm, hlat, hrej⟩

theorem applyReportedVmState_of_not_named
    (h : ¬ (report.runId = runId ∧ report.vmName = vm.runtimeVmName)) :
    applyReportedVmState runId vm report = vm := by
  rw [applyReportedVmState, if_pos]
  rw [Bool.not_eq_true', ← Bool.not_eq_true, matchesVmReportIdentity, Bool.and_eq_true]
  exact fun hnmd => h ⟨(of_decide_eq_true hnmd.1).symm, (of_decide_eq_true hnmd.2).symm⟩

theorem applyReportedVmState_of_observedLater (h : observedLater vm report = true) :
    applyReportedVmState runId vm report = vm := by
  rw [applyReportedVmState, if_pos h, ite_self]

theorem applyReportedVmState_of_generationRejected (h : generationRejected vm report = true) :
    applyReportedVmState runId vm report = vm := by
  rw [applyReportedVmState, if_pos h, ite_self, ite_self]

theorem applyReportedVmState_of_accepted (h : Accepted runId vm report) :
    applyReportedVmState runId vm report = acceptReport vm report := by
  simp [applyReportedVmState, matchesVmReportIdentity, h.run, h.name, h.notOlder, h.notRejected]

/-! Phases only go up, as every branch asks `canAdvanceVmPhase` first. -/

theorem rank_le_report (vm : RunVmStateDocument) (reportPhase : Option BridgeVmPhase) (derived : DerivedPhase) :
    derived.phase.rank ≤ (derived.report vm reportPhase).phase.rank := by
  cases reportPhase with
  | none => exact le_rfl
  | some =>
    rw [DerivedPhase.report]
    split
    · rename_i hadv
      exact of_decide_eq_true hadv
    · exact le_rfl

theorem rank_le_collect (collectionError : Option String) (derived : DerivedPhase) :
    derived.phase.rank ≤ (derived.collect collectionError).phase.rank := by
  rw [DerivedPhase.collect]
  split
  · exact le_rfl
  split
  · rename_i hadv
    exact of_decide_eq_true hadv
  · exact le_rfl

theorem rank_le_probe (derived : DerivedPhase) :
    derived.phase.rank ≤ (derived.probe vm).phase.rank := by
  rw [DerivedPhase.probe]
  split
  · rename_i h
    rw [Bool.and_eq_true] at h
    exact of_decide_eq_true h.2
  split
  · rename_i h
    rw [Bool.and_eq_true] at h
    exact of_decide_eq_true h.2
  split
  · rename_i h
    have hrank : derived.phase.rank ≤ VmPhase.booting.rank := of_decide_eq_true h
    split
    · exact hrank
    · exact le_rfl
  · exact le_rfl

theorem rank_le_deriveVmPhase (vm : RunVmStateDocument) (reportPhase : Option BridgeVmPhase)
    (collectionError : Option String) :
    vm.phase.rank ≤ (deriveVmPhase vm reportPhase collectionError).phase.rank := by
  have hrpt := rank_le_report vm reportPhase ⟨vm.phase, vm.phaseDetail⟩
  exact hrpt.trans ((rank_le_collect collectionError _).trans (rank_le_probe _))

/-! The fields of an accepted report. -/

@[simp] theorem acceptReport_runtimeVmName :
    (acceptReport vm report).runtimeVmName = vm.runtimeVmName := by
  show (generationBase vm report).runtimeVmName = vm.runtimeVmName
  rw [generationBase]
  split <;> rfl

@[simp] theorem acceptReport_provisioning :
    (acceptReport vm report).provisioning = vm.provisioning := by
  show (generationBase vm report).provisioning = vm.provisioning
  rw [generationBase]
  split <;> rfl

@[simp] theorem acceptReport_retired :
    (acceptReport vm report).retiredRuntimeGenerations
      = (generationBase vm report).retiredRuntimeGenerations := rfl

@[simp] theorem acceptReport_runtimeConstraints :
    (acceptReport vm report).runtimeConstraints
      = mergeRuntimeConstraints (generationBase vm report).runtimeConstraints
        report.runtimeConstraints := rfl

theorem rank_le_acceptReport :
    (generationBase vm report).phase.rank ≤ (acceptReport vm report).phase.rank :=
  rank_le_deriveVmPhase (withRuntimeEvidence vm report) _ _

theorem decorateVmState_acceptReport :
    decorateVmState (acceptReport vm report) = acceptReport vm report :=
  decorateVmState_idem _

/-! ## Generations -/

theorem generationBase_of_changed (h : generationChanged vm report = true) :
    generationBase vm report = resetVmForRuntimeGeneration vm := if_pos h

theorem generationBase_of_not_changed (h : generationChanged vm report = false) :
    generationBase vm report = vm := if_neg (by simp [h])

theorem mem_retired_reset {generation : String} :
    generation ∈ (resetVmForRuntimeGeneration vm).retiredRuntimeGenerations ↔
      generation ∈ vm.retiredRuntimeGenerations ∨ currentGeneration vm = some generation := by
  simp [resetVmForRuntimeGeneration]

/-- What is retired stays retired. -/
theorem mem_retired_acceptReport {generation : String}
    (h : generation ∈ vm.retiredRuntimeGenerations) :
    generation ∈ (acceptReport vm report).retiredRuntimeGenerations := by
  rw [acceptReport_retired, generationBase]
  split
  · exact mem_retired_reset.mpr (.inl h)
  · exact h

/-- Merging keeps the constraints or replaces them; it keeps them without a report, or where the
report adds nothing to a quota that is sealed already. -/
theorem mergeRuntimeConstraints_cases (current : Option RuntimeConstraintsEvidence)
    (reported : Option VmRuntimeConstraints) :
    (reported = none ∧ mergeRuntimeConstraints current reported = current) ∨
      ∃ given, reported = some given ∧
        (mergeRuntimeConstraints current reported
            = some ⟨Js.trim given.generation, given.cpuMillis, given.quotaVerifiedAtUnixMs⟩ ∨
          ∃ kept, current = some kept ∧ mergeRuntimeConstraints current reported = some kept ∧
            (kept.generation = "" ∨ kept.generation = Js.trim given.generation) ∧
            kept.cpuMillis = given.cpuMillis) := by
  cases reported with
  | none => exact .inl ⟨rfl, rfl⟩
  | some given =>
    refine .inr ⟨given, rfl, ?_⟩
    cases current with
    | none => exact .inl rfl
    | some kept =>
      rw [mergeRuntimeConstraints]
      split
      · rename_i hkt
        exact .inr ⟨kept, rfl, rfl, hkt.1, hkt.2.2.1⟩
      · exact .inl rfl

/-- The name a report gives, as a generation that may be current. -/
theorem generation_eq_filter {given : VmRuntimeConstraints}
    (h : report.runtimeConstraints = some given) :
    report.generation = (some (Js.trim given.generation)).filter (· ≠ "") := by
  rw [ReportedVm.generation, h]
  by_cases hemp : Js.trim given.generation = ""
  · simp [Js.trimOrNone, Option.filter, hemp]
  · simp [Js.trimOrNone, Option.filter, hemp]

/-- The generation a report changes to is the one it names. -/
theorem currentGeneration_of_changed (h : generationChanged vm report = true) :
    currentGeneration (acceptReport vm report) = report.generation := by
  rw [currentGeneration, acceptReport_runtimeConstraints, generationBase_of_changed h]
  rcases mergeRuntimeConstraints_cases none report.runtimeConstraints with
    ⟨hno, -⟩ | ⟨given, hgv, hfr | ⟨kept, hkt, -⟩⟩
  · rw [ReportedVm.generation, hno]
    rfl
  · rw [generation_eq_filter hgv]
    exact congrArg (fun c => (c.map RuntimeConstraintsEvidence.generation).filter (· ≠ "")) hfr
  · cases hkt

/-- Without a change, the generation is the one that was known, or the first one to be named. -/
theorem currentGeneration_of_not_changed (hchg : generationChanged vm report = false)
    (hrej : generationRejected vm report = false) :
    currentGeneration (acceptReport vm report) = currentGeneration vm ∨
      currentGeneration vm = none ∧
        currentGeneration (acceptReport vm report) = report.generation := by
  have hmrg : (acceptReport vm report).runtimeConstraints
      = mergeRuntimeConstraints vm.runtimeConstraints report.runtimeConstraints := by
    rw [acceptReport_runtimeConstraints, generationBase_of_not_changed hchg]
  rcases mergeRuntimeConstraints_cases vm.runtimeConstraints report.runtimeConstraints with
    ⟨-, hsm⟩ | ⟨given, hgv, hfr | ⟨kept, hcur, hkt, -⟩⟩
  · left
    rw [currentGeneration, hmrg, hsm, currentGeneration]
  · have hnmd : currentGeneration (acceptReport vm report) = report.generation := by
      rw [currentGeneration, hmrg, hfr, generation_eq_filter hgv]
      rfl
    rw [hnmd]
    rw [generationChanged] at hchg
    rw [generationRejected] at hrej
    cases hrpt : report.generation with
    | none =>
      simp only [hrpt, Option.isSome_eq_false_iff, Option.isNone_iff_eq_none] at hrej
      exact .inl hrej.symm
    | some =>
      cases hcur : currentGeneration vm with
      | none => exact .inr ⟨rfl, rfl⟩
      | some =>
        simp only [hrpt, hcur, ne_eq, decide_not, Bool.not_eq_false', decide_eq_true_eq]
          at hchg
        exact .inl (congrArg some hchg.symm)
  · left
    rw [currentGeneration, hmrg, hkt, currentGeneration, hcur]

/-- A report that changes the generation names a new one. -/
theorem generation_of_changed (hchg : generationChanged vm report = true)
    (hrej : generationRejected vm report = false) :
    ∃ named, report.generation = some named ∧ named ∉ vm.retiredRuntimeGenerations ∧
      currentGeneration vm ≠ some named := by
  rw [generationChanged] at hchg
  rw [generationRejected] at hrej
  cases hrpt : report.generation with
  | none => simp [hrpt] at hchg
  | some named =>
    refine ⟨named, rfl, by simpa [hrpt] using hrej, ?_⟩
    intro hcur
    simp [hrpt, hcur] at hchg

/-! ## Terminals -/

/-- The target of a report whose terminal is ready, as the run keeps it. -/
def takenTarget (report : ReportedVm) (reported : VmTerminalTarget) : TerminalTarget :=
  ⟨some (Js.trim reported.host), reported.port, Js.trim reported.username,
    firstHostKey report.sshHostKeysOpenssh, some reported.checkedAtUnixMs⟩

/-- The target has all that a shell needs. -/
structure TerminalTarget.Complete (target : TerminalTarget) : Prop where
  host : ∃ host, target.host = some host ∧ host ≠ ""
  port : 0 < target.port
  username : target.username ≠ ""
  hostKey : ∃ key, target.hostKeyOpenssh = some key ∧ key ≠ ""

/-- The report makes the terminal ready under the constraints that hold once it is taken in. -/
structure ReadyBy (report : ReportedVm) (constraints : RuntimeConstraintsEvidence)
    (cpuMillis : Option Int) (target : TerminalTarget) : Prop where
  complete : target.Complete
  taken : ∃ terminal reported, report.terminal = some terminal ∧ terminal.state = .ready ∧
    terminal.target = some reported ∧ target = takenTarget report reported
  generation : constraints.generation ≠ ""
  provisioned : cpuMillis = some constraints.cpuMillis
  checked : ∃ verifiedAt checkedAt, constraints.quotaVerifiedAt = some verifiedAt ∧
    target.checkedAt = some checkedAt ∧ 0 < verifiedAt ∧ verifiedAt ≤ checkedAt

variable {keys : List String} {constraints : Option RuntimeConstraintsEvidence}

theorem firstHostKey_ne {key : String} (h : firstHostKey keys = some key) : key ≠ "" := by
  rw [firstHostKey, Option.map_eq_some_iff] at h
  obtain ⟨_, hfd, rfl⟩ := h
  simpa using List.find?_some hfd

/-- **What makes a terminal ready.** -/
theorem readyBy_of_explicitTarget {terminal : VmTerminalState} {cpuMillis : Option Int}
    {target : TerminalTarget} (hterm : report.terminal = some terminal)
    (h : explicitTarget terminal constraints report.sshHostKeysOpenssh cpuMillis = some target) :
    ∃ held, constraints = some held ∧ ReadyBy report held cpuMillis target := by
  rw [explicitTarget] at h
  split at h
  case h_2 => cases h
  rename_i reported key verifiedAt hrep hkey hvf
  split at h
  case isFalse => cases h
  rename_i hall
  obtain ⟨hho, hport, huser, hquo, hchkd⟩ := hall
  obtain ⟨held, hhd, hverifiedAt⟩ := Option.bind_eq_some_iff.mp hvf
  have hrdy : terminal.state = .ready ∧ terminal.target = some reported := by
    split at hrep
    · exact ⟨‹_›, hrep⟩
    · cases hrep
  have htgt : target = takenTarget report reported := by
    rw [takenTarget, hkey]
    exact (Option.some.inj h).symm
  rw [quotaReady.eq_def, hhd] at hquo
  split at hquo
  case h_2 => cases hquo
  rename_i hsm
  cases hsm
  simp only [hverifiedAt, Bool.and_eq_true, decide_eq_true_eq] at hquo
  refine ⟨held, hhd, ?_⟩
  exact {
    complete := by
      rw [htgt]
      exact ⟨⟨_, rfl, hho⟩, hport, huser, ⟨key, hkey, firstHostKey_ne hkey⟩⟩
    taken := ⟨terminal, reported, hterm, hrdy.1, hrdy.2, htgt⟩
    generation := by
      intro hemp
      exact hquo.1.1.2 (by rw [hemp]; rfl)
    provisioned := congrArg some hquo.1.2.symm
    checked := ⟨verifiedAt, _, hverifiedAt, by rw [htgt]; rfl, hquo.2.1, hchkd⟩ }

theorem shownTerminalTarget_of_ready (h : vm.terminalPhase = .ready) :
    shownTerminalTarget vm = vm.terminalTarget := by
  rw [shownTerminalTarget, h]

theorem applyProbeSnapshotToVm_terminalTarget {probes : List ProbeUpdate}
    (h : vm.terminalPhase = .ready) :
    (applyProbeSnapshotToVm vm probes).terminalTarget = vm.terminalTarget := by
  show shownTerminalTarget _ = _
  simp [shownTerminalTarget, h]

theorem currentTerminalProjection_of_ready (h : vm.terminalPhase = .ready) :
    (currentTerminalProjection vm).target = vm.terminalTarget := by
  rw [currentTerminalProjection, h]

/-- A terminal is projected as ready because the report proves it or because it was. -/
theorem projectTerminalReadiness_ready {reported : Option VmTerminalState} {phase : BridgeVmPhase}
    {projection : TerminalProjection}
    (hproj : projectTerminalReadiness reported constraints keys vm phase = projection)
    (h : projection.phase = .ready) :
    (∃ terminal, reported = some terminal ∧
        explicitTarget terminal constraints keys (vm.provisioning.resources.map (·.cpuMillis))
          = some projection.target) ∨
      (vm.terminalPhase = .ready ∧ projection.target = vm.terminalTarget) := by
  subst hproj
  cases reported with
  | none => exact .inr ⟨h, currentTerminalProjection_of_ready h⟩
  | some terminal =>
    simp only [projectTerminalReadiness] at h ⊢
    split at h
    · cases h
    rename_i hfail
    rw [if_neg hfail]
    split at h
    · rename_i htgt
      exact .inl ⟨terminal, rfl, htgt⟩
    split at h
    · rename_i hrdy
      right
      rw [if_pos hrdy]
      exact ⟨hrdy, currentTerminalProjection_of_ready hrdy⟩
    · cases h

/-- A terminal is ready because the report proves it, or because it was ready and the generation
did not change. -/
theorem ready_of_acceptReport (h : (acceptReport vm report).terminalPhase = .ready) :
    (∃ held, (acceptReport vm report).runtimeConstraints = some held ∧
        ReadyBy report held (vm.provisioning.resources.map (·.cpuMillis))
          (acceptReport vm report).terminalTarget) ∨
      (generationChanged vm report = false ∧ vm.terminalPhase = .ready ∧
        (acceptReport vm report).terminalTarget = vm.terminalTarget) := by
  have hshw : (acceptReport vm report).terminalTarget
      = (withRuntimeEvidence vm report).terminalTarget := by
    show shownTerminalTarget (withRuntimeEvidence vm report) = _
    exact shownTerminalTarget_of_ready h
  rw [hshw]
  rcases projectTerminalReadiness_ready rfl h with ⟨_, hterm, htgt⟩ | ⟨hrdy, htgt⟩
  · left
    have hprvg : (generationBase vm report).provisioning = vm.provisioning :=
      acceptReport_provisioning
    rw [← hprvg]
    exact readyBy_of_explicitTarget hterm htgt
  · right
    cases hchg : generationChanged vm report with
    | true =>
      have hreset : (generationBase vm report).terminalPhase = .ready := hrdy
      rw [generationBase_of_changed hchg] at hreset
      cases hreset
    | false =>
      have hsm := generationBase_of_not_changed hchg
      have hvm : vm.terminalPhase = .ready := by
        rw [← hsm]
        exact hrdy
      refine ⟨rfl, hvm, htgt.trans ?_⟩
      rw [hsm]
      exact applyProbeSnapshotToVm_terminalTarget hvm

end

end Intar.Runs
