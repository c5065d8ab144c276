import Intar.Runs.AdmissionBatch

/-!
# What a start asks for

The parts of `lib/scenario-runs/begin.ts` that run before a start looks at any host: the request is
checked, and from the launch specs of its scenario the run is drafted, with its VMs, keys and quotas.

A draft needs ids, key pairs, encryptions and a time.  They come from outside as its `Material`.
-/

namespace Intar.Runs

open Fallible

open Host (Millis DesiredVm DesiredGuestTools)
open List

/-! ## The request -/

/-- `BeginScenarioRunInput`. -/
structure BeginInput where
  (scenarioId userId idempotencyKey : String)
  (organizationId hostId candidateRevision candidateBuildId : Option String)
  (allowDrainedAdminProof allowSequenceBypass : Bool)
deriving DecidableEq

/-- `[A-Za-z0-9._~:/+=-]`. -/
def isIdempotencyKeyChar (c : Char) : Bool := c.isAlphanum || c ∈ "._~:/+=-".toList

def requireIdempotencyKey (value : String) : Except StartError String :=
  let key := Js.trim value
  if key.toList.length < 8 ∨ 200 < key.toList.length ∨ ¬ key.toList.all isIdempotencyKeyChar then
    .error (.app 400 "idempotency_key_required"
      "the Idempotency-Key header must be 8 to 200 safe characters")
  else .ok key

/-- `isSafeBuildId`; the pattern is that of `isSafeBundleRev`. -/
def isSafeBuildId (value : String) : Bool := Host.isSafeBundleRev value

/-- The candidate identity a caller asks for. -/
def candidateRequestFromInput (input : BeginInput) : Except StartError (Option CandidateRequest) :=
  match input.candidateRevision.map Js.trim, input.candidateBuildId.map Js.trim with
  | none, none => .ok none
  | some revision, some buildId =>
    if ¬ Host.isSafeBundleRev revision ∨ ¬ isSafeBuildId buildId then
      .error (.app 400 "candidate_proof_identity_invalid"
        "candidate revision or build id is invalid")
    else if ¬ input.allowDrainedAdminProof then
      .error (.app 403 "candidate_proof_admin_required"
        "candidate proofs require administrator authorization")
    else .ok (some ⟨revision, buildId⟩)
  | _, _ => .error (.app 400 "candidate_proof_identity_incomplete"
      "candidate revision and build id are both required")

def scenarioStartRequestScope (input : BeginInput) : RequestScope where
  scenarioId := input.scenarioId
  organizationId := input.organizationId
  hostId := input.hostId
  candidateRevision := input.candidateRevision.map Js.trim
  candidateBuildId := input.candidateBuildId.map Js.trim
  allowDrainedAdminProof := input.allowDrainedAdminProof
  allowSequenceBypass := input.allowSequenceBypass

/-- What a start takes from the course unit it goes through. -/
structure CourseLecture where
  (courseScopeKey courseId lectureId : String)
  /-- The title under which the unit presents the scenario. -/
  title : String
deriving DecidableEq

/-! ## Material -/

structure VmMaterial where
  (vmId runtimeVmId sshKeyId publicKeyOpenssh : String)
  (sshPrivateKey accessKey : EncryptedKey)
deriving DecidableEq

structure Material where
  runId : String
  createdAt : Millis
  guestTools : DesiredGuestTools
  /-- By the index of the VM. -/
  vms : Nat → VmMaterial

/-! ## The state of the run -/

def maxRuntimeVmNameLength : Nat := 63

/-- `deterministicRuntimeVmName`, whose arguments are ASCII text. -/
def deterministicRuntimeVmName (stem runId : String) (index : Nat) : String :=
  let discriminator := String.ofList (runId.toList.take 6) ++ "-" ++ toString (index + 1)
  let budget := maxRuntimeVmNameLength - discriminator.toList.length - 1
  let cut := String.ofList ((stem.toList.take budget).rdropWhile (· = '-'))
  Js.orElse cut "vm" ++ "-" ++ discriminator

section

variable (material : Material) (source : LaunchSource)

def initialVm (spec : ScenarioLaunchSpec) (index : Nat) : InitialVm where
  id := (material.vms index).vmId
  ordinal := index
  scenarioVmId := spec.scenarioVmId
  scenarioVmName := spec.scenarioVmName
  runtimeVmName := deterministicRuntimeVmName spec.runtimeVmNamePrefix material.runId index
  hostname := spec.hostname
  launchSummary := spec.summary

def runVmState (spec : ScenarioLaunchSpec) (index : Nat) : RunVmStateDocument :=
  let vm := buildInitialVmState (initialVm material spec index)
  { vm with
    provisioning := { vm.provisioning with
      image := some spec.image
      imageKey := spec.imageKey
      imageSha256 := spec.imageSha256
      resources := some spec.resources
      leaseDurationSeconds := some spec.leaseDurationSeconds
      status := .pending } }

def runVmStates : List RunVmStateDocument :=
  source.launchSpecs.zipIdx.map fun spec => runVmState material spec.1 spec.2

/-- The launch of the VM is queued. -/
def queueProvisioning (vm : RunVmStateDocument) : RunVmStateDocument :=
  { vm with provisioning := { vm.provisioning with status := .queued, error := none } }

/-- `provisionedState`. -/
def provisionedRunState : RunStateDocument :=
  let initial := buildInitialRunState
    (source.launchSpecs.zipIdx.map fun spec => initialVm material spec.1 spec.2)
  let state := recomputeRunState { initial with
    candidateSource := source.candidateSource.or initial.candidateSource
    phase := .provisioning
    phaseTitle := "Provisioning"
    phaseDetail := "Queueing launch delivery."
    vms := runVmStates material source }
  recomputeRunState { state with vms := state.vms.map queueProvisioning }

/-! ## The draft -/

/-- `runtimeVmSpecsFromScenarioState`, for one VM. -/
def runtimeVmSpec (vm : RunVmStateDocument) : Except StartError RuntimeVmSpec :=
  match vm.provisioning.resources, vm.provisioning.imageKey,
      Js.trimOrNone vm.provisioning.imageSha256 with
  | some resources, some imageKey, some imageSha256 => .ok
    { runtimeVmId := (material.vms vm.ordinal).runtimeVmId
      vmId := vm.id
      ordinal := vm.ordinal
      runtimeVmName := vm.runtimeVmName
      imageKey
      imageSha256
      cpuMillis := resources.cpuMillis
      memoryMib := resources.memoryMib
      diskMib := resources.diskMib }
  | _, _, _ => .error (.app 409 "scenario_runtime_spec_incomplete" ("scenario VM " ++
      vm.scenarioVmName ++ " is missing immutable runtime metadata"))

end

def normalizeAuthorizedKeys (values : List String) : List String :=
  Keyed.addAll [] ((values.map Js.trim).filter (· ≠ ""))

/-- `desiredVmFromRunVm`. -/
def desiredVmFromRunVm (runId ownerUserId runtimeExecutionId : String) (generation : Int)
    (vm : RunVmStateDocument) (nowUnixMs : Millis) (sshAuthorizedKeysOpenssh : List String)
    (guestTools : DesiredGuestTools) : Option DesiredVm := do
  let imageKey ← vm.provisioning.imageKey
  let imageId ← Js.trimOrNone vm.provisioning.imageSha256
  let resources ← vm.provisioning.resources
  let leaseDurationSeconds ← vm.provisioning.leaseDurationSeconds
  let keys := normalizeAuthorizedKeys sshAuthorizedKeysOpenssh
  guard (Js.trim ownerUserId ≠ "" ∧ Js.trim runtimeExecutionId ≠ "")
  guard (Host.isSafeInteger generation ∧ 1 ≤ generation)
  guard (keys ≠ [])
  some
    { vmId := vm.id
      ownerUserId
      runtimeExecutionId
      generation
      runId
      vmName := vm.runtimeVmName
      desiredPhase := .running
      imageKey
      imageId
      guestTools
      resources
      sshAuthorizedKeysOpenssh := keys
      leaseExpiresAtUnixMs := nowUnixMs + leaseDurationSeconds * 1000 }

/-- `cpuReservationForVms`, which throws a plain error. -/
def cpuReservation (cpuMillisByVm : List Int) : Except StartError Int :=
  (Host.cpuReservationForVms cpuMillisByVm).mapError .other

def scenarioRuntimeReservationResources (vms : List RuntimeVmSpec) (cpuMillisByVm : List Int) :
    Except StartError ResourceDemand := do
  let cpuMillis ← cpuReservation cpuMillisByVm
  return ⟨cpuMillis, (vms.map RuntimeVmSpec.memoryMib).sum, (vms.map RuntimeVmSpec.diskMib).sum⟩

section

variable (input : BeginInput) (source : LaunchSource) (candidateProof : Option CandidateProof)
  (course : CourseLecture) (idempotencyKey : String) (material : Material)

def draftSshKey (vm : RunVmStateDocument) : SshKeyRow where
  id := (material.vms vm.ordinal).sshKeyId
  runId := material.runId
  vmId := vm.id
  runtimeVmName := vm.runtimeVmName
  publicKeyOpenssh := (material.vms vm.ordinal).publicKeyOpenssh
  privateKeyCiphertextB64 := (material.vms vm.ordinal).sshPrivateKey.ciphertextB64
  privateKeyIvB64 := (material.vms vm.ordinal).sshPrivateKey.ivB64
  createdAt := material.createdAt

def draftDesiredVm (vm : RunVmStateDocument) : Except StartError DesiredVm :=
  match desiredVmFromRunVm material.runId input.userId material.runId 1 vm material.createdAt
      [(material.vms vm.ordinal).publicKeyOpenssh] material.guestTools with
  | some desired => .ok desired
  | none => .error (.app 500 "scenario_vm_desired_state_invalid"
      ("missing desired-state image metadata for " ++ vm.runtimeVmName))

/-- The row of the run; it gets its host when it is admitted. -/
def draftRun : RunRow :=
  let state := provisionedRunState material source
  { runId := material.runId
    userId := input.userId
    organizationId := input.organizationId
    runtimeExecutionId := some material.runId
    hostId := ""
    scenarioId := source.scenarioId
    scenarioName := source.scenarioId
    courseScopeKey := some course.courseScopeKey
    courseId := some course.courseId
    lectureId := some course.lectureId
    title := if source.candidateSource.isSome then source.title else course.title
    vmCount := state.vms.length
    state := state.phase
    stateRank := state.phase.rank
    activeKey := some input.userId
    requestIdempotencyKey := some idempotencyKey
    requestScope := some (scenarioStartRequestScope input)
    stateJson := state
    archiveEnteredAt := none
    deleteRequestedAt := none
    solvedAt := none
    completedAt := none
    failedAt := none
    createdAt := material.createdAt
    updatedAt := material.createdAt }

/-- The longest lease of the VMs, in seconds. -/
def leaseDuration (state : RunStateDocument) : Int :=
  (state.vms.map fun vm => vm.provisioning.leaseDurationSeconds.getD 0).foldl max 0

/-- The first part of `admitNewRun`. -/
def draftNewRun : Except StartError Draft := do
  let state := provisionedRunState material source
  let runtimeVms ← each (runtimeVmSpec material) state.vms
  let cpuMillisByVm := source.launchSpecs.map (·.resources.cpuMillis)
  let reservationResources ← scenarioRuntimeReservationResources runtimeVms cpuMillisByVm
  let cpuMillis ← cpuReservation cpuMillisByVm
  if cpuMillis ≠ reservationResources.cpuMillis then
    .error (.app 500 "scenario_catalog_invalid" "scenario CPU reservation is inconsistent")
  else if runVmStates material source = [] then
    .error (.other "scenario run has no SSH key rows")
  else
    let desiredVms ← each (draftDesiredVm input material) state.vms
    return {
      run := draftRun input source course idempotencyKey material
      sshKeyRows := (runVmStates material source).map (draftSshKey material)
      runtimeVms
      accessKeys := runtimeVms.map fun vm => (material.vms vm.ordinal).accessKey
      desiredVms
      guestTools := material.guestTools
      cpuMillis
      reservationResources
      leaseExpiresAt :=
        if 0 < leaseDuration state then some (material.createdAt + leaseDuration state * 1000)
        else none
      allowDrainedAdminProof := input.allowDrainedAdminProof
      candidateProof
      sourceAnchor :=
        if candidateProof.isSome then none else some (liveSourceFingerprint source.launchSpecs) }

end

/-! ## What a draft is -/

section

variable {input : BeginInput} {source : LaunchSource} {candidateProof : Option CandidateProof}
  {course : CourseLecture} {idempotencyKey : String} {material : Material} {draft : Draft}

/-- VMs that are all queued leave a run where it is provisioned. -/
theorem deriveRunPhase_queued {vms : List RunVmStateDocument} (hne : vms ≠ [])
    (hque : ∀ vm ∈ vms, vm.phase = .queued) : deriveRunPhase vms .provisioning = .provisioning := by
  obtain ⟨vm, rest, rfl⟩ := exists_cons_of_ne_nil hne
  have hvm := hque vm mem_cons_self
  have hno : ∀ p : VmPhase → Bool, p .queued = false →
      (vm :: rest).any (fun vm => p vm.phase) = false := by
    intro p hp
    rw [any_eq_false]
    intro x hx
    rw [hque x hx, hp]
    exact Bool.false_ne_true
  have hfail : (vm :: rest).any (·.phase = .failed) = false := hno (· = .failed) rfl
  have hrdy : (vm :: rest).any (fun vm => vm.phase = .ready || vm.phase = .solved) = false :=
    hno (fun phase => phase = .ready || phase = .solved) rfl
  rw [deriveRunPhase, if_neg hne, if_neg (by decide), hfail, hrdy]
  simp [hvm, RunPhase.rank]

theorem provisionedRunState_phase (hne : source.launchSpecs ≠ []) :
    (provisionedRunState material source).phase = .provisioning := by
  have hph : ∀ vms : List RunVmStateDocument, vms ≠ [] → (∀ vm ∈ vms, vm.phase = .queued) →
      ∀ current, current.phase = .provisioning → current.vms = vms →
        (recomputeRunState current).phase = .provisioning := by
    intro _ hvms hque _ hcur hcurrentVms
    rw [recomputeRunState_phase, hcur, hcurrentVms]
    refine deriveRunPhase_queued (by simpa using hvms) ?_
    intro _ hvm
    obtain ⟨vm₀, hvm₀, rfl⟩ := mem_map.mp hvm
    exact hque vm₀ hvm₀
  have hlength : runVmStates material source ≠ [] := by
    simpa [runVmStates, zipIdx_eq_nil_iff] using hne
  have hque : ∀ vm ∈ runVmStates material source, vm.phase = .queued := by
    intro _ hvm
    obtain ⟨_, -, rfl⟩ := mem_map.mp hvm
    rfl
  refine hph _ ?_ ?_ _ (hph _ hlength hque _ rfl rfl) rfl
  · rw [recomputeRunState_vms]
    simpa using hlength
  intro _ hvm
  rw [recomputeRunState_vms] at hvm
  simp only [mem_map] at hvm
  obtain ⟨_, ⟨vm₀, hvm₀, rfl⟩, rfl⟩ := hvm
  exact hque vm₀ hvm₀

variable {vm : RunVmStateDocument}

/-- A VM is desired under its name and with its image. -/
theorem draftDesiredVm_eq_ok {desired : DesiredVm}
    (h : draftDesiredVm input material vm = .ok desired) :
    desired.runId = material.runId ∧ desired.desiredPhase = .running ∧
      desired.vmName = vm.runtimeVmName ∧ vm.provisioning.imageKey = some desired.imageKey ∧
      Js.trimOrNone vm.provisioning.imageSha256 = some desired.imageId := by
  rw [draftDesiredVm] at h
  split at h
  · rename_i hdes
    cases h
    simp only [desiredVmFromRunVm, Option.bind_eq_bind, Option.bind_eq_some_iff] at hdes
    obtain ⟨_, hkey, _, himg, _, -, _, -, _, -, _, -, _, -, heq⟩ := hdes
    cases heq
    exact ⟨rfl, rfl, rfl, hkey, himg⟩
  · cases h

theorem runtimeVmSpec_eq_ok {spec : RuntimeVmSpec} (h : runtimeVmSpec material vm = .ok spec) :
    spec.runtimeVmName = vm.runtimeVmName ∧ vm.provisioning.imageKey = some spec.imageKey ∧
      Js.trimOrNone vm.provisioning.imageSha256 = some spec.imageSha256 := by
  rw [runtimeVmSpec] at h
  split at h
  · rename_i hkey himg
    cases h
    exact ⟨rfl, hkey, himg⟩
  · cases h

/-- How a draft comes from its scenario. -/
structure DraftOf (input : BeginInput) (source : LaunchSource)
    (candidateProof : Option CandidateProof) (course : CourseLecture) (idempotencyKey : String)
    (material : Material) (draft : Draft) : Prop where
  runtimeVms : each (runtimeVmSpec material) (provisionedRunState material source).vms =
    .ok draft.runtimeVms
  desiredVms : each (draftDesiredVm input material)
    (provisionedRunState material source).vms = .ok draft.desiredVms
  cpuMillis : Host.cpuReservationForVms (source.launchSpecs.map (·.resources.cpuMillis)) =
    .ok draft.cpuMillis
  run : draft.run = draftRun input source course idempotencyKey material
  sshKeyRows : draft.sshKeyRows = (runVmStates material source).map (draftSshKey material)
  proof : draft.candidateProof = candidateProof
  sourceAnchor : draft.sourceAnchor =
    if candidateProof.isSome then none else some (liveSourceFingerprint source.launchSpecs)
  launchSpecs : source.launchSpecs ≠ []

theorem draftOf_draftNewRun
    (h : draftNewRun input source candidateProof course idempotencyKey material = .ok draft) :
    DraftOf input source candidateProof course idempotencyKey material draft := by
  rw [draftNewRun] at h
  obtain ⟨_, hruntimeVms, h⟩ := bind_eq_ok.mp h
  obtain ⟨_, -, h⟩ := bind_eq_ok.mp h
  obtain ⟨cpuMillis, hcpu, h⟩ := bind_eq_ok.mp h
  split at h
  · cases h
  split at h
  · cases h
  rename_i hkeys
  obtain ⟨_, hdesiredVms, h⟩ := bind_eq_ok.mp h
  cases h
  have hcpuMillis : Host.cpuReservationForVms (source.launchSpecs.map (·.resources.cpuMillis)) =
      .ok cpuMillis := by
    rw [cpuReservation] at hcpu
    cases hsum : Host.cpuReservationForVms (source.launchSpecs.map (·.resources.cpuMillis)) with
    | error =>
      rw [hsum] at hcpu
      cases hcpu
    | ok =>
      rw [hsum] at hcpu
      cases hcpu
      rfl
  refine ⟨hruntimeVms, hdesiredVms, hcpuMillis, rfl, rfl, rfl, rfl, fun hnil => hkeys ?_⟩
  rw [runVmStates, hnil]
  rfl

namespace DraftOf

variable (h : DraftOf input source candidateProof course idempotencyKey material draft)
include h

theorem wellFormed : draft.WellFormed := by
  refine ⟨?_, ?_, ?_, ?_⟩
  · rw [h.run]
    rfl
  · rw [h.run]
    exact provisionedRunState_phase h.launchSpecs
  · rw [h.run]
    rfl
  intro _ hkey
  rw [h.sshKeyRows] at hkey
  obtain ⟨_, -, rfl⟩ := mem_map.mp hkey
  rw [h.run]
  rfl

theorem cpuMillis_pos : 0 < draft.cpuMillis := Host.cpuReservationForVms_pos h.cpuMillis

theorem runId : draft.run.runId = material.runId := by
  rw [h.run]
  rfl

/-- The desired VMs are those of the run, to be started. -/
theorem running {vm : DesiredVm} (hvm : vm ∈ draft.desiredVms) :
    vm.runId = draft.run.runId ∧ vm.desiredPhase = .running := by
  obtain ⟨_, -, hsta⟩ := exists_of_mem_each h.desiredVms hvm
  obtain ⟨hrun, hph, -⟩ := draftDesiredVm_eq_ok hsta
  exact ⟨hrun.trans h.runId.symm, hph⟩

/-- Desired VMs and runtime VMs have the same names. -/
theorem names :
    draft.desiredVms.map DesiredVm.vmName = draft.runtimeVms.map RuntimeVmSpec.runtimeVmName := by
  have hdes : draft.desiredVms.map DesiredVm.vmName =
      (provisionedRunState material source).vms.map RunVmStateDocument.runtimeVmName :=
    map_eq_of_each (fun _ _ hvm => (draftDesiredVm_eq_ok hvm).2.2.1) h.desiredVms
  have hruntime : draft.runtimeVms.map RuntimeVmSpec.runtimeVmName =
      (provisionedRunState material source).vms.map RunVmStateDocument.runtimeVmName :=
    map_eq_of_each (fun _ _ hvm => (runtimeVmSpec_eq_ok hvm).1) h.runtimeVms
  rw [hdes, hruntime]

end DraftOf

end

end Intar.Runs
