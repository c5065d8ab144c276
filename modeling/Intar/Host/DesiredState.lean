import Intar.Lib.Fallible
import Intar.Lib.Keyed
import Intar.Registry.ObjectKey

/-!
# Desired state documents

`lib/desired-state.ts`: what a host should run, cache and build, as one document with a version.

A writer hands `mutateDesiredState` a mutator.  The mutated draft is checked (its ownership is
fixed, its schema and its version must stand) and normalized, and if what it asks for differs from
before it becomes the next version; the version and the time stamp are not part of what it asks
for.

The checks of `isDesiredState` in `control-plane/bridge-v8.ts` that the types of the fields already
make are not repeated.
-/

namespace Intar.Host

open Fallible Keyed

open Registry (Architecture ImageKey)
open List

abbrev Millis := Int

/-! ## The document -/

inductive HostScope where
  | personal
  | platform
  | organization
deriving DecidableEq

/-- `DesiredCachedImageV1`. -/
structure DesiredCachedImage where
  imageKey : ImageKey
  imageId : String
deriving DecidableEq

/-- `DesiredGuestToolsV1`. -/
structure DesiredGuestTools where
  toolsDiskSha256 : String
  toolsDiskSizeBytes : Int
  kinoSha256 : String
  bootstrapAbi : Int
deriving DecidableEq

inductive DesiredVmPhase where
  | running
  | absent
deriving DecidableEq

/-- `VmResourcesV3`. -/
structure VmResources where
  (cpuMillis memoryMib diskMib : Int)
deriving DecidableEq

/-- `DesiredVmV2`. -/
structure DesiredVm where
  (vmId ownerUserId runtimeExecutionId : String)
  generation : Int
  (runId vmName : String)
  desiredPhase : DesiredVmPhase
  imageKey : ImageKey
  imageId : String
  guestTools : DesiredGuestTools
  resources : VmResources
  sshAuthorizedKeysOpenssh : List String
  leaseExpiresAtUnixMs : Millis
deriving DecidableEq

/-- `DesiredBuildV1`. -/
structure DesiredBuild where
  (buildId scenarioId : String)
  arch : Architecture
  (rev contentHash bundleRef : String)
deriving DecidableEq

/-- `DesiredSourceCompileV1`. -/
structure DesiredSourceCompile where
  compileId : String
  attempt : Int
  rev : String
  validateOnly : Bool
  arch : Architecture
deriving DecidableEq

/-- `HostDesiredStateV2`.  An optional list that is missing is empty. -/
structure DesiredState where
  schemaVersion : Int
  hostId : String
  scope : HostScope
  ownerUserId : String
  version : Nat
  generatedAtUnixMs : Millis
  cachedImages : List DesiredCachedImage
  cachedGuestTools : List DesiredGuestTools
  vms : List DesiredVm
  builds : List DesiredBuild
  sourceCompiles : List DesiredSourceCompile
deriving DecidableEq

def schemaVersion : Int := 6

def createEmptyHostDesiredState (hostId : String) (scope : HostScope) (ownerUserId : String)
    (nowUnixMs : Millis) : DesiredState where
  schemaVersion
  hostId
  scope
  ownerUserId
  version := 0
  generatedAtUnixMs := nowUnixMs
  cachedImages := []
  cachedGuestTools := []
  vms := []
  builds := []
  sourceCompiles := []

/-! ## Validation -/

/-- `readString(value) !== null`. -/
def hasText (value : String) : Bool := Js.trim value ≠ ""

/-- `/^[a-f0-9]{64}$/i` on the trimmed text. -/
def isSha256Hex (value : String) : Bool := Registry.isSha256 (Js.toLowerCase (Js.trim value))

/-- `isSafeBundleRev`. -/
def isSafeBundleRev (value : String) : Bool :=
  value ≠ "." && value ≠ ".." && 1 ≤ value.toList.length && value.toList.length ≤ 128 &&
    value.toList.all Registry.isSlugChar

def isImageKeyPayload (key : ImageKey) : Bool := hasText key.scenario && hasText key.vm

def isDesiredCachedImagePayload (image : DesiredCachedImage) : Bool :=
  isImageKeyPayload image.imageKey && isSha256Hex image.imageId

def isGuestToolsPayload (tools : DesiredGuestTools) : Bool :=
  isSha256Hex tools.toolsDiskSha256 && tools.toolsDiskSizeBytes = 64 * 1024 * 1024 &&
    isSha256Hex tools.kinoSha256 && tools.bootstrapAbi = 2

def isVmResourcesPayload (resources : VmResources) : Bool :=
  0 < resources.cpuMillis && 0 ≤ resources.memoryMib && 0 ≤ resources.diskMib

/-- `Number.isSafeInteger`. -/
def isSafeInteger (n : Int) : Bool := -9007199254740991 ≤ n && n ≤ 9007199254740991

def isDesiredVmPayload (vm : DesiredVm) : Bool :=
  hasText vm.ownerUserId && hasText vm.runtimeExecutionId && isSafeInteger vm.generation &&
    0 < vm.generation && hasText vm.runId && hasText vm.vmName && hasText vm.vmId &&
    isImageKeyPayload vm.imageKey && isSha256Hex vm.imageId && isGuestToolsPayload vm.guestTools &&
    isVmResourcesPayload vm.resources

def isDesiredBuildPayload (build : DesiredBuild) : Bool :=
  hasText build.buildId && hasText build.scenarioId && hasText build.rev &&
    isSha256Hex build.contentHash && hasText build.bundleRef

def isDesiredSourceCompilePayload (compile : DesiredSourceCompile) : Bool :=
  isSafeBundleRev compile.compileId && 0 ≤ compile.attempt && compile.attempt ≤ 0xffffffff &&
    isSafeBundleRev compile.rev

/-- `isDesiredState`, for a message to the host `hostId`. -/
def isDesiredState (hostId : String) (document : DesiredState) : Bool :=
  Js.trim hostId ≠ "" && document.schemaVersion = schemaVersion &&
    document.hostId = Js.trim hostId && hasText document.ownerUserId &&
    document.cachedImages.all isDesiredCachedImagePayload &&
    document.vms.all (fun vm => isDesiredVmPayload vm &&
      (document.scope ≠ .personal || vm.ownerUserId = document.ownerUserId)) &&
    (document.vms.map DesiredVm.vmName).Nodup &&
    document.builds.all isDesiredBuildPayload &&
    document.sourceCompiles.all isDesiredSourceCompilePayload

/-- The stored document, when it belongs to the row it is stored in and is well formed. -/
def validateStoredHostDesiredState (document : DesiredState) (hostId : String) (rowVersion : Nat) :
    Except String DesiredState :=
  if document.hostId ≠ hostId ∨ document.version ≠ rowVersion ∨ ¬ isSafeInteger rowVersion then
    .error ("desired state identity is invalid for host " ++ hostId)
  else if isDesiredState hostId document then .ok document
  else .error ("desired state schema or ownership is invalid for host " ++ hostId)

/-! ## Identities and normal form -/

def imageKeyIdentity (key : ImageKey) : String :=
  key.scenario ++ "\n" ++ key.vm ++ "\n" ++ key.arch.text

def cachedImageIdentity (image : DesiredCachedImage) : String :=
  imageKeyIdentity image.imageKey ++ ":" ++ image.imageId

def desiredVmIdentity (vm : DesiredVm) : String := vm.runId ++ "\n" ++ vm.vmName

def desiredBuildIdentity (build : DesiredBuild) : String := build.buildId

section

variable (localeCompare : String → String → Ordering)

/-- `uniqueLastBy(values, identity)`, sorted by the identity. -/
def normalizeList {α : Type} (identity : α → String) (values : List α) : List α :=
  (ofList identity values).insertionSort fun left right =>
    localeCompare (identity left) (identity right) ≠ .gt

def normalizeDesiredState (document : DesiredState) : DesiredState :=
  { document with
    cachedImages := normalizeList localeCompare cachedImageIdentity document.cachedImages
    cachedGuestTools := normalizeList localeCompare DesiredGuestTools.toolsDiskSha256
      document.cachedGuestTools
    vms := normalizeList localeCompare desiredVmIdentity document.vms
    builds := normalizeList localeCompare desiredBuildIdentity document.builds
    sourceCompiles := normalizeList localeCompare DesiredSourceCompile.compileId
      document.sourceCompiles }

/-- What `comparableDesiredStatePayload` writes out: the normal form without the version and the time
it was made. -/
structure DesiredPayload where
  schemaVersion : Int
  hostId : String
  scope : HostScope
  ownerUserId : String
  cachedImages : List DesiredCachedImage
  cachedGuestTools : List DesiredGuestTools
  vms : List DesiredVm
  builds : List DesiredBuild
  sourceCompiles : List DesiredSourceCompile
deriving DecidableEq

def comparableDesiredStatePayload (document : DesiredState) : DesiredPayload :=
  let normalized := normalizeDesiredState localeCompare document
  ⟨normalized.schemaVersion, normalized.hostId, normalized.scope, normalized.ownerUserId,
    normalized.cachedImages, normalized.cachedGuestTools, normalized.vms, normalized.builds,
    normalized.sourceCompiles⟩

/-! ## Mutation -/

/-- A mutator of a draft; it may throw. -/
abbrev Mutator := DesiredState → Except String DesiredState

/-- The next document, or `none` where the mutator asks for nothing new and the current document is
returned as it is. -/
def mutateDesiredState (current : DesiredState) (mutator : Mutator) (nowUnixMs : Millis) :
    Except String (Option DesiredState) := do
  let draft ← mutator current
  if draft.scope ≠ current.scope ∨ draft.ownerUserId ≠ current.ownerUserId ∨
      draft.hostId ≠ current.hostId then
    .error "host desired-state ownership is immutable"
  else
    let normalized := normalizeDesiredState localeCompare draft
    let _ ← validateStoredHostDesiredState normalized current.hostId current.version
    if comparableDesiredStatePayload localeCompare current =
        comparableDesiredStatePayload localeCompare normalized then return none
    else return some { normalized with
      version := current.version + 1
      generatedAtUnixMs := nowUnixMs }

end

/-- Put an entry in the place of the one with its identity, or at the end. -/
def upsertDesiredVm (vm : DesiredVm) (draft : DesiredState) : DesiredState :=
  { draft with vms := set desiredVmIdentity vm draft.vms }

def upsertDesiredCachedImage (image : DesiredCachedImage) (draft : DesiredState) : DesiredState :=
  { draft with cachedImages := set cachedImageIdentity image draft.cachedImages }

def upsertDesiredGuestTools (pin : DesiredGuestTools) (draft : DesiredState) : DesiredState :=
  { draft with
    cachedGuestTools := set DesiredGuestTools.toolsDiskSha256 pin draft.cachedGuestTools }

/-- The first VM with the identity becomes absent; the flag says that there is one. -/
def markDesiredVmAbsent (runId vmName : String) (draft : DesiredState) : DesiredState × Bool :=
  let isIt (vm : DesiredVm) : Bool := vm.runId = runId && vm.vmName = vmName
  match draft.vms.findIdx? isIt with
  | none => (draft, false)
  | some i => ({ draft with vms := draft.vms.modify i fun vm => { vm with desiredPhase := .absent } },
      true)

/-! ## What a mutation keeps -/

variable {localeCompare : String → String → Ordering}

section

variable {current next : DesiredState} {mutator : Mutator} {now : Millis}

/-- **What a change is.**  The next version is one higher and asks for something else, for the same
host under the same owner. -/
structure Changes (localeCompare : String → String → Ordering) (current next : DesiredState) :
    Prop where
  version : next.version = current.version + 1
  payload : comparableDesiredStatePayload localeCompare next ≠
    comparableDesiredStatePayload localeCompare current
  hostId : next.hostId = current.hostId
  scope : next.scope = current.scope
  ownerUserId : next.ownerUserId = current.ownerUserId

section

variable (h : mutateDesiredState localeCompare current mutator now = .ok (some next))

include h

theorem changes_of_mutateDesiredState : Changes localeCompare current next := by
  rw [mutateDesiredState] at h
  obtain ⟨_, -, h⟩ := bind_eq_ok.mp h
  split at h
  · cases h
  rename_i hfixed
  simp only [not_or, not_not] at hfixed
  obtain ⟨_, -, h⟩ := bind_eq_ok.mp h
  split at h
  · cases h
  rename_i hpay
  cases h
  exact ⟨rfl, fun heq => hpay heq.symm, hfixed.2.2, hfixed.1, hfixed.2.1⟩

/-- What the next version asks for is the normal form of what the mutator made. -/
theorem vms_of_mutateDesiredState :
    ∃ draft, mutator current = .ok draft ∧
      next.vms = normalizeList localeCompare desiredVmIdentity draft.vms := by
  rw [mutateDesiredState] at h
  obtain ⟨draft, hdr, h⟩ := bind_eq_ok.mp h
  refine ⟨draft, hdr, ?_⟩
  split at h
  · cases h
  obtain ⟨_, -, h⟩ := bind_eq_ok.mp h
  split at h
  · cases h
  cases h
  rfl

end

/-- A mutator that asks for nothing new leaves the VMs as they are in normal form. -/
theorem vms_of_mutateDesiredState_none
    (h : mutateDesiredState localeCompare current mutator now = .ok none) :
    ∃ draft, mutator current = .ok draft ∧
      normalizeList localeCompare desiredVmIdentity current.vms =
        normalizeList localeCompare desiredVmIdentity
          (normalizeList localeCompare desiredVmIdentity draft.vms) := by
  rw [mutateDesiredState] at h
  obtain ⟨draft, hdr, h⟩ := bind_eq_ok.mp h
  refine ⟨draft, hdr, ?_⟩
  split at h
  · cases h
  obtain ⟨_, -, h⟩ := bind_eq_ok.mp h
  split at h
  · rename_i hpay
    exact congrArg DesiredPayload.vms hpay
  · cases h

end

/-! ## Normal forms -/

section

variable {α : Type} {identity : α → String} {values : List α} {x : α}

theorem nodup_normalizeList : ((normalizeList localeCompare identity values).map identity).Nodup :=
  ((perm_insertionSort _ _).map identity).nodup_iff.mpr nodup_ofList

theorem mem_of_mem_normalizeList (h : x ∈ normalizeList localeCompare identity values) :
    x ∈ values :=
  mem_of_mem_ofList ((mem_insertionSort _).mp h)

/-- Nothing is lost of a list without repeated identities. -/
theorem mem_normalizeList (hnd : (values.map identity).Nodup) (h : x ∈ values) :
    x ∈ normalizeList localeCompare identity values :=
  (mem_insertionSort _).mpr (mem_setAll hnd h)

end

/-! ## Marking VMs absent -/

/-- The VM, to be stopped if it is one of the named VMs of the run. -/
def stopVm (runId : String) (names : List String) (vm : DesiredVm) : DesiredVm :=
  if vm.runId = runId ∧ vm.vmName ∈ names then { vm with desiredPhase := .absent } else vm

section

variable {runId vmName : String} {names : List String} {vm : DesiredVm} {vms : List DesiredVm}

theorem desiredVmIdentity_stopVm : desiredVmIdentity (stopVm runId names vm) = desiredVmIdentity vm := by
  rw [stopVm]
  split
  · rfl
  · rfl

theorem map_identity_stopVm :
    (vms.map (stopVm runId names)).map desiredVmIdentity = vms.map desiredVmIdentity := by
  rw [map_map]
  exact map_congr_left fun vm _ => desiredVmIdentity_stopVm

theorem stopVm_nil : stopVm runId [] = id := by
  funext vm
  simp [stopVm]

theorem stopVm_comp : stopVm runId names ∘ stopVm runId [vmName] =
    stopVm runId (vmName :: names) := by
  funext vm
  by_cases hrun : vm.runId = runId
  · by_cases hnm : vm.vmName = vmName
    · simp [stopVm, hrun, hnm]
    · simp [stopVm, hrun, hnm]
  · simp [stopVm, hrun]

/-- In a document in normal form the first VM with the identity is the only one. -/
theorem vms_markDesiredVmAbsent (runId vmName : String) {draft : DesiredState}
    (hnd : (draft.vms.map desiredVmIdentity).Nodup) :
    (markDesiredVmAbsent runId vmName draft).1.vms = draft.vms.map (stopVm runId [vmName]) := by
  have hlist : ∀ vms : List DesiredVm, (vms.map desiredVmIdentity).Nodup →
      (match vms.findIdx? fun vm => vm.runId = runId && vm.vmName = vmName with
        | none => vms
        | some i => vms.modify i fun vm => { vm with desiredPhase := .absent }) =
        vms.map (stopVm runId [vmName]) := by
    intro vms hvms
    induction vms with
    | nil => rfl
    | cons vm vms ih =>
      rw [map_cons, nodup_cons] at hvms
      rw [findIdx?_cons]
      by_cases hvm : vm.runId = runId ∧ vm.vmName = vmName
      · -- No VM behind it has the identity, so none of them changes.
        have hrs : vms.map (stopVm runId [vmName]) = vms := by
          refine (map_congr_left fun vm' hvm' => ?_).trans (map_id vms)
          rw [stopVm, if_neg, id]
          rintro ⟨hrun, hnm⟩
          refine hvms.1 (mem_map.mpr ⟨vm', hvm', ?_⟩)
          rw [desiredVmIdentity, desiredVmIdentity, hrun, mem_singleton.mp hnm, hvm.1, hvm.2]
        simp [hvm.1, hvm.2, map_cons, hrs, stopVm]
      · have hkeep : stopVm runId [vmName] vm = vm := by
          rw [stopVm, if_neg]
          simpa using hvm
        rw [map_cons, hkeep, ← ih hvms.2]
        have hfls : (decide (vm.runId = runId) && decide (vm.vmName = vmName)) = false := by
          simpa using hvm
        rw [hfls]
        cases vms.findIdx? fun vm => vm.runId = runId && vm.vmName = vmName with
        | none | some => simp
  rw [← hlist draft.vms hnd, markDesiredVmAbsent]
  cases draft.vms.findIdx? fun vm => vm.runId = runId && vm.vmName = vmName with
  | none | some => rfl

end

end Intar.Host
