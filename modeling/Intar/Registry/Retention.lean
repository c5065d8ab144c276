import Intar.Lib.Fallible
import Intar.Registry.ChunkManifest

/-!
# Which registry objects are still referenced

The readers and rules of `lib/image-artifact-retention.ts`, up to the projection itself (which is
in `Intar.Registry.Projection`).

* The rows each table contributes: live pointers, rollback snapshots, candidate intents, builds,
  the VMs of runs in flight, and what the hosts want and report.
* `planSnapshotRetention`, `planCandidateIntentRetention`, `planBuildRetention` and
  `planHostCacheIntentRetention` decide which rows still count.
* `buildRunImageIndex` and `buildImageIdIndex` collect every record that describes an image, and
  `mergeImageClosures` resolves a reference to all of them.

A reference that cannot be read in full is a `Fault`, and a fault stops the collector: here it is
an `Except.error`.  `localeCompare` is a parameter, since its order depends on the runtime.
-/

namespace Intar.Registry

open Fallible

/-- `RegistryRetentionFault`: the reference that could not be read, and why. -/
structure Fault where
  (reference detail : String)
deriving DecidableEq

/-! ## Rows -/

/-- `ImageRootSource`. -/
inductive RootSource where
  | hostActual
  | livePointer
  | rollbackSnapshot
  | candidateIntent
  | activeRun
  | hostDesired
deriving DecidableEq

/-- One image slot that is still needed. -/
structure ImageRoot where
  (scenarioId vmName : String)
  arch : Architecture
  imageId : String
  source : RootSource
deriving DecidableEq

def imageRootKey (scenarioId vmName arch : String) : String :=
  scenarioId ++ ":" ++ vmName ++ ":" ++ arch

def ImageRoot.slot (r : ImageRoot) : String := imageRootKey r.scenarioId r.vmName r.arch.text

/-- The image, its manifest and its boot artifacts, as one record names them. -/
structure RunImageClosure where
  (chunkManifestSha256 kernelSha256 initrdSha256 : Option String)
deriving DecidableEq

/-- One VM of a published manifest. -/
structure ManifestVm where
  name : String
  imageKey : ImageKey
  imageId : String
  (chunkManifestSha256 kernelSha256 initrdSha256 : Option String)
deriving DecidableEq

/-- What retention reads of a `ScenarioManifestV5`. -/
structure Manifest where
  scenarioId : String
  vms : List ManifestVm
deriving DecidableEq

/-- A row of `vm_scenario_vms`: a live pointer. -/
structure LiveVmRow where
  (scenarioId vmName : String)
  /-- The JSON column, which may be `NULL`. -/
  imageKey : Json
  imageId : Option String
  imageFormat : String
  (chunkManifestSha256 kernelSha256 initrdSha256 : Option String)

structure SnapshotRow where
  id : String
  createdAt : Int
  snapshot : Json

structure CandidateRow where
  (id scenarioId : String)
  organizationId : Option String
  revision : String
  manifest : Manifest
  updatedAt : Int
deriving DecidableEq

inductive BuildStatus where
  | queued
  | assigned
  | building
  | succeeded
  | failed
  | stale
deriving DecidableEq

structure BuildRow where
  id : String
  status : BuildStatus
  manifest : Option Manifest
  artifactsRetiredAt : Option Int
deriving DecidableEq

/-- One VM of a run in flight, with what its run was admitted from. -/
structure RunVmRow where
  (runId scenarioId : String)
  (organizationId candidateRevision : Option String)
  runtimeVmName : String
  imageKey : Json
  imageId : String

/-- A VM of a host's desired state.  A missing or unknown phase is `none`. -/
structure DesiredVmRef where
  vmName : String
  desiredPhase : Option String
  imageKey : Json
  imageId : Option String

/-- A VM a host reports, with the phase of its archive if it has one. -/
structure ActualVmRef where
  vmName : String
  phase : Option String
  /-- `vm.archive?.phase`, where `null` and a missing archive are both `none`. -/
  archivePhase : Option String
  imageKey : Json
  imageId : Option String

structure CachedImageRef where
  imageKey : Json
  imageId : Option String

structure CachedImageState where
  (imageId phase : Option String)
deriving DecidableEq

/-- What one enabled agent host wants and reports; a missing document has no entries. -/
structure HostRow where
  hostId : String
  desiredVms : List DesiredVmRef
  desiredCachedImages : List CachedImageRef
  actualVms : List ActualVmRef
  actualCachedImages : List CachedImageState

/-- A string column or field that counts only when it has text, as JavaScript's truth does. -/
def truthy (value : Option String) : Option String := value.filter (· ≠ "")

/-! ## Reading JSON -/

/-- `requireImageArchitecture`. -/
def requireImageArchitecture (value : Option String) (reference : String) :
    Except Fault Architecture :=
  match value with
  | some "x86_64" => .ok .x86_64
  | some "aarch64" => .ok .aarch64
  | _ => .error ⟨reference, "arch is missing or unsupported: " ++ value.getD "null"⟩

def readArchitecture (value : Option Json) : Option Architecture :=
  match value.bind Json.asStr with
  | some "x86_64" => some .x86_64
  | some "aarch64" => some .aarch64
  | _ => none

/-- The key, when `isImageKey` accepts the value. -/
def readImageKey (value : Json) : Option ImageKey :=
  match (value.field "scenario").bind Json.asStr, (value.field "vm").bind Json.asStr,
    readArchitecture (value.field "arch") with
  | some scenario, some vm, some arch => some ⟨scenario, vm, arch⟩
  | _, _, _ => none

/-- `readStringField`: the first of the fields that is a string with text in it, trimmed. -/
def readStringField (record : Json) : List String → Option String
  | [] => none
  | key :: keys =>
    match readString (record.field key) with
    | some s => some s
    | none => readStringField record keys

/-- `readArrayField` for one key: a missing field is empty, another type is a fault. -/
def readArrayField (record : Json) (key reference : String) : Except Fault (List Json) :=
  match record.field key with
  | none => .ok []
  | some (.arr items) => .ok items
  | some _ => .error ⟨reference, key ++ " is not an array"⟩

/-- `readRecordField`: the first of the fields that is an object. -/
def readRecordField (record : Json) : List String → Option Json
  | [] => none
  | key :: keys =>
    match record.field key with
    | some (.obj fields) => some (.obj fields)
    | _ => readRecordField record keys

/-! ## Manifests -/

def manifestImageMembers (manifest : Manifest) (source : RootSource) : List ImageRoot :=
  manifest.vms.map fun vm =>
    ⟨Js.trim manifest.scenarioId, Js.trim vm.name, vm.imageKey.arch, vm.imageId, source⟩

def manifestBootArtifactSha256s (manifest : Manifest) : List String :=
  manifest.vms.flatMap fun vm => (truthy vm.kernelSha256).toList ++ (truthy vm.initrdSha256).toList

def manifestChunkManifestSha256s (manifest : Manifest) : List String :=
  manifest.vms.flatMap fun vm => (truthy vm.chunkManifestSha256).toList

/-- `CatalogVmClosure`: what one VM of a catalog entry boots. -/
structure CatalogVmClosure where
  (vmName imageId : String)
  closure : RunImageClosure
deriving DecidableEq

def imageClosureSignature (vms : List CatalogVmClosure) : String :=
  "\n".intercalate <| Js.sort <| vms.map fun vm =>
    " ".intercalate [Js.trim vm.vmName, vm.imageId, vm.closure.chunkManifestSha256.getD "",
      vm.closure.kernelSha256.getD "", vm.closure.initrdSha256.getD ""]

def manifestImageClosureSignature (manifest : Manifest) : String :=
  imageClosureSignature <| manifest.vms.map fun vm =>
    ⟨vm.name, vm.imageId, vm.chunkManifestSha256, vm.kernelSha256, vm.initrdSha256⟩

/-! ## Rollback snapshots -/

/-- `SnapshotCoverage`. -/
structure SnapshotCoverage where
  targetScenarioIds : List String
  (scenarios vms probes : List Json)

def snapshotReference : String := "scenario_catalog_snapshots.snapshot_json"

/-- One target of a snapshot: a string with text in it. -/
def readTarget (entry : Json) : Except Fault String :=
  match readString (some entry) with
  | some id => .ok id
  | none => .error ⟨snapshotReference, "targetScenarioIds contains a non-string entry"⟩

def requireRecord (entry : Json) : Except Fault Json :=
  match entry with
  | .obj fields => .ok (.obj fields)
  | _ => .error ⟨snapshotReference, "vms contains a non-object entry"⟩

/-- `readSnapshot`: an unreadable snapshot is a fault, never an empty coverage. -/
def readSnapshot (value : Json) : Except Fault SnapshotCoverage :=
  match value with
  | .obj fields => do
    let record := Json.obj fields
    let targets ← readArrayField record "targetScenarioIds" snapshotReference
    let targetScenarioIds ← each readTarget targets
    if targetScenarioIds = [] then
      .error ⟨snapshotReference, "targetScenarioIds is empty"⟩
    else
      let vms ← readArrayField record "vms" snapshotReference
      let vms ← each requireRecord vms
      let scenarios ← readArrayField record "scenarios" snapshotReference
      let probes ← readArrayField record "probes" snapshotReference
      return ⟨targetScenarioIds, scenarios, vms, probes⟩
  | _ => .error ⟨snapshotReference, "snapshot is not an object"⟩

def readRecordScenarioId (value : Json) : String :=
  (readStringField value ["scenarioId", "scenario_id"]).getD ""

/-- `trimSnapshot`: the snapshot with the other scenarios removed from every array. -/
def trimSnapshot (snapshot : SnapshotCoverage) (keepScenarioIds : List String) : Json :=
  let keeps (entry : Json) : Bool := keepScenarioIds.contains (readRecordScenarioId entry)
  .obj [("schemaVersion", .num 1),
    ("targetScenarioIds", .arr ((Js.sort keepScenarioIds.dedup).map .str)),
    ("scenarios", .arr (snapshot.scenarios.filter keeps)),
    ("vms", .arr (snapshot.vms.filter keeps)),
    ("probes", .arr (snapshot.probes.filter keeps))]

/-- What becomes of one snapshot row. -/
inductive SnapshotFate where
  | keep
  | trim (snapshot : Json)
  | delete

/-- Newest row first; a scenario is reserved by the first row that covers it. -/
def snapshotFates : List String → List SnapshotRow → Except Fault (List (SnapshotRow × SnapshotFate))
  | _, [] => .ok []
  | covered, row :: rows => do
    let snapshot ← readSnapshot row.snapshot
    let uncovered := snapshot.targetScenarioIds.filter fun id => !covered.contains id
    let fate :=
      if uncovered = [] then SnapshotFate.delete
      else if uncovered.length = snapshot.targetScenarioIds.length then .keep
      else .trim (trimSnapshot snapshot uncovered)
    let rest ← snapshotFates (covered ++ snapshot.targetScenarioIds) rows
    return (row, fate) :: rest

section

variable (localeCompare : String → String → Ordering)

/-- `right.createdAt - left.createdAt || right.id.localeCompare(left.id)`. -/
def newerSnapshot (left right : SnapshotRow) : Bool :=
  if left.createdAt = right.createdAt then localeCompare right.id left.id ≠ .gt
  else right.createdAt < left.createdAt

/-- `SnapshotRetentionPlan`. -/
structure SnapshotRetentionPlan where
  keepIds : List String
  trims : List (String × Json)
  deleteIds : List String

/-- `planSnapshotRetention`: one recoverable state per scenario. -/
def planSnapshotRetention (rows : List SnapshotRow) : Except Fault SnapshotRetentionPlan := do
  let fates ← snapshotFates [] (rows.insertionSort fun a b => newerSnapshot localeCompare a b)
  let kept := fates.filterMap fun (row, fate) =>
    match fate with
    | .keep => some row.id
    | _ => none
  let trims := fates.filterMap fun (row, fate) =>
    match fate with
    | .trim snapshot => some (row.id, snapshot)
    | _ => none
  let deleted := fates.filterMap fun (row, fate) =>
    match fate with
    | .delete => some row.id
    | _ => none
  return ⟨Js.sort kept, trims.insertionSort fun a b => localeCompare a.1 b.1 ≠ .gt, Js.sort deleted⟩

end

/-- `ImageClosureByIdentity`: one VM of a record, by registry identity. -/
structure ImageClosureByIdentity where
  imageKey : ImageKey
  imageId : String
  closure : RunImageClosure
deriving DecidableEq

/-- The identity a registry reader resolves an image with. -/
def imageIdentity (imageKey : ImageKey) (imageId : String) : String :=
  registryImageKey imageKey ++ ":" ++ imageId

/-- `SnapshotArtifactRoots`, one VM at a time. -/
structure SnapshotVmRoots where
  root : ImageRoot
  entry : ImageClosureByIdentity
deriving DecidableEq

def snapshotVmReference : String := "scenario_catalog_snapshots.vms"

/-- One VM of a retained snapshot: its slot, and the manifest and boot artifacts it needs. -/
def snapshotVmRoots (source : RootSource) (vm : Json) : Except Fault SnapshotVmRoots := do
  let arch ← requireImageArchitecture
    ((readRecordField vm ["imageKeyJson", "image_key_json"]).bind fun key =>
      readStringField key ["arch"])
    snapshotVmReference
  let vmName := readStringField vm ["vmName", "vm_name"]
  match readStringField vm ["scenarioId", "scenario_id"], vmName,
    readStringField vm ["imageSha256", "image_sha256"] with
  | some scenarioId, some vmName, some imageId =>
    let chunkManifest := readStringField vm ["chunkManifestSha256", "chunk_manifest_sha256"]
    match readStringField vm ["kernelSha256", "kernel_sha256"],
      readStringField vm ["initrdSha256", "initrd_sha256"] with
    | none, _ => .error ⟨snapshotVmReference, "snapshot vm " ++ vmName ++ " has no kernelSha256"⟩
    | _, none => .error ⟨snapshotVmReference, "snapshot vm " ++ vmName ++ " has no initrdSha256"⟩
    | some kernel, some initrd =>
      if readStringField vm ["imageFormat", "image_format"] = some "raw_chunks_v1" ∧
          chunkManifest = none then
        .error ⟨snapshotVmReference, "snapshot vm " ++ vmName ++ " has no chunk manifest"⟩
      else
        .ok ⟨⟨scenarioId, vmName, arch, imageId, source⟩,
          ⟨⟨scenarioId, vmName, arch⟩, imageId, ⟨chunkManifest, some kernel, some initrd⟩⟩⟩
  | _, _, _ =>
    .error ⟨snapshotVmReference, "snapshot vm " ++ vmName.getD "null" ++
      " is missing scenarioId, vmName, or imageSha256"⟩

/-! ## Candidate intents -/

/-- `ActiveRunCandidateRef`. -/
structure ActiveRunCandidateRef where
  scenarioId : String
  organizationId : Option String
  revision : String
deriving DecidableEq

def candidateRefKey (scenarioId : String) (organizationId : Option String) (revision : String) :
    String :=
  scenarioId ++ "\n" ++ organizationId.getD "" ++ "\n" ++ revision

def candidateScopeKey (row : CandidateRow) : String :=
  row.scenarioId ++ "\n" ++ row.organizationId.getD ""

/-- The newest row of a scope: the latest staged, ties by id. -/
def newestCandidate (scope : String) (rows : List CandidateRow) : Option CandidateRow :=
  rows.foldl (fun current row =>
    if candidateScopeKey row = scope then
      match current with
      | none => some row
      | some best =>
        if best.updatedAt < row.updatedAt ∨
            row.updatedAt = best.updatedAt ∧ Js.compareUnits row.id best.id = .gt then some row
        else some best
    else current) none

/-- Whether an active run, or an unfulfilled newest intent, keeps the row. -/
def keepsCandidate (rows : List CandidateRow) (liveRevision : String → Option (Option String))
    (liveClosure : String → Option String) (active : List ActiveRunCandidateRef)
    (row : CandidateRow) : Bool :=
  if (active.map fun a => candidateRefKey a.scenarioId a.organizationId a.revision).contains
      (candidateRefKey row.scenarioId row.organizationId row.revision) then true
  else if (newestCandidate (candidateScopeKey row) rows).map CandidateRow.id ≠ some row.id then false
  else !(liveRevision row.scenarioId = some (some row.revision) &&
    liveClosure row.scenarioId = some (manifestImageClosureSignature row.manifest))

/-- `CandidateIntentPlan`. -/
structure CandidateIntentPlan where
  (keepIds retireIds : List String)
deriving DecidableEq

def planCandidateIntentRetention (rows : List CandidateRow)
    (liveRevision : String → Option (Option String)) (liveClosure : String → Option String)
    (active : List ActiveRunCandidateRef) : CandidateIntentPlan :=
  let keeps := keepsCandidate rows liveRevision liveClosure active
  ⟨Js.sort ((rows.filter keeps).map CandidateRow.id),
    Js.sort ((rows.filter fun row => !keeps row).map CandidateRow.id)⟩

/-! ## Builds -/

/-- `RetentionBuildRow`. -/
structure RetentionBuildRow where
  buildId : String
  status : BuildStatus
  members : List ImageRoot
  (chunkManifestSha256s bootArtifactSha256s : List String)
  artifactsRetired : Bool
deriving DecidableEq

def retentionBuildRow (row : BuildRow) : RetentionBuildRow where
  buildId := row.id
  status := row.status
  members := (row.manifest.map fun m => manifestImageMembers m .livePointer).getD []
  chunkManifestSha256s := (row.manifest.map manifestChunkManifestSha256s).getD []
  bootArtifactSha256s := (row.manifest.map manifestBootArtifactSha256s).getD []
  artifactsRetired := row.artifactsRetiredAt.isSome

def isActiveBuild (status : BuildStatus) : Bool :=
  status = .queued || status = .assigned || status = .building

/-- A build is reusable while it is being made, or while every artifact and member of it is
rooted.  A slot can carry several rooted images. -/
def isReusableBuild (roots : List ImageRoot) (chunkManifests bootArtifacts : List String)
    (build : RetentionBuildRow) : Bool :=
  isActiveBuild build.status ||
    (build.chunkManifestSha256s.all chunkManifests.contains &&
      build.bootArtifactSha256s.all bootArtifacts.contains &&
      build.members.all fun m => roots.any fun r => r.slot = m.slot && r.imageId = m.imageId)

/-- `BuildRetentionPlan`. -/
structure BuildRetentionPlan where
  (keepBuildIds retireBuildIds : List String)
deriving DecidableEq

def planBuildRetention (builds : List RetentionBuildRow) (roots : List ImageRoot)
    (chunkManifests bootArtifacts : List String) : BuildRetentionPlan :=
  let owners := builds.filter fun b => b.members ≠ []
  let reusable := isReusableBuild roots chunkManifests bootArtifacts
  ⟨Js.sort ((owners.filter reusable).map RetentionBuildRow.buildId),
    Js.sort ((owners.filter fun b => !reusable b && !b.artifactsRetired).map
      RetentionBuildRow.buildId)⟩

/-! ## Hosts -/

/-- `desiredVmNeedsImage`: only an explicit `absent` is a tombstone. -/
def DesiredVmRef.needsImage (vm : DesiredVmRef) : Bool := vm.desiredPhase ≠ some "absent"

/-- `actualVmNeedsImage`: a finished archive proves the VM gone, and so does an `absent` VM without
an unfinished archive or a `failed` one without any archive record. -/
def ActualVmRef.needsImage (vm : ActualVmRef) : Bool :=
  if vm.archivePhase = some "complete" then false
  else if vm.phase = some "absent" then
    vm.archivePhase = some "pending" || vm.archivePhase = some "uploading" ||
      vm.archivePhase = some "failed"
  else if vm.phase = some "failed" then vm.archivePhase.isSome
  else true

/-- `HostOperationalReference`: one VM a host can still need its image for. -/
structure HostOperationalReference where
  (reference imageId : String)
  imageKey : Option ImageKey
  source : RootSource
deriving DecidableEq

/-- An operational VM of the desired state; a tombstone gives none. -/
def desiredReference (hostId : String) (vm : DesiredVmRef) :
    Except Fault (List HostOperationalReference) :=
  if vm.needsImage then
    match truthy vm.imageId with
    | none => .error ⟨"host_desired:" ++ hostId ++ ":" ++ vm.vmName,
        "an operational desired VM has no image id"⟩
    | some imageId => .ok [⟨"host_desired:" ++ hostId ++ ":" ++ vm.vmName, imageId,
        readImageKey vm.imageKey, .hostDesired⟩]
  else .ok []

/-- An operational VM of the host's report. -/
def actualReference (hostId : String) (vm : ActualVmRef) :
    Except Fault (List HostOperationalReference) :=
  if vm.needsImage then
    match truthy vm.imageId with
    | none => .error ⟨"host_actual:" ++ hostId ++ ":" ++ vm.vmName,
        "an operational actual VM has no image id"⟩
    | some imageId => .ok [⟨"host_actual:" ++ hostId ++ ":" ++ vm.vmName, imageId,
        readImageKey vm.imageKey, .hostActual⟩]
  else .ok []

/-- `HostCacheIntentRow`. -/
structure HostCacheIntentRow where
  hostId : String
  cachedImages : List CachedImageRef
  (neededImageIds inFlightImageIds : List String)

/-- One host of `loadHostImageReferences`: its operational VMs, and its cache intents. -/
def hostReferences (row : HostRow) :
    Except Fault (List HostOperationalReference × HostCacheIntentRow) := do
  let desired ← each (desiredReference row.hostId) row.desiredVms
  let actual ← each (actualReference row.hostId) row.actualVms
  let operational := desired.flatten ++ actual.flatten
  let inFlight := row.actualCachedImages.filterMap fun image =>
    if image.phase = some "queued" ∨ image.phase = some "downloading" then truthy image.imageId
    else none
  return (operational,
    ⟨row.hostId, row.desiredCachedImages,
      Js.sort (operational.map HostOperationalReference.imageId).dedup, Js.sort inFlight.dedup⟩)

/-- `cachedImageFamily`: the slot a cache entry belongs to, when it can be read. -/
def CachedImageRef.family (image : CachedImageRef) : Option String :=
  match truthy image.imageId, (image.imageKey.field "scenario").bind Json.asStr,
    (image.imageKey.field "vm").bind Json.asStr, (image.imageKey.field "arch").bind Json.asStr with
  | some _, some scenario, some vm, some arch => some (imageRootKey scenario vm arch)
  | _, _, _, _ => none

/-- The cache intents of one host that nothing justifies any more: of a managed family, and neither
rooted, nor needed by a VM of the host, nor in flight. -/
def trimmedImageIds (managedFamilies keepImageIds : List String) (host : HostCacheIntentRow) :
    List String :=
  host.cachedImages.filterMap fun image =>
    match image.family, image.imageId with
    | some family, some imageId =>
      if managedFamilies.contains family && !keepImageIds.contains imageId &&
          !(host.neededImageIds ++ host.inFlightImageIds).contains imageId then some imageId
      else none
    | _, _ => none

/-- `HostCacheIntentTrim`. -/
structure HostCacheIntentTrim where
  hostId : String
  imageIds : List String
deriving DecidableEq

def planHostCacheIntentRetention (localeCompare : String → String → Ordering)
    (hosts : List HostCacheIntentRow) (managedFamilies keepImageIds : List String) :
    List HostCacheIntentTrim :=
  let trims := hosts.filterMap fun host =>
    let ids := trimmedImageIds managedFamilies keepImageIds host
    if ids = [] then none else some (⟨host.hostId, Js.sort ids.dedup⟩ : HostCacheIntentTrim)
  trims.insertionSort fun a b => localeCompare a.hostId b.hostId ≠ .gt

/-! ## Resolving an image to its records -/

/-- `ImageClosureCandidate`: one record that describes an image. -/
structure ImageClosureCandidate where
  imageKey : ImageKey
  closure : RunImageClosure
deriving DecidableEq

/-- An index from a key to the candidates entered under it, in order. -/
abbrev ClosureIndex := List (String × ImageClosureCandidate)

def ClosureIndex.get (index : ClosureIndex) (key : String) : List ImageClosureCandidate :=
  (index.filter fun e => e.1 = key).map Prod.snd

/-- The record of a live pointer, when its key can be read. -/
def LiveVmRow.entry (row : LiveVmRow) : Option ImageClosureByIdentity :=
  match readImageKey row.imageKey, truthy row.imageId with
  | some key, some imageId =>
    some ⟨key, imageId, ⟨row.chunkManifestSha256, row.kernelSha256, row.initrdSha256⟩⟩
  | _, _ => none

/-- The record of one VM of a manifest: the index reads every field trimmed. -/
def ManifestVm.entry (vm : ManifestVm) : Option ImageClosureByIdentity :=
  match Js.trimOrNone (some vm.imageId) with
  | some imageId => some ⟨vm.imageKey, imageId,
      ⟨Js.trimOrNone vm.chunkManifestSha256, Js.trimOrNone vm.kernelSha256,
        Js.trimOrNone vm.initrdSha256⟩⟩
  | none => none

def manifestEntries (manifest : Option Manifest) : List ImageClosureByIdentity :=
  (manifest.map fun m => m.vms.filterMap ManifestVm.entry).getD []

/-- `buildRunImageIndex`: every record under its registry key and image id, boot variants and
all. -/
def buildRunImageIndex (liveRows : List LiveVmRow) (snapshots : List ImageClosureByIdentity)
    (candidateRows : List CandidateRow) (buildRows : List BuildRow) : ClosureIndex :=
  (liveRows.filterMap LiveVmRow.entry ++ snapshots ++
    candidateRows.flatMap (fun row => manifestEntries (some row.manifest)) ++
    buildRows.flatMap fun row => manifestEntries row.manifest).map fun e =>
      (imageIdentity e.imageKey e.imageId, ⟨e.imageKey, e.closure⟩)

/-- Enter a record under its image id, unless the same closure is there under the same registry
key. -/
def addByImageId (index : ClosureIndex) (e : ImageClosureByIdentity) : ClosureIndex :=
  if (index.get e.imageId).any fun c =>
      registryImageKey c.imageKey = registryImageKey e.imageKey && c.closure = e.closure then index
  else index ++ [(e.imageId, ⟨e.imageKey, e.closure⟩)]

/-- `buildImageIdIndex`: the same records by image id alone. -/
def buildImageIdIndex (liveRows : List LiveVmRow) (snapshots : List ImageClosureByIdentity)
    (candidateRows : List CandidateRow) (buildRows : List BuildRow) : ClosureIndex :=
  (snapshots ++ liveRows.filterMap LiveVmRow.entry ++
    candidateRows.flatMap (fun row => manifestEntries (some row.manifest)) ++
    buildRows.flatMap fun row => manifestEntries row.manifest).foldl addByImageId []

/-- What a reference resolves to: its key, and everything the records of its image need. -/
structure MergedClosure where
  imageKey : ImageKey
  (chunkManifestSha256s bootArtifactSha256s : List String)
deriving DecidableEq

/-- The artifacts of one record.  A chunked image boots through its manifest and both boot
artifacts, so half a manifest is a fault. -/
def candidateArtifacts (subject reference : String) (c : ImageClosureCandidate) :
    Except Fault (List String × List String) :=
  match truthy c.closure.chunkManifestSha256, truthy c.closure.kernelSha256,
    truthy c.closure.initrdSha256 with
  | some manifest, some kernel, some initrd => .ok ([manifest], [kernel, initrd])
  | some _, none, _ =>
    .error ⟨reference, "the manifest of an " ++ subject ++ " has no kernelSha256"⟩
  | some _, _, none =>
    .error ⟨reference, "the manifest of an " ++ subject ++ " has no initrdSha256"⟩
  | none, kernel, initrd => .ok ([], kernel.toList ++ initrd.toList)

/-- The records a reference resolves to: those of its own key, or else (with no key, or where that
is allowed) those of its image id. -/
def resolveCandidates (imageKey : Option ImageKey) (imageId : String) (exact byImageId : ClosureIndex)
    (allowIdFallback : Bool) : List ImageClosureCandidate :=
  let own := (imageKey.map fun key => exact.get (imageIdentity key imageId)).getD []
  if own = [] ∧ (imageKey = none ∨ allowIdFallback = true) then byImageId.get imageId else own

/-- `mergeImageClosures`: every closure that could describe the image.  Two registry keys for one
reference are a fault. -/
def mergeImageClosures (subject reference : String) (imageKey : Option ImageKey) (imageId : String)
    (exact byImageId : ClosureIndex) (allowIdFallback : Bool) :
    Except Fault (Option MergedClosure) :=
  match resolveCandidates imageKey imageId exact byImageId allowIdFallback with
  | [] => .ok none
  | first :: rest =>
    if rest.all fun c => registryImageKey c.imageKey = registryImageKey first.imageKey then do
      let artifacts ← each (candidateArtifacts subject reference) (first :: rest)
      return some ⟨first.imageKey, Js.sort (artifacts.flatMap Prod.fst).dedup,
        Js.sort (artifacts.flatMap Prod.snd).dedup⟩
    else .error ⟨reference,
      "the image id resolves to more than one registry image key: " ++ imageId⟩

end Intar.Registry
