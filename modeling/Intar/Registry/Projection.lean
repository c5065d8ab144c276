import Intar.Registry.Retention

/-!
# The retention projection

`projectRegistryRetention` of `lib/image-artifact-retention.ts`: from the rows of ten tables to the
roots, and to the image ids, chunk manifests and boot artifacts that a sweep must keep.

The source accumulates the keep sets in one long function.  Here each family of references is a
function of its own rows (`liveVmKeep`, `snapshotKeep`, `runVmKeep`, `hostVmKeep`, …) that returns
what it adds, or a fault; `projectRegistryRetention` puts them together in the order of the source.
-/

namespace Intar.Registry

open Fallible

/-! ## The database -/

structure AgentHostRow where
  (id role : String)
  disabled : Bool
deriving DecidableEq

structure HostDesiredRow where
  hostId : String
  vms : List DesiredVmRef
  cachedImages : List CachedImageRef

structure HostActualRow where
  hostId : String
  vms : List ActualVmRef
  cachedImages : List CachedImageState

structure ScenarioRow where
  scenarioId : String
  sourceRevision : Option String
deriving DecidableEq

structure RuntimeVmRow where
  (executionId runtimeVmName : String)
  imageKey : Json
  imageId : String

structure RuntimeExecutionRow where
  (id state : String)
deriving DecidableEq

structure ScenarioRunRow where
  (runId scenarioId : String)
  organizationId : Option String
  /-- `json_extract(request_scope_json, '$.candidateRevision')`. -/
  candidateRevision : Option String
  runtimeExecutionId : String
deriving DecidableEq

/-- The tables the projection reads. -/
structure RetentionDb where
  scenarios : List ScenarioRow
  scenarioVms : List LiveVmRow
  snapshots : List SnapshotRow
  candidates : List CandidateRow
  builds : List BuildRow
  bundleRevs : List String
  runtimeVms : List RuntimeVmRow
  runtimeExecutions : List RuntimeExecutionRow
  scenarioRuns : List ScenarioRunRow
  agentHosts : List AgentHostRow
  hostDesired : List HostDesiredRow
  hostActual : List HostActualRow

/-- `ACTIVE_RUNTIME_EXECUTION_STATES`. -/
def isActiveExecutionState (state : String) : Bool :=
  ["queued", "provisioning", "ready", "archiving"].contains state

/-- The live pointers, each with the revision its scenario was published from. -/
def RetentionDb.liveRows (db : RetentionDb) : List (LiveVmRow × Option String) :=
  db.scenarioVms.flatMap fun vm =>
    (db.scenarios.filter fun s => s.scenarioId = vm.scenarioId).map fun s => (vm, s.sourceRevision)

/-- The VMs of the runs in flight. -/
def RetentionDb.runRows (db : RetentionDb) : List RunVmRow :=
  db.runtimeVms.flatMap fun vm =>
    (db.runtimeExecutions.filter fun e => e.id = vm.executionId ∧ isActiveExecutionState e.state).flatMap
      fun e => (db.scenarioRuns.filter fun r => r.runtimeExecutionId = e.id).map fun r =>
        ⟨r.runId, r.scenarioId, r.organizationId, r.candidateRevision, vm.runtimeVmName, vm.imageKey,
          vm.imageId⟩

/-- The enabled agent hosts with a desired state, each with its report if there is one. -/
def RetentionDb.hostRows (db : RetentionDb) : List HostRow :=
  db.hostDesired.flatMap fun d =>
    (db.agentHosts.filter fun h => h.id = d.hostId ∧ h.role = "agent" ∧ h.disabled = false).flatMap
      fun h =>
        match db.hostActual.filter fun a => a.hostId = h.id with
        | [] => [⟨h.id, d.vms, d.cachedImages, [], []⟩]
        | reports => reports.map fun a => ⟨h.id, d.vms, d.cachedImages, a.vms, a.cachedImages⟩

/-! ## What each reference keeps -/

/-- Chunk manifests and boot artifacts. -/
structure Artifacts where
  (chunkManifests bootArtifacts : List String)
deriving DecidableEq

instance : Append Artifacts := ⟨fun a b =>
  ⟨a.chunkManifests ++ b.chunkManifests, a.bootArtifacts ++ b.bootArtifacts⟩⟩

/-- A root with the artifacts its own record names. -/
structure Keep where
  root : ImageRoot
  artifacts : Artifacts
deriving DecidableEq

def gather (keeps : List Keep) : Artifacts :=
  ⟨keeps.flatMap fun k => k.artifacts.chunkManifests, keeps.flatMap fun k => k.artifacts.bootArtifacts⟩

/-- The artifacts a closure names, as far as it names them. -/
def RunImageClosure.artifacts (c : RunImageClosure) : Artifacts :=
  ⟨(truthy c.chunkManifestSha256).toList,
    (truthy c.kernelSha256).toList ++ (truthy c.initrdSha256).toList⟩

/-- A published live pointer must be readable in full. -/
def liveVmKeep (row : LiveVmRow) : Except Fault Keep := do
  let reference := "vm_scenario_vms." ++ row.scenarioId ++ ":" ++ row.vmName
  let arch ← requireImageArchitecture ((row.imageKey.field "arch").bind Json.asStr) reference
  match truthy row.imageId with
  | none => .error ⟨reference, "image_sha256 is missing"⟩
  | some imageId =>
    if row.imageFormat = "raw_chunks_v1" ∧ truthy row.chunkManifestSha256 = none then
      .error ⟨reference, "a chunked live pointer has no chunk manifest"⟩
    else
      return ⟨⟨row.scenarioId, row.vmName, arch, imageId, .livePointer⟩,
        (⟨row.chunkManifestSha256, row.kernelSha256, row.initrdSha256⟩ : RunImageClosure).artifacts⟩

/-- The snapshot rows the plan keeps whole or trimmed, each as it is read from now on. -/
def retainedSnapshot (plan : SnapshotRetentionPlan) (row : SnapshotRow) : Option Json :=
  match plan.trims.find? fun t => t.1 = row.id with
  | some t => some t.2
  | none => if plan.keepIds.contains row.id then some row.snapshot else none

/-- The VMs of one retained snapshot. -/
def snapshotKeep (snapshot : Json) : Except Fault (List SnapshotVmRoots) := do
  let coverage ← readSnapshot snapshot
  each (snapshotVmRoots .rollbackSnapshot) coverage.vms

def SnapshotVmRoots.keep (v : SnapshotVmRoots) : Keep := ⟨v.root, v.entry.closure.artifacts⟩

/-- The VMs of a manifest that is kept as a candidate intent. -/
def manifestKeep (manifest : Manifest) (source : RootSource) : List Keep :=
  manifest.vms.map fun vm =>
    ⟨⟨Js.trim manifest.scenarioId, Js.trim vm.name, vm.imageKey.arch, vm.imageId, source⟩,
      (⟨vm.chunkManifestSha256, vm.kernelSha256, vm.initrdSha256⟩ : RunImageClosure).artifacts⟩

/-- One VM of a run in flight: it resolves through its own key, to every record of it. -/
def runVmKeep (exact byImageId : ClosureIndex) (row : RunVmRow) : Except Fault Keep := do
  let reference := "scenario_runs." ++ row.runId ++ ":" ++ row.runtimeVmName
  match readImageKey row.imageKey with
  | none => .error ⟨reference, "an active runtime VM has no usable image key"⟩
  | some key =>
    let resolved ← mergeImageClosures "active run" reference (some key) row.imageId exact byImageId
      false
    match resolved with
    | none => .error ⟨reference,
        "the image of an active run resolves to no live, rollback, candidate, or build record: " ++
          imageIdentity key row.imageId⟩
    | some m => return ⟨⟨key.scenario, key.vm, key.arch, row.imageId, .activeRun⟩,
        ⟨m.chunkManifestSha256s, m.bootArtifactSha256s⟩⟩

/-- One operational host VM: it resolves through its key, or else through its image id; a VM that
no record describes still proves the slot its key names. -/
def hostVmKeep (exact byImageId : ClosureIndex) (ref : HostOperationalReference) :
    Except Fault Keep := do
  let resolved ← mergeImageClosures "operational host VM" ref.reference ref.imageKey ref.imageId exact
    byImageId true
  match resolved, ref.imageKey with
  | some m, _ => return ⟨⟨m.imageKey.scenario, m.imageKey.vm, m.imageKey.arch, ref.imageId,
      ref.source⟩, ⟨m.chunkManifestSha256s, m.bootArtifactSha256s⟩⟩
  | none, some key => return ⟨⟨key.scenario, key.vm, key.arch, ref.imageId, ref.source⟩, ⟨[], []⟩⟩
  | none, none => .error ⟨ref.reference,
      "the image of an operational host VM resolves to no live, rollback, candidate, or build " ++
        "record: " ++ ref.imageId⟩

/-- One cache intent that survives the trim: its image id, and the closure it resolves to. -/
def cacheIntentKeep (exact byImageId : ClosureIndex) (trimmed : List String) (hostId : String)
    (image : CachedImageRef) : Except Fault (List (String × Artifacts)) :=
  match truthy image.imageId with
  | none => .ok []
  | some imageId =>
    if trimmed.contains imageId then .ok []
    else do
      let resolved ← mergeImageClosures "retained cache intent" ("host_cached_image:" ++ hostId)
        (readImageKey image.imageKey) imageId exact byImageId true
      return [(imageId, (resolved.map fun m =>
        (⟨m.chunkManifestSha256s, m.bootArtifactSha256s⟩ : Artifacts)).getD ⟨[], []⟩)]

/-! ## The projection -/

/-- `RegistryRetentionProjection`. -/
structure Projection where
  nowUnixMs : Int
  roots : List ImageRoot
  (objectOnlyImageIds keepBuildIds retireBuildIds retiredBuildIds : List String)
  candidates : CandidateIntentPlan
  snapshots : SnapshotRetentionPlan
  hostCacheTrims : List HostCacheIntentTrim
  (bundleRevs imageIds chunkManifestSha256s bootArtifactSha256s : List String)

/-- `liveRevisionByScenario`: the last row of a scenario sets it. -/
def liveRevision (rows : List (LiveVmRow × Option String)) (scenarioId : String) :
    Option (Option String) :=
  (rows.reverse.find? fun r => r.1.scenarioId = scenarioId).map Prod.snd

/-- `liveClosureByScenario`. -/
def liveClosure (rows : List (LiveVmRow × Option String)) (scenarioId : String) : Option String :=
  match rows.filter fun r => r.1.scenarioId = scenarioId with
  | [] => none
  | own => some (imageClosureSignature (own.map fun r =>
      ⟨r.1.vmName, r.1.imageId.getD "",
        ⟨r.1.chunkManifestSha256, r.1.kernelSha256, r.1.initrdSha256⟩⟩))

/-- The candidate rows the runs in flight were admitted from. -/
def activeRunCandidates (rows : List RunVmRow) : List ActiveRunCandidateRef :=
  rows.filterMap fun row => (truthy row.candidateRevision).map fun revision =>
    ⟨row.scenarioId, row.organizationId, revision⟩

def candidatePlan (db : RetentionDb) : CandidateIntentPlan :=
  planCandidateIntentRetention db.candidates (liveRevision db.liveRows) (liveClosure db.liveRows)
    (activeRunCandidates db.runRows)

/-- Every reference that was read, before it is turned into keep sets. -/
structure References where
  live : List Keep
  snapshots : SnapshotRetentionPlan
  rollbackVms : List SnapshotVmRoots
  runs : List Keep
  hosts : List HostCacheIntentRow
  hostVms : List Keep
  (exact byImageId : ClosureIndex)

namespace References

variable (r : References) (db : RetentionDb)

/-- The candidate intents that are kept, VM by VM. -/
def intents (db : RetentionDb) : List Keep :=
  (db.candidates.filter fun row => (candidatePlan db).keepIds.contains row.id).flatMap
    fun row => manifestKeep row.manifest .candidateIntent

/-- The slot roots, with what each of them keeps. -/
def keeps : List Keep :=
  r.live ++ r.rollbackVms.map SnapshotVmRoots.keep ++ intents db ++ r.runs ++ r.hostVms

def roots : List ImageRoot := (r.keeps db).map Keep.root

def buildPlan : BuildRetentionPlan :=
  planBuildRetention (db.builds.map retentionBuildRow) (r.roots db)
    (gather (r.keeps db)).chunkManifests (gather (r.keeps db)).bootArtifacts

def keptBuilds : List RetentionBuildRow :=
  (db.builds.map retentionBuildRow).filter fun b => (r.buildPlan db).keepBuildIds.contains b.buildId

/-- The images that keep a cache intent alive: an intent never justifies itself. -/
def keepImageIds : List String :=
  (db.runRows.filterMap fun row => truthy (some row.imageId)) ++
    (r.roots db).map ImageRoot.imageId ++
    (r.keptBuilds db).flatMap fun b => b.members.map ImageRoot.imageId

/-- The families a platform record still manages. -/
def managedFamilies : List String :=
  (r.live ++ r.rollbackVms.map SnapshotVmRoots.keep ++ intents db).map (fun k => k.root.slot) ++
    (db.builds.map retentionBuildRow).flatMap fun b => b.members.map ImageRoot.slot

variable (localeCompare : String → String → Ordering)

def hostCacheTrims : List HostCacheIntentTrim :=
  planHostCacheIntentRetention localeCompare r.hosts (r.managedFamilies db) (r.keepImageIds db)

/-- The cache intents that survive the trim, with the closures they resolve to. -/
def cachedIntents : Except Fault (List (String × Artifacts)) := do
  let trimmed := (r.hostCacheTrims db localeCompare).flatMap HostCacheIntentTrim.imageIds
  let kept ← each (fun host : HostCacheIntentRow =>
    each (cacheIntentKeep r.exact r.byImageId trimmed host.hostId) host.cachedImages) r.hosts
  return kept.flatten.flatten

/-- The keep sets. -/
def projection (nowUnixMs : Int) (cached : List (String × Artifacts)) : Projection where
  nowUnixMs
  roots := r.roots db
  objectOnlyImageIds := Js.sort (cached.map Prod.fst).dedup
  keepBuildIds := (r.buildPlan db).keepBuildIds
  retireBuildIds := (r.buildPlan db).retireBuildIds
  retiredBuildIds := Js.sort ((db.builds.filter fun b => b.artifactsRetiredAt.isSome).map BuildRow.id)
  candidates := candidatePlan db
  snapshots := r.snapshots
  hostCacheTrims := r.hostCacheTrims db localeCompare
  bundleRevs := Js.sort db.bundleRevs
  imageIds := Js.sort (r.keepImageIds db ++ cached.map Prod.fst).dedup
  chunkManifestSha256s := Js.sort ((gather (r.keeps db)).chunkManifests ++
    (r.keptBuilds db).flatMap RetentionBuildRow.chunkManifestSha256s ++
    cached.flatMap fun c => c.2.chunkManifests).dedup
  bootArtifactSha256s := Js.sort ((gather (r.keeps db)).bootArtifacts ++
    (r.keptBuilds db).flatMap RetentionBuildRow.bootArtifactSha256s ++
    cached.flatMap fun c => c.2.bootArtifacts).dedup

end References

variable (localeCompare : String → String → Ordering)

/-- Read every reference; a reference that cannot be read in full ends the projection. -/
def readReferences (db : RetentionDb) : Except Fault References := do
  let liveRows := db.liveRows.map Prod.fst
  let live ← each liveVmKeep liveRows
  let snapshots ← planSnapshotRetention localeCompare db.snapshots
  let rollbackVms ← each snapshotKeep (db.snapshots.filterMap (retainedSnapshot snapshots))
  let closures := rollbackVms.flatten.map SnapshotVmRoots.entry
  let byImageId := buildImageIdIndex liveRows closures db.candidates db.builds
  let exact := buildRunImageIndex liveRows closures db.candidates db.builds
  let runs ← each (runVmKeep exact byImageId) db.runRows
  let hosts ← each hostReferences db.hostRows
  let hostVms ← each (hostVmKeep exact byImageId) (hosts.flatMap Prod.fst)
  return ⟨live, snapshots, rollbackVms.flatten, runs, hosts.map Prod.snd, hostVms, exact, byImageId⟩

/-- The retention projection: nothing is written, and a fault is reported instead of a keep set. -/
def projectRegistryRetention (db : RetentionDb) (nowUnixMs : Int) : Except Fault Projection := do
  let references ← readReferences localeCompare db
  let cached ← references.cachedIntents db localeCompare
  return references.projection db localeCompare nowUnixMs cached

end Intar.Registry
