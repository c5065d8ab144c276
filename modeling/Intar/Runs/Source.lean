import Mathlib
import Intar.Runs.Tables

/-!
# Where a run's images come from

A start reads the VMs of its scenario, from the live catalog (`lib/scenarios.ts`) or, for an
administrator's proof, from a candidate manifest (`lib/scenario-runs/candidate.ts`), and makes launch
specs of them.  Some time later it commits a run with these images.  The commit is guarded by an
*anchor*, a condition on the tables at that moment:

* `liveSourceAnchor` counts the catalog rows that a fingerprint of the read describes, and all the
  rows of the scenario, and compares both with the number of VMs.  `perm_of_liveSourceAnchor` shows
  that two counts are enough: the rows *are* what was read.
* `candidateAnchor` asks for the candidate row with the very text that was read, of a build that
  succeeded and has not been retired.
-/

namespace Intar.Runs

open Registry (ImageKey)
open Host (Millis VmResources)

/-! ## Slugs -/

/-- `[a-z0-9_-]`. -/
def isNameChar (c : Char) : Bool := c.isLower || c.isDigit || c = '_' || c = '-'

/-- `replace(/[^a-z0-9_-]+/g, "-")`; the flag says that a run is being replaced. -/
def collapseNames : Bool → List Char → List Char
  | _, [] => []
  | inRun, c :: cs =>
    if isNameChar c then c :: collapseNames false cs
    else if inRun then collapseNames true cs
    else '-' :: collapseNames true cs

def slugify (value : String) : String :=
  Js.orElse
    (String.ofList (((collapseNames false (Js.toLowerCase (Js.trim value)).toList).dropWhile
      (· = '-')).rdropWhile (· = '-')))
    "scenario"

/-! ## VM records -/

/-- `ScenarioVmDirectBootMetadata`. -/
structure DirectBoot where
  chunkManifestSha256 : Option String
  (kernelSha256 initrdSha256 : String)
deriving DecidableEq

def normalizeSha256Hex (value : String) : Option String :=
  let normalized := Js.toLowerCase (Js.trim value)
  if Registry.isSha256 normalized then some normalized else none

/-- The boot command line has the word `root=/dev/vda`. -/
def bootsFromImage (cmdline : String) : Bool :=
  ((Js.trim cmdline).toList.splitOnP Js.isSpace).any (· = "root=/dev/vda".toList)

/-- The hashes of an image in normal form, if it can be booted. -/
def normalizeScenarioVmDirectBootMetadata (imageFormat : String) (imageVirtualSizeBytes : Int)
    (chunkManifestSha256 : Option String) (guestBootstrapAbi : Option Int)
    (kernelSha256 initrdSha256 bootCmdline : String) : Option DirectBoot := do
  guard (imageFormat = "raw_chunks_v1" ∨ imageFormat = "raw_zstd")
  guard (Host.isSafeInteger imageVirtualSizeBytes ∧ 0 < imageVirtualSizeBytes)
  let kernel ← normalizeSha256Hex kernelSha256
  let initrd ← normalizeSha256Hex initrdSha256
  let chunks := normalizeSha256Hex (chunkManifestSha256.getD "")
  guard (imageFormat = "raw_chunks_v1" → chunks.isSome ∧ guestBootstrapAbi = some 2)
  guard (bootsFromImage bootCmdline)
  return ⟨if imageFormat = "raw_chunks_v1" then chunks else none, kernel, initrd⟩

/-- What a launch reads of a `ScenarioVmRecord`. -/
structure VmRecord where
  (id name image : String)
  imageKey : Option ImageKey
  imageSha256 : Option String
  boot : DirectBoot
  (cpuMillis memoryMib diskMib : Int)
  probes : List ProbeDescriptor
deriving DecidableEq

/-- `ScenarioVmImageRef`: which catalog row a VM came from. -/
structure ImageRef where
  vmName : String
  (keyScenario keyVm keyArch imageSha256 chunkManifestSha256 : Option String)
  (kernelSha256 initrdSha256 : String)
deriving DecidableEq

structure ScenarioLaunchSpec where
  (scenarioVmId scenarioVmName runtimeVmNamePrefix image : String)
  imageKey : Option ImageKey
  imageSha256 : Option String
  imageRef : ImageRef
  hostname : String
  resources : VmResources
  leaseDurationSeconds : Int
  summary : ScenarioLaunchSummary
deriving DecidableEq

def defaultVmLeaseDurationSeconds : Int := 3600

def VmRecord.imageRef (vm : VmRecord) : ImageRef where
  vmName := vm.name
  keyScenario := vm.imageKey.map ImageKey.scenario
  keyVm := vm.imageKey.map ImageKey.vm
  keyArch := vm.imageKey.map fun key => key.arch.text
  imageSha256 := vm.imageSha256
  chunkManifestSha256 := vm.boot.chunkManifestSha256
  kernelSha256 := vm.boot.kernelSha256
  initrdSha256 := vm.boot.initrdSha256

def buildScenarioLaunchSpec (scenarioId : String) (vm : VmRecord) : ScenarioLaunchSpec where
  scenarioVmId := vm.id
  scenarioVmName := slugify vm.name
  runtimeVmNamePrefix := slugify (slugify scenarioId ++ "-" ++ slugify vm.name)
  image := Js.trim vm.image
  imageKey := vm.imageKey
  imageSha256 := vm.imageSha256
  imageRef := vm.imageRef
  hostname := slugify vm.name
  resources := ⟨vm.cpuMillis, vm.memoryMib, vm.diskMib⟩
  leaseDurationSeconds := defaultVmLeaseDurationSeconds
  summary := ⟨slugify vm.name, slugify vm.name, vm.probes⟩

def buildScenarioLaunchSpecs (scenarioId : String) (vms : List VmRecord) :
    List ScenarioLaunchSpec :=
  vms.map (buildScenarioLaunchSpec scenarioId)

/-- What a start needs of a `ScenarioRunLaunchSource`. -/
structure LaunchSource where
  scenarioId : String
  organizationId : Option String
  title : String
  launchSpecs : List ScenarioLaunchSpec
  candidateSource : Option CandidateSource
deriving DecidableEq

/-! ## The live catalog -/

/-- What a start is refused with: an `appError`, or any other thrown error. -/
inductive StartError where
  | app (status : Nat) (code message : String)
  | other (message : String)
deriving DecidableEq

def CatalogVm.record (vm : CatalogVm) : Except StartError VmRecord :=
  match normalizeScenarioVmDirectBootMetadata vm.imageFormat vm.imageVirtualSizeBytes
      vm.chunkManifestSha256 vm.guestBootstrapAbi vm.kernelSha256 vm.initrdSha256 vm.bootCmdline with
  | none => .error (.app 500 "scenario_catalog_invalid" ("scenario VM " ++ vm.scenarioId ++ "/" ++
      vm.vmName ++ " has invalid direct-boot image metadata"))
  | some boot => .ok
    { id := vm.id
      name := vm.vmName
      image := vm.image
      imageKey := vm.imageKey
      imageSha256 := Js.trimOrNone vm.imageSha256
      boot
      cpuMillis := vm.cpuMillis
      memoryMib := vm.memoryMib
      diskMib := vm.diskMib
      probes := vm.probes }

/-- The catalog rows of a scenario. -/
def Db.catalogRows (db : Db) (scenarioId : String) : List CatalogVm :=
  db.catalog.filter (·.scenarioId = scenarioId)

/-- `loadEnabledScenarioRows` for one scenario: its rows are read in one batch. -/
def Db.loadEnabledScenario (db : Db) (scenarioId : String) (organizationId : Option String) :
    Except StartError (Option LaunchSource) := do
  let organization := organizationId.filter (· ≠ "")
  match db.scenarios.find? fun row => row.scenarioId = scenarioId &&
      (row.organizationId.isNone || (organization.isSome && row.organizationId = organization)) with
  | none => return none
  | some row =>
    let vms := (db.catalogRows scenarioId).insertionSort fun a b => a.ordinal ≤ b.ordinal
    if vms = [] then return none
    else
      let records ← Fallible.each CatalogVm.record vms
      if row.enabled ∧ row.enabledAt.isSome ∧
          (row.organizationId.isNone ∨ row.organizationId = organizationId) then
        return some
          { scenarioId := row.scenarioId
            organizationId := row.organizationId
            title := Js.trim row.title
            launchSpecs := buildScenarioLaunchSpecs row.scenarioId records
            candidateSource := none }
      else return none

/-! ## Candidates -/

/-- What a launch reads of a VM of a candidate manifest. -/
structure CandidateVm where
  name : String
  imageKey : ImageKey
  (imageId imageFormat : String)
  imageVirtualSizeBytes : Int
  chunkManifestSha256 : Option String
  guestBootstrapAbi : Option Int
  (kernelSha256 initrdSha256 bootCmdline : String)
  (cpuMillis memoryMib diskMib : Int)
  probes : List ProbeDescriptor
deriving DecidableEq

structure CandidateManifest where
  (scenarioId title : String)
  vms : List CandidateVm
deriving DecidableEq

/-- The candidate identity a start asks for. -/
structure CandidateRequest where
  (revision buildId : String)
deriving DecidableEq

/-- What the commit of a candidate start is anchored on. -/
structure CandidateProof extends CandidateRequest where
  /-- The text of the manifest that the start read. -/
  manifestText : String
deriving DecidableEq

def candidateImageName (key : ImageKey) : String :=
  key.scenario ++ "-" ++ key.vm ++ "-" ++ key.arch.text ++ ".chunks.json"

def CandidateVm.record (scenarioId : String) (vm : CandidateVm) : Option VmRecord := do
  guard (vm.imageFormat = "raw_chunks_v1" ∧ vm.guestBootstrapAbi = some 2)
  let boot ← normalizeScenarioVmDirectBootMetadata vm.imageFormat vm.imageVirtualSizeBytes
    vm.chunkManifestSha256 vm.guestBootstrapAbi vm.kernelSha256 vm.initrdSha256 vm.bootCmdline
  some
    { id := scenarioId ++ ":" ++ vm.name
      name := vm.name
      image := candidateImageName vm.imageKey
      imageKey := some vm.imageKey
      imageSha256 := some vm.imageId
      boot
      cpuMillis := vm.cpuMillis
      memoryMib := vm.memoryMib
      diskMib := vm.diskMib
      probes := vm.probes }

def candidateSourceFromManifest (manifest : CandidateManifest) (organizationId : Option String)
    (request : CandidateRequest) : Option LaunchSource := do
  let vms ← manifest.vms.mapM (CandidateVm.record manifest.scenarioId)
  some
    { scenarioId := manifest.scenarioId
      organizationId
      title := Js.trim manifest.title
      launchSpecs := buildScenarioLaunchSpecs manifest.scenarioId vms
      candidateSource := some ⟨request.revision, request.buildId⟩ }

def candidateScenarioId (organizationId : Option String) (revision scenarioId : String) : String :=
  organizationId.getD "public" ++ ":" ++ revision ++ ":" ++ scenarioId

section

-- `JSON.parse` of a manifest column; `none` is a text that `validateManifest` refuses.
variable (parseManifest : String → Option CandidateManifest)

/-- The source of a candidate start, with the text it was read from.  The flag says that the bundles
and the published manifest of the build agree with the candidate. -/
def Db.loadCandidateScenarioRunSource (db : Db) (request : CandidateRequest) (scenarioId : String)
    (organizationId : Option String) (agrees : Bool) : Option (LaunchSource × CandidateProof) := do
  let organization := organizationId.filter (· ≠ "")
  let row ← db.candidates.find? fun row => row.revision = request.revision &&
    row.buildId = request.buildId && row.scenarioId = scenarioId &&
    row.organizationId = organization &&
    db.builds.any fun build => build.id = row.buildId && build.status = .succeeded
  guard agrees
  let manifest ← parseManifest row.manifestText
  guard (manifest.scenarioId = scenarioId)
  let source ← candidateSourceFromManifest manifest organizationId request
  return (source, ⟨request, row.manifestText⟩)

end

/-! ## Anchors -/

/-- The identity of a catalog row, as the anchor reads it. -/
def CatalogVm.imageRef (vm : CatalogVm) : ImageRef where
  vmName := vm.vmName
  keyScenario := vm.imageKey.map ImageKey.scenario
  keyVm := vm.imageKey.map ImageKey.vm
  keyArch := vm.imageKey.map fun key => key.arch.text
  imageSha256 := vm.imageSha256
  chunkManifestSha256 := vm.chunkManifestSha256
  kernelSha256 := vm.kernelSha256
  initrdSha256 := vm.initrdSha256

/-- `liveSourceFingerprint`: the identities of the VMs that were read. -/
def liveSourceFingerprint (launchSpecs : List ScenarioLaunchSpec) : List ImageRef :=
  launchSpecs.map ScenarioLaunchSpec.imageRef

/-- An entry of the fingerprint describes the row; `IS` holds two `NULL`s equal. -/
def ImageRef.describes (expected : ImageRef) (vm : CatalogVm) : Bool :=
  expected.vmName = vm.vmName &&
  expected.keyScenario = vm.imageKey.map ImageKey.scenario &&
  expected.keyVm = vm.imageKey.map ImageKey.vm &&
  expected.keyArch = (vm.imageKey.map fun key => key.arch.text) &&
  expected.imageSha256 = vm.imageSha256 &&
  expected.chunkManifestSha256 = vm.chunkManifestSha256 &&
  expected.kernelSha256 = vm.kernelSha256 &&
  expected.initrdSha256 = vm.initrdSha256

/-- `liveSourceAnchorCondition`. -/
def Db.liveSourceAnchor (db : Db) (scenario : String) (fingerprint : List ImageRef) : Bool :=
  ((db.catalogRows scenario).filter fun vm => fingerprint.any (·.describes vm)).length =
    fingerprint.length &&
  (db.catalogRows scenario).length = fingerprint.length

/-- `candidateAnchorCondition`. -/
def Db.candidateAnchor (db : Db) (candidateId : String) (proof : CandidateProof) : Bool :=
  db.candidates.any fun candidate => candidate.id = candidateId &&
    candidate.revision = proof.revision && candidate.buildId = proof.buildId &&
    candidate.manifestText = proof.manifestText &&
    db.builds.any fun build => build.id = proof.buildId && build.status = .succeeded &&
      build.artifactsRetiredAt.isNone

section

variable {db : Db} {scenario : String} {fingerprint : List ImageRef}

theorem describes_iff {expected : ImageRef} {vm : CatalogVm} :
    expected.describes vm = true ↔ expected = vm.imageRef := by
  obtain ⟨⟩ := expected
  simp [ImageRef.describes, CatalogVm.imageRef, and_assoc]

/-- **Two counts make a bijection.**  When the anchor holds, the rows of the scenario are the VMs
that were read, one for one: no row is missing from the fingerprint by the first count, no entry is
left over by the second, and two rows cannot share an entry, as they differ in their names. -/
theorem perm_of_liveSourceAnchor (h : db.liveSourceAnchor scenario fingerprint = true)
    (hnm : ((db.catalogRows scenario).map CatalogVm.vmName).Nodup) :
    ((db.catalogRows scenario).map CatalogVm.imageRef).Perm fingerprint := by
  simp only [Db.liveSourceAnchor, Bool.and_eq_true, decide_eq_true_eq] at h
  obtain ⟨hmatched, hcn⟩ := h
  have hall : ∀ vm ∈ db.catalogRows scenario, vm.imageRef ∈ fingerprint := by
    intro vm hvm
    have hdescribed := List.length_filter_eq_length_iff.mp (hmatched.trans hcn.symm) vm hvm
    obtain ⟨_, hexp, hds⟩ := List.any_eq_true.mp hdescribed
    exact describes_iff.mp hds ▸ hexp
  have hnd : ((db.catalogRows scenario).map CatalogVm.imageRef).Nodup := by
    have hnam : (ImageRef.vmName ∘ CatalogVm.imageRef) = CatalogVm.vmName := rfl
    refine List.Nodup.of_map ImageRef.vmName ?_
    rw [List.map_map, hnam]
    exact hnm
  have hsub := hnd.subperm fun ref href => by
    obtain ⟨vm, hvm, rfl⟩ := List.mem_map.mp href
    exact hall vm hvm
  exact hsub.perm_of_length_le (by rw [List.length_map, hcn])

end

end Intar.Runs
