import Intar.Lib.Keyed
import Intar.Registry.Projection

/-!
# The cleanup plan

`lib/image-registry-cleanup.ts`, up to the plan: one listing of the bucket, the retained objects
proved present, and the worklist of what no reference retains.

* `scanBucket` reads the pages of the listing into the inventory of swept objects.
* `verifyRetainedObjects` reads every retained manifest, looks up every retained chunk, image and
  boot artifact, and returns the keys to keep together with a fault for each one it could not
  prove.
* `selectCandidates` is the inventory without those keys, in delete order, and `buildPlan` puts the
  three together.

What the bucket and the database answer is in `CleanupEnv`.  SHA-256, the decoding of a manifest
body (`JSON.parse` of the decoded text) and the locale's order of strings are parameters.
-/

namespace Intar.Registry

open Keyed

/-! ## The listing -/

structure R2Object where
  key : String
  size : Nat
deriving DecidableEq

/-- One answer of `bucket.list`. -/
structure ListPage where
  objects : List R2Object
  truncated : Bool
  cursor : Option String
deriving DecidableEq

structure BucketScan where
  /-- A `Map` by key. -/
  objects : List SweptObject
  (unrecognized outOfScope : Nat)
  truncated : Bool
deriving DecidableEq

def hasSweptPrefix (key : String) : Bool :=
  Js.startsWith key imageManifestPrefix || Js.startsWith key imageChunkPrefix ||
    Js.startsWith key artifactPrefix || Js.startsWith key imagePrefix

/-- One listed object: swept, malformed inside a swept prefix, or out of scope. -/
def scanObject (scan : BucketScan) (object : R2Object) : BucketScan :=
  match parseSweptObjectKey object.key object.size with
  | some parsed => { scan with objects := set SweptObject.key parsed scan.objects }
  | none =>
    if hasSweptPrefix object.key then { scan with unrecognized := scan.unrecognized + 1 }
    else { scan with outOfScope := scan.outOfScope + 1 }

/-- The pages in the order they come.  The loop ends at a page that is not truncated, or that says it
is but names no cursor; with neither in sight it is still waiting (`none`). -/
def scanPages (scan : BucketScan) : List ListPage → Option BucketScan
  | [] => none
  | page :: pages =>
    let scan := page.objects.foldl scanObject scan
    if page.truncated then
      match truthy page.cursor with
      | none => some { scan with truncated := true }
      | some _ => scanPages scan pages
    else some { scan with truncated := false }

def scanBucket (pages : List ListPage) : Option BucketScan := scanPages ⟨[], 0, 0, false⟩ pages

/-! ## Retained objects -/

/-- `ImageRegistryCleanupFault`. -/
structure CleanupFault where
  (code detail : String)
deriving DecidableEq

/-- `RetainedCoverage`, with the images that a verified manifest covers. -/
structure RetainedCoverage where
  (retainedKeys manifestCoveredImageIds : List String)
  retainedByDigestOnly : Nat
  faults : List CleanupFault
deriving DecidableEq

def RetainedCoverage.empty : RetainedCoverage := ⟨[], [], 0, []⟩

def RetainedCoverage.retain (c : RetainedCoverage) (key : String) : RetainedCoverage :=
  { c with retainedKeys := add key c.retainedKeys }

def RetainedCoverage.fault (c : RetainedCoverage) (code detail : String) : RetainedCoverage :=
  { c with faults := c.faults ++ [⟨code, detail⟩] }

/-- What the bucket and the database answer one plan. -/
structure CleanupEnv where
  pages : List ListPage
  /-- `bucket.get` with the body read in full. -/
  get : String → Option Bytes
  /-- The column `image_builds.artifacts_retired_at` can be read. -/
  retirementMarkerAvailable : Bool
  /-- The retention projection, or the message of the error it threw; one that is no `Error` has
  none. -/
  projection : Except (Option String) Projection

def legacyImageKeyOf (root : ImageRoot) : String :=
  imageObjectKey ⟨root.scenarioId, root.vmName, root.arch⟩ root.imageId

section

variable (sha256Hex : Bytes → String) (decode : Bytes → Option Json)

/-- The manifest in the body, under the rule that published it. -/
def readRetainedManifest (bytes : Bytes) : Except String ImageChunkManifest :=
  match decode bytes with
  | none => .error "the body is not valid JSON"
  | some decoded => validateImageChunkManifest sha256Hex decoded

def verifyChunk (inventory : List SweptObject) (c : RetainedCoverage) (chunk : ImageChunk) :
    RetainedCoverage :=
  let chunkKey := imageChunkObjectKey chunk.rawSha256
  if has SweptObject.key chunkKey inventory then c.retain chunkKey
  else c.fault "retained_chunk_missing" ("a retained image chunk is not in the bucket: " ++ chunkKey)

/-- Read and hash one retained manifest; its body decides which chunks are retained. -/
def verifyManifest (get : String → Option Bytes) (inventory : List SweptObject)
    (c : RetainedCoverage) (manifestSha256 : String) : RetainedCoverage :=
  let key := imageManifestObjectKey manifestSha256
  match get key with
  | none =>
    c.fault
      (if has SweptObject.key key inventory then "retained_manifest_unreadable"
        else "retained_manifest_missing")
      ("a retained image manifest is not readable: " ++ key)
  | some bytes =>
    if sha256Hex bytes ≠ manifestSha256 then
      c.fault "retained_manifest_mismatch"
        ("an image manifest body does not match its reference: " ++ key)
    else
      match readRetainedManifest sha256Hex decode bytes with
      | .error detail =>
        c.fault "retained_manifest_invalid"
          ("an image manifest is invalid (" ++ detail ++ "): " ++ key)
      | .ok manifest =>
        let covered := { c.retain key with
          manifestCoveredImageIds := add manifest.imageId c.manifestCoveredImageIds }
        manifest.chunks.foldl (verifyChunk inventory) covered

/-- A root is held by its legacy object, or else by a verified manifest of its image. -/
def verifyRoot (inventory : List SweptObject) (c : RetainedCoverage) (root : ImageRoot) :
    RetainedCoverage :=
  let key := legacyImageKeyOf root
  if has SweptObject.key key inventory then c.retain key
  else if root.imageId ∈ c.manifestCoveredImageIds then c
  else
    c.fault "retained_image_missing"
      ("a retained image resolves to neither a legacy object nor a chunked manifest: " ++ key)

/-- A legacy image whose digest is retained stays, under whatever image key it is stored. -/
def retainByDigest (retainedImageIds : List String) (c : RetainedCoverage) (object : SweptObject) :
    RetainedCoverage :=
  if object.kind = .legacyImage ∧ object.key ∉ c.retainedKeys ∧
      object.sha256 ∈ retainedImageIds then
    { c.retain object.key with retainedByDigestOnly := c.retainedByDigestOnly + 1 }
  else c

def verifyBootArtifact (inventory : List SweptObject) (c : RetainedCoverage) (sha256 : String) :
    RetainedCoverage :=
  let key := bootArtifactObjectKey sha256
  if has SweptObject.key key inventory then c.retain key
  else
    c.fault "retained_boot_artifact_missing" ("a retained boot artifact is not in the bucket: " ++ key)

/-- Prove that everything the projection retains is present, and return the keys to keep. -/
def verifyRetainedObjects (get : String → Option Bytes) (projection : Projection)
    (inventory : List SweptObject) : RetainedCoverage :=
  let manifests := projection.chunkManifestSha256s.foldl
    (verifyManifest sha256Hex decode get inventory) .empty
  let roots := projection.roots.foldl (verifyRoot inventory) manifests
  let digests := inventory.foldl (retainByDigest projection.imageIds) roots
  projection.bootArtifactSha256s.foldl (verifyBootArtifact inventory) digests

end

/-! ## The worklist -/

/-- `ImageRegistryCleanupPlanObject`. -/
structure PlanObject where
  key : String
  bytes : Nat
  category : ObjectKind
  imageKey : Option String
deriving DecidableEq

/-- The position in `CLEANUP_DELETE_ORDER`: a manifest goes first, for its chunks can only be
proved unshared while it exists. -/
def ObjectKind.deleteOrder : ObjectKind → Nat
  | .manifest => 0
  | .legacyImage => 1
  | .legacySidecar => 2
  | .chunk => 3
  | .bootArtifact => 4

def ObjectKind.text : ObjectKind → String
  | .manifest => "manifest"
  | .chunk => "chunk"
  | .legacyImage => "legacy_image"
  | .legacySidecar => "legacy_sidecar"
  | .bootArtifact => "boot_artifact"

/-- Objects and bytes of one category. -/
structure CategoryTally where
  category : ObjectKind
  (objects bytes : Nat)
deriving DecidableEq

def tallyObject (tallies : List CategoryTally) (object : SweptObject) : List CategoryTally :=
  let tally := (get CategoryTally.category object.kind tallies).getD ⟨object.kind, 0, 0⟩
  set CategoryTally.category
    ⟨object.kind, tally.objects + 1, tally.bytes + object.bytes⟩ tallies

def tallyByCategory (objects : List SweptObject) : List CategoryTally := objects.foldl tallyObject []

def countOf (kind : ObjectKind) (tallies : List CategoryTally) : Nat :=
  ((get CategoryTally.category kind tallies).map CategoryTally.objects).getD 0

/-- `CleanupKeysetSummary`. -/
structure KeysetSummary where
  (objects bytes : Nat)
  digest : String
deriving DecidableEq

def keyLine (object : SweptObject) : String := object.key ++ "\t" ++ toString object.bytes

def totalBytes (objects : List SweptObject) : Nat := (objects.map SweptObject.bytes).sum

section

variable (sha256Hex : Bytes → String)

def digestKeyLines (lines : List String) : String :=
  sha256Hex ("\n".intercalate lines).toUTF8.data.toList

def summarizeKeyset (objects : List SweptObject) : KeysetSummary :=
  let ordered := objects.insertionSort fun left right => Js.compareUnits left.key right.key ≠ .gt
  ⟨ordered.length, totalBytes ordered, digestKeyLines sha256Hex (ordered.map keyLine)⟩

end

/-- The retained keys, each legacy image with its sidecar. -/
def withSidecars (retainedKeys : List String) : List String :=
  addAll retainedKeys <|
    (retainedKeys.filter fun key => Js.endsWith key legacySuffix).map (· ++ sidecarSuffix)

/-- Category by category, and inside one by key. -/
def deleteBefore (compareKeys : String → String → Ordering) (left right : ObjectKind × String) :
    Bool :=
  (compare left.1.deleteOrder right.1.deleteOrder).then (compareKeys left.2 right.2) ≠ .gt

def planObject (object : SweptObject) : PlanObject :=
  ⟨object.key, object.bytes, object.kind, object.imageKey⟩

/-- `CandidateSelection`. -/
structure CandidateSelection where
  candidates : List PlanObject
  (candidateBytes candidateTotal : Nat)
  candidatesByCategory : List CategoryTally
  candidateKeysDigest : String
deriving DecidableEq

/-- What no reference retains, in delete order.  The counts and the digest cover the whole worklist
even where the list is capped. -/
def selectCandidates (sha256Hex : Bytes → String) (localeCompare : String → String → Ordering)
    (inventory : List SweptObject) (retainedKeys : List String) (candidateListLimit : Nat) :
    CandidateSelection :=
  let retained := withSidecars retainedKeys
  let objects := inventory.insertionSort fun left right =>
    deleteBefore localeCompare (left.kind, left.key) (right.kind, right.key)
  let candidates := objects.filter fun object => object.key ∉ retained
  { candidates := (candidates.take candidateListLimit).map planObject
    candidateBytes := totalBytes candidates
    candidateTotal := candidates.length
    candidatesByCategory := tallyByCategory candidates
    candidateKeysDigest := digestKeyLines sha256Hex (Js.sort (candidates.map keyLine)) }

/-! ## The plan -/

/-- `ImageRegistryCleanupMode`. -/
inductive CleanupMode where
  | reportOnly
  | delete
deriving DecidableEq

structure ProjectedRetirements where
  (consumedRetiredBuildIds newlyRetiredBuildIds trimmedSnapshotIds deletedSnapshotIds : Nat)
  (deletedCandidateIds trimmedHostCacheImageIds : Nat)
deriving DecidableEq

def Projection.retirements (p : Projection) : ProjectedRetirements where
  consumedRetiredBuildIds := p.retiredBuildIds.length
  newlyRetiredBuildIds := p.retireBuildIds.length
  trimmedSnapshotIds := p.snapshots.trims.length
  deletedSnapshotIds := p.snapshots.deleteIds.length
  deletedCandidateIds := p.candidates.retireIds.length
  trimmedHostCacheImageIds := (p.hostCacheTrims.map fun trim => trim.imageIds.length).sum

/-- `ImageRegistryCleanupPlanDetails`. -/
structure PlanDetails where
  faults : List CleanupFault
  deleteAllowedByReferences : Bool
  (candidatesByCategory retainedByCategory : List CategoryTally)
  (unrecognizedObjects outOfScopeObjects retainedImages retainedManifests retainedChunks : Nat)
  (retainedBootArtifacts retainedByDigestOnly candidateTotal : Nat)
  candidateSampleCapped : Bool
  (scannedKeyset retainedKeyset candidatesKeyset : KeysetSummary)
  projectedRetirements : ProjectedRetirements
deriving DecidableEq

/-- `ImageRegistryCleanupPlan`. -/
structure CleanupPlan where
  generatedAtMs : Int
  mode : CleanupMode
  (objectsScanned retainedObjects : Nat)
  candidateObjects : List PlanObject
  candidateBytes : Nat
  truncated : Bool
  details : PlanDetails
deriving DecidableEq

/-- `BuiltPlan`: the plan with the projection it was built from and the scan it starts at. -/
structure BuiltPlan where
  plan : CleanupPlan
  projection : Option Projection
  baseline : List SweptObject

section

variable (sha256Hex : Bytes → String) (decode : Bytes → Option Json)
  (localeCompare : String → String → Ordering)

/-- The faults of the scan, the marker and the projection itself. -/
def environmentFaults (env : CleanupEnv) (scan : BucketScan) : List CleanupFault :=
  (if scan.truncated then
    [⟨"listing_truncated", "the bucket listing stopped before its last page"⟩] else []) ++
  (if env.retirementMarkerAvailable then [] else
    [⟨"retirement_marker_unavailable",
      "image_builds.artifacts_retired_at is unavailable, so a retired build cannot be told apart " ++
        "from a live one; apply the pending migration before sweeping"⟩]) ++
  match env.projection with
  | .ok _ => []
  | .error message => [⟨"retention_projection_unavailable",
      "the retention projection could not be read: " ++ message.getD "unknown error"⟩]

/-- Nothing is retained, and nothing verified, where there is no projection. -/
def coverageOf (env : CleanupEnv) (scan : BucketScan) : RetainedCoverage :=
  match env.projection with
  | .ok projection => verifyRetainedObjects sha256Hex decode env.get projection scan.objects
  | .error _ => .empty

def planOfScan (env : CleanupEnv) (mode : CleanupMode) (nowMs : Int) (candidateListLimit : Nat)
    (scan : BucketScan) : CleanupPlan :=
  let coverage := coverageOf sha256Hex decode env scan
  let faults := environmentFaults env scan ++ coverage.faults
  let selection := selectCandidates sha256Hex localeCompare scan.objects coverage.retainedKeys
    candidateListLimit
  let retainedByCategory := tallyByCategory <| coverage.retainedKeys.filterMap fun key =>
    get SweptObject.key key scan.objects
  { generatedAtMs := nowMs
    mode
    objectsScanned := scan.objects.length
    retainedObjects := coverage.retainedKeys.length
    candidateObjects := selection.candidates
    candidateBytes := selection.candidateBytes
    truncated := scan.truncated
    details :=
      { faults
        deleteAllowedByReferences := faults.isEmpty
        candidatesByCategory := selection.candidatesByCategory
        retainedByCategory
        unrecognizedObjects := scan.unrecognized
        outOfScopeObjects := scan.outOfScope
        retainedImages := countOf .legacyImage retainedByCategory
        retainedManifests := countOf .manifest retainedByCategory
        retainedChunks := countOf .chunk retainedByCategory
        retainedBootArtifacts := countOf .bootArtifact retainedByCategory
        retainedByDigestOnly := coverage.retainedByDigestOnly
        candidateTotal := selection.candidateTotal
        candidateSampleCapped := selection.candidates.length < selection.candidateTotal
        scannedKeyset := summarizeKeyset sha256Hex scan.objects
        retainedKeyset := summarizeKeyset sha256Hex
          (scan.objects.filter fun object => object.key ∈ coverage.retainedKeys)
        candidatesKeyset :=
          ⟨selection.candidateTotal, selection.candidateBytes, selection.candidateKeysDigest⟩
        projectedRetirements := match env.projection with
          | .ok projection => projection.retirements
          | .error _ => ⟨0, 0, 0, 0, 0, 0⟩ } }

/-- The plan, once the listing has ended. -/
def buildPlan (env : CleanupEnv) (mode : CleanupMode) (nowMs : Int) (candidateListLimit : Nat) :
    Option BuiltPlan :=
  (scanBucket env.pages).map fun scan =>
    ⟨planOfScan sha256Hex decode localeCompare env mode nowMs candidateListLimit scan,
      env.projection.toOption, scan.objects⟩

end

end Intar.Registry
