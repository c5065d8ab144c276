import Intar.Lib.Trace
import Intar.Registry.CleanupRun

/-!
# What cleanup deletes

The closure of a projection (`InClosure`) is what a delete must not touch: the retained manifests,
every chunk they name, the legacy images of the retained roots and image ids with their sidecars,
and the retained boot artifacts.

* The coverage only grows while it is built (`Grows`), so a fault, once raised, stays, and a coverage
  without faults has proved every retained object (`Verified`).
* What is verified is retained, and a plan without faults selects nothing retained
  (`notMem_candidates_of_inClosure`).
* Whatever a run deletes is in the worklist of a plan without faults (`mem_worklist_of_deletes`).

A plan *with* faults is no such promise: it still lists what it could not prove.
-/

namespace Intar.Registry

open Trace Keyed List

/-! ## The inventory -/

/-- Every object of the inventory is what its own key is parsed to. -/
def Parsed (objects : List SweptObject) : Prop :=
  ∀ o ∈ objects, parseSweptObjectKey o.key o.bytes = some o

theorem scanObject_parsed (scan : BucketScan) (object : R2Object) (h : Parsed scan.objects) :
    Parsed (scanObject scan object).objects := by
  rw [scanObject]
  split
  · rename_i hparse
    intro o ho
    rcases mem_of_mem_set ho with rfl | ho
    · obtain ⟨hkey, hby⟩ := parseSweptObjectKey_key hparse
      rw [hkey, hby, hparse]
    · exact h o ho
  · split
    · exact h
    · exact h

variable {pages : List ListPage} {scan : BucketScan} {key : String} {keys : List String}
  {plan : CleanupPlan} {count : Nat} {batch : List PlanObject} {pass : DeletePass}
  {parsed : List SweptObject}

theorem scanPages_parsed {scan' : BucketScan} (hscan : scanPages scan pages = some scan')
    (h : Parsed scan.objects) :
    Parsed scan'.objects := by
  induction pages generalizing scan with
  | nil => cases hscan
  | cons page _ ih =>
    have hpage : Parsed (page.objects.foldl scanObject scan).objects :=
      run_invariant (P := fun s : BucketScan => Parsed s.objects) scanObject_parsed h page.objects
    rw [scanPages] at hscan
    split at hscan
    · split at hscan
      · cases hscan
        exact hpage
      · exact ih hscan hpage
    · cases hscan
      exact hpage

theorem scanBucket_parsed (hscan : scanBucket pages = some scan) : Parsed scan.objects :=
  scanPages_parsed hscan nofun

/-! ## Coverage only grows -/

/-- Nothing retained is dropped, and no fault is forgotten. -/
structure RetainedCoverage.Grows (c c' : RetainedCoverage) : Prop where
  keys : ∀ k ∈ c.retainedKeys, k ∈ c'.retainedKeys
  covered : ∀ i ∈ c.manifestCoveredImageIds, i ∈ c'.manifestCoveredImageIds
  faults : c'.faults = [] → c.faults = []

namespace RetainedCoverage

theorem Grows.refl (c : RetainedCoverage) : c.Grows c := ⟨fun _ h => h, fun _ h => h, fun h => h⟩

theorem Grows.trans {a b c : RetainedCoverage} (h : a.Grows b) (h' : b.Grows c) : a.Grows c where
  keys k hk := h'.keys k (h.keys k hk)
  covered i hi := h'.covered i (h.covered i hi)
  faults hc := h.faults (h'.faults hc)

theorem grows_retain (c : RetainedCoverage) (key : String) : c.Grows (c.retain key) where
  keys k hk := by simp [retain, hk]
  covered _ hi := hi
  faults h := h

theorem fault_faults_ne_nil (c : RetainedCoverage) (code detail : String) :
    (c.fault code detail).faults ≠ [] := by
  simp [fault]

theorem grows_fault (c : RetainedCoverage) (code detail : String) :
    c.Grows (c.fault code detail) where
  keys _ hk := hk
  covered _ hi := hi
  faults h := absurd h (fault_faults_ne_nil c code detail)

/-- A fold of steps that grow grows. -/
theorem grows_foldl {α : Type} {step : RetainedCoverage → α → RetainedCoverage}
    (hstp : ∀ (c : RetainedCoverage) a, c.Grows (step c a)) (c : RetainedCoverage) (as : List α) :
    c.Grows (as.foldl step c) :=
  run_rel Grows.refl Grows.trans hstp c as

/-- What a step proves, unless it raises a fault, is proved at the end of a fold without faults. -/
theorem of_foldl {α : Type} {step : RetainedCoverage → α → RetainedCoverage}
    {P : RetainedCoverage → Prop} {a : α} {as : List α}
    (hstp : ∀ (c : RetainedCoverage) a, c.Grows (step c a))
    (hmono : ∀ {c c' : RetainedCoverage}, c.Grows c' → P c → P c')
    (hact : ∀ c, (step c a).faults = [] → P (step c a)) (ha : a ∈ as) (c : RetainedCoverage)
    (h : (as.foldl step c).faults = []) : P (as.foldl step c) := by
  refine run_reaches (P := fun c => c.faults = [] → P c) ?_ hact c ha h
  intro c b hc hflts
  exact hmono (hstp c b) (hc ((hstp c b).faults hflts))

end RetainedCoverage

open RetainedCoverage

variable {sha256Hex : Bytes → String} {decode : Bytes → Option Json} {get : String → Option Bytes}
  {localeCompare : String → String → Ordering}

section

variable {inventory : List SweptObject}

theorem verifyChunk_grows (c : RetainedCoverage) (chunk : ImageChunk) :
    c.Grows (verifyChunk inventory c chunk) := by
  rw [verifyChunk]
  split
  · exact grows_retain c _
  · exact grows_fault c _ _

theorem verifyManifest_grows (c : RetainedCoverage) (manifestSha256 : String) :
    c.Grows (verifyManifest sha256Hex decode get inventory c manifestSha256) := by
  rw [verifyManifest]
  split
  · exact grows_fault c _ _
  split
  · exact grows_fault c _ _
  split
  · exact grows_fault c _ _
  refine Grows.trans ?_ (grows_foldl verifyChunk_grows _ _)
  refine ⟨(grows_retain c _).keys, fun i hi => ?_, fun h => h⟩
  simp [hi]

theorem verifyRoot_grows (c : RetainedCoverage) (root : ImageRoot) :
    c.Grows (verifyRoot inventory c root) := by
  rw [verifyRoot]
  split
  · exact grows_retain c _
  split
  · exact Grows.refl c
  · exact grows_fault c _ _

theorem retainByDigest_grows {ids : List String} (c : RetainedCoverage) (object : SweptObject) :
    c.Grows (retainByDigest ids c object) := by
  rw [retainByDigest]
  split
  · exact ⟨(grows_retain c _).keys, fun _ hi => hi, fun h => h⟩
  · exact Grows.refl c

theorem verifyBootArtifact_grows (c : RetainedCoverage) (sha256 : String) :
    c.Grows (verifyBootArtifact inventory c sha256) := by
  rw [verifyBootArtifact]
  split
  · exact grows_retain c _
  · exact grows_fault c _ _

end

/-! ## A coverage without faults -/

/-- The bucket holds, under the key of the digest, a body with that digest that validates. -/
structure ReadsManifest (sha256Hex : Bytes → String) (decode : Bytes → Option Json)
    (get : String → Option Bytes) (manifestSha256 : String) (manifest : ImageChunkManifest) :
    Prop where
  exists_body : ∃ bytes, get (imageManifestObjectKey manifestSha256) = some bytes ∧
    sha256Hex bytes = manifestSha256 ∧ readRetainedManifest sha256Hex decode bytes = .ok manifest

/-- Everything the projection retains is present and, where it has a body to check, checked. -/
structure Verified (sha256Hex : Bytes → String) (decode : Bytes → Option Json)
    (get : String → Option Bytes) (inventory : List SweptObject) (p : Projection) : Prop where
  manifests : ∀ m ∈ p.chunkManifestSha256s, ∃ manifest,
    ReadsManifest sha256Hex decode get m manifest ∧ ∀ chunk ∈ manifest.chunks,
      has SweptObject.key (imageChunkObjectKey chunk.rawSha256) inventory = true
  roots : ∀ root ∈ p.roots,
    has SweptObject.key (legacyImageKeyOf root) inventory = true ∨
      ∃ m ∈ p.chunkManifestSha256s, ∃ manifest,
        ReadsManifest sha256Hex decode get m manifest ∧ manifest.imageId = root.imageId
  bootArtifacts : ∀ b ∈ p.bootArtifactSha256s,
    has SweptObject.key (bootArtifactObjectKey b) inventory = true

section

variable {inventory : List SweptObject}

theorem verifyChunk_proves (c : RetainedCoverage) (chunk : ImageChunk)
    (h : (verifyChunk inventory c chunk).faults = []) :
    has SweptObject.key (imageChunkObjectKey chunk.rawSha256) inventory = true ∧
      imageChunkObjectKey chunk.rawSha256 ∈ (verifyChunk inventory c chunk).retainedKeys := by
  rw [verifyChunk] at h ⊢
  split at h
  · rename_i hhas
    exact ⟨hhas, by simp [hhas, retain]⟩
  · exact absurd h (fault_faults_ne_nil c _ _)

/-- What a verified manifest leaves in the coverage. -/
structure ProvesManifest (inventory : List SweptObject) (m : String) (manifest : ImageChunkManifest)
    (c : RetainedCoverage) : Prop where
  key : imageManifestObjectKey m ∈ c.retainedKeys
  chunks : ∀ chunk ∈ manifest.chunks,
    has SweptObject.key (imageChunkObjectKey chunk.rawSha256) inventory = true ∧
      imageChunkObjectKey chunk.rawSha256 ∈ c.retainedKeys

theorem ProvesManifest.mono {m : String} {manifest : ImageChunkManifest} {c c' : RetainedCoverage}
    (hgrw : c.Grows c') (h : ProvesManifest inventory m manifest c) :
    ProvesManifest inventory m manifest c' where
  key := hgrw.keys _ h.key
  chunks chunk hchunk := ⟨(h.chunks chunk hchunk).1, hgrw.keys _ (h.chunks chunk hchunk).2⟩

theorem verifyManifest_proves (c : RetainedCoverage) (m : String)
    (h : (verifyManifest sha256Hex decode get inventory c m).faults = []) :
    ∃ manifest, ReadsManifest sha256Hex decode get m manifest ∧
      ProvesManifest inventory m manifest (verifyManifest sha256Hex decode get inventory c m) := by
  rw [verifyManifest] at h ⊢
  split at h
  · exact absurd h (fault_faults_ne_nil c _ _)
  rename_i bytes hget
  split at h
  · exact absurd h (fault_faults_ne_nil c _ _)
  rename_i hsha
  split at h
  · exact absurd h (fault_faults_ne_nil c _ _)
  rename_i manifest hread
  simp only [hsha, if_false]
  refine ⟨manifest, ⟨bytes, hget, not_not.mp hsha, hread⟩, ?_, fun chunk hchunk => ?_⟩
  · exact (grows_foldl verifyChunk_grows _ _).keys _ (by simp [retain])
  exact of_foldl (P := fun c => has SweptObject.key (imageChunkObjectKey chunk.rawSha256)
      inventory = true ∧ imageChunkObjectKey chunk.rawSha256 ∈ c.retainedKeys) verifyChunk_grows
    (fun hg hp => ⟨hp.1, hg.keys _ hp.2⟩) (fun c => verifyChunk_proves c chunk) hchunk _ h

theorem verifyRoot_proves (c : RetainedCoverage) (root : ImageRoot)
    (h : (verifyRoot inventory c root).faults = []) :
    (has SweptObject.key (legacyImageKeyOf root) inventory = true ∧
      legacyImageKeyOf root ∈ (verifyRoot inventory c root).retainedKeys) ∨
    (has SweptObject.key (legacyImageKeyOf root) inventory = false ∧
      root.imageId ∈ (verifyRoot inventory c root).manifestCoveredImageIds) := by
  rw [verifyRoot] at h ⊢
  split at h
  · rename_i hhas
    exact .inl ⟨hhas, by simp [hhas, retain]⟩
  rename_i hhas
  split at h
  · rename_i hcovd
    exact .inr ⟨by simpa using hhas, by simp [hhas, hcovd]⟩
  · exact absurd h (fault_faults_ne_nil c _ _)

theorem retainByDigest_proves {ids : List String} (c : RetainedCoverage) {object : SweptObject}
    (hkind : object.kind = .legacyImage) (hid : object.sha256 ∈ ids) :
    object.key ∈ (retainByDigest ids c object).retainedKeys := by
  rw [retainByDigest]
  split
  · simp [retain]
  rename_i hcd
  by_contra hkey
  exact hcd ⟨hkind, hkey, hid⟩

theorem verifyBootArtifact_proves (c : RetainedCoverage) (sha256 : String)
    (h : (verifyBootArtifact inventory c sha256).faults = []) :
    has SweptObject.key (bootArtifactObjectKey sha256) inventory = true ∧
      bootArtifactObjectKey sha256 ∈ (verifyBootArtifact inventory c sha256).retainedKeys := by
  rw [verifyBootArtifact] at h ⊢
  split at h
  · rename_i hhas
    exact ⟨hhas, by simp [hhas, retain]⟩
  · exact absurd h (fault_faults_ne_nil c _ _)

/-- Every covered image is the image of a retained manifest that was read. -/
def CoveredByManifests (sha256Hex : Bytes → String) (decode : Bytes → Option Json)
    (get : String → Option Bytes) (ms : List String) (c : RetainedCoverage) : Prop :=
  ∀ i ∈ c.manifestCoveredImageIds, ∃ m ∈ ms, ∃ manifest,
    ReadsManifest sha256Hex decode get m manifest ∧ manifest.imageId = i

theorem foldl_verifyChunk_covered (c : RetainedCoverage) (chunks : List ImageChunk) :
    (chunks.foldl (verifyChunk inventory) c).manifestCoveredImageIds
      = c.manifestCoveredImageIds := by
  refine run_invariant
    (P := fun c' : RetainedCoverage =>
      c'.manifestCoveredImageIds = c.manifestCoveredImageIds) ?_ rfl chunks
  intro _ _ hc'
  rw [verifyChunk]
  split
  · exact hc'
  · exact hc'

theorem verifyManifest_covered {ms : List String} (c : RetainedCoverage) {m : String} (hm : m ∈ ms)
    (h : CoveredByManifests sha256Hex decode get ms c) :
    CoveredByManifests sha256Hex decode get ms
      (verifyManifest sha256Hex decode get inventory c m) := by
  rw [verifyManifest]
  split
  · exact h
  rename_i bytes hget
  split
  · exact h
  rename_i hsha
  split
  · exact h
  rename_i manifest hread
  intro i hi
  rw [foldl_verifyChunk_covered, mem_add] at hi
  rcases hi with rfl | hi
  · exact ⟨m, hm, manifest, ⟨bytes, hget, not_not.mp hsha, hread⟩, rfl⟩
  · exact h i hi

theorem verifyRoot_covered (c : RetainedCoverage) (root : ImageRoot) :
    (verifyRoot inventory c root).manifestCoveredImageIds = c.manifestCoveredImageIds := by
  rw [verifyRoot]
  split
  · rfl
  split
  · rfl
  · rfl

variable {p : Projection}

/-- The four passes of the verification, by name. -/
theorem verifyRetainedObjects_eq :
    verifyRetainedObjects sha256Hex decode get p inventory =
      p.bootArtifactSha256s.foldl (verifyBootArtifact inventory)
        (inventory.foldl (retainByDigest p.imageIds)
          (p.roots.foldl (verifyRoot inventory)
            (p.chunkManifestSha256s.foldl (verifyManifest sha256Hex decode get inventory)
              .empty))) := rfl

/-- What a coverage without faults has verified and retained. -/
structure Covers (sha256Hex : Bytes → String) (decode : Bytes → Option Json)
    (get : String → Option Bytes) (inventory : List SweptObject) (p : Projection)
    (c : RetainedCoverage) : Prop where
  manifests : ∀ m ∈ p.chunkManifestSha256s, ∃ manifest,
    ReadsManifest sha256Hex decode get m manifest ∧ ProvesManifest inventory m manifest c
  roots : ∀ root ∈ p.roots,
    (has SweptObject.key (legacyImageKeyOf root) inventory = true ∧
      legacyImageKeyOf root ∈ c.retainedKeys) ∨
    (has SweptObject.key (legacyImageKeyOf root) inventory = false ∧
      ∃ m ∈ p.chunkManifestSha256s, ∃ manifest,
        ReadsManifest sha256Hex decode get m manifest ∧ manifest.imageId = root.imageId)
  digests : ∀ o ∈ inventory, o.kind = .legacyImage → o.sha256 ∈ p.imageIds → o.key ∈ c.retainedKeys
  bootArtifacts : ∀ b ∈ p.bootArtifactSha256s,
    has SweptObject.key (bootArtifactObjectKey b) inventory = true ∧
      bootArtifactObjectKey b ∈ c.retainedKeys

theorem Covers.verified {c : RetainedCoverage} (h : Covers sha256Hex decode get inventory p c) :
    Verified sha256Hex decode get inventory p where
  manifests m hm := by
    obtain ⟨manifest, hrds, hprvs⟩ := h.manifests m hm
    exact ⟨manifest, hrds, fun chunk hchunk => (hprvs.chunks chunk hchunk).1⟩
  roots root hroot := (h.roots root hroot).imp And.left And.right
  bootArtifacts b hb := (h.bootArtifacts b hb).1

/-- **A coverage without faults has verified everything.**  Each pass proves its own objects, and
what it proves survives the passes after it. -/
theorem verifyRetainedObjects_covers
    (h : (verifyRetainedObjects sha256Hex decode get p inventory).faults = []) :
    Covers sha256Hex decode get inventory p
      (verifyRetainedObjects sha256Hex decode get p inventory) := by
  rw [verifyRetainedObjects_eq] at h ⊢
  set c₁ := p.chunkManifestSha256s.foldl (verifyManifest sha256Hex decode get inventory) .empty
  set c₂ := p.roots.foldl (verifyRoot inventory) c₁
  set c₃ := inventory.foldl (retainByDigest p.imageIds) c₂
  set c₄ := p.bootArtifactSha256s.foldl (verifyBootArtifact inventory) c₃
  have h₃₄ : c₃.Grows c₄ := grows_foldl verifyBootArtifact_grows _ _
  have h₂₄ : c₂.Grows c₄ := (grows_foldl retainByDigest_grows _ _).trans h₃₄
  have h₁₄ : c₁.Grows c₄ := (grows_foldl verifyRoot_grows _ _).trans h₂₄
  have hcovd : CoveredByManifests sha256Hex decode get p.chunkManifestSha256s c₂ := by
    have hfold : c₂.manifestCoveredImageIds = c₁.manifestCoveredImageIds :=
      run_invariant
        (P := fun c : RetainedCoverage => c.manifestCoveredImageIds = c₁.manifestCoveredImageIds)
        (fun c root hc => (verifyRoot_covered c root).trans hc) rfl p.roots
    have hms : CoveredByManifests sha256Hex decode get p.chunkManifestSha256s c₁ :=
      run_invariant_of_mem (fun c m hm hc => verifyManifest_covered c hm hc)
        nofun
    intro i hi
    exact hms i (hfold ▸ hi)
  refine ⟨fun m hm => ?_, fun root hroot => ?_, fun o ho hkind hid => ?_, fun b hb => ?_⟩
  · obtain ⟨manifest, hrds, hprvs⟩ := of_foldl
      (P := fun c => ∃ manifest, ReadsManifest sha256Hex decode get m manifest ∧
        ProvesManifest inventory m manifest c)
      verifyManifest_grows (fun hg ⟨manifest, hr, hp⟩ => ⟨manifest, hr, hp.mono hg⟩)
      (fun c => verifyManifest_proves c m) hm .empty (h₁₄.faults h)
    exact ⟨manifest, hrds, hprvs.mono h₁₄⟩
  · have hroots := of_foldl
      (P := fun c => (has SweptObject.key (legacyImageKeyOf root) inventory = true ∧
          legacyImageKeyOf root ∈ c.retainedKeys) ∨
        (has SweptObject.key (legacyImageKeyOf root) inventory = false ∧
          root.imageId ∈ c.manifestCoveredImageIds))
      verifyRoot_grows
      (fun hg hp => hp.imp (fun hk => ⟨hk.1, hg.keys _ hk.2⟩) fun hi => ⟨hi.1, hg.covered _ hi.2⟩)
      (fun c => verifyRoot_proves c root) hroot c₁ (h₂₄.faults h)
    exact hroots.imp (fun hk => ⟨hk.1, h₂₄.keys _ hk.2⟩) fun hi => ⟨hi.1, hcovd _ hi.2⟩
  · refine h₃₄.keys _ (of_foldl (P := fun c => o.key ∈ c.retainedKeys) retainByDigest_grows
      (fun hg hp => hg.keys _ hp) (fun c _ => retainByDigest_proves c hkind hid) ho c₂
      (h₃₄.faults h))
  · exact of_foldl (P := fun c => has SweptObject.key (bootArtifactObjectKey b) inventory = true
        ∧ bootArtifactObjectKey b ∈ c.retainedKeys)
      verifyBootArtifact_grows (fun hg hp => ⟨hp.1, hg.keys _ hp.2⟩)
      (fun c => verifyBootArtifact_proves c b) hb c₃ h

end

/-! ## The closure of a projection -/

/-- The key of a legacy image the projection retains: of a root, or of a retained image id under any
image key. -/
inductive RetainedImage (p : Projection) : String → Prop where
  | root {root : ImageRoot} (h : root ∈ p.roots) : RetainedImage p (legacyImageKeyOf root)
  | imageId {imageId : String} (imageKey : String) (h : imageId ∈ p.imageIds)
      (hslash : '/' ∉ imageId.toList) : RetainedImage p (imageFileKey imageKey imageId)

/-- The objects a delete must not touch.  A chunk is named by a manifest through *any* body that has
the digest of the manifest and validates. -/
inductive InClosure (sha256Hex : Bytes → String) (decode : Bytes → Option Json)
    (inventory : List SweptObject) (p : Projection) : String → Prop where
  | manifest {m : String} (h : m ∈ p.chunkManifestSha256s) :
      InClosure sha256Hex decode inventory p (imageManifestObjectKey m)
  | chunk {m : String} {bytes : Bytes} {manifest : ImageChunkManifest} {chunk : ImageChunk}
      (h : m ∈ p.chunkManifestSha256s) (hsha : sha256Hex bytes = m)
      (hread : readRetainedManifest sha256Hex decode bytes = .ok manifest)
      (hchunk : chunk ∈ manifest.chunks) :
      InClosure sha256Hex decode inventory p (imageChunkObjectKey chunk.rawSha256)
  | image {key : String} (h : RetainedImage p key) : InClosure sha256Hex decode inventory p key
  | sidecar {key : String} (h : RetainedImage p key)
      (hlisted : has SweptObject.key key inventory = true) :
      InClosure sha256Hex decode inventory p (key ++ sidecarSuffix)
  | bootArtifact {sha256 : String} (h : sha256 ∈ p.bootArtifactSha256s) :
      InClosure sha256Hex decode inventory p (bootArtifactObjectKey sha256)

/-- No other body has the digest of a retained manifest. -/
def CollisionFree (sha256Hex : Bytes → String) (p : Projection) : Prop :=
  ∀ m ∈ p.chunkManifestSha256s, ∀ a b, sha256Hex a = m → sha256Hex b = m → a = b

theorem endsWith_append (a b : String) : Js.endsWith (a ++ b) b = true := by
  simp [Js.endsWith, String.toList_append, isSuffixOf_iff_suffix]

theorem endsWith_imageFileKey (imageKey imageId : String) :
    Js.endsWith (imageFileKey imageKey imageId) legacySuffix = true := by
  rw [imageFileKey, ← String.append_assoc, ← String.append_assoc]
  exact endsWith_append _ _

theorem RetainedImage.endsWith {p : Projection} (h : RetainedImage p key) :
    Js.endsWith key legacySuffix = true := by
  cases h with
  | root | imageId => exact endsWith_imageFileKey _ _

theorem mem_withSidecars (h : key ∈ keys) : key ∈ withSidecars keys := by
  simp [withSidecars, h]

theorem sidecar_mem_withSidecars (h : key ∈ keys) (hend : Js.endsWith key legacySuffix = true) :
    key ++ sidecarSuffix ∈ withSidecars keys := by
  rw [withSidecars, mem_addAll]
  exact .inr (mem_map_of_mem (mem_filter.mpr ⟨h, hend⟩))

section

variable {inventory : List SweptObject} {p : Projection} {c : RetainedCoverage}

/-- A listed legacy image that is retained is in the coverage. -/
theorem Covers.mem_of_retainedImage (h : Covers sha256Hex decode get inventory p c)
    (hpars : Parsed inventory) {key : String} (himg : RetainedImage p key)
    (hlisted : has SweptObject.key key inventory = true) : key ∈ c.retainedKeys := by
  cases himg with
  | root hroot =>
    rcases h.roots _ hroot with ⟨-, hkey⟩ | ⟨habsent, -⟩
    · exact hkey
    rw [hlisted] at habsent
    cases habsent
  | imageId _ hid hslash =>
    obtain ⟨o, ho, hokey⟩ := has_iff.mp hlisted
    have hparse := hpars o ho
    rw [hokey] at hparse
    obtain ⟨hkind, hsha⟩ := parseSweptObjectKey_imageFileKey hslash hparse
    rw [← hokey]
    exact h.digests o ho hkind (hsha ▸ hid)

/-- Whatever of the closure is listed is retained. -/
theorem Covers.mem_withSidecars_of_inClosure (h : Covers sha256Hex decode get inventory p c)
    (hpars : Parsed inventory) (hsha : CollisionFree sha256Hex p) {key : String}
    (hkey : InClosure sha256Hex decode inventory p key)
    (hlisted : has SweptObject.key key inventory = true) :
    key ∈ withSidecars c.retainedKeys := by
  cases hkey with
  | manifest hm =>
    obtain ⟨_, -, hprvs⟩ := h.manifests _ hm
    exact mem_withSidecars hprvs.key
  | chunk hm hdig hread hchunk =>
    obtain ⟨_, ⟨_, -, hdig', hread'⟩, hprvs⟩ := h.manifests _ hm
    -- the body that was read is the one that names the chunk
    rw [hsha _ hm _ _ hdig hdig', hread', Except.ok.injEq] at hread
    exact mem_withSidecars (hprvs.chunks _ (hread ▸ hchunk)).2
  | image himg => exact mem_withSidecars (h.mem_of_retainedImage hpars himg hlisted)
  | sidecar himg himageListed =>
    exact sidecar_mem_withSidecars (h.mem_of_retainedImage hpars himg himageListed) himg.endsWith
  | bootArtifact hb => exact mem_withSidecars (h.bootArtifacts _ hb).2

end

/-! ## The plan -/

/-- The inventory a plan is built from. -/
def CleanupEnv.inventory (env : CleanupEnv) : List SweptObject :=
  ((scanBucket env.pages).map BucketScan.objects).getD []

section

variable {env : CleanupEnv} {mode : CleanupMode} {nowMs : Int} {limit : Nat} {built : BuiltPlan}

/-- What a built plan consists of. -/
theorem buildPlan_eq_some
    (h : buildPlan sha256Hex decode localeCompare env mode nowMs limit = some built) :
    ∃ scan, scanBucket env.pages = some scan ∧ env.inventory = scan.objects ∧
      built.plan = planOfScan sha256Hex decode localeCompare env mode nowMs limit scan := by
  rw [buildPlan, Option.map_eq_some_iff] at h
  obtain ⟨scan, hscan, rfl⟩ := h
  exact ⟨scan, hscan, by simp [CleanupEnv.inventory, hscan], rfl⟩

/-- The worklist is listed, and nothing retained is on it. -/
theorem mem_candidates {inventory : List SweptObject} {retainedKeys : List String}
    {object : PlanObject} (h : object ∈ (selectCandidates sha256Hex localeCompare inventory
      retainedKeys limit).candidates) :
    has SweptObject.key object.key inventory = true ∧ object.key ∉ withSidecars retainedKeys := by
  obtain ⟨o, ho, rfl⟩ := mem_map.mp h
  obtain ⟨hmem, hnot⟩ := mem_filter.mp (mem_of_mem_take ho)
  rw [mem_insertionSort] at hmem
  exact ⟨has_iff.mpr ⟨o, hmem, rfl⟩, of_decide_eq_true hnot⟩

/-- A plan without faults has read a projection and verified all it retains, and it selects nothing of
the closure. -/
theorem buildPlan_safe (h : buildPlan sha256Hex decode localeCompare env mode nowMs limit
      = some built) (hflts : built.plan.details.faults = []) :
    ∃ p, env.projection = .ok p ∧
      Verified sha256Hex decode env.get env.inventory p ∧
      (CollisionFree sha256Hex p → ∀ object ∈ built.plan.candidateObjects,
        ¬ InClosure sha256Hex decode env.inventory p object.key) := by
  obtain ⟨scan, hscan, hinventory, hpl⟩ := buildPlan_eq_some h
  rw [hpl] at hflts ⊢
  rw [hinventory]
  have hsp := append_eq_nil_iff.mp hflts
  cases hproj : env.projection with
  | error =>
    have hno := hsp.1
    rw [environmentFaults, hproj] at hno
    exact absurd (append_eq_nil_iff.mp hno).2 (cons_ne_nil _ _)
  | ok p =>
    have hcovers : Covers sha256Hex decode env.get scan.objects p
        (coverageOf sha256Hex decode env scan) := by
      have hno := hsp.2
      rw [coverageOf, hproj] at hno ⊢
      exact verifyRetainedObjects_covers hno
    refine ⟨p, rfl, hcovers.verified, fun hsha object hobj hclo => ?_⟩
    have hmem : object ∈ (selectCandidates sha256Hex localeCompare scan.objects
        (coverageOf sha256Hex decode env scan).retainedKeys limit).candidates := hobj
    obtain ⟨hlisted, hnot⟩ := mem_candidates hmem
    exact hnot (hcovers.mem_withSidecars_of_inClosure (scanBucket_parsed hscan) hsha hclo hlisted)

end

/-! ## The run -/

@[simp] def Effect.deletes : Effect → List String
  | .deleteObjects keys => keys
  | _ => []

/-- The keys a run asked the bucket to delete. -/
def deletes (effects : List Effect) : List String := effects.flatMap Effect.deletes

@[simp] theorem deletes_nil : deletes [] = [] := rfl

@[simp] theorem deletes_cons (effect : Effect) (effects : List Effect) :
    deletes (effect :: effects) = effect.deletes ++ deletes effects := rfl

@[simp] theorem deletes_append (a b : List Effect) : deletes (a ++ b) = deletes a ++ deletes b :=
  flatMap_append

namespace DeletePass

variable (pass : DeletePass)

@[simp] theorem log_effects (effect : Effect) :
    (pass.log effect).effects = pass.effects ++ [effect] := rfl

@[simp] theorem block_effects (n : Nat) (error : String) :
    (pass.block n error).effects = pass.effects := rfl

@[simp] theorem fail_effects (claimed : List PlanObject) (error : Thrown) :
    (pass.fail claimed error).effects = pass.effects := rfl

@[simp] theorem deletes_record (plan : CleanupPlan)
    (detail : Option ProgressDetail) (answer : Except Thrown Unit) (ending : TurnEnd) :
    deletes (pass.record plan detail answer ending).1.effects = deletes pass.effects := by
  simp [record]

@[simp] theorem foldl_claim_effects (claimed : List PlanObject) :
    (claimed.foldl claim pass).effects = pass.effects := by
  refine run_invariant (P := fun pass' : DeletePass => pass'.effects = pass.effects) ?_ rfl claimed
  intro _ _ h
  exact h

end DeletePass

/-- A turn deletes nothing but keys of its batch. -/
theorem deletes_deleteBatch {answers : BatchAnswers}
    (h : key ∈ deletes (deleteBatch plan count answers batch pass).1.effects) :
    key ∈ deletes pass.effects ∨ key ∈ batch.map PlanObject.key := by
  have hclaimed : ∀ deletable : List String,
      key ∈ (batch.filter fun o => o.key ∈ deletable).map PlanObject.key →
        key ∈ batch.map PlanObject.key := by
    intro _ hkey
    obtain ⟨o, ho, rfl⟩ := mem_map.mp hkey
    exact mem_map_of_mem (mem_filter.mp ho).1
  rw [deleteBatch] at h
  split at h
  · exact .inl (by simpa using h)
  · exact .inl (by simpa using h)
  · exact .inl (by simpa using h)
  split at h
  · exact .inl (by simpa using h)
  · exact .inl (by simpa using h)
  · rename_i deletable _
    rw [deleteClaimed] at h
    split at h
    · exact .inl (by simpa using h)
    split at h
    · simp only [DeletePass.deletes_record, DeletePass.foldl_claim_effects, DeletePass.log_effects,
        deletes_append, deletes_cons, Effect.deletes, deletes_nil, append_nil,
        mem_append] at h
      exact h.imp_right (hclaimed deletable)
    · simp only [DeletePass.deletes_record, DeletePass.fail_effects, DeletePass.log_effects,
        deletes_append, deletes_cons, Effect.deletes, deletes_nil, append_nil,
        mem_append] at h
      exact h.imp_right (hclaimed deletable)
  · exact .inl (by simpa using h)

/-- The loop deletes nothing but keys of its batches. -/
theorem deletes_deleteBatches {answers : Nat → BatchAnswers} {batches : List (List PlanObject)}
    {i : Nat} (h : key ∈ deletes (deleteBatches plan count answers i batches pass).1.effects) :
    key ∈ deletes pass.effects ∨ ∃ batch ∈ batches, key ∈ batch.map PlanObject.key := by
  induction batches generalizing i pass with
  | nil => exact .inl h
  | cons batch batches ih =>
    have hturn : ∀ pass' ending, deleteBatch plan count (answers i) batch pass = (pass', ending) →
        key ∈ deletes pass'.effects →
        key ∈ deletes pass.effects ∨ ∃ b ∈ batch :: batches, key ∈ b.map PlanObject.key := by
      intro _ _ heq hkey
      have hdel : key ∈ deletes (deleteBatch plan count (answers i) batch pass).1.effects := by
        rw [heq]
        exact hkey
      refine (deletes_deleteBatch hdel).imp_right fun hb => ?_
      exact ⟨batch, mem_cons_self, hb⟩
    rw [deleteBatches] at h
    split at h
    · rename_i pass' heq
      rcases ih h with h | ⟨b, hb, hkey⟩
      · exact hturn pass' _ heq h
      · exact .inr ⟨b, mem_cons_of_mem _ hb, hkey⟩
    · rename_i pass' heq
      exact hturn pass' _ heq h
    · rename_i pass' e heq
      exact hturn pass' _ heq h

/-- The selection is made of candidates. -/
theorem mem_of_mem_batches {candidates : List PlanObject} {batchSize maxDeletes : Nat}
    {capped faultsPresent : Bool} {batch : List PlanObject} {object : PlanObject}
    (hbat : batch ∈ (planCleanupDeleteSelection candidates batchSize maxDeletes capped
      faultsPresent).batches) (hobj : object ∈ batch) : object ∈ candidates := by
  obtain ⟨i, -, rfl⟩ := mem_map.mp (mem_of_mem_take hbat)
  exact (mem_insertionSort _).mp (mem_of_mem_drop (mem_of_mem_take hobj))

/-- The delete pass of a plan deletes nothing but its worklist. -/
theorem deletes_applyDeletes {options : RunOptions} {answers : RunAnswers} {built : BuiltPlan}
    (h : key ∈ deletes (applyDeletes sha256Hex options answers built).1) :
    key ∈ built.plan.candidateObjects.map PlanObject.key := by
  have hloop : ∀ {count start pass thrown}, deleteBatches built.plan count answers.batch 0
      (planCleanupDeleteSelection built.plan.candidateObjects options.batchSize options.maxDeletes
        built.plan.details.candidateSampleCapped
        (!built.plan.details.deleteAllowedByReferences)).batches ⟨start, 0, [], []⟩
        = (pass, thrown) →
      key ∈ deletes pass.effects → key ∈ built.plan.candidateObjects.map PlanObject.key := by
    intro count start pass _ heq hkey
    have hpass : pass = (deleteBatches built.plan count answers.batch 0 _ ⟨start, 0, [], []⟩).1 :=
      (congrArg Prod.fst heq).symm
    rw [hpass] at hkey
    rcases deletes_deleteBatches hkey with hkey | ⟨_, hbat, hkey⟩
    · cases hkey
    obtain ⟨_, hobj, rfl⟩ := mem_map.mp hkey
    exact mem_map_of_mem (mem_of_mem_batches hbat hobj)
  rw [applyDeletes] at h
  split at h
  · rename_i heq
    exact hloop heq h
  rename_i heq
  refine hloop heq ?_
  split at h
  · exact h
  split at h
  · exact h
  · exact h

section

variable {options : RunOptions} {mode : CleanupMode} {nowMs : Int} {answers : RunAnswers}
  {built : BuiltPlan} {key : String}

theorem deletes_deleteAndFinish {phases : List (String × Nat)}
    (h : key ∈ deletes (deleteAndFinish sha256Hex options answers built phases).1) :
    key ∈ deletes (applyDeletes sha256Hex options answers built).1 := by
  rw [deleteAndFinish] at h
  split at h
  · rename_i heq
    rw [heq]
    exact h
  · rename_i heq
    rw [heq]
    exact h
  · rename_i heq
    rw [heq]
    simpa using h

/-- A plan with a fault is not executed. -/
theorem deletes_sweepWithPlan
    (h : key ∈ deletes (sweepWithPlan sha256Hex options answers built).1) :
    built.plan.details.deleteAllowedByReferences = true ∧
      key ∈ built.plan.candidateObjects.map PlanObject.key := by
  rw [sweepWithPlan] at h
  split at h
  · rename_i hall
    refine ⟨hall, ?_⟩
    split at h
    · exact deletes_applyDeletes (deletes_deleteAndFinish h)
    split at h
    · simp at h
    · exact deletes_applyDeletes (deletes_deleteAndFinish (by simpa using h))
  · simp at h

theorem faults_eq_nil_of_allowed {env : CleanupEnv} {limit : Nat}
    (h : buildPlan sha256Hex decode localeCompare env mode nowMs limit = some built)
    (hall : built.plan.details.deleteAllowedByReferences = true) :
    built.plan.details.faults = [] := by
  obtain ⟨_, -, -, hpl⟩ := buildPlan_eq_some h
  rw [hpl] at hall ⊢
  exact isEmpty_iff.mp hall

/-- Whatever a run deletes is on the worklist of a plan without faults. -/
theorem mem_worklist_of_deletes
    (h : key ∈ deletes (run sha256Hex decode localeCompare options mode nowMs answers).1) :
    ∃ env built, answers.plan = .ok env ∧
      buildPlan sha256Hex decode localeCompare env .delete nowMs options.candidateListLimit
        = some built ∧
      built.plan.details.faults = [] ∧ key ∈ built.plan.candidateObjects.map PlanObject.key := by
  obtain ⟨allowed, reason, h⟩ : ∃ allowed reason, key ∈ deletes (sweepUnderLease sha256Hex decode
      localeCompare options nowMs answers allowed reason).1 := by
    cases mode with
    | reportOnly =>
      rw [run, runReportOnly] at h
      split at h
      · simp at h
      split at h
      · simp at h
      · simp at h
    | delete =>
      rw [run, runDelete] at h
      split at h
      · simp at h
      · simp at h
      rename_i allowed reason _
      refine ⟨allowed, reason, ?_⟩
      split at h
      · rename_i heq
        rw [heq]
        simpa using h
      · rename_i heq
        rw [heq]
        simpa using h
      · rename_i heq
        rw [heq]
        simpa using h
  rw [sweepUnderLease] at h
  split at h
  · simp at h
  · simp at h
  split at h
  · split at h
    · simp at h
    rename_i env henv
    split at h
    · simp at h
    rename_i built hblt
    obtain ⟨hall, hkey⟩ := deletes_sweepWithPlan h
    exact ⟨env, built, henv, hblt, faults_eq_nil_of_allowed hblt hall, hkey⟩
  · simp at h

end

/-- **Cleanup deletes nothing it must keep.**  A plan without faults has verified every object its
projection retains and selects none of the closure; and whatever a run deletes, its plan verified
every retained object and the deleted key is outside the closure.  So a run deletes nothing at all
where a retained manifest is missing, unreadable, mismatched or invalid, a chunk it names or a boot
artifact is not listed, or a root has neither its legacy object nor a verified manifest. -/
theorem cleanup_spares_closure (sha256Hex : Bytes → String) (decode : Bytes → Option Json)
    (localeCompare : String → String → Ordering) :
    (∀ (env : CleanupEnv) (mode : CleanupMode) (nowMs : Int) (limit : Nat) (built : BuiltPlan),
      buildPlan sha256Hex decode localeCompare env mode nowMs limit = some built →
      built.plan.details.faults = [] →
      ∃ p, env.projection = .ok p ∧ Verified sha256Hex decode env.get env.inventory p ∧
        (CollisionFree sha256Hex p → ∀ object ∈ built.plan.candidateObjects,
          ¬ InClosure sha256Hex decode env.inventory p object.key)) ∧
    ∀ (options : RunOptions) (mode : CleanupMode) (nowMs : Int) (answers : RunAnswers),
      ∀ key ∈ deletes (run sha256Hex decode localeCompare options mode nowMs answers).1,
        ∃ env p, answers.plan = .ok env ∧ env.projection = .ok p ∧
          Verified sha256Hex decode env.get env.inventory p ∧
          (CollisionFree sha256Hex p → ¬ InClosure sha256Hex decode env.inventory p key) := by
  refine ⟨fun env mode nowMs limit built h hflts => buildPlan_safe h hflts, ?_⟩
  intro _ _ _ _ _ hkey
  obtain ⟨env, _, henv, hblt, hflts, hmem⟩ := mem_worklist_of_deletes hkey
  obtain ⟨p, hp, hvf, hnot⟩ := buildPlan_safe hblt hflts
  obtain ⟨object, hobj, rfl⟩ := mem_map.mp hmem
  exact ⟨env, p, henv, hp, hvf, fun hsha => hnot hsha object hobj⟩

/-! ## A small bucket

One body, `[1]`, decodes to a manifest of an image of one zero byte, so without chunks; the image is
rooted. -/

def digestOf (c : Char) : String := String.ofList (List.replicate 64 c)

/-- A digest that tells the manifest body from everything else. -/
def toySha256 (bytes : Bytes) : String := if bytes = [1] then digestOf 'a' else digestOf 'b'

def toyDecode (bytes : Bytes) : Option Json :=
  if bytes = [1] then
    some (.obj [("schema_version", .num 1), ("image_id", .str (digestOf 'b')),
      ("virtual_size_bytes", .num 1), ("chunk_size_bytes", .num 4194304),
      ("encoding", .str imageChunkEncoding), ("chunks", .arr [])])
  else none

def toyRoot : ImageRoot := ⟨"s", "web", .x86_64, digestOf 'b', .livePointer⟩

/-- The projection that keeps `roots`, `imageIds`, `manifests` and `boots`. -/
def toyProjection (roots : List ImageRoot) (imageIds manifests boots : List String) : Projection where
  nowUnixMs := 0
  roots
  objectOnlyImageIds := []
  keepBuildIds := []
  retireBuildIds := []
  retiredBuildIds := []
  candidates := ⟨[], []⟩
  snapshots := ⟨[], [], []⟩
  hostCacheTrims := []
  bundleRevs := []
  imageIds
  chunkManifestSha256s := manifests
  bootArtifactSha256s := boots

/-- A bucket that lists `keys`, reads `get` and is planned under `p`. -/
def toyEnv (keys : List String) (get : String → Option Bytes) (p : Projection) : CleanupEnv where
  pages := [⟨keys.map fun key => ⟨key, 1⟩, false, none⟩]
  get
  retirementMarkerAvailable := true
  projection := .ok p

/-- The manifest can be read. -/
def toyGet (key : String) : Option Bytes :=
  if key = imageManifestObjectKey (digestOf 'a') then some [1] else none

def rootedProjection : Projection :=
  toyProjection [toyRoot] [digestOf 'b'] [digestOf 'a'] [digestOf 'c']

def rootedInventory : List SweptObject :=
  [⟨imageManifestObjectKey (digestOf 'a'), .manifest, 1, digestOf 'a', none⟩,
    ⟨bootArtifactObjectKey (digestOf 'c'), .bootArtifact, 1, digestOf 'c', none⟩,
    ⟨legacyImageKeyOf toyRoot ++ sidecarSuffix, .legacySidecar, 1, digestOf 'b',
      some (registryImageKey ⟨"s", "web", .x86_64⟩)⟩]

/-- A bucket with the objects the projection keeps, and an orphaned sidecar of the rooted image. -/
def rootedEnv (get : String → Option Bytes) : CleanupEnv :=
  toyEnv (rootedInventory.map SweptObject.key) get rootedProjection

theorem isSha256_digestOf {c : Char} (h : isHexChar c = true) : isSha256 (digestOf c) = true := by
  simp [isSha256, digestOf, h]

theorem key_ne_of_kind_ne {a b : SweptObject} (ha : parseSweptObjectKey a.key 1 = some a)
    (hb : parseSweptObjectKey b.key 1 = some b) (hkind : a.kind ≠ b.kind) : a.key ≠ b.key := by
  intro hkey
  rw [hkey, hb, Option.some.injEq] at ha
  exact hkind (congrArg SweptObject.kind ha).symm

/-- Recognized objects under different keys are scanned in order. -/
theorem foldl_scanObject (hpars : ∀ o ∈ parsed, parseSweptObjectKey o.key 1 = some o)
    (scan : BucketScan) (hdist : (scan.objects ++ parsed).Pairwise fun a b => a.key ≠ b.key) :
    ((parsed.map SweptObject.key).map fun key => (⟨key, 1⟩ : R2Object)).foldl scanObject scan
      = { scan with objects := scan.objects ++ parsed } := by
  induction parsed generalizing scan with
  | nil => simp
  | cons o _ ih =>
    have hset : set SweptObject.key o scan.objects = scan.objects ++ [o] := by
      refine set_eq_append fun y hy => ?_
      exact (pairwise_append.mp hdist).2.2 y hy o mem_cons_self
    have hstp : scanObject scan ⟨o.key, 1⟩ = { scan with objects := scan.objects ++ [o] } := by
      rw [scanObject]
      simp [hpars o mem_cons_self, hset]
    rw [map_cons, map_cons, foldl_cons, hstp,
      ih (fun o ho => hpars o (mem_cons_of_mem _ ho)) _ (by simpa using hdist)]
    simp

theorem scanBucket_toyEnv (hpars : ∀ o ∈ parsed, parseSweptObjectKey o.key 1 = some o)
    (hdist : parsed.Pairwise fun a b => a.kind ≠ b.kind) (get : String → Option Bytes)
    (p : Projection) :
    scanBucket (toyEnv (parsed.map SweptObject.key) get p).pages = some ⟨parsed, 0, 0, false⟩ := by
  have hkeys : parsed.Pairwise fun a b => a.key ≠ b.key :=
    hdist.imp_of_mem fun ha hb h => key_ne_of_kind_ne (hpars _ ha) (hpars _ hb) h
  have hfold := foldl_scanObject hpars ⟨[], 0, 0, false⟩ hkeys
  simp only [nil_append] at hfold
  simp only [scanBucket, toyEnv, scanPages, hfold, Bool.false_eq_true, if_false]

variable (get : String → Option Bytes)

/-- The inventory of a listing is its objects, read back one by one. -/
theorem scanBucket_rootedEnv :
    scanBucket (rootedEnv get).pages = some ⟨rootedInventory, 0, 0, false⟩ := by
  have hpars : ∀ o ∈ rootedInventory, parseSweptObjectKey o.key 1 = some o := by
    intro o ho
    simp only [rootedInventory, mem_cons, not_mem_nil, or_false] at ho
    rcases ho with rfl | rfl | rfl
    · exact parseSweptObjectKey_manifest (isSha256_digestOf (by decide)) 1
    · exact parseSweptObjectKey_bootArtifact (isSha256_digestOf (by decide)) 1
    · exact parseSweptObjectKey_sidecar (by decide) (isSha256_digestOf (by decide)) 1
  exact scanBucket_toyEnv hpars (by decide) get rootedProjection

/-- The faults and the worklist of a plan. -/
def planKeys (env : CleanupEnv) (scan : BucketScan) : List String × List String :=
  let plan := planOfScan toySha256 toyDecode Js.compareUnits env .reportOnly 0 10 scan
  (plan.details.faults.map CleanupFault.code, plan.candidateObjects.map PlanObject.key)

theorem planKeys_rootedEnv :
    planKeys (rootedEnv toyGet) ⟨rootedInventory, 0, 0, false⟩
      = ([], [legacyImageKeyOf toyRoot ++ sidecarSuffix]) := by
  decide +kernel

theorem planKeys_rootedEnv_unreadable :
    imageManifestObjectKey (digestOf 'a') ∈
      (planKeys (rootedEnv fun _ => none) ⟨rootedInventory, 0, 0, false⟩).2 := by
  decide +kernel

/-- A bucket with one chunk, and an image id that is kept without a root. -/
def unrootedEnv : CleanupEnv :=
  toyEnv [imageChunkObjectKey (digestOf 'e')] (fun _ => none) (toyProjection [] [digestOf 'd'] [] [])

/-- Everyone answers, and allows. -/
def grantingAnswers (env : CleanupEnv) (granted : List String) : RunAnswers where
  acquisition := .ok (.lease true none)
  enforcement := .ok .enforce
  plan := .ok env
  retention := .ok ()
  batch _ := ⟨.ok (.current true none), .ok (.granted granted []), .ok (), .ok ()⟩
  post := .ok env.pages
  finish := .ok ()
  finishFailed := .ok ()

theorem deletes_unrootedEnv :
    deletes (run toySha256 toyDecode Js.compareUnits ⟨10, 10, 10⟩ .delete 0
      (grantingAnswers unrootedEnv [imageChunkObjectKey (digestOf 'e')])).1
      = [imageChunkObjectKey (digestOf 'e')] := by
  decide +kernel

theorem exists_plan_rootedEnv :
    ∃ built, buildPlan toySha256 toyDecode Js.compareUnits (rootedEnv get) .reportOnly 0 10
        = some built ∧
      (built.plan.details.faults.map CleanupFault.code,
        built.plan.candidateObjects.map PlanObject.key)
          = planKeys (rootedEnv get) ⟨rootedInventory, 0, 0, false⟩ := by
  have hblt : buildPlan toySha256 toyDecode Js.compareUnits (rootedEnv get) .reportOnly 0 10
      = some ⟨planOfScan toySha256 toyDecode Js.compareUnits (rootedEnv get) .reportOnly 0 10
          ⟨rootedInventory, 0, 0, false⟩, some rootedProjection, rootedInventory⟩ := by
    rw [buildPlan, scanBucket_rootedEnv, Option.map_some]
    rfl
  exact ⟨_, hblt, rfl⟩

theorem collisionFree_toySha256 : CollisionFree toySha256 rootedProjection := by
  have hbody : ∀ bytes, toySha256 bytes = digestOf 'a' → bytes = [1] := by
    intro _ h
    by_contra hne
    rw [toySha256, if_neg hne] at h
    exact absurd h (by decide)
  intro m hm a b ha hb
  rw [mem_singleton.mp hm] at ha hb
  rw [hbody a ha, hbody b hb]

theorem cleanup_spares_closure_rooted :
    ∃ built, buildPlan toySha256 toyDecode Js.compareUnits (rootedEnv toyGet) .reportOnly 0 10
        = some built ∧
      Verified toySha256 toyDecode toyGet (rootedEnv toyGet).inventory rootedProjection ∧
      ∀ object ∈ built.plan.candidateObjects,
        ¬ InClosure toySha256 toyDecode (rootedEnv toyGet).inventory rootedProjection object.key := by
  obtain ⟨built, hblt, hkeys⟩ := exists_plan_rootedEnv toyGet
  rw [planKeys_rootedEnv, Prod.mk.injEq, map_eq_nil_iff] at hkeys
  obtain ⟨p, hp, hvf, hnot⟩ :=
    (cleanup_spares_closure toySha256 toyDecode Js.compareUnits).1 _ _ _ _ built hblt hkeys.1
  obtain rfl : rootedProjection = p := Except.ok.inj hp
  exact ⟨built, hblt, hvf, hnot collisionFree_toySha256⟩

/-- **What a plan may select.**  A plan over an unreadable retained manifest lists that manifest for
deletion; a plan without faults lists the sidecar of a rooted image whose legacy object is gone; and
a run deletes although the image of a kept image id without a root is nowhere in the bucket. -/
theorem plan_selects_unproved_objects :
    (∃ built, buildPlan toySha256 toyDecode Js.compareUnits (rootedEnv fun _ => none) .reportOnly 0 10
        = some built ∧
      ∃ object ∈ built.plan.candidateObjects, InClosure toySha256 toyDecode
        (rootedEnv fun _ => none).inventory rootedProjection object.key) ∧
    (∃ built, buildPlan toySha256 toyDecode Js.compareUnits (rootedEnv toyGet) .reportOnly 0 10
        = some built ∧ built.plan.details.faults = [] ∧
      ∃ root ∈ rootedProjection.roots,
        legacyImageKeyOf root ++ sidecarSuffix ∈ built.plan.candidateObjects.map PlanObject.key) ∧
    ∃ p, unrootedEnv.projection = .ok p ∧ p.chunkManifestSha256s = [] ∧
      (∃ imageId ∈ p.imageIds, ∀ o ∈ unrootedEnv.inventory, o.sha256 ≠ imageId) ∧
      deletes (run toySha256 toyDecode Js.compareUnits ⟨10, 10, 10⟩ .delete 0
        (grantingAnswers unrootedEnv [imageChunkObjectKey (digestOf 'e')])).1 ≠ [] := by
  refine ⟨?_, ?_, ?_⟩
  · obtain ⟨built, hblt, hkeys⟩ := exists_plan_rootedEnv fun _ => none
    have hmem := planKeys_rootedEnv_unreadable
    rw [← hkeys] at hmem
    obtain ⟨object, hobj, hkey⟩ := mem_map.mp hmem
    refine ⟨built, hblt, object, hobj, ?_⟩
    rw [hkey]
    exact .manifest (mem_singleton.mpr rfl)
  · obtain ⟨built, hblt, hkeys⟩ := exists_plan_rootedEnv toyGet
    rw [planKeys_rootedEnv, Prod.mk.injEq, map_eq_nil_iff] at hkeys
    refine ⟨built, hblt, hkeys.1, toyRoot, mem_singleton.mpr rfl, ?_⟩
    rw [hkeys.2]
    exact mem_singleton.mpr rfl
  · refine ⟨_, rfl, rfl, ⟨digestOf 'd', mem_singleton.mpr rfl, ?_⟩, ?_⟩
    · decide +kernel
    rw [deletes_unrootedEnv]
    exact cons_ne_nil _ _

end Intar.Registry
