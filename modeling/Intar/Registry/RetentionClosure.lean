import Intar.Registry.Projection

/-!
# What the projection keeps

`projectRegistryRetention` either reports a fault or keeps, for every reference that still counts,
the image and what it boots from.

* A live pointer, a retained rollback, a kept candidate and a kept build keep what their *own*
  record names.  Another record of the same image is history: nothing pins its boot variant.
* A run in flight keeps what *every* record under its registry image key names
  (`runVm_keeps`), and an operational host VM what every record under its key names, or where there
  is none every record of its image id (`hostVm_keeps`).

The records are the ones of `Describes`: live pointers, retained rollbacks, candidates and builds.
-/

namespace Intar.Registry

open Fallible List

/-! ## Keep sets -/

/-- Everything of `a` is in `b`. -/
instance : LE Artifacts where
  le a b := (∀ m ∈ a.chunkManifests, m ∈ b.chunkManifests) ∧
    ∀ x ∈ a.bootArtifacts, x ∈ b.bootArtifacts

/-- The projection keeps the image and every artifact of `a`. -/
structure Projection.Keeps (p : Projection) (imageId : String) (a : Artifacts) : Prop where
  image : imageId ∈ p.imageIds
  chunkManifests : ∀ m ∈ a.chunkManifests, m ∈ p.chunkManifestSha256s
  bootArtifacts : ∀ b ∈ a.bootArtifacts, b ∈ p.bootArtifactSha256s

variable {keeps : List Keep} {k : Keep}

variable {p : Projection} {imageId i i' subject reference hostId : String}
  {localeCompare : String → String → Ordering} {db : RetentionDb} {c : ImageClosureCandidate}
  {k' : ImageKey} {snapshots : List ImageClosureByIdentity} {e : ImageClosureByIdentity}
  {refs : List HostOperationalReference}

theorem Projection.Keeps.of_le {a b : Artifacts} (h : p.Keeps imageId b) (hle : a ≤ b) :
    p.Keeps imageId a where
  image := h.image
  chunkManifests m hm := h.chunkManifests m (hle.1 m hm)
  bootArtifacts x hx := h.bootArtifacts x (hle.2 x hx)

def LiveVmRow.closure (row : LiveVmRow) : RunImageClosure :=
  ⟨row.chunkManifestSha256, row.kernelSha256, row.initrdSha256⟩

def ManifestVm.closure (vm : ManifestVm) : RunImageClosure :=
  ⟨vm.chunkManifestSha256, vm.kernelSha256, vm.initrdSha256⟩

theorem mem_gather_chunkManifests (hk : k ∈ keeps) {m : String}
    (hm : m ∈ k.artifacts.chunkManifests) : m ∈ (gather keeps).chunkManifests :=
  mem_flatMap.mpr ⟨k, hk, hm⟩

theorem mem_gather_bootArtifacts (hk : k ∈ keeps) {b : String}
    (hb : b ∈ k.artifacts.bootArtifacts) : b ∈ (gather keeps).bootArtifacts :=
  mem_flatMap.mpr ⟨k, hk, hb⟩

variable {r : References} {now : Int} {cached : List (String × Artifacts)}

section

/-- What a root keeps is in the keep sets. -/
theorem keeps_of_mem_keeps (hk : k ∈ r.keeps db) :
    (r.projection db localeCompare now cached).Keeps k.root.imageId k.artifacts where
  image := by
    have hroot : k.root.imageId ∈ (r.roots db).map ImageRoot.imageId :=
      mem_map_of_mem (mem_map_of_mem hk)
    simp [References.projection, References.keepImageIds, hroot]
  chunkManifests m hm := by
    simp [References.projection, mem_gather_chunkManifests hk hm]
  bootArtifacts b hb := by
    simp [References.projection, mem_gather_bootArtifacts hk hb]

variable {vm : ManifestVm}

/-- What a kept build names is in the keep sets. -/
theorem keeps_of_mem_keptBuilds {row : BuildRow} {m : Manifest} (hrow : row ∈ db.builds)
    (hid : row.id ∈ (r.buildPlan db).keepBuildIds) (hm : row.manifest = some m) (hvm : vm ∈ m.vms) :
    (r.projection db localeCompare now cached).Keeps vm.imageId vm.closure.artifacts := by
  have hb : retentionBuildRow row ∈ r.keptBuilds db := by
    rw [References.keptBuilds, mem_filter]
    exact ⟨mem_map_of_mem hrow, by simpa [retentionBuildRow] using hid⟩
  constructor
  · have himg : vm.imageId ∈ (retentionBuildRow row).members.map ImageRoot.imageId := by
      simp only [retentionBuildRow, hm, Option.map_some, Option.getD_some, manifestImageMembers,
        map_map, mem_map]
      exact ⟨vm, hvm, rfl⟩
    have hmem : vm.imageId ∈ r.keepImageIds db := by
      rw [References.keepImageIds]
      exact mem_append_right _ (mem_flatMap.mpr ⟨_, hb, himg⟩)
    simp [References.projection, hmem]
  · intro s hs
    have hmem : s ∈ (r.keptBuilds db).flatMap RetentionBuildRow.chunkManifestSha256s := by
      refine mem_flatMap.mpr ⟨_, hb, ?_⟩
      simp only [retentionBuildRow, hm, Option.map_some, Option.getD_some]
      exact mem_flatMap.mpr ⟨vm, hvm, hs⟩
    simp only [References.projection, Js.mem_sort, mem_dedup, mem_append]
    exact .inl (.inr hmem)
  · intro s hs
    have hmem : s ∈ (r.keptBuilds db).flatMap RetentionBuildRow.bootArtifactSha256s := by
      refine mem_flatMap.mpr ⟨_, hb, ?_⟩
      simp only [retentionBuildRow, hm, Option.map_some, Option.getD_some]
      exact mem_flatMap.mpr ⟨vm, hvm, hs⟩
    simp only [References.projection, Js.mem_sort, mem_dedup, mem_append]
    exact .inl (.inr hmem)

theorem keeps_of_mem_intents {row : CandidateRow} (hrow : row ∈ db.candidates)
    (hid : row.id ∈ (candidatePlan db).keepIds) (hvm : vm ∈ row.manifest.vms) :
    (r.projection db localeCompare now cached).Keeps vm.imageId vm.closure.artifacts := by
  have hmem : (⟨⟨Js.trim row.manifest.scenarioId, Js.trim vm.name, vm.imageKey.arch, vm.imageId,
      .candidateIntent⟩, vm.closure.artifacts⟩ : Keep) ∈ References.intents db := by
    refine mem_flatMap.mpr ⟨row, mem_filter.mpr ⟨hrow, by simpa using hid⟩, ?_⟩
    exact mem_map.mpr ⟨vm, hvm, rfl⟩
  exact keeps_of_mem_keeps (k := ⟨⟨_, _, _, vm.imageId, _⟩, vm.closure.artifacts⟩)
    (by simp only [References.keeps, mem_append]; exact .inl (.inl (.inr hmem)))

end

/-! ## Reading the references -/

/-- Everything a successful read of the references says. -/
structure ReadsReferences (localeCompare : String → String → Ordering) (db : RetentionDb)
    (r : References) : Prop where
  live : ∀ row ∈ db.liveRows, ∃ k ∈ r.live, liveVmKeep row.1 = .ok k
  rollback : ∀ row ∈ db.snapshots, ∀ doc, retainedSnapshot r.snapshots row = some doc →
    ∃ vms, snapshotKeep doc = .ok vms ∧ ∀ v ∈ vms, v ∈ r.rollbackVms
  rollbackFrom : ∀ v ∈ r.rollbackVms, ∃ row ∈ db.snapshots, ∃ doc vms,
    retainedSnapshot r.snapshots row = some doc ∧ snapshotKeep doc = .ok vms ∧ v ∈ vms
  exact : r.exact = buildRunImageIndex (db.liveRows.map Prod.fst)
    (r.rollbackVms.map SnapshotVmRoots.entry) db.candidates db.builds
  byImageId : r.byImageId = buildImageIdIndex (db.liveRows.map Prod.fst)
    (r.rollbackVms.map SnapshotVmRoots.entry) db.candidates db.builds
  runs : ∀ row ∈ db.runRows, ∃ k ∈ r.runs, runVmKeep r.exact r.byImageId row = .ok k
  hosts : ∀ host ∈ db.hostRows, ∃ out, hostReferences host = .ok out ∧
    ∀ ref ∈ out.1, ∃ k ∈ r.hostVms, hostVmKeep r.exact r.byImageId ref = .ok k

theorem readsReferences_of_ok (h : readReferences localeCompare db = .ok r) :
    ReadsReferences localeCompare db r := by
  rw [readReferences] at h
  obtain ⟨_, hlv, h⟩ := bind_eq_ok.mp h
  obtain ⟨_, _, h⟩ := bind_eq_ok.mp h
  obtain ⟨_, hrollback, h⟩ := bind_eq_ok.mp h
  obtain ⟨_, hruns, h⟩ := bind_eq_ok.mp h
  obtain ⟨_, hhosts, h⟩ := bind_eq_ok.mp h
  obtain ⟨_, hhostVms, h⟩ := bind_eq_ok.mp h
  cases h
  constructor
  · intro _ hrow
    exact exists_mem_of_each hlv (mem_map_of_mem hrow)
  · intro row hrow _ hdoc
    obtain ⟨vms, hvms, hok⟩ := exists_mem_of_each hrollback (mem_filterMap.mpr ⟨row, hrow, hdoc⟩)
    exact ⟨vms, hok, fun v hv => mem_flatten.mpr ⟨vms, hvms, hv⟩⟩
  · intro v hv
    obtain ⟨vms, hvms, hv⟩ := mem_flatten.mp hv
    obtain ⟨doc, hdoc, hok⟩ := exists_of_mem_each hrollback hvms
    obtain ⟨row, hrow, hkeep⟩ := mem_filterMap.mp hdoc
    exact ⟨row, hrow, doc, vms, hkeep, hok, hv⟩
  · rfl
  · rfl
  · intro _ hrow
    exact exists_mem_of_each hruns hrow
  intro _ hho
  obtain ⟨out, hout, hok⟩ := exists_mem_of_each hhosts hho
  refine ⟨out, hok, fun ref href => ?_⟩
  exact exists_mem_of_each hhostVms (mem_flatMap.mpr ⟨out, hout, href⟩)

theorem projectRegistryRetention_eq_ok (h : projectRegistryRetention localeCompare db now = .ok p) :
    ∃ r cached, readReferences localeCompare db = .ok r ∧
      r.cachedIntents db localeCompare = .ok cached ∧ p = r.projection db localeCompare now cached := by
  rw [projectRegistryRetention] at h
  obtain ⟨r, hr, h⟩ := bind_eq_ok.mp h
  obtain ⟨cached, hcac, h⟩ := bind_eq_ok.mp h
  cases h
  exact ⟨r, cached, hr, hcac, rfl⟩

theorem liveVmKeep_eq_ok {row : LiveVmRow} (h : liveVmKeep row = .ok k) :
    truthy row.imageId = some k.root.imageId ∧ k.artifacts = row.closure.artifacts := by
  rw [liveVmKeep] at h
  obtain ⟨_, -, h⟩ := bind_eq_ok.mp h
  split at h
  · cases h
  rename_i hid
  split at h
  · cases h
  cases h
  exact ⟨hid, rfl⟩

/-! ## Registry identities

A registry image key has no colon, so an identity determines both the key and the image id. -/

theorem isSlugChar_of_mem_collapseUnsafe {inRun : Bool} {cs : List Char} {c : Char}
    (h : c ∈ collapseUnsafe inRun cs) : isSlugChar c = true := by
  induction cs generalizing inRun with
  | nil => cases h
  | cons _ _ ih =>
    rw [collapseUnsafe] at h
    split at h
    · rename_i ha
      rcases mem_cons.mp h with rfl | h
      · exact ha
      · exact ih h
    · split at h
      · exact ih h
      rcases mem_cons.mp h with rfl | h
      · decide
      · exact ih h

theorem isSlugChar_of_mem_safeSlug {value : String} {c : Char} (h : c ∈ (safeSlug value).toList) :
    isSlugChar c = true := by
  rw [safeSlug, String.toList_ofList] at h
  exact isSlugChar_of_mem_collapseUnsafe
    ((dropWhile_sublist _).subset ((List.rdropWhile_prefix _ _).subset h))

theorem colon_notMem_registryImageKey (key : ImageKey) : ':' ∉ (registryImageKey key).toList := by
  have hslug : ∀ value : String, ':' ∉ (safeSlug value).toList := fun value h =>
    absurd (isSlugChar_of_mem_safeSlug h) (by decide)
  have harch : ':' ∉ key.arch.text.toList := by cases key.arch <;> decide
  simp [registryImageKey, String.toList_append, hslug, harch]

theorem append_cons_inj {α : Type*} {x : α} {a a' b b' : List α} (h : a ++ x :: b = a' ++ x :: b')
    (ha : x ∉ a) (ha' : x ∉ a') : a = a' ∧ b = b' := by
  induction a generalizing a' with
  | nil =>
    cases a' with
    | nil => exact ⟨rfl, (List.cons.inj h).2⟩
    | cons =>
      obtain ⟨rfl, -⟩ := List.cons.inj h
      exact absurd (by simp) ha'
  | cons _ _ ih =>
    cases a' with
    | nil =>
      obtain ⟨rfl, -⟩ := List.cons.inj h
      exact absurd (by simp) ha
    | cons =>
      obtain ⟨rfl, htail⟩ := List.cons.inj h
      simp only [mem_cons, not_or] at ha ha'
      obtain ⟨rfl, hb⟩ := ih htail ha.2 ha'.2
      exact ⟨rfl, hb⟩

theorem imageIdentity_inj {k : ImageKey} (h : imageIdentity k i = imageIdentity k' i') :
    registryImageKey k = registryImageKey k' ∧ i = i' := by
  rw [imageIdentity, imageIdentity, ← String.toList_inj] at h
  simp only [String.toList_append] at h
  have hcolon : (":" : String).toList = [':'] := rfl
  rw [hcolon, append_assoc, append_assoc, singleton_append, singleton_append] at h
  obtain ⟨hk, hi⟩ := append_cons_inj h (colon_notMem_registryImageKey k)
    (colon_notMem_registryImageKey k')
  exact ⟨String.toList_inj.mp hk, String.toList_inj.mp hi⟩

theorem imageIdentity_congr {k : ImageKey} (hk : registryImageKey k = registryImageKey k')
    (hi : i = i') :
    imageIdentity k i = imageIdentity k' i' := by
  rw [imageIdentity, imageIdentity, hk, hi]

/-! ## The two indexes -/

/-- Every record the platform has of an image. -/
def records (db : RetentionDb) (snapshots : List ImageClosureByIdentity) :
    List ImageClosureByIdentity :=
  (db.liveRows.map Prod.fst).filterMap LiveVmRow.entry ++ snapshots ++
    db.candidates.flatMap (fun row => manifestEntries (some row.manifest)) ++
    db.builds.flatMap fun row => manifestEntries row.manifest

theorem mem_get {index : ClosureIndex} {key : String} : c ∈ index.get key ↔ (key, c) ∈ index := by
  simp [ClosureIndex.get]

/-- The exact index has a record under its registry key and image id, and nothing else. -/
theorem mem_get_buildRunImageIndex {identity : String} :
    c ∈ ClosureIndex.get (buildRunImageIndex (db.liveRows.map Prod.fst) snapshots db.candidates
        db.builds) identity ↔
      ∃ e ∈ records db snapshots, imageIdentity e.imageKey e.imageId = identity ∧
        c = ⟨e.imageKey, e.closure⟩ := by
  rw [mem_get, buildRunImageIndex, mem_map]
  constructor
  · rintro ⟨e, he, heq⟩
    obtain ⟨hid, hc⟩ := Prod.mk.inj heq
    exact ⟨e, he, hid, hc.symm⟩
  · rintro ⟨e, he, hid, hc⟩
    exact ⟨e, he, Prod.ext hid hc.symm⟩

/-- Entering a record loses no closure, and finds the new one. -/
theorem exists_mem_get_addByImageId (index : ClosureIndex) (e : ImageClosureByIdentity) :
    (∀ key, ∀ c ∈ index.get key, c ∈ (addByImageId index e).get key) ∧
      ∃ c ∈ (addByImageId index e).get e.imageId, c.closure = e.closure := by
  rw [addByImageId]
  split
  · rename_i h
    obtain ⟨c, hc, heq⟩ := any_eq_true.mp h
    simp only [Bool.and_eq_true, decide_eq_true_eq] at heq
    exact ⟨fun _ c hc => hc, c, hc, heq.2⟩
  · refine ⟨fun key c hc => ?_, ⟨e.imageKey, e.closure⟩, ?_, rfl⟩
    · rw [mem_get] at hc ⊢
      exact mem_append_left _ hc
    · rw [mem_get]
      exact mem_concat_self

theorem exists_mem_get_foldl_addByImageId {entries : List ImageClosureByIdentity}
    (index : ClosureIndex) :
    (∀ key, ∀ c ∈ index.get key, c ∈ (entries.foldl addByImageId index).get key) ∧
      ∀ e ∈ entries, ∃ c ∈ (entries.foldl addByImageId index).get e.imageId,
        c.closure = e.closure := by
  induction entries generalizing index with
  | nil => exact ⟨fun _ _ hc => hc, nofun⟩
  | cons a _ ih =>
    obtain ⟨hold, hnew⟩ := exists_mem_get_addByImageId index a
    obtain ⟨ihold, ihnew⟩ := ih (addByImageId index a)
    refine ⟨fun key c hc => ihold key c (hold key c hc), fun e he => ?_⟩
    rcases mem_cons.mp he with rfl | he
    · obtain ⟨c, hc, hclo⟩ := hnew
      exact ⟨c, ihold _ c hc, hclo⟩
    · exact ihnew e he

/-- Every record's closure is found under its image id. -/
theorem exists_mem_get_buildImageIdIndex (he : e ∈ records db snapshots) :
    ∃ c ∈ ClosureIndex.get (buildImageIdIndex (db.liveRows.map Prod.fst) snapshots db.candidates
      db.builds) e.imageId, c.closure = e.closure := by
  refine (exists_mem_get_foldl_addByImageId []).2 e ?_
  simp only [records, mem_append] at he ⊢
  tauto

/-! ## Merging -/

theorem candidateArtifacts_eq_ok {a : List String × List String}
    (h : candidateArtifacts subject reference c = .ok a) :
    c.closure.artifacts = ⟨a.1, a.2⟩ := by
  rw [candidateArtifacts] at h
  split at h
  · rename_i h₁ h₂ h₃
    cases h
    simp [RunImageClosure.artifacts, h₁, h₂, h₃]
  · cases h
  · cases h
  rename_i h₁
  cases h
  simp [RunImageClosure.artifacts, h₁]

/-- **A merge leaves no variant out**: it has the artifacts of every record it resolved to. -/
theorem mergeImageClosures_eq_ok {imageKey : Option ImageKey} {exact byImageId : ClosureIndex}
    {fallback : Bool} {m : Option MergedClosure}
    (h : mergeImageClosures subject reference imageKey imageId exact byImageId fallback = .ok m) :
    (m = none ↔ resolveCandidates imageKey imageId exact byImageId fallback = []) ∧
      ∀ m', m = some m' →
        ∀ c ∈ resolveCandidates imageKey imageId exact byImageId fallback,
          (∀ x ∈ c.closure.artifacts.chunkManifests, x ∈ m'.chunkManifestSha256s) ∧
            ∀ x ∈ c.closure.artifacts.bootArtifacts, x ∈ m'.bootArtifactSha256s := by
  rw [mergeImageClosures] at h
  split at h
  · rename_i hnil
    cases h
    simp [hnil]
  rename_i hcs
  split at h
  · obtain ⟨_, hall, h⟩ := bind_eq_ok.mp h
    cases h
    refine ⟨by simp [hcs], ?_⟩
    rintro _ heq _ hc
    cases heq
    rw [hcs] at hc
    obtain ⟨a, ha, hca⟩ := exists_mem_of_each hall hc
    rw [candidateArtifacts_eq_ok hca]
    constructor
    · intro x hx
      simp only [Js.mem_sort, mem_dedup, mem_flatMap]
      exact ⟨a, ha, hx⟩
    · intro x hx
      simp only [Js.mem_sort, mem_dedup, mem_flatMap]
      exact ⟨a, ha, hx⟩
  · cases h

/-! ## References that resolve through the records -/

/-- `e` is a record of an image: of a live pointer, of a VM of a retained rollback (as trimmed), or
of a VM of a candidate or build manifest. -/
def Describes (db : RetentionDb) (plan : SnapshotRetentionPlan) (e : ImageClosureByIdentity) : Prop :=
  (∃ row ∈ db.liveRows, row.1.entry = some e) ∨
    (∃ row ∈ db.snapshots, ∃ doc vms, retainedSnapshot plan row = some doc ∧
      snapshotKeep doc = .ok vms ∧ ∃ v ∈ vms, v.entry = e) ∨
    (∃ row ∈ db.candidates, ∃ vm ∈ row.manifest.vms, vm.entry = some e) ∨
    ∃ row ∈ db.builds, ∃ m, row.manifest = some m ∧ ∃ vm ∈ m.vms, vm.entry = some e

/-- The records of an image under one registry image key. -/
def DescribesUnder (db : RetentionDb) (plan : SnapshotRetentionPlan) (key : ImageKey)
    (imageId : String) (e : ImageClosureByIdentity) : Prop :=
  Describes db plan e ∧ registryImageKey e.imageKey = registryImageKey key ∧ e.imageId = imageId

/-- The records a host VM resolves to: those under its key, or where it has no usable key or none is
under it, all records of its image id. -/
def DescribesHostImage (db : RetentionDb) (plan : SnapshotRetentionPlan) (key : Option ImageKey)
    (imageId : String) (e : ImageClosureByIdentity) : Prop :=
  Describes db plan e ∧ e.imageId = imageId ∧
    ∀ own, key = some own → DescribesUnder db plan own imageId e ∨
      ∀ e', ¬ DescribesUnder db plan own imageId e'

theorem mem_manifestEntries {manifest : Option Manifest} :
    e ∈ manifestEntries manifest ↔ ∃ m, manifest = some m ∧ ∃ vm ∈ m.vms, vm.entry = some e := by
  cases manifest with
  | none | some => simp [manifestEntries]

variable {ref : HostOperationalReference}

section

variable (h : ReadsReferences localeCompare db r)

include h

variable {key : Option ImageKey}

theorem describes_iff_mem_records :
    Describes db r.snapshots e ↔ e ∈ records db (r.rollbackVms.map SnapshotVmRoots.entry) := by
  simp only [records, mem_append, or_assoc]
  refine or_congr ?_ (or_congr ?_ (or_congr ?_ ?_))
  · simp only [mem_filterMap, mem_map]
    constructor
    · rintro ⟨row, hrow, he⟩
      exact ⟨row.1, ⟨row, hrow, rfl⟩, he⟩
    · rintro ⟨_, ⟨row, hrow, rfl⟩, he⟩
      exact ⟨row, hrow, he⟩
  · rw [mem_map]
    constructor
    · rintro ⟨row, hrow, doc, _, hdoc, hok, v, hv, he⟩
      obtain ⟨_, hok', hall⟩ := h.rollback row hrow doc hdoc
      rw [hok, Except.ok.injEq] at hok'
      exact ⟨v, hall v (hok' ▸ hv), he⟩
    · rintro ⟨v, hv, he⟩
      obtain ⟨row, hrow, doc, vms, hdoc, hok, hv⟩ := h.rollbackFrom v hv
      exact ⟨row, hrow, doc, vms, hdoc, hok, v, hv, he⟩
  · simp [mem_flatMap, mem_manifestEntries]
  · simp [mem_flatMap, mem_manifestEntries]

theorem mem_get_exact {key : ImageKey} :
    c ∈ r.exact.get (imageIdentity key imageId) ↔
      ∃ e, DescribesUnder db r.snapshots key imageId e ∧ c = ⟨e.imageKey, e.closure⟩ := by
  rw [h.exact, mem_get_buildRunImageIndex]
  constructor
  · rintro ⟨e, he, hid, hc⟩
    obtain ⟨hkey, himg⟩ := imageIdentity_inj hid
    exact ⟨e, ⟨(describes_iff_mem_records h).mpr he, hkey, himg⟩, hc⟩
  · rintro ⟨e, ⟨he, hkey, himg⟩, hc⟩
    exact ⟨e, (describes_iff_mem_records h).mp he, imageIdentity_congr hkey himg, hc⟩

theorem exists_mem_get_byImageId (he : Describes db r.snapshots e) :
    ∃ c ∈ r.byImageId.get e.imageId, c.closure = e.closure := by
  rw [h.byImageId]
  exact exists_mem_get_buildImageIdIndex ((describes_iff_mem_records h).mp he)

/-- Whichever index answers a host VM, it has a candidate for each record the VM resolves to. -/
theorem exists_mem_resolveCandidates (he : DescribesHostImage db r.snapshots key imageId e) :
    ∃ c ∈ resolveCandidates key imageId r.exact r.byImageId true, c.closure = e.closure := by
  obtain ⟨hds, himg, hown⟩ := he
  obtain ⟨c, hc, hclo⟩ := exists_mem_get_byImageId h hds
  rw [himg] at hc
  rw [resolveCandidates]
  cases key with
  | none =>
    simp only [Option.map_none, Option.getD_none, true_and, true_or, if_true]
    exact ⟨c, hc, hclo⟩
  | some own =>
    simp only [Option.map_some, Option.getD_some, or_true, and_true]
    rcases hown own rfl with hunder | hno
    · have hmem := (mem_get_exact h).mpr ⟨e, hunder, rfl⟩
      rw [if_neg (ne_nil_of_mem hmem)]
      exact ⟨_, hmem, rfl⟩
    have hnil : r.exact.get (imageIdentity own imageId) = [] := by
      refine eq_nil_iff_forall_not_mem.mpr fun c' hc' => ?_
      obtain ⟨e', he', -⟩ := (mem_get_exact h).mp hc'
      exact hno e' he'
    rw [if_pos hnil]
    exact ⟨c, hc, hclo⟩

/-- A merge that may fall back on the image id has the artifacts of each record it is about. -/
theorem exists_merged_of_describes {key : Option ImageKey} {resolved : Option MergedClosure}
    (hmrg : mergeImageClosures subject reference key imageId r.exact r.byImageId true
      = .ok resolved) (he : DescribesHostImage db r.snapshots key imageId e) :
    ∃ m, resolved = some m ∧ e.closure.artifacts ≤ ⟨m.chunkManifestSha256s, m.bootArtifactSha256s⟩ := by
  obtain ⟨hno, hall⟩ := mergeImageClosures_eq_ok hmrg
  obtain ⟨c, hc, hclo⟩ := exists_mem_resolveCandidates h he
  cases resolved with
  | none =>
    rw [hno.mp rfl] at hc
    cases hc
  | some m =>
    refine ⟨m, rfl, ?_⟩
    rw [← hclo]
    exact hall m rfl c hc

/-- A run in flight resolves to a record under its key, and keeps the artifacts of all of them. -/
theorem runVmKeep_eq_ok {row : RunVmRow} (hk : runVmKeep r.exact r.byImageId row = .ok k) :
    ∃ key, readImageKey row.imageKey = some key ∧ k.root.imageId = row.imageId ∧
      (∃ e, DescribesUnder db r.snapshots key row.imageId e) ∧
      ∀ e, DescribesUnder db r.snapshots key row.imageId e → e.closure.artifacts ≤ k.artifacts := by
  rw [runVmKeep] at hk
  split at hk
  · cases hk
  rename_i key hkey
  obtain ⟨_, hmrg, hk⟩ := bind_eq_ok.mp hk
  obtain ⟨hno, hall⟩ := mergeImageClosures_eq_ok hmrg
  split at hk
  · cases hk
  rename_i m
  cases hk
  have hown : resolveCandidates (some key) row.imageId r.exact r.byImageId false
      = r.exact.get (imageIdentity key row.imageId) := by
    simp [resolveCandidates]
  rw [hown] at hno hall
  refine ⟨key, hkey, rfl, ?_, fun e he => ?_⟩
  · have hne : r.exact.get (imageIdentity key row.imageId) ≠ [] := fun hnil =>
      nomatch hno.mpr hnil
    obtain ⟨c, hc⟩ := exists_mem_of_ne_nil _ hne
    obtain ⟨e, he, -⟩ := (mem_get_exact h).mp hc
    exact ⟨e, he⟩
  · exact hall m rfl ⟨e.imageKey, e.closure⟩ ((mem_get_exact h).mpr ⟨e, he, rfl⟩)

/-- An operational host VM keeps the artifacts of every record it resolves to. -/
theorem hostVmKeep_eq_ok (hk : hostVmKeep r.exact r.byImageId ref = .ok k) :
    k.root.imageId = ref.imageId ∧
      ∀ e, DescribesHostImage db r.snapshots ref.imageKey ref.imageId e →
        e.closure.artifacts ≤ k.artifacts := by
  rw [hostVmKeep] at hk
  obtain ⟨_, hmrg, hk⟩ := bind_eq_ok.mp hk
  split at hk
  · cases hk
    refine ⟨rfl, fun e he => ?_⟩
    obtain ⟨m, hm, hle⟩ := exists_merged_of_describes h hmrg he
    cases hm
    exact hle
  · cases hk
    refine ⟨rfl, fun e he => ?_⟩
    obtain ⟨m, hm, -⟩ := exists_merged_of_describes h hmrg he
    cases hm
  · cases hk

end

/-! ## Hosts -/

theorem desiredReference_eq_ok {vm : DesiredVmRef} (h : desiredReference hostId vm = .ok refs)
    (hvm : vm.needsImage = true) :
    ∃ ref ∈ refs, truthy vm.imageId = some ref.imageId ∧ ref.imageKey = readImageKey vm.imageKey := by
  rw [desiredReference, if_pos hvm] at h
  split at h
  · cases h
  rename_i hid
  cases h
  exact ⟨_, mem_singleton.mpr rfl, hid, rfl⟩

theorem actualReference_eq_ok {vm : ActualVmRef} (h : actualReference hostId vm = .ok refs)
    (hvm : vm.needsImage = true) :
    ∃ ref ∈ refs, truthy vm.imageId = some ref.imageId ∧ ref.imageKey = readImageKey vm.imageKey := by
  rw [actualReference, if_pos hvm] at h
  split at h
  · cases h
  rename_i hid
  cases h
  exact ⟨_, mem_singleton.mpr rfl, hid, rfl⟩

/-- Every operational VM of a host, desired or reported, is among its references. -/
theorem hostReferences_eq_ok {host : HostRow} {out : List HostOperationalReference × HostCacheIntentRow}
    (h : hostReferences host = .ok out) :
    (∀ vm ∈ host.desiredVms, vm.needsImage = true → ∃ ref ∈ out.1,
      truthy vm.imageId = some ref.imageId ∧ ref.imageKey = readImageKey vm.imageKey) ∧
    ∀ vm ∈ host.actualVms, vm.needsImage = true → ∃ ref ∈ out.1,
      truthy vm.imageId = some ref.imageId ∧ ref.imageKey = readImageKey vm.imageKey := by
  rw [hostReferences] at h
  obtain ⟨_, hdes, h⟩ := bind_eq_ok.mp h
  obtain ⟨_, hactual, h⟩ := bind_eq_ok.mp h
  cases h
  constructor
  · intro _ hvm hnds
    obtain ⟨refs, hrefs, hok⟩ := exists_mem_of_each hdes hvm
    obtain ⟨ref, href, himg, hkey⟩ := desiredReference_eq_ok hok hnds
    exact ⟨ref, mem_append_left _ (mem_flatten.mpr ⟨refs, hrefs, href⟩), himg, hkey⟩
  · intro _ hvm hnds
    obtain ⟨refs, hrefs, hok⟩ := exists_mem_of_each hactual hvm
    obtain ⟨ref, href, himg, hkey⟩ := actualReference_eq_ok hok hnds
    exact ⟨ref, mem_append_right _ (mem_flatten.mpr ⟨refs, hrefs, href⟩), himg, hkey⟩

/-! ## What every reference keeps -/

/-- The image of an operational host VM is known, and it and every record it resolves to are
kept. -/
def KeepsHostImage (db : RetentionDb) (p : Projection) (imageId : Option String) (imageKey : Json) :
    Prop :=
  ∃ id, truthy imageId = some id ∧ id ∈ p.imageIds ∧
    ∀ e, DescribesHostImage db p.snapshots (readImageKey imageKey) id e →
      p.Keeps id e.closure.artifacts

section

variable (h : ReadsReferences localeCompare db r)

include h

theorem live_keeps {row : LiveVmRow × Option String} (hrow : row ∈ db.liveRows) :
    ∃ id, truthy row.1.imageId = some id ∧
      (r.projection db localeCompare now cached).Keeps id row.1.closure.artifacts := by
  obtain ⟨k, hk, hok⟩ := h.live row hrow
  obtain ⟨hid, hartifacts⟩ := liveVmKeep_eq_ok hok
  refine ⟨k.root.imageId, hid, ?_⟩
  rw [← hartifacts]
  exact keeps_of_mem_keeps (by simp [References.keeps, hk])

theorem rollback_keeps {row : SnapshotRow}
    (hrow : row ∈ db.snapshots) {doc : Json} (hdoc : retainedSnapshot r.snapshots row = some doc) :
    ∃ vms, snapshotKeep doc = .ok vms ∧ ∀ v ∈ vms,
      (r.projection db localeCompare now cached).Keeps v.root.imageId v.entry.closure.artifacts := by
  obtain ⟨vms, hok, hall⟩ := h.rollback row hrow doc hdoc
  refine ⟨vms, hok, fun v hv => ?_⟩
  have hmem : v.keep ∈ r.rollbackVms.map SnapshotVmRoots.keep := mem_map_of_mem (hall v hv)
  exact keeps_of_mem_keeps (k := v.keep) (by simp only [References.keeps, mem_append]; tauto)

theorem runVm_keeps {row : RunVmRow} (hrow : row ∈ db.runRows) :
    ∃ key, readImageKey row.imageKey = some key ∧
      (∃ e, DescribesUnder db r.snapshots key row.imageId e) ∧
      ∀ e, DescribesUnder db r.snapshots key row.imageId e →
        (r.projection db localeCompare now cached).Keeps row.imageId e.closure.artifacts := by
  obtain ⟨k, hk, hok⟩ := h.runs row hrow
  obtain ⟨key, hkey, himg, hsm, hall⟩ := runVmKeep_eq_ok h hok
  refine ⟨key, hkey, hsm, fun e he => ?_⟩
  rw [← himg]
  exact (keeps_of_mem_keeps (by simp [References.keeps, hk])).of_le (hall e he)

theorem hostReference_keeps (hk : k ∈ r.hostVms)
    (hok : hostVmKeep r.exact r.byImageId ref = .ok k) {imageId : Option String} {imageKey : Json}
    (himg : truthy imageId = some ref.imageId) (hkey : ref.imageKey = readImageKey imageKey) :
    KeepsHostImage db (r.projection db localeCompare now cached) imageId imageKey := by
  obtain ⟨hroot, hall⟩ := hostVmKeep_eq_ok h hok
  have hkp : (r.projection db localeCompare now cached).Keeps k.root.imageId k.artifacts :=
    keeps_of_mem_keeps (by simp [References.keeps, hk])
  rw [hroot] at hkp
  refine ⟨ref.imageId, himg, hkp.image, fun e he => ?_⟩
  rw [← hkey] at he
  exact hkp.of_le (hall e he)

theorem hostVm_keeps {host : HostRow} (hho : host ∈ db.hostRows) :
    (∀ vm ∈ host.desiredVms, vm.needsImage = true →
      KeepsHostImage db (r.projection db localeCompare now cached) vm.imageId vm.imageKey) ∧
    ∀ vm ∈ host.actualVms, vm.needsImage = true →
      KeepsHostImage db (r.projection db localeCompare now cached) vm.imageId vm.imageKey := by
  obtain ⟨_, hout, hrefs⟩ := h.hosts host hho
  obtain ⟨hdes, hactual⟩ := hostReferences_eq_ok hout
  constructor
  · intro vm hvm hnds
    obtain ⟨ref, href, himg, hkey⟩ := hdes vm hvm hnds
    obtain ⟨k, hk, hok⟩ := hrefs ref href
    exact hostReference_keeps h hk hok himg hkey
  · intro vm hvm hnds
    obtain ⟨ref, href, himg, hkey⟩ := hactual vm hvm hnds
    obtain ⟨k, hk, hok⟩ := hrefs ref href
    exact hostReference_keeps h hk hok himg hkey

end

/-- **A projection without a fault keeps what its references need.**  A live pointer, a retained
rollback, a kept candidate and a kept build keep the image and the artifacts of their own record; a
run in flight those of every record under its registry image key, of which there is one; and an
operational host VM those of every record it resolves to. -/
theorem projectRegistryRetention_keeps (localeCompare : String → String → Ordering)
    (db : RetentionDb) (now : Int) (p : Projection)
    (h : projectRegistryRetention localeCompare db now = .ok p) :
    (∀ row ∈ db.liveRows, ∃ id, truthy row.1.imageId = some id ∧
      p.Keeps id row.1.closure.artifacts) ∧
    (∀ row ∈ db.snapshots, ∀ doc, retainedSnapshot p.snapshots row = some doc →
      ∃ vms, snapshotKeep doc = .ok vms ∧
        ∀ v ∈ vms, p.Keeps v.root.imageId v.entry.closure.artifacts) ∧
    (∀ row ∈ db.candidates, row.id ∈ p.candidates.keepIds →
      ∀ vm ∈ row.manifest.vms, p.Keeps vm.imageId vm.closure.artifacts) ∧
    (∀ row ∈ db.builds, row.id ∈ p.keepBuildIds → ∀ m, row.manifest = some m →
      ∀ vm ∈ m.vms, p.Keeps vm.imageId vm.closure.artifacts) ∧
    (∀ row ∈ db.runRows, ∃ key, readImageKey row.imageKey = some key ∧
      (∃ e, DescribesUnder db p.snapshots key row.imageId e) ∧
      ∀ e, DescribesUnder db p.snapshots key row.imageId e →
        p.Keeps row.imageId e.closure.artifacts) ∧
    ∀ host ∈ db.hostRows,
      (∀ vm ∈ host.desiredVms, vm.needsImage = true → KeepsHostImage db p vm.imageId vm.imageKey) ∧
      ∀ vm ∈ host.actualVms, vm.needsImage = true → KeepsHostImage db p vm.imageId vm.imageKey := by
  obtain ⟨_, _, hr, -, rfl⟩ := projectRegistryRetention_eq_ok h
  have hrds := readsReferences_of_ok hr
  refine ⟨fun row hrow => live_keeps hrds hrow, fun row hrow doc hdoc => ?_,
    fun row hrow hid vm hvm => keeps_of_mem_intents hrow hid hvm,
    fun row hrow hid m hm vm hvm => keeps_of_mem_keptBuilds hrow hid hm hvm,
    fun row hrow => runVm_keeps hrds hrow, fun host hho => hostVm_keeps hrds hho⟩
  exact rollback_keeps hrds hrow hdoc

/-! ## History is not pinned

A live pointer on image `x` with kernel `k1`, and a build that is no longer reusable and describes
the same image twice: for the same slot with kernel `k2`, and for another scenario's slot with
kernel `k3`. -/

def webKey : Json := .obj [("scenario", .str "s"), ("vm", .str "web"), ("arch", .str "x86_64")]

def republishedDb : RetentionDb where
  scenarios := [⟨"s", none⟩]
  scenarioVms := [⟨"s", "web", webKey, some "x", "raw_chunks_v1", some "m", some "k1", some "i"⟩]
  snapshots := []
  candidates := []
  builds := [⟨"b", .succeeded, some ⟨"s",
    [⟨"web", ⟨"s", "web", .x86_64⟩, "x", some "m", some "k2", some "i"⟩,
      ⟨"web", ⟨"t", "web", .x86_64⟩, "x", some "m", some "k3", some "i"⟩]⟩, none⟩]
  bundleRevs := []
  runtimeVms := []
  runtimeExecutions := []
  scenarioRuns := []
  agentHosts := []
  hostDesired := []
  hostActual := []

/-- The same with a run in flight on the slot, and a host that runs its VM. -/
def republishedInFlightDb : RetentionDb :=
  { republishedDb with
    runtimeVms := [⟨"e", "r-web", webKey, "x"⟩]
    runtimeExecutions := [⟨"e", "ready"⟩]
    scenarioRuns := [⟨"r", "s", none, none, "e"⟩]
    agentHosts := [⟨"h", "agent", false⟩]
    hostDesired := [⟨"h", [⟨"r-web", some "running", webKey, some "x"⟩], []⟩] }

/-- What a projection keeps of the boot artifacts. -/
def keptBootArtifacts (db : RetentionDb) : Option (List String) :=
  match projectRegistryRetention Js.compareUnits db 0 with
  | .ok p => some p.bootArtifactSha256s
  | .error _ => none

theorem exists_projection_of_keptBootArtifacts {kept : List String}
    (h : keptBootArtifacts db = some kept) :
    ∃ p, projectRegistryRetention Js.compareUnits db 0 = .ok p ∧ p.bootArtifactSha256s = kept := by
  rw [keptBootArtifacts] at h
  split at h
  · rename_i p hp
    exact ⟨p, hp, Option.some.inj h⟩
  · cases h

theorem keptBootArtifacts_republishedDb : keptBootArtifacts republishedDb = some ["i", "k1"] := by
  decide

/-- A run in flight and a host VM pin the other boot variant of their slot too. -/
theorem keptBootArtifacts_republishedInFlightDb :
    keptBootArtifacts republishedInFlightDb = some ["i", "k1", "k2"] := by
  decide

theorem projectRegistryRetention_keeps_republished :
    ∃ p, projectRegistryRetention Js.compareUnits republishedInFlightDb 0 = .ok p ∧
      p.Keeps "x" ⟨["m"], ["k1", "i"]⟩ ∧
      ∀ row ∈ republishedInFlightDb.runRows, row.imageId ∈ p.imageIds := by
  obtain ⟨p, hp, -⟩ :=
    exists_projection_of_keptBootArtifacts keptBootArtifacts_republishedInFlightDb
  obtain ⟨hlv, -, -, -, hruns, -⟩ := projectRegistryRetention_keeps _ _ _ p hp
  refine ⟨p, hp, ?_, fun row hrow => ?_⟩
  · obtain ⟨_, hid, hkp⟩ := hlv _ (mem_singleton.mpr rfl)
    cases hid
    exact hkp
  · obtain ⟨_, -, ⟨e, he⟩, hall⟩ := hruns row hrow
    exact (hall e he).image

/-- **A record of a kept image need not be kept.**  The kernel `k2` of the superseded build goes
although a live pointer is on its image, and the kernel `k3` it names for the other slot goes although
a run in flight and a host VM are on that image as well. -/
theorem superseded_boot_variant_not_kept :
    (∃ p, projectRegistryRetention Js.compareUnits republishedDb 0 = .ok p ∧
      (∃ row ∈ republishedDb.liveRows, row.1.imageId = some "x") ∧
      ∃ e, Describes republishedDb p.snapshots e ∧ e.imageId = "x" ∧
        ¬ p.Keeps "x" e.closure.artifacts) ∧
    ∃ p, projectRegistryRetention Js.compareUnits republishedInFlightDb 0 = .ok p ∧
      (∃ row ∈ republishedInFlightDb.runRows, row.imageId = "x") ∧
      (∃ host ∈ republishedInFlightDb.hostRows, ∃ vm ∈ host.desiredVms,
        vm.needsImage = true ∧ vm.imageId = some "x") ∧
      ∃ e, Describes republishedInFlightDb p.snapshots e ∧ e.imageId = "x" ∧
        ¬ p.Keeps "x" e.closure.artifacts := by
  constructor
  · obtain ⟨p, hp, hboot⟩ := exists_projection_of_keptBootArtifacts keptBootArtifacts_republishedDb
    refine ⟨p, hp, ⟨_, mem_singleton.mpr rfl, rfl⟩,
      ⟨⟨"s", "web", .x86_64⟩, "x", some "m", some "k2", some "i"⟩, ?_, rfl, fun hkp => ?_⟩
    · exact .inr (.inr (.inr ⟨_, mem_singleton.mpr rfl, _, rfl, _, .head _, by decide⟩))
    have hmem := hkp.bootArtifacts "k2" (by decide)
    rw [hboot] at hmem
    exact absurd hmem (by decide)
  · obtain ⟨p, hp, hboot⟩ :=
      exists_projection_of_keptBootArtifacts keptBootArtifacts_republishedInFlightDb
    refine ⟨p, hp, ⟨_, mem_singleton.mpr rfl, rfl⟩,
      ⟨_, mem_singleton.mpr rfl, _, mem_singleton.mpr rfl, by decide, rfl⟩,
      ⟨⟨"t", "web", .x86_64⟩, "x", some "m", some "k3", some "i"⟩, ?_, rfl, fun hkp => ?_⟩
    · exact .inr (.inr (.inr ⟨_, mem_singleton.mpr rfl, _, rfl, _, .tail _ (.head _), by decide⟩))
    · have hmem := hkp.bootArtifacts "k3" (by decide)
      rw [hboot] at hmem
      exact absurd hmem (by decide)

end Intar.Registry
