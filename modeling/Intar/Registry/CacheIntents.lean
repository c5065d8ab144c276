import Intar.Registry.RetentionClosure

/-!
# Cache intents across hosts

A host's desired state names images to keep warm.  `planHostCacheIntentRetention` decides host by
host which of them to withdraw: those of a managed family that nothing roots, no VM of *that host*
needs and no transfer to *that host* is fetching.  The projection then pins the intents that are
left; but it asks whether the image was trimmed on *any* host.

So an intent of one host stays pinned exactly as long as no other host trims the same image
(`cacheIntent_pinned_iff`).  A host that is still downloading an image keeps its intent, and the
image loses its pin all the same once it is obsolete on a second host
(`Demo.downloading_intent_unpinned`).
-/

namespace Intar.Registry

open Fallible List

variable {localeCompare : String → String → Ordering} {db : RetentionDb} {r : References}

/-- The image ids that one host's own plan withdraws. -/
def HostRow.trims (localeCompare : String → String → Ordering) (db : RetentionDb)
    (host : HostRow) : List String :=
  match readReferences localeCompare db, hostReferences host with
  | .ok r, .ok out => trimmedImageIds (r.managedFamilies db) (r.keepImageIds db) out.2
  | _, _ => []

/-! ## The plan -/

variable {managed keep : List String} {host : HostRow} {imageId hostId : String}
  {image : CachedImageRef}

/-- A trim of the plan is one host's list of withdrawn intents. -/
theorem mem_planHostCacheIntentRetention {hosts : List HostCacheIntentRow}
    {trim : HostCacheIntentTrim} :
    trim ∈ planHostCacheIntentRetention localeCompare hosts managed keep ↔
      ∃ host ∈ hosts, trimmedImageIds managed keep host ≠ [] ∧
        trim = ⟨host.hostId, Js.sort (trimmedImageIds managed keep host).dedup⟩ := by
  rw [planHostCacheIntentRetention, mem_insertionSort, mem_filterMap]
  refine exists_congr fun host => and_congr_right fun _ => ?_
  by_cases hnil : trimmedImageIds managed keep host = []
  · simp [hnil]
  · simp [hnil, eq_comm]

/-- The intent is of a managed family, and neither rooted nor needed nor in flight. -/
def HostCacheIntentRow.Obsolete (managed keep : List String) (row : HostCacheIntentRow)
    (image : CachedImageRef) : Prop :=
  ∃ family ∈ managed, image.family = some family ∧ ∃ imageId, image.imageId = some imageId ∧
    imageId ∉ keep ∧ imageId ∉ row.neededImageIds ∧ imageId ∉ row.inFlightImageIds

theorem mem_trimmedImageIds {row : HostCacheIntentRow} :
    imageId ∈ trimmedImageIds managed keep row ↔
      ∃ image ∈ row.cachedImages, image.imageId = some imageId ∧ row.Obsolete managed keep image := by
  rw [trimmedImageIds, mem_filterMap]
  refine exists_congr fun image => and_congr_right fun _ => ?_
  cases hfam : image.family with
  | none => simp [HostCacheIntentRow.Obsolete, hfam]
  | some =>
    cases hid : image.imageId with
    | none => simp
    | some =>
      simp [HostCacheIntentRow.Obsolete, hfam, hid]
      grind

/-- What is withdrawn names an image that nothing roots. -/
theorem not_keep_of_mem_trimmedImageIds {host : HostCacheIntentRow}
    (h : imageId ∈ trimmedImageIds managed keep host) : imageId ∉ keep := by
  obtain ⟨_, -, hid, -, -, -, _, hid', _, -⟩ := mem_trimmedImageIds.mp h
  rwa [hid, Option.some.injEq, ← hid'] at *

/-- What the trims leave of a host's intents: they are withdrawn by image id. -/
def applyCacheTrims (trims : List HostCacheIntentTrim) (hostId : String)
    (images : List CachedImageRef) : List CachedImageRef :=
  trims.foldl (fun images trim =>
    if trim.hostId = hostId then
      images.filter fun image => !image.imageId.any trim.imageIds.contains
    else images) images

variable {trims : List HostCacheIntentTrim}

theorem mem_applyCacheTrims {images : List CachedImageRef} :
    image ∈ applyCacheTrims trims hostId images ↔ image ∈ images ∧
      ∀ trim ∈ trims, trim.hostId = hostId → ∀ imageId ∈ trim.imageIds,
        image.imageId ≠ some imageId := by
  induction trims generalizing images with
  | nil => simp [applyCacheTrims]
  | cons _ _ ih =>
    rw [applyCacheTrims, foldl_cons, ← applyCacheTrims, ih, forall_mem_cons]
    split_ifs with hho
    · cases hid : image.imageId <;> simp [hid, hho, and_assoc]
      grind
    · simp [hho]

/-- What a host's intents promise: the family is not managed, or a VM or a transfer of the host needs
the image. -/
def HostCacheIntentRow.Protects (managed : List String) (row : HostCacheIntentRow)
    (image : CachedImageRef) : Prop :=
  (∀ family ∈ managed, image.family ≠ some family) ∨
    ∃ imageId, image.imageId = some imageId ∧
      (imageId ∈ row.neededImageIds ∨ imageId ∈ row.inFlightImageIds)

/-- **Protected intents are kept** if and only if none of them shares its image id with an obsolete
intent of the host. -/
theorem protected_intents_survive_iff (localeCompare : String → String → Ordering)
    (hosts : List HostCacheIntentRow) (managed keep : List String) :
    (∀ host ∈ hosts, ∀ image ∈ host.cachedImages, host.Protects managed image →
      image ∈ applyCacheTrims (planHostCacheIntentRetention localeCompare hosts managed keep)
        host.hostId host.cachedImages) ↔
    ∀ host ∈ hosts, ∀ image ∈ host.cachedImages, host.Protects managed image →
      ∀ row ∈ hosts, row.hostId = host.hostId → ∀ other ∈ row.cachedImages,
        other.imageId = image.imageId → ¬ row.Obsolete managed keep other := by
  refine forall₂_congr fun host _ => forall₃_congr fun image himg _ => ?_
  rw [mem_applyCacheTrims, and_iff_right himg]
  constructor
  · intro h row hrow hid other ho hsm hobs
    obtain ⟨-, -, -, imageId, himageId, -⟩ := id hobs
    have hmem : imageId ∈ trimmedImageIds managed keep row :=
      mem_trimmedImageIds.mpr ⟨other, ho, himageId, hobs⟩
    refine h _ (mem_planHostCacheIntentRetention.mpr ⟨row, hrow, ne_nil_of_mem hmem, rfl⟩) hid
      imageId ?_ (hsm.symm.trans himageId)
    rwa [Js.mem_sort, mem_dedup]
  · rintro h _ htrim hid _ hmem himageId
    obtain ⟨row, hrow, -, rfl⟩ := mem_planHostCacheIntentRetention.mp htrim
    rw [Js.mem_sort, mem_dedup] at hmem
    obtain ⟨other, ho, hsm, hobs⟩ := mem_trimmedImageIds.mp hmem
    exact h row hrow hid other ho (hsm.trans himageId.symm) hobs

theorem hostReferences_snd {out : List HostOperationalReference × HostCacheIntentRow}
    (h : hostReferences host = .ok out) :
    out.2.hostId = host.hostId ∧ out.2.cachedImages = host.desiredCachedImages := by
  rw [hostReferences] at h
  obtain ⟨_, -, h⟩ := bind_eq_ok.mp h
  obtain ⟨_, -, h⟩ := bind_eq_ok.mp h
  cases h
  exact ⟨rfl, rfl⟩

section

variable (h : readReferences localeCompare db = .ok r)

include h

/-- The hosts that were read are the host rows, one by one. -/
theorem mem_hosts_of_readReferences {intents : HostCacheIntentRow} :
    intents ∈ r.hosts ↔ ∃ host ∈ db.hostRows, ∃ out, hostReferences host = .ok out ∧
      out.2 = intents := by
  rw [readReferences] at h
  obtain ⟨_, -, h⟩ := bind_eq_ok.mp h
  obtain ⟨_, -, h⟩ := bind_eq_ok.mp h
  obtain ⟨_, -, h⟩ := bind_eq_ok.mp h
  obtain ⟨_, -, h⟩ := bind_eq_ok.mp h
  obtain ⟨_, hhosts, h⟩ := bind_eq_ok.mp h
  obtain ⟨_, -, h⟩ := bind_eq_ok.mp h
  cases h
  rw [mem_map]
  constructor
  · rintro ⟨out, hout, rfl⟩
    obtain ⟨host, hho, hok⟩ := exists_of_mem_each hhosts hout
    exact ⟨host, hho, out, hok, rfl⟩
  · rintro ⟨_, hho, _, hok, rfl⟩
    obtain ⟨out', hout', hok'⟩ := exists_mem_of_each hhosts hho
    rw [hok, Except.ok.injEq] at hok'
    exact ⟨out', hout', by rw [hok']⟩

/-- The projection's trim lists are the host rows' own ones. -/
theorem mem_hostCacheTrims :
    (∃ trim ∈ r.hostCacheTrims db localeCompare, trim.hostId = hostId ∧ imageId ∈ trim.imageIds) ↔
      ∃ host ∈ db.hostRows, host.hostId = hostId ∧ imageId ∈ host.trims localeCompare db := by
  constructor
  · rintro ⟨_, htrim, hid, hmem⟩
    obtain ⟨_, hintents, -, rfl⟩ := mem_planHostCacheIntentRetention.mp htrim
    obtain ⟨host, hho, _, hout, rfl⟩ := (mem_hosts_of_readReferences h).mp hintents
    rw [Js.mem_sort, mem_dedup] at hmem
    refine ⟨host, hho, (hostReferences_snd hout).1.symm.trans hid, ?_⟩
    rw [HostRow.trims, h, hout]
    exact hmem
  · rintro ⟨host, hho, hid, hmem⟩
    rw [HostRow.trims, h] at hmem
    split at hmem
    · rename_i out hr hout
      cases hr
      refine ⟨_, mem_planHostCacheIntentRetention.mpr ⟨out.2, ?_, ne_nil_of_mem hmem, rfl⟩,
        (hostReferences_snd hout).1.trans hid, ?_⟩
      · exact (mem_hosts_of_readReferences h).mpr ⟨host, hho, out, hout, rfl⟩
      · rwa [Js.mem_sort, mem_dedup]
    · cases hmem

/-- The image ids any host trims. -/
theorem mem_allTrimmed :
    imageId ∈ (r.hostCacheTrims db localeCompare).flatMap HostCacheIntentTrim.imageIds ↔
      ∃ host ∈ db.hostRows, imageId ∈ host.trims localeCompare db := by
  rw [mem_flatMap]
  constructor
  · rintro ⟨trim, htrim, hmem⟩
    obtain ⟨host, hho, -, hid⟩ := (mem_hostCacheTrims h).mp ⟨trim, htrim, rfl, hmem⟩
    exact ⟨host, hho, hid⟩
  · rintro ⟨host, hho, hmem⟩
    obtain ⟨trim, htrim, -, hid⟩ := (mem_hostCacheTrims h).mpr ⟨host, hho, rfl, hmem⟩
    exact ⟨trim, htrim, hid⟩

/-! ## The intents that are pinned -/

end

/-- What one intent adds to the keep sets: nothing once its image is trimmed, and else its image
with the closure it resolves to. -/
theorem cacheIntentKeep_eq_ok {exact byImageId : ClosureIndex} {trimmed : List String}
    {kept : List (String × Artifacts)}
    (h : cacheIntentKeep exact byImageId trimmed hostId image = .ok kept) :
    (∀ c ∈ kept, c.1 ∉ trimmed) ∧
      ∀ imageId, truthy image.imageId = some imageId → imageId ∉ trimmed →
        ∃ resolved, mergeImageClosures "retained cache intent" ("host_cached_image:" ++ hostId)
            (readImageKey image.imageKey) imageId exact byImageId true = .ok resolved ∧
          kept = [(imageId, (resolved.map fun m =>
            (⟨m.chunkManifestSha256s, m.bootArtifactSha256s⟩ : Artifacts)).getD ⟨[], []⟩)] := by
  rw [cacheIntentKeep] at h
  split at h
  · rename_i hno
    cases h
    exact ⟨by simp, fun imageId hid => nomatch hno.symm.trans hid⟩
  rename_i hid
  split at h
  · rename_i htrim
    cases h
    refine ⟨by simp, fun imageId' hid' hnot => ?_⟩
    rw [hid, Option.some.injEq] at hid'
    rw [contains_eq_mem, decide_eq_true_iff] at htrim
    exact absurd (hid' ▸ htrim) hnot
  · rename_i htrim
    obtain ⟨resolved, hmrg, h⟩ := bind_eq_ok.mp h
    cases h
    rw [contains_eq_mem, decide_eq_true_iff] at htrim
    refine ⟨?_, fun imageId' hid' hnot => ?_⟩
    · simpa using htrim
    rw [hid, Option.some.injEq] at hid'
    cases hid'
    exact ⟨resolved, hmrg, rfl⟩

variable {cached : List (String × Artifacts)}

/-- The cached images come from the intents, one by one. -/
theorem cachedIntents_eq_ok (h : r.cachedIntents db localeCompare = .ok cached) :
    (∀ c ∈ cached, c.1 ∉ (r.hostCacheTrims db localeCompare).flatMap HostCacheIntentTrim.imageIds) ∧
    ∀ host ∈ r.hosts, ∀ image ∈ host.cachedImages, ∃ kept,
      cacheIntentKeep r.exact r.byImageId
        ((r.hostCacheTrims db localeCompare).flatMap HostCacheIntentTrim.imageIds) host.hostId image
        = .ok kept ∧ ∀ c ∈ kept, c ∈ cached := by
  rw [References.cachedIntents] at h
  obtain ⟨_, hkt, h⟩ := bind_eq_ok.mp h
  cases h
  constructor
  · intro c hc
    obtain ⟨_, hperImage, hc⟩ := mem_flatten.mp hc
    obtain ⟨_, hperHost, hperImage⟩ := mem_flatten.mp hperImage
    obtain ⟨_, -, hho⟩ := exists_of_mem_each hkt hperHost
    obtain ⟨_, -, himg⟩ := exists_of_mem_each hho hperImage
    exact (cacheIntentKeep_eq_ok himg).1 c hc
  · intro _ hho _ himg
    obtain ⟨perHost, hperHost, hok⟩ := exists_mem_of_each hkt hho
    obtain ⟨perImage, hperImage, hok⟩ := exists_mem_of_each hok himg
    refine ⟨perImage, hok, fun c hc => mem_flatten.mpr ⟨perImage, ?_, hc⟩⟩
    exact mem_flatten.mpr ⟨perHost, hperHost, hperImage⟩

variable {now : Int}

/-- What an intent that is left adds is in the keep sets. -/
theorem keeps_of_mem_cached {c : String × Artifacts} (hc : c ∈ cached) :
    (r.projection db localeCompare now cached).Keeps c.1 c.2 where
  image := by
    have himg : c.1 ∈ cached.map Prod.fst := mem_map_of_mem hc
    simp only [References.projection, Js.mem_sort, mem_dedup, mem_append]
    exact .inr himg
  chunkManifests m hm := by
    have hmem : m ∈ cached.flatMap fun c => c.2.chunkManifests := mem_flatMap.mpr ⟨c, hc, hm⟩
    simp only [References.projection, Js.mem_sort, mem_dedup, mem_append]
    exact .inr hmem
  bootArtifacts b hb := by
    have hmem : b ∈ cached.flatMap fun c => c.2.bootArtifacts := mem_flatMap.mpr ⟨c, hc, hb⟩
    simp only [References.projection, Js.mem_sort, mem_dedup, mem_append]
    exact .inr hmem

/-- An image that some host trims is not kept at all. -/
theorem not_mem_imageIds_of_trimmed (hcac : r.cachedIntents db localeCompare = .ok cached)
    (h : imageId ∈ (r.hostCacheTrims db localeCompare).flatMap HostCacheIntentTrim.imageIds) :
    imageId ∉ (r.projection db localeCompare now cached).imageIds := by
  simp only [References.projection, Js.mem_sort, mem_dedup, mem_append, not_or]
  constructor
  · obtain ⟨_, htrim, hmem⟩ := mem_flatMap.mp h
    obtain ⟨_, -, -, rfl⟩ := mem_planHostCacheIntentRetention.mp htrim
    rw [Js.mem_sort, mem_dedup] at hmem
    exact not_keep_of_mem_trimmedImageIds hmem
  · intro hmem
    obtain ⟨c, hc, rfl⟩ := mem_map.mp hmem
    exact (cachedIntents_eq_ok hcac).1 c hc h

/-- An intent whose image no host trims is pinned, with every record it resolves to. -/
theorem keepsHostImage_of_not_trimmed (hr : readReferences localeCompare db = .ok r)
    (hcac : r.cachedIntents db localeCompare = .ok cached) (hho : host ∈ db.hostRows)
    (himg : image ∈ host.desiredCachedImages) (hid : truthy image.imageId = some imageId)
    (hkt : imageId ∉ (r.hostCacheTrims db localeCompare).flatMap HostCacheIntentTrim.imageIds) :
    KeepsHostImage db (r.projection db localeCompare now cached) image.imageId image.imageKey := by
  have hrds := readsReferences_of_ok hr
  obtain ⟨out, hout, -⟩ := hrds.hosts host hho
  obtain ⟨-, himgs⟩ := hostReferences_snd hout
  obtain ⟨_, hok, hall⟩ := (cachedIntents_eq_ok hcac).2 out.2
    ((mem_hosts_of_readReferences hr).mpr ⟨host, hho, out, hout, rfl⟩) image (himgs ▸ himg)
  obtain ⟨_, hmrg, rfl⟩ := (cacheIntentKeep_eq_ok hok).2 imageId hid hkt
  have hkp : (r.projection db localeCompare now cached).Keeps imageId _ :=
    keeps_of_mem_cached (hall _ (mem_singleton.mpr rfl))
  refine ⟨imageId, hid, hkp.image, fun e he => hkp.of_le ?_⟩
  obtain ⟨m, rfl, hle⟩ := exists_merged_of_describes hrds hmrg he
  exact hle

/-- **A cache intent that its own host does not trim is pinned exactly when no other host trims its
image.**  Pinned: it names an image, the image is kept, and so are the chunk manifest and the boot
artifacts of every record the intent resolves to. -/
theorem cacheIntent_pinned_iff (localeCompare : String → String → Ordering) (db : RetentionDb)
    (now : Int) (p : Projection) (h : projectRegistryRetention localeCompare db now = .ok p)
    (host : HostRow) (hhost : host ∈ db.hostRows) (image : CachedImageRef)
    (himage : image ∈ host.desiredCachedImages)
    (hown : ∀ trim ∈ p.hostCacheTrims, trim.hostId = host.hostId →
      ∀ imageId ∈ trim.imageIds, image.imageId ≠ some imageId) :
    KeepsHostImage db p image.imageId image.imageKey ↔
      ∃ imageId, truthy image.imageId = some imageId ∧
        ∀ other ∈ db.hostRows, other.hostId ≠ host.hostId →
          imageId ∉ other.trims localeCompare db := by
  obtain ⟨_, _, hr, hcac, rfl⟩ := projectRegistryRetention_eq_ok h
  constructor
  · rintro ⟨imageId, hid, hmem, -⟩
    refine ⟨imageId, hid, fun other ho _ htrm => ?_⟩
    exact not_mem_imageIds_of_trimmed hcac ((mem_allTrimmed hr).mpr ⟨other, ho, htrm⟩) hmem
  rintro ⟨imageId, hid, hoths⟩
  refine keepsHostImage_of_not_trimmed hr hcac hhost himage hid fun htrimmed => ?_
  obtain ⟨other, ho, htrm⟩ := (mem_allTrimmed hr).mp htrimmed
  by_cases hsm : other.hostId = host.hostId
  · obtain ⟨trim, htrim, hhostId, hmem⟩ := (mem_hostCacheTrims hr).mpr ⟨other, ho, hsm, htrm⟩
    exact hown trim htrim hhostId imageId hmem (Option.filter_eq_some_iff.mp hid).1
  · exact hoths other ho hsm htrm

/-! ## One host trims, another downloads

The live pointer has moved on from image `old`, which only a superseded build describes.  Host `b` is
still downloading it. -/

namespace Demo

/-- Hosts `a` and `b` with the intents given for `a`; `b` wants `old` and reports its download. -/
def warmDb (intents : List CachedImageRef) : RetentionDb :=
  { republishedDb with
    builds := [⟨"b", .succeeded, some ⟨"s",
      [⟨"web", ⟨"s", "web", .x86_64⟩, "old", some "m0", some "k0", some "i0"⟩]⟩, none⟩]
    agentHosts := [⟨"a", "agent", false⟩, ⟨"b", "agent", false⟩]
    hostDesired := [⟨"a", [], intents⟩, ⟨"b", [], [⟨webKey, some "old"⟩]⟩]
    hostActual := [⟨"b", [], [⟨some "old", some "downloading"⟩]⟩] }

/-- Host `b`, as it is read. -/
def downloading : HostRow :=
  ⟨"b", [], [⟨webKey, some "old"⟩], [], [⟨some "old", some "downloading"⟩]⟩

/-- The trims of a projection, and the images and chunk manifests it keeps. -/
def trimsAndKeeps (db : RetentionDb) :
    Option (List HostCacheIntentTrim × List String × List String) :=
  match projectRegistryRetention Js.compareUnits db 0 with
  | .ok p => some (p.hostCacheTrims, p.imageIds, p.chunkManifestSha256s)
  | .error _ => none

theorem exists_projection_of_trimsAndKeeps {db : RetentionDb}
    {images manifests : List String} (h : trimsAndKeeps db = some (trims, images, manifests)) :
    ∃ p, projectRegistryRetention Js.compareUnits db 0 = .ok p ∧ p.hostCacheTrims = trims ∧
      p.imageIds = images ∧ p.chunkManifestSha256s = manifests := by
  rw [trimsAndKeeps] at h
  split at h
  · rename_i p hp
    cases h
    exact ⟨p, hp, rfl, rfl, rfl⟩
  · cases h

def opsKey : Json := .obj [("scenario", .str "ops"), ("vm", .str "web"), ("arch", .str "x86_64")]

/-- An operator's intent for `old` beside one of the managed family. -/
def operatorHost : HostCacheIntentRow := ⟨"a", [⟨webKey, some "old"⟩, ⟨opsKey, some "old"⟩], [], []⟩

theorem unmanaged_intent_withdrawn :
    operatorHost.Protects ["s:web:x86_64"] ⟨opsKey, some "old"⟩ ∧
    applyCacheTrims (planHostCacheIntentRetention Js.compareUnits [operatorHost] ["s:web:x86_64"] [])
      "a" operatorHost.cachedImages = [] :=
  ⟨.inl (by decide), by decide⟩

/-- With another image cached on host `a`, the download of `b` keeps `old` and its manifest. -/
theorem downloading_intent_pinned :
    ∃ p, projectRegistryRetention Js.compareUnits (warmDb [⟨webKey, some "older"⟩]) 0 = .ok p ∧
      p.hostCacheTrims = [⟨"a", ["older"]⟩] ∧
      KeepsHostImage (warmDb [⟨webKey, some "older"⟩]) p (some "old") webKey := by
  obtain ⟨p, hp, htrm, -⟩ := exists_projection_of_trimsAndKeeps
    (show trimsAndKeeps (warmDb [⟨webKey, some "older"⟩])
      = some ([⟨"a", ["older"]⟩], ["old", "x"], ["m", "m0"]) by decide)
  refine ⟨p, hp, htrm, (cacheIntent_pinned_iff _ _ _ p hp downloading (.tail _ (.head _))
    ⟨webKey, some "old"⟩ (.head _) ?_).mpr ⟨"old", rfl, ?_⟩⟩
  · rw [htrm]
    decide
  · decide

/-- **A download is not pinned once another host trims its image**: host `b` withdraws nothing, and
still neither `old` nor its chunk manifest is kept, because host `a` withdraws its own intent. -/
theorem downloading_intent_unpinned :
    ∃ p, projectRegistryRetention Js.compareUnits (warmDb [⟨webKey, some "old"⟩]) 0 = .ok p ∧
      downloading ∈ (warmDb [⟨webKey, some "old"⟩]).hostRows ∧
      p.hostCacheTrims = [⟨"a", ["old"]⟩] ∧
      "old" ∉ p.imageIds ∧ "m0" ∉ p.chunkManifestSha256s ∧
      ¬ KeepsHostImage (warmDb [⟨webKey, some "old"⟩]) p (some "old") webKey := by
  obtain ⟨p, hp, htrm, himgs, hmanifests⟩ := exists_projection_of_trimsAndKeeps
    (show trimsAndKeeps (warmDb [⟨webKey, some "old"⟩])
      = some ([⟨"a", ["old"]⟩], ["x"], ["m"]) by decide)
  have hold : "old" ∉ p.imageIds := by
    rw [himgs]
    decide
  refine ⟨p, hp, .tail _ (.head _), htrm, hold, ?_, ?_⟩
  · rw [hmanifests]
    decide
  · rintro ⟨_, hid, hmem, -⟩
    cases Option.some.inj hid
    exact hold hmem

end Demo

end Intar.Registry
