import Intar.Lib.Js

/-!
# Object keys of the image registry

The registry is one bucket, and what an object *is* can only be read off its key.  Four grammars
are swept by the collector:

```
image-manifests/v1/<sha256>.json
image-chunks/v1/zstd6/<raw sha256>
images/<image-key>/<sha256>.raw.zst    and its .sha256 sidecar
artifacts/<sha256>
```

Writers build keys with `imageManifestObjectKey`, `imageChunkObjectKey`, `imageObjectKey` and
`bootArtifactObjectKey`; the collector reads them back with `parseSweptObjectKey`.  The lemmas at
the end say that the two sides agree on every grammar.
-/

namespace Intar.Registry

/-! ## Image keys -/

/-- `ImageArchitecture`. -/
inductive Architecture where
  | x86_64
  | aarch64
deriving DecidableEq

def Architecture.text : Architecture → String
  | .x86_64 => "x86_64"
  | .aarch64 => "aarch64"

/-- `ImageKey`: one VM of one scenario on one architecture. -/
structure ImageKey where
  (scenario vm : String)
  arch : Architecture
deriving DecidableEq

/-- `[A-Za-z0-9._-]`. -/
def isSlugChar (c : Char) : Bool := c.isAlphanum || c = '.' || c = '_' || c = '-'

/-- `replaceAll(/[^A-Za-z0-9._-]+/g, "-")`; the flag says that a run is being replaced. -/
def collapseUnsafe : Bool → List Char → List Char
  | _, [] => []
  | inRun, c :: cs =>
    if isSlugChar c then c :: collapseUnsafe false cs
    else if inRun then collapseUnsafe true cs
    else '-' :: collapseUnsafe true cs

def safeSlug (value : String) : String :=
  String.ofList (((collapseUnsafe false (Js.trim value).toList).dropWhile (· = '-')).rdropWhile
    (· = '-'))

def registryImageKey (key : ImageKey) : String :=
  safeSlug key.scenario ++ "-" ++ safeSlug key.vm ++ "-" ++ key.arch.text

/-! ## Building keys -/

def artifactPrefix : String := "artifacts/"
def imagePrefix : String := "images/"
def imageChunkPrefix : String := "image-chunks/v1/zstd6/"
def imageManifestPrefix : String := "image-manifests/v1/"
def legacySuffix : String := ".raw.zst"
def sidecarSuffix : String := ".sha256"

/-- The legacy object of an image under a registry image key. -/
def imageFileKey (imageKey imageId : String) : String :=
  imagePrefix ++ (imageKey ++ "/" ++ (imageId ++ legacySuffix))

def imageObjectKey (imageKey : ImageKey) (imageId : String) : String :=
  imageFileKey (registryImageKey imageKey) imageId

def imageChunkObjectKey (rawSha256 : String) : String := imageChunkPrefix ++ rawSha256

def imageManifestObjectKey (manifestSha256 : String) : String :=
  imageManifestPrefix ++ manifestSha256 ++ ".json"

def bootArtifactObjectKey (sha256 : String) : String := artifactPrefix ++ sha256

/-! ## Reading keys back -/

/-- `[a-f0-9]`. -/
def isHexChar (c : Char) : Bool := ('a' ≤ c && c ≤ 'f') || ('0' ≤ c && c ≤ '9')

/-- `/^[a-f0-9]{64}$/`. -/
def isSha256 (s : String) : Bool := s.toList.length = 64 && s.toList.all isHexChar

/-- `CleanupObjectKind`. -/
inductive ObjectKind where
  | manifest
  | chunk
  | legacyImage
  | legacySidecar
  | bootArtifact
deriving DecidableEq

/-- An object inside the swept prefixes. -/
structure SweptObject where
  key : String
  kind : ObjectKind
  bytes : Nat
  sha256 : String
  /-- The registry image key of a legacy object. -/
  imageKey : Option String
deriving DecidableEq

/-- The file name of a legacy object: the digest, and whether it is the sidecar. -/
def parseLegacyFilename (filename : String) : String × Bool :=
  match Js.beforeSuffix filename sidecarSuffix with
  | some base => ((Js.beforeSuffix base legacySuffix).getD "", true)
  | none => ((Js.beforeSuffix filename legacySuffix).getD "", false)

/-- The key below `images/`: an empty image key is refused. -/
def parseLegacyKey (key rest : String) (bytes : Nat) : Option SweptObject :=
  match Js.splitLast rest '/' with
  | none => none
  | some (imageKey, filename) =>
    if imageKey = "" then none
    else
      let (sha256, sidecar) := parseLegacyFilename filename
      if isSha256 sha256 then
        some ⟨key, if sidecar then .legacySidecar else .legacyImage, bytes, sha256, some imageKey⟩
      else none

/-- Parses a key inside a swept prefix; `none` is outside the sweep. -/
def parseSweptObjectKey (key : String) (bytes : Nat) : Option SweptObject :=
  match Js.afterPrefix key imageManifestPrefix with
  | some rest =>
    let sha256 := (Js.beforeSuffix rest ".json").getD ""
    if isSha256 sha256 then some ⟨key, .manifest, bytes, sha256, none⟩ else none
  | none =>
    match Js.afterPrefix key imageChunkPrefix with
    | some sha256 => if isSha256 sha256 then some ⟨key, .chunk, bytes, sha256, none⟩ else none
    | none =>
      match Js.afterPrefix key artifactPrefix with
      | some sha256 =>
        if isSha256 sha256 then some ⟨key, .bootArtifact, bytes, sha256, none⟩ else none
      | none =>
        match Js.afterPrefix key imagePrefix with
        | some rest => parseLegacyKey key rest bytes
        | none => none

variable {key sha256 imageId imageKey : String} {bytes : Nat} {o : SweptObject}

theorem parseLegacyKey_key {rest : String} (h : parseLegacyKey key rest bytes = some o) :
    o.key = key ∧ o.bytes = bytes := by
  rw [parseLegacyKey] at h
  split at h
  · cases h
  split at h
  · cases h
  dsimp only at h
  split at h
  · cases h
    exact ⟨rfl, rfl⟩
  · cases h

/-- A parsed object carries the key and the size it was parsed from. -/
theorem parseSweptObjectKey_key (h : parseSweptObjectKey key bytes = some o) :
    o.key = key ∧ o.bytes = bytes := by
  rw [parseSweptObjectKey] at h
  split at h
  · dsimp only at h
    split at h
    · cases h
      exact ⟨rfl, rfl⟩
    · cases h
  split at h
  · split at h
    · cases h
      exact ⟨rfl, rfl⟩
    · cases h
  split at h
  · split at h
    · cases h
      exact ⟨rfl, rfl⟩
    · cases h
  split at h
  · exact parseLegacyKey_key h
  · cases h

/-! ## Writers and collector agree

The prefixes are told apart by their first letters, so what follows the prefix does not matter. -/

theorem parseSweptObjectKey_manifest (h : isSha256 sha256 = true) (bytes : Nat) :
    parseSweptObjectKey (imageManifestObjectKey sha256) bytes
      = some ⟨imageManifestObjectKey sha256, .manifest, bytes, sha256, none⟩ := by
  have hkey : Js.afterPrefix (imageManifestObjectKey sha256) imageManifestPrefix
      = some (sha256 ++ ".json") := by
    rw [imageManifestObjectKey, String.append_assoc, Js.afterPrefix_append]
  rw [parseSweptObjectKey, hkey]
  simp [Js.beforeSuffix_append, h]

variable (rest : String)

theorem afterPrefix_artifactPrefix :
    Js.afterPrefix (artifactPrefix ++ rest) imageManifestPrefix = none ∧
      Js.afterPrefix (artifactPrefix ++ rest) imageChunkPrefix = none := by
  simp [Js.afterPrefix, Js.startsWith, imageManifestPrefix, imageChunkPrefix, artifactPrefix,
    String.toList_append, List.isPrefixOf]

theorem parseSweptObjectKey_bootArtifact (h : isSha256 sha256 = true) (bytes : Nat) :
    parseSweptObjectKey (bootArtifactObjectKey sha256) bytes
      = some ⟨bootArtifactObjectKey sha256, .bootArtifact, bytes, sha256, none⟩ := by
  obtain ⟨h₁, h₂⟩ := afterPrefix_artifactPrefix sha256
  rw [parseSweptObjectKey, bootArtifactObjectKey, h₁, h₂]
  simp [Js.afterPrefix_append, h]

theorem afterPrefix_imagePrefix :
    Js.afterPrefix (imagePrefix ++ rest) imageManifestPrefix = none ∧
      Js.afterPrefix (imagePrefix ++ rest) imageChunkPrefix = none ∧
      Js.afterPrefix (imagePrefix ++ rest) artifactPrefix = none := by
  simp [Js.afterPrefix, Js.startsWith, imagePrefix, imageManifestPrefix, imageChunkPrefix,
    artifactPrefix, String.toList_append, List.isPrefixOf]

theorem parseSweptObjectKey_imagePrefix (bytes : Nat) :
    parseSweptObjectKey (imagePrefix ++ rest) bytes
      = parseLegacyKey (imagePrefix ++ rest) rest bytes := by
  obtain ⟨h₁, h₂, h₃⟩ := afterPrefix_imagePrefix rest
  rw [parseSweptObjectKey, h₁, h₂, h₃]
  simp [Js.afterPrefix_append]

/-- The name of a legacy image is read back as its digest, and not as a sidecar. -/
theorem parseLegacyFilename_image (imageId : String) :
    parseLegacyFilename (imageId ++ legacySuffix) = (imageId, false) := by
  have hno : Js.beforeSuffix (imageId ++ legacySuffix) sidecarSuffix = none := by
    simp [Js.beforeSuffix, Js.endsWith, legacySuffix, sidecarSuffix, String.toList_append,
      List.isSuffixOf, List.isPrefixOf]
  rw [parseLegacyFilename, hno]
  simp [Js.beforeSuffix_append]

theorem slash_notMem_filename {suffix : String} (hid : '/' ∉ imageId.toList)
    (hsuffix : '/' ∉ suffix.toList) : '/' ∉ (imageId ++ suffix).toList := by
  rw [String.toList_append, List.mem_append, not_or]
  exact ⟨hid, hsuffix⟩

/-- What is stored under the key of an image is read back as that image, if it is read at all: an
image key that is empty or an image id that is no digest is outside the sweep. -/
theorem parseSweptObjectKey_imageFileKey (hid : '/' ∉ imageId.toList)
    (h : parseSweptObjectKey (imageFileKey imageKey imageId) bytes = some o) :
    o.kind = .legacyImage ∧ o.sha256 = imageId := by
  have hsp : Js.splitLast (imageKey ++ "/" ++ (imageId ++ legacySuffix)) '/'
      = some (imageKey, imageId ++ legacySuffix) :=
    Js.splitLast_append (slash_notMem_filename hid (by decide))
  rw [imageFileKey, parseSweptObjectKey_imagePrefix, parseLegacyKey, hsp] at h
  simp only [parseLegacyFilename_image, Bool.false_eq_true, if_false] at h
  split at h
  · cases h
  split at h
  · cases h
    exact ⟨rfl, rfl⟩
  · cases h

theorem slash_notMem_of_isSha256 {s : String} (h : isSha256 s = true) : '/' ∉ s.toList := by
  rw [isSha256, Bool.and_eq_true, List.all_eq_true] at h
  exact fun hmem => absurd (h.2 _ hmem) (by decide)

/-- A sidecar is read back as the sidecar of its image. -/
theorem parseSweptObjectKey_sidecar (hkey : imageKey ≠ "") (hid : isSha256 imageId = true)
    (bytes : Nat) :
    parseSweptObjectKey (imageFileKey imageKey imageId ++ sidecarSuffix) bytes
      = some ⟨imageFileKey imageKey imageId ++ sidecarSuffix, .legacySidecar, bytes, imageId,
          some imageKey⟩ := by
  have hassoc : imageFileKey imageKey imageId ++ sidecarSuffix
      = imagePrefix ++ (imageKey ++ "/" ++ (imageId ++ legacySuffix ++ sidecarSuffix)) := by
    simp only [imageFileKey, String.append_assoc]
  have hslash : '/' ∉ (imageId ++ legacySuffix ++ sidecarSuffix).toList :=
    slash_notMem_filename (slash_notMem_filename (slash_notMem_of_isSha256 hid) (by decide))
      (by decide)
  have hsp : Js.splitLast (imageKey ++ "/" ++ (imageId ++ legacySuffix ++ sidecarSuffix)) '/'
      = some (imageKey, imageId ++ legacySuffix ++ sidecarSuffix) := Js.splitLast_append hslash
  have hnm : parseLegacyFilename (imageId ++ legacySuffix ++ sidecarSuffix) = (imageId, true) := by
    rw [parseLegacyFilename]
    simp only [Js.beforeSuffix_append, Option.getD_some]
  rw [hassoc, parseSweptObjectKey_imagePrefix, parseLegacyKey, hsp]
  simp only [if_neg hkey, hnm, hid, if_true]

end Intar.Registry
