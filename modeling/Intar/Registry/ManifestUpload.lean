import Intar.Lib.JsonText
import Intar.Registry.ChunkManifest

/-!
# The upload of a chunk manifest

`handleImageManifestUpload` takes the bytes of a manifest, checks their digest, parses and validates
them, checks that every chunk is there, and stores the bytes under their digest.  What it validates is
the manifest in normal form; what it stores is the bytes as they came.

`JSON.parse(new TextDecoder().decode(payload))` is given as `decode`, from bytes to the document they
say, and `double` for the numbers in it.
-/

namespace Intar.Registry

/-- An object of the bucket with its custom metadata; its size is the length of its body. -/
structure BucketObject where
  body : Bytes
  metadata : List (String × String)
deriving DecidableEq

namespace BucketObject

def size (o : BucketObject) : ℕ := o.body.length

/-- `customMetadata[name]`. -/
def customMetadata (o : BucketObject) (name : String) : Option String :=
  (o.metadata.find? fun p => p.1 = name).map Prod.snd

end BucketObject

abbrev Bucket := String → Option BucketObject

/-- `authz` is the refusal of `requireBlobUploadAuth`, a status and a text, if it refuses. -/
structure UploadRequest where
  method : String
  authz : Option (ℕ × String)
  pathManifestSha256 : String
  headerManifestSha256 : Option String
  payload : Bytes

/-- A refusal with its status and text, or the key of the stored object. -/
inductive UploadResponse where
  | refused (status : ℕ) (error : String)
  | accepted (status : ℕ) (objectKey : String) (alreadyExists : Bool)
deriving DecidableEq

def maxManifestBytes : ℕ := 4 * 1024 * 1024

/-- `chunkObjectMatchesDescriptor`.  The sizes in the metadata are compared as text with those of the
entry, which are positive and bounded, so that reading them as numbers adds nothing. -/
def chunkObjectMatchesDescriptor (object : Option BucketObject) (chunk : ImageChunk) : Bool :=
  match object with
  | none => false
  | some object =>
    object.customMetadata "raw_sha256" = some chunk.rawSha256 ∧
      object.customMetadata "encoding" = some imageChunkEncoding ∧
      object.customMetadata "encoded_sha256" = some chunk.encodedSha256 ∧
      object.customMetadata "raw_size_bytes" = some (toString chunk.rawSizeBytes) ∧
      object.customMetadata "encoded_size_bytes" = some (toString chunk.encodedSizeBytes) ∧
      object.size = chunk.encodedSizeBytes

def manifestMetadata (manifestSha256 : String) (manifest : ImageChunkManifest) :
    List (String × String) :=
  [("manifest_sha256", manifestSha256), ("image_id", manifest.imageId),
    ("virtual_size_bytes", toString manifest.virtualSizeBytes),
    ("chunk_size_bytes", toString chunkSizeBytes), ("encoding", imageChunkEncoding)]

section

variable (sha256Hex : Bytes → String) (decode : Bytes → Option JsonText)
  (double : JsonText.Doubles)

/-- What the registry makes of the bytes of a manifest. -/
def readManifest (payload : Bytes) : Except String ImageChunkManifest :=
  match decode payload with
  | none => .error "image manifest must be valid JSON"
  | some text => validateImageChunkManifest sha256Hex (text.toJson double)

/-- What follows the validation: the chunks must be there, and an object that is there already must
be this one. -/
def storeManifest (bucket : Bucket) (payload : Bytes) (manifestSha256 : String)
    (manifest : ImageChunkManifest) : UploadResponse × Bucket :=
  match manifest.chunks.find? fun chunk =>
      ! chunkObjectMatchesDescriptor (bucket (imageChunkObjectKey chunk.rawSha256)) chunk with
  | some chunk =>
    (.refused 409 ("missing or mismatched image chunk at index " ++ toString chunk.index), bucket)
  | none =>
    let objectKey := imageManifestObjectKey manifestSha256
    match bucket objectKey with
    | some existing =>
      if existing.customMetadata "manifest_sha256" = some manifestSha256 ∧
          existing.customMetadata "image_id" = some manifest.imageId ∧ existing.size = payload.length then
        (.accepted 200 objectKey true, bucket)
      else (.refused 409 "immutable image manifest already differs", bucket)
    | none =>
      (.accepted 201 objectKey false, Function.update bucket objectKey
        (some ⟨payload, manifestMetadata manifestSha256 manifest⟩))

def handleImageManifestUpload (bucket : Bucket) (request : UploadRequest) :
    UploadResponse × Bucket :=
  if request.method ≠ "PUT" then (.refused 405 "method not allowed", bucket)
  else
    match request.authz, normalizeSha256 request.pathManifestSha256 with
    | some (status, error), _ => (.refused status error, bucket)
    | none, none => (.refused 400 "invalid image manifest SHA-256", bucket)
    | none, some manifestSha256 =>
      if normalizeSha256 (request.headerManifestSha256.getD "") ≠ some manifestSha256 then
        (.refused 400 "invalid image manifest SHA-256", bucket)
      else if request.payload.length = 0 ∨ maxManifestBytes < request.payload.length then
        (.refused 400 "invalid image manifest size", bucket)
      else if sha256Hex request.payload ≠ manifestSha256 then
        (.refused 400 "image manifest SHA-256 mismatch", bucket)
      else
        match readManifest sha256Hex decode double request.payload with
        | .error error => (.refused 400 error, bucket)
        | .ok manifest => storeManifest bucket request.payload manifestSha256 manifest

variable {sha256Hex decode double}

variable {bucket bucket' : Bucket} {status : ℕ} {objectKey : String} {alreadyExists : Bool}

theorem storeManifest_accepted {payload : Bytes} {manifestSha256 : String}
    {manifest : ImageChunkManifest} (h : storeManifest bucket payload manifestSha256 manifest =
      (.accepted status objectKey alreadyExists, bucket')) :
    alreadyExists = false → bucket' objectKey =
      some ⟨payload, manifestMetadata manifestSha256 manifest⟩ := by
  unfold storeManifest at h
  dsimp only at h
  split at h
  · cases h
  split at h
  · split_ifs at h
    · cases h
      nofun
    · cases h
  · cases h
    exact fun _ => Function.update_self _ _ _

/-- **What is stored was validated**: an accepted upload read its payload as a manifest, and a new
object holds the payload as it came. -/
theorem handleImageManifestUpload_accepted {request : UploadRequest} 
    (h : handleImageManifestUpload sha256Hex decode double bucket request =
      (.accepted status objectKey alreadyExists, bucket')) :
    ∃ manifest, readManifest sha256Hex decode double request.payload = .ok manifest ∧
      (alreadyExists = false → bucket' objectKey =
        some ⟨request.payload, manifestMetadata (sha256Hex request.payload) manifest⟩) := by
  unfold handleImageManifestUpload at h
  split at h
  · cases h
  split at h
  · cases h
  · cases h
  split at h
  · cases h
  split at h
  · cases h
  split at h
  · cases h
  case isFalse hsha =>
    split at h
    · cases h
    case h_2 manifest hrd =>
      rw [not_ne_iff.mp hsha]
      exact ⟨manifest, hrd, storeManifest_accepted h⟩

end

end Intar.Registry
