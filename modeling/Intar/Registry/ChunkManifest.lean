import Intar.Lib.Json
import Intar.Registry.ObjectKey

/-!
# Chunk manifests

A chunked image is stored as its non-zero chunks and one manifest that lists them.  The manifest
is the only record of which chunks an image has, so whoever relies on one validates it first:
`validateImageChunkManifest` checks the header, the order and sizes of the chunk entries, and that
the image id is the digest over the ordered raw chunks (`computeImageId`).

SHA-256 is a parameter, `sha256Hex`; nothing here depends on how it is computed.
-/

namespace Intar.Registry

abbrev Bytes := List UInt8

/-- `ImageChunkV1`. -/
structure ImageChunk where
  (index rawSizeBytes : Nat)
  rawSha256 : String
  encodedSizeBytes : Nat
  encodedSha256 : String
deriving DecidableEq

/-- `ImageChunkManifestV1`. -/
structure ImageChunkManifest where
  schemaVersion : Nat
  imageId : String
  (virtualSizeBytes chunkSizeBytes : Nat)
  encoding : String
  chunks : List ImageChunk
deriving DecidableEq

def chunkSizeBytes : Nat := 4 * 1024 * 1024
def maxEncodedChunkBytes : Nat := chunkSizeBytes * 2
def maxImageBytes : Nat := 64 * 1024 * 1024 * 1024
def imageChunkEncoding : String := "zstd-v1-level-6"
def fullZeroChunkSha256 : String :=
  "bb9f8df61474d25e71fa00722318cd387396ca1736605e1248821cc0de3d3af8"

/-! ## Reading untyped values -/

/-- `readString`: a string with some text in it, trimmed. -/
def readString : Option Json → Option String
  | some (.str s) => Js.trimOrNone (some s)
  | _ => none

def normalizeSha256 (value : String) : Option String :=
  let normalized := Js.toLowerCase (Js.trim value)
  if isSha256 normalized then some normalized else none

/-- `normalizeSha256(readString(value) ?? "")`. -/
def readSha256 (value : Option Json) : Option String := normalizeSha256 ((readString value).getD "")

/-- A field that is a safe integer of at least `low`. -/
def readNat (low : Nat) (value : Option Json) : Option Nat :=
  match value.bind Json.asSafeInt with
  | some n => if (low : Int) ≤ n then some n.toNat else none
  | none => none

/-! ## The image id -/

/-- `value` in `count` bytes, least significant first. -/
def littleEndian (count value : Nat) : Bytes :=
  (List.range count).map fun k => UInt8.ofNat (value / 256 ^ k)

def hexDigit (c : Char) : Nat :=
  if '0' ≤ c ∧ c ≤ '9' then c.toNat - '0'.toNat else c.toNat - 'a'.toNat + 10

def hexPairs : List Char → Bytes
  | a :: b :: rest => UInt8.ofNat (16 * hexDigit a + hexDigit b) :: hexPairs rest
  | _ => []

def hexToBytes (value : String) : Bytes := hexPairs (value.toList.take 64)

/-- `Math.ceil(virtualSizeBytes / CHUNK_SIZE_BYTES)`. -/
def chunkCount (virtualSizeBytes : Nat) : Nat :=
  (virtualSizeBytes + chunkSizeBytes - 1) / chunkSizeBytes

/-- `virtualSizeBytes % CHUNK_SIZE_BYTES || CHUNK_SIZE_BYTES`. -/
def finalChunkSize (virtualSizeBytes : Nat) : Nat :=
  if virtualSizeBytes % chunkSizeBytes = 0 then chunkSizeBytes else virtualSizeBytes % chunkSizeBytes

/-- The size of the raw chunk at an index: only the last one can be short. -/
def rawChunkSize (virtualSizeBytes index : Nat) : Nat :=
  if index = chunkCount virtualSizeBytes - 1 then finalChunkSize virtualSizeBytes
  else chunkSizeBytes

section

variable (sha256Hex : Bytes → String)

/-- The digest of an all-zero chunk at an index. -/
def zeroChunkSha256 (virtualSizeBytes index : Nat) : String :=
  if index = chunkCount virtualSizeBytes - 1 ∧ finalChunkSize virtualSizeBytes ≠ chunkSizeBytes then
    sha256Hex (List.replicate (finalChunkSize virtualSizeBytes) 0)
  else fullZeroChunkSha256

/-- The descriptors of the chunks `indices`, with the digest of zeros where no entry stands. -/
def chunkDescriptors (virtualSizeBytes : Nat) : List Nat → List ImageChunk → Bytes
  | [], _ => []
  | i :: is, [] =>
    littleEndian 4 i ++ littleEndian 4 (rawChunkSize virtualSizeBytes i) ++
      hexToBytes (zeroChunkSha256 sha256Hex virtualSizeBytes i) ++
      chunkDescriptors virtualSizeBytes is []
  | i :: is, d :: ds =>
    if d.index = i then
      littleEndian 4 i ++ littleEndian 4 (rawChunkSize virtualSizeBytes i) ++
        hexToBytes d.rawSha256 ++ chunkDescriptors virtualSizeBytes is ds
    else
      littleEndian 4 i ++ littleEndian 4 (rawChunkSize virtualSizeBytes i) ++
        hexToBytes (zeroChunkSha256 sha256Hex virtualSizeBytes i) ++
        chunkDescriptors virtualSizeBytes is (d :: ds)

/-- The digest over the domain, the sizes and every raw chunk in order. -/
def computeImageId (manifest : ImageChunkManifest) : String :=
  sha256Hex <|
    "intar-raw-chunks-v1\x00".toList.map (fun c => UInt8.ofNat c.toNat) ++
      littleEndian 8 manifest.virtualSizeBytes ++ littleEndian 4 chunkSizeBytes ++
      chunkDescriptors sha256Hex manifest.virtualSizeBytes
        (List.range (chunkCount manifest.virtualSizeBytes)) manifest.chunks

/-- The bytes `computeImageId` hashes. -/
def hashedBytes (manifest : ImageChunkManifest) : Bytes :=
  "intar-raw-chunks-v1\x00".toList.map (fun c => UInt8.ofNat c.toNat) ++
    littleEndian 8 manifest.virtualSizeBytes ++ littleEndian 4 chunkSizeBytes ++
    chunkDescriptors sha256Hex manifest.virtualSizeBytes
      (List.range (chunkCount manifest.virtualSizeBytes)) manifest.chunks

theorem computeImageId_eq (manifest : ImageChunkManifest) :
    computeImageId sha256Hex manifest = sha256Hex (hashedBytes sha256Hex manifest) := rfl

/-! ## Validation -/

/-- One entry of `chunks`.  `next` is the lowest index it may have, one above the previous one. -/
def validateChunk (virtualSizeBytes next : Nat) (raw : Json) : Except String ImageChunk :=
  match raw with
  | .obj _ =>
    match readNat next (raw.field "index"), readNat 0 (raw.field "raw_size_bytes"),
      readNat 1 (raw.field "encoded_size_bytes"), readSha256 (raw.field "raw_sha256"),
      readSha256 (raw.field "encoded_sha256") with
    | some index, some rawSize, some encodedSize, some rawSha256, some encodedSha256 =>
      if index < chunkCount virtualSizeBytes ∧ rawSize = rawChunkSize virtualSizeBytes index ∧
          encodedSize ≤ maxEncodedChunkBytes then
        if rawSha256 = zeroChunkSha256 sha256Hex virtualSizeBytes index then
          .error "zero chunks must be represented as sparse holes"
        else .ok ⟨index, rawSize, rawSha256, encodedSize, encodedSha256⟩
      else .error "invalid image chunk entry"
    | _, _, _, _, _ => .error "invalid image chunk entry"
  | _ => .error "invalid image chunk entry"

def validateChunks (virtualSizeBytes : Nat) : Nat → List Json → Except String (List ImageChunk)
  | _, [] => .ok []
  | next, raw :: rest =>
    match validateChunk sha256Hex virtualSizeBytes next raw with
    | .error e => .error e
    | .ok chunk =>
      match validateChunks virtualSizeBytes (chunk.index + 1) rest with
      | .error e => .error e
      | .ok chunks => .ok (chunk :: chunks)

/-- The header: the two sizes, the encoding, the image id and the list of entries. -/
def validateHeader (value : Json) : Option (Nat × String × List Json) :=
  match readNat 1 (value.field "virtual_size_bytes"), readSha256 (value.field "image_id"),
    (value.field "chunks").bind Json.asArr with
  | some virtualSizeBytes, some imageId, some chunks =>
    if (value.field "schema_version").bind Json.asSafeInt = some 1 ∧
        (value.field "chunk_size_bytes").bind Json.asSafeInt = some chunkSizeBytes ∧
        (value.field "encoding").bind Json.asStr = some imageChunkEncoding ∧
        virtualSizeBytes ≤ maxImageBytes then some (virtualSizeBytes, imageId, chunks)
    else none
  | _, _, _ => none

/-- The one manifest validator: the manifest in normal form, or the message of the refusal. -/
def validateImageChunkManifest (value : Json) : Except String ImageChunkManifest :=
  match value with
  | .obj _ =>
    match validateHeader value with
    | none => .error "invalid image manifest header"
    | some (virtualSizeBytes, imageId, rawChunks) =>
      match validateChunks sha256Hex virtualSizeBytes 0 rawChunks with
      | .error e => .error e
      | .ok chunks =>
        let manifest : ImageChunkManifest :=
          ⟨1, imageId, virtualSizeBytes, chunkSizeBytes, imageChunkEncoding, chunks⟩
        if computeImageId sha256Hex manifest = imageId then .ok manifest
        else .error "image_id does not match ordered raw chunks"
  | _ => .error "manifest must be an object"

end

end Intar.Registry
