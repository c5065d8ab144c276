import Intar.Image.Manifest
import Intar.Lib.Blocks
import Intar.Lib.SortedTable
import Mathlib

/-!
# Chunked images

The builder cuts a raw image into chunks of 4 MiB.  `scan_image_chunks` reads and hashes the chunks
that are not zero, `write_scanned_chunked_image_artifact_from_reader` encodes each different one
once and writes the manifest, and `reconstruct_chunked_image` rebuilds the raw image from a manifest
and the encoded chunks.

What is outside the code is given to it:

* `ImageChunkReader` is one immutable source; `Reads` says that it is an image, and `ZeroRange` that
  a range it declares holds zeros.
* `Zstd` is the compression with what is documented of it.
* `WriteFaults` and `OutputFaults` say which file operations fail.  Removing the output file that the
  call itself created is taken to succeed.

All sizes are at most 64 GiB, so no arithmetic on `u64` overflows and every index fits a `u32`; the
checks for that are left out.  Encoder threads of one batch write different files, so they are taken
in order.
-/

namespace Intar.Image

open SortedTable

open Registry (Bytes ImageChunk ImageChunkManifest isSha256)
open Blocks (block batches writeAt)
open Fallible (ensure)

/-- What the three operations fail with. -/
inductive ChunkError where
  | reader (message : String)
  | notBounded
  | invalidZeroExtent
  | incompleteBatch
  | partialChunk (index : ℕ)
  | changedAfterScan
  | scanInvalid
  | reusedInvalid
  | encodedDiffers
  | metadataMissing
  | manifest (error : ManifestError)
  | file
  | encodedMismatch (index : ℕ)
  | decode
  | sizeMismatch (index : ℕ)
  | rawMismatch (index : ℕ)
deriving DecidableEq

/-- zstd at level 6 with the content size and a checksum: what is read back of an encoded string is
the string, and an encoded chunk stays within twice the size of a chunk. -/
structure Zstd where
  encode : Bytes → Bytes
  /-- The first `limit` bytes of the decoded stream. -/
  read : (encoded : Bytes) → (limit : ℕ) → Option Bytes
  read_encode : ∀ bytes limit, read (encode bytes) limit = some (bytes.take limit)
  length_encode_pos : ∀ bytes, 0 < (encode bytes).length
  length_encode_le : ∀ bytes, bytes.length ≤ imageChunkSizeBytes →
    (encode bytes).length ≤ imageChunkSizeBytes * 2

/-! ## Scanning -/

/-- `Range<u64>`. -/
structure ByteRange where
  (start stop : ℕ)
deriving DecidableEq

structure ImageChunkRead where
  (offset length : ℕ)
deriving DecidableEq

structure ImageChunkReader where
  virtualSizeBytes : Except ChunkError ℕ
  knownZeroRanges : Except ChunkError (Option (List ByteRange))
  readChunks : List ImageChunkRead → Except ChunkError (List Bytes)

structure ScannedImageChunk where
  (index rawSizeBytes : ℕ)
  rawSha256 : String
deriving DecidableEq

structure ScannedChunkedImage where
  virtualSizeBytes : ℕ
  chunks : List ScannedImageChunk
deriving DecidableEq

def maxChunkReadsInFlight : ℕ := 8

def chunkCompressionWorkers : ℕ := 4

/-- The loop of `normalize_ranges` over the sorted ranges; the ranges already merged stand in
reverse, so that the last one is at hand. -/
def mergeRanges (size : ℕ) : List ByteRange → List ByteRange → Except ChunkError (List ByteRange)
  | normalized, [] => .ok normalized.reverse
  | normalized, range :: ranges =>
    if range.start < range.stop ∧ range.stop ≤ size then
      match normalized with
      | previous :: before =>
        if range.start ≤ previous.stop then
          mergeRanges size (⟨previous.start, max previous.stop range.stop⟩ :: before) ranges
        else mergeRanges size (range :: previous :: before) ranges
      | [] => mergeRanges size [range] ranges
    else .error .invalidZeroExtent

def normalizeRanges (ranges : List ByteRange) (size : ℕ) : Except ChunkError (List ByteRange) :=
  mergeRanges size [] (ranges.insertionSort fun a b => a.start ≤ b.start)

def rangeIsCovered (ranges : List ByteRange) (start stop : ℕ) : Bool :=
  match ranges.find? fun range => start < range.stop with
  | some range => range.start ≤ start ∧ stop ≤ range.stop
  | none => false

section

variable (S : Sha256)

/-- The loop of `hash_read_batch`: the chunks that are not zero are kept with their digests. -/
def hashBatch : List ScannedImageChunk → List ((ScannedImageChunk × ImageChunkRead) × Bytes) →
    Except ChunkError (List ScannedImageChunk)
  | chunks, [] => .ok chunks
  | chunks, ((chunk, read), bytes) :: rest =>
    if bytes.length ≠ read.length then .error (.partialChunk chunk.index)
    else if bytes.any (· ≠ 0) then
      hashBatch (chunks ++ [{ chunk with rawSha256 := S.hex bytes }]) rest
    else hashBatch chunks rest

def hashReadBatch (reader : ImageChunkReader) (chunks : List ScannedImageChunk)
    (reads : List (ScannedImageChunk × ImageChunkRead)) :
    Except ChunkError (List ScannedImageChunk) := do
  let bytes ← reader.readChunks (reads.map Prod.snd)
  ensure (bytes.length = reads.length) .incompleteBatch
  hashBatch S chunks (reads.zip bytes)

/-- The loop of `scan_image_chunks` over the chunk indices: `chunks` are the chunks hashed so far,
`reads` the requests of the batch that is being filled. -/
def scanLoop (reader : ImageChunkReader) (zeroRanges : List ByteRange) (size : ℕ) :
    List ℕ → List ScannedImageChunk → List (ScannedImageChunk × ImageChunkRead) →
    Except ChunkError (List ScannedImageChunk × List (ScannedImageChunk × ImageChunkRead))
  | [], chunks, reads => .ok (chunks, reads)
  | rawIndex :: rest, chunks, reads =>
    let chunkStart := rawIndex * imageChunkSizeBytes
    let chunkEnd := min (chunkStart + imageChunkSizeBytes) size
    let length := chunkEnd - chunkStart
    if rangeIsCovered zeroRanges chunkStart chunkEnd then
      scanLoop reader zeroRanges size rest chunks reads
    else
      let reads := reads ++ [(⟨rawIndex, length, ""⟩, ⟨chunkStart, length⟩)]
      if reads.length = maxChunkReadsInFlight then do
        let chunks ← hashReadBatch S reader chunks reads
        scanLoop reader zeroRanges size rest chunks []
      else scanLoop reader zeroRanges size rest chunks reads

/-- The batch that was not full when the indices ran out. -/
def hashLastBatch (reader : ImageChunkReader) (chunks : List ScannedImageChunk)
    (reads : List (ScannedImageChunk × ImageChunkRead)) :
    Except ChunkError (List ScannedImageChunk) :=
  if reads.isEmpty then .ok chunks else hashReadBatch S reader chunks reads

def scanImageChunks (reader : ImageChunkReader) : Except ChunkError ScannedChunkedImage := do
  let size ← reader.virtualSizeBytes
  ensure (1 ≤ size ∧ size ≤ maxChunkedImageBytes) .notBounded
  let zeroRanges ← normalizeRanges ((← reader.knownZeroRanges).getD []) size
  let chunkCount := (size + imageChunkSizeBytes - 1) / imageChunkSizeBytes
  let (chunks, reads) ← scanLoop S reader zeroRanges size (List.range chunkCount) [] []
  let chunks ← hashLastBatch S reader chunks reads
  return ⟨size, chunks.insertionSort fun a b => a.index ≤ b.index⟩

end

/-! ## Writing -/

structure ReusedEncodedImageChunk where
  rawSha256 : String
  rawSizeBytes : ℕ
  encodedSha256 : String
  encodedSizeBytes : ℕ
deriving DecidableEq

/-- `path` is the name of the file in the chunk directory. -/
structure EncodedChunk where
  (rawSha256 encodedSha256 : String)
  encodedSizeBytes : ℕ
  path : Option String
deriving DecidableEq

structure EncodedImageChunkArtifact where
  descriptor : ImageChunk
  path : Option String
deriving DecidableEq

structure ChunkedImageArtifact where
  manifest : ImageChunkManifest
  chunks : List EncodedImageChunkArtifact
deriving DecidableEq

/-- The files of the chunk directory, by name. -/
abbrev ChunkDir := String → Option Bytes

/-- Which file operations of a write fail: making the directories, any operation on the file of a
chunk, publishing the manifest. -/
structure WriteFaults where
  createDir : Bool
  chunkFile : String → Bool
  publish : Bool

def ensureChunks (size : ℕ) : Option ℕ → List ScannedImageChunk → Except ChunkError Unit
  | _, [] => .ok ()
  | previous, chunk :: chunks =>
    let logicalChunks := (size + imageChunkSizeBytes - 1) / imageChunkSizeBytes
    let expectedSize :=
      if chunk.index + 1 = logicalChunks then size - chunk.index * imageChunkSizeBytes
      else imageChunkSizeBytes
    if (∀ index ∈ previous, index < chunk.index) ∧ chunk.index < logicalChunks ∧
        chunk.rawSizeBytes = expectedSize ∧ isSha256 chunk.rawSha256 then
      ensureChunks size (some chunk.index) chunks
    else .error .scanInvalid

def ensureScanIsValid (scan : ScannedChunkedImage) (size : ℕ) : Except ChunkError Unit :=
  if size = scan.virtualSizeBytes ∧
      1 ≤ scan.virtualSizeBytes ∧ scan.virtualSizeBytes ≤ maxChunkedImageBytes then
    ensureChunks scan.virtualSizeBytes none scan.chunks
  else .error .changedAfterScan

/-- `unique.entry(raw_sha256).or_insert_with(..)`. -/
def enterUnique (unique : List ScannedImageChunk) (chunk : ScannedImageChunk) :
    List ScannedImageChunk :=
  match get ScannedImageChunk.rawSha256 chunk.rawSha256 unique with
  | some _ => unique
  | none => insert ScannedImageChunk.rawSha256 chunk unique

/-- The map `unique`: the first chunk of each digest. -/
def uniqueChunks (chunks : List ScannedImageChunk) : List ScannedImageChunk :=
  chunks.foldl enterUnique []

def validateReusedChunk (rawSha256 : String) (rawSizeBytes : ℕ) (reused : ReusedEncodedImageChunk) :
    Except ChunkError Unit :=
  if reused.rawSha256 = rawSha256 ∧ reused.rawSizeBytes = rawSizeBytes ∧
      isSha256 reused.rawSha256 ∧ isSha256 reused.encodedSha256 ∧ 0 < reused.encodedSizeBytes then
    .ok ()
  else .error .reusedInvalid

/-- The loop over `unique`: what the registry has already, and what is missing there. -/
def splitReused (reused : String → Option ReusedEncodedImageChunk) :
    List ScannedImageChunk → List EncodedChunk → List ScannedImageChunk →
    Except ChunkError (List EncodedChunk × List ScannedImageChunk)
  | [], encoded, missing => .ok (encoded, missing)
  | chunk :: chunks, encoded, missing =>
    match reused chunk.rawSha256 with
    | some existing => do
      validateReusedChunk chunk.rawSha256 chunk.rawSizeBytes existing
      splitReused reused chunks
        (insert EncodedChunk.rawSha256
          ⟨chunk.rawSha256, existing.encodedSha256, existing.encodedSizeBytes, none⟩ encoded) missing
    | none => splitReused reused chunks encoded (missing ++ [chunk])

def chunkRead (chunk : ScannedImageChunk) : ImageChunkRead :=
  ⟨chunk.index * imageChunkSizeBytes, chunk.rawSizeBytes⟩

def chunkFileName (rawSha256 : String) : String := rawSha256 ++ ".raw.zst"

section

variable (S : Sha256) (Z : Zstd) (faults : WriteFaults)

def encodeChunk (chunk : ScannedImageChunk) (bytes : Bytes) (dir : ChunkDir) :
    Except ChunkError (EncodedChunk × ChunkDir) :=
  if bytes.length = chunk.rawSizeBytes ∧ S.hex bytes = chunk.rawSha256 then
    if faults.chunkFile chunk.rawSha256 then .error .file
    else
      let encoded := Z.encode bytes
      let path := chunkFileName chunk.rawSha256
      let result : EncodedChunk := ⟨chunk.rawSha256, S.hex encoded, encoded.length, some path⟩
      match dir path with
      | some existing =>
        if existing.length = encoded.length ∧ S.hex existing = S.hex encoded then .ok (result, dir)
        else .error .encodedDiffers
      | none => .ok (result, Function.update dir path (some encoded))
  else .error .changedAfterScan

/-- What the loop over the missing chunks changes: the map of encoded chunks and the directory. -/
abbrev Encoding := List EncodedChunk × ChunkDir

/-- `encode_batch`, and the insertion of its results. -/
def encodeBatch : List (ScannedImageChunk × Bytes) → Encoding → Except ChunkError Encoding
  | [], state => .ok state
  | (chunk, bytes) :: rest, (encoded, dir) => do
    let (result, dir) ← encodeChunk S Z faults chunk bytes dir
    encodeBatch rest (insert EncodedChunk.rawSha256 result encoded, dir)

/-- A batch of missing chunks: read, checked for partial chunks, and encoded four at a time. -/
def encodeMissing (reader : ImageChunkReader) (batch : List ScannedImageChunk) (state : Encoding) :
    Except ChunkError Encoding := do
  let bytes ← reader.readChunks (batch.map chunkRead)
  ensure (bytes.length = batch.length) .incompleteBatch
  match (batch.zip bytes).find? fun read => read.2.length ≠ read.1.rawSizeBytes with
  | some read => throw (.partialChunk read.1.index)
  | none =>
    (batches chunkCompressionWorkers (batch.zip bytes)).foldlM
      (fun state batch => encodeBatch S Z faults batch state) state

def artifactChunk (encoded : List EncodedChunk) (scanned : ScannedImageChunk) :
    Except ChunkError EncodedImageChunkArtifact :=
  match get EncodedChunk.rawSha256 scanned.rawSha256 encoded with
  | some chunk =>
    .ok ⟨⟨scanned.index, scanned.rawSizeBytes, scanned.rawSha256, chunk.encodedSizeBytes,
      chunk.encodedSha256⟩, chunk.path⟩
  | none => .error .metadataMissing

/-- The manifest of the chunks, with the image id computed from it. -/
def buildManifest (size : ℕ) (chunks : List ImageChunk) : Except ManifestError ImageChunkManifest := do
  let manifest : ImageChunkManifest :=
    ⟨imageChunkManifestSchemaVersion, String.ofList (List.replicate 64 '0'), size,
      imageChunkSizeBytes, imageChunkEncoding, chunks⟩
  let imageId ← computeImageId S manifest
  let manifest := { manifest with imageId }
  validate S manifest
  return manifest

/-- `write_scanned_chunked_image_artifact_from_reader`, with the chunk directory after it. -/
def writeScannedChunkedImageArtifact (scan : ScannedChunkedImage) (reader : ImageChunkReader)
    (dir : ChunkDir) (reused : String → Option ReusedEncodedImageChunk) :
    Except ChunkError (ChunkedImageArtifact × ChunkDir) := do
  ensureScanIsValid scan (← reader.virtualSizeBytes)
  ensure (¬ faults.createDir) .file
  let (encoded, missing) ← splitReused reused (uniqueChunks scan.chunks) [] []
  let (encoded, dir) ← (batches maxChunkReadsInFlight missing).foldlM
    (fun state batch => encodeMissing S Z faults reader batch state) (encoded, dir)
  let chunks ← Fallible.each (artifactChunk encoded) scan.chunks
  let manifest ← (buildManifest S scan.virtualSizeBytes
    (chunks.map EncodedImageChunkArtifact.descriptor)).mapError .manifest
  ensure (¬ faults.publish) .file
  return (⟨manifest, chunks⟩, dir)

end

/-! ## Reconstruction -/

/-- Which operations on the output file fail: creating it, setting its length, writing the chunk at
an index, syncing it. -/
structure OutputFaults where
  (create setLen : Bool)
  write : ℕ → Bool
  sync : Bool

section

variable (S : Sha256) (Z : Zstd) (files : ImageChunk → Option Bytes) (faults : OutputFaults)

/-- The raw bytes of one chunk, with both digests checked. -/
def decodeChunk (chunk : ImageChunk) : Except ChunkError Bytes :=
  match files chunk with
  | none => .error .file
  | some encoded =>
    if S.hex encoded ≠ chunk.encodedSha256 then .error (.encodedMismatch chunk.index)
    else
      match Z.read encoded (chunk.rawSizeBytes + 1) with
      | none => .error .decode
      | some raw =>
        if raw.length ≠ chunk.rawSizeBytes then .error (.sizeMismatch chunk.index)
        else if S.hex raw ≠ chunk.rawSha256 then .error (.rawMismatch chunk.index)
        else .ok raw

/-- The loop of `reconstruct_chunked_image` over the entries, on the bytes of the output file. -/
def writeChunks : List ImageChunk → Bytes → Except ChunkError Bytes
  | [], output => .ok output
  | chunk :: chunks, output => do
    let raw ← decodeChunk S Z files chunk
    ensure (¬ faults.write chunk.index) .file
    writeChunks chunks (writeAt 0 (chunk.index * imageChunkSizeBytes) raw output)

/-- `reconstruct_chunked_image`, with what stands at the output path before and after it. -/
def reconstructChunkedImage (manifest : ImageChunkManifest) (output : Option Bytes) :
    Except ChunkError Unit × Option Bytes :=
  match validate S manifest with
  | .error error => (.error (.manifest error), output)
  | .ok () =>
    match output with
    -- `create_new` refuses a path that exists
    | some _ => (.error .file, output)
    | none =>
      if faults.create then (.error .file, none)
      -- the `?` on `set_len` returns before the part whose failure removes the file
      else if faults.setLen then (.error .file, some [])
      else
        match writeChunks S Z files faults manifest.chunks
            (List.replicate manifest.virtualSizeBytes 0) with
        | .error error => (.error error, none)
        | .ok raw => if faults.sync then (.error .file, none) else (.ok (), some raw)

end

end Intar.Image
