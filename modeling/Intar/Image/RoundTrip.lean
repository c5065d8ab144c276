import Intar.Image.Writing

/-!
# Reconstruction

`reconstruct_chunked_image` starts from a file of zeros and writes each chunk of the manifest in its
place.  For a manifest that describes an image, with payloads that decode to its chunks, the result
is the image (`reconstruct_of_decodes`): the blocks that are written are those of the image, and the
others are zeros in both.

The output file is removed when reading, decoding or writing a chunk fails, but the length of the
file is set before that part begins.  If setting it fails the call returns at once and leaves the
empty file (`path_as_before_iff`).
-/

namespace Intar.Image

open Fallible Blocks

open Registry (Bytes ImageChunk ImageChunkManifest)
open Blocks (block writeAt)
open List

section

variable {S : Sha256} {Z : Zstd} {image : Bytes} {files : ImageChunk → Option Bytes}
  {faults : OutputFaults}

/-- A chunk of the image is decoded from its payload. -/
theorem decodeChunk_ok {d : ImageChunk}
    (hfl : Decodes S Z (files d) d.encodedSha256 (chunkAt image d.index))
    (hsz : d.rawSizeBytes = (chunkAt image d.index).length)
    (hraw : S.hex (chunkAt image d.index) = d.rawSha256) :
    decodeChunk S Z files d = .ok (chunkAt image d.index) := by
  obtain ⟨bytes, hby, hsha, hrd⟩ := hfl
  have htake : Z.read bytes (d.rawSizeBytes + 1) = some (chunkAt image d.index) := by
    rw [hrd, hsz, take_of_length_le (by omega)]
  rw [decodeChunk, hby]
  dsimp only
  rw [if_neg (not_not.mpr hsha), htake]
  dsimp only
  rw [if_neg (not_not.mpr hsz.symm), if_neg (not_not.mpr hraw)]

/-- **Each chunk is written in its place**: a block with an entry becomes that of the image, and the
others stay as they are. -/
theorem block_of_writeChunks {chunks : List ImageChunk}
    (hch : ∀ d ∈ chunks, decodeChunk S Z files d = .ok (chunkAt image d.index) ∧
      d.index * imageChunkSizeBytes ≤ image.length)
    {output out : Bytes} (hlen : output.length = image.length)
    (h : writeChunks S Z files faults chunks output = .ok out) (j : ℕ) :
    chunkAt out j = if ∃ d ∈ chunks, d.index = j then chunkAt image j else chunkAt output j := by
  induction chunks generalizing output with
  | nil =>
    cases h
    simp
  | cons d chunks ih =>
    rw [forall_mem_cons] at hch
    rw [writeChunks, hch.1.1, ok_bind] at h
    obtain ⟨-, -, h⟩ := bind_eq_ok.mp h
    have hblock : (chunkAt image d.index).length =
        min imageChunkSizeBytes (output.length - d.index * imageChunkSizeBytes) := by
      rw [length_block, hlen]
    have hle : d.index * imageChunkSizeBytes ≤ output.length := hlen ▸ hch.1.2
    rw [ih hch.2 ((length_writeAt (by omega)).trans hlen) h, chunkAt, chunkAt, chunkAt,
      block_writeAt hblock hle]
    by_cases hj : ∃ e ∈ chunks, e.index = j
    · rw [if_pos hj, if_pos (hj.imp fun e he => ⟨mem_cons_of_mem _ he.1, he.2⟩)]
    rw [if_neg hj]
    by_cases hd : j = d.index
    · rw [if_pos hd, if_pos ⟨d, mem_cons_self, hd.symm⟩, hd]
    rw [if_neg hd, if_neg]
    rintro ⟨e, he, heq⟩
    rcases mem_cons.mp he with rfl | he
    · exact hd heq.symm
    · exact hj ⟨e, he, heq⟩

variable {chunks : List ImageChunk} {out : Bytes} {m : ImageChunkManifest}

theorem writeChunks_ok (hch : ∀ d ∈ chunks, ∃ raw, decodeChunk S Z files d = .ok raw)
    (hflts : ∀ i, faults.write i = false) (output : Bytes) :
    ∃ out, writeChunks S Z files faults chunks output = .ok out := by
  induction chunks generalizing output with
  | nil => exact ⟨output, rfl⟩
  | cons _ _ ih =>
    rw [forall_mem_cons] at hch
    obtain ⟨_, hraw⟩ := hch.1
    rw [writeChunks, hraw, ok_bind, ensure_of (by simp [hflts]), ok_bind]
    exact ih hch.2 _

/-- For a valid manifest that describes the image every entry is decoded. -/
theorem decodeChunk_of_describes (hval : Valid S m) (hds : Describes S m image)
    (hfs : ∀ d ∈ m.chunks, Decodes S Z (files d) d.encodedSha256 (chunkAt image d.index)) :
    ∀ d ∈ m.chunks, decodeChunk S Z files d = .ok (chunkAt image d.index) ∧
      d.index * imageChunkSizeBytes ≤ image.length := by
  intro d hd
  have hck := hval.chunks d hd
  have hix : d.index < Registry.chunkCount image.length := by
    rw [hds.length, ← chunkCount_eq hval.size_le]
    exact hck.index
  have hsz : d.rawSizeBytes = (chunkAt image d.index).length := by
    rw [hck.rawSize, rawSizeForIndex, length_block, hds.length, Nat.min_comm]
  exact ⟨decodeChunk_ok (hfs d hd) hsz (hds.listed d hd), (chunkCount_spec hix).1.le⟩

/-- What a finished loop makes of a file of zeros is the image the manifest describes. -/
theorem writeChunks_eq_image (hval : Valid S m) (hds : Describes S m image)
    (hfs : ∀ d ∈ m.chunks, Decodes S Z (files d) d.encodedSha256 (chunkAt image d.index))
    (h : writeChunks S Z files faults m.chunks (List.replicate m.virtualSizeBytes 0) = .ok out) :
    out = image := by
  have hch := decodeChunk_of_describes hval hds hfs
  have hlen : (List.replicate m.virtualSizeBytes (0 : UInt8)).length = image.length := by
    rw [length_replicate, hds.length]
  apply ext_block (c := imageChunkSizeBytes) (by decide)
  intro j
  refine (block_of_writeChunks hch hlen h j).trans ?_
  split_ifs with hj
  · rfl
  -- no entry: zeros in the file, and zeros in the image
  push Not at hj
  rw [chunkAt, block_replicate, ← hds.length, ← length_block]
  exact (eq_replicate_of_mem (hds.sparse j hj)).symm

/-! ## How a reconstruction ends -/

variable (S faults) in
/-- The output file is created, and then its length cannot be set. -/
def SetLenFails (m : ImageChunkManifest) (output : Option Bytes) : Prop :=
  validate S m = .ok () ∧ output = none ∧ faults.create = false ∧ faults.setLen = true

/-- **A reconstruction ends in one of three ways**: with an error and the output path as it was, with
an error and an empty file, or with the file that the loop made. -/
theorem reconstruct_cases (S : Sha256) (Z : Zstd) (files : ImageChunk → Option Bytes)
    (faults : OutputFaults) (m : ImageChunkManifest) (output : Option Bytes) :
    (¬ SetLenFails S faults m output ∧
      ∃ e, reconstructChunkedImage S Z files faults m output = (.error e, output)) ∨
    (SetLenFails S faults m output ∧
      reconstructChunkedImage S Z files faults m output = (.error .file, some [])) ∨
    (¬ SetLenFails S faults m output ∧ ∃ out, writeChunks S Z files faults m.chunks
        (List.replicate m.virtualSizeBytes 0) = .ok out ∧
      reconstructChunkedImage S Z files faults m output = (.ok (), some out)) := by
  unfold reconstructChunkedImage SetLenFails
  cases validate S m with
  | error => exact .inl ⟨fun h => (nomatch h.1), _, rfl⟩
  | ok =>
    cases output with
    | some => exact .inl ⟨fun h => (nomatch h.2.1), _, rfl⟩
    | none =>
      cases hcrt : faults.create with
      | true => exact .inl ⟨fun h => (nomatch h.2.2.1), _, rfl⟩
      | false =>
        cases hsetLen : faults.setLen with
        | true => exact .inr (.inl ⟨⟨rfl, rfl, rfl, rfl⟩, rfl⟩)
        | false =>
          cases hwr : writeChunks S Z files faults m.chunks
              (List.replicate m.virtualSizeBytes 0) with
          | error e => exact .inl ⟨fun h => (nomatch h.2.2.2), _, rfl⟩
          | ok out =>
            cases hsync : faults.sync with
            | true => exact .inl ⟨fun h => (nomatch h.2.2.2), _, rfl⟩
            | false => exact .inr (.inr ⟨fun h => (nomatch h.2.2.2), out, rfl, rfl⟩)

/-- A failed reconstruction leaves the output path as it was, unless setting the length failed. -/
theorem path_as_before_iff (S : Sha256) (Z : Zstd) (files : ImageChunk → Option Bytes)
    (faults : OutputFaults) (m : ImageChunkManifest) (output : Option Bytes) :
    ((reconstructChunkedImage S Z files faults m output).1 ≠ .ok () →
      (reconstructChunkedImage S Z files faults m output).2 = output) ↔
      ¬ SetLenFails S faults m output := by
  rcases reconstruct_cases S Z files faults m output with ⟨h, _, heq⟩ | ⟨h, heq⟩ | ⟨h, _, -, heq⟩
  · rw [heq]
    exact iff_of_true (fun _ => rfl) h
  · rw [heq]
    refine iff_of_false (fun hpt => ?_) (not_not.mpr h)
    have hsm := (hpt nofun).trans h.2.1
    cases hsm
  · rw [heq]
    exact iff_of_true (fun hne => absurd rfl hne) h

def OutputFaults.none : OutputFaults := ⟨false, false, fun _ => false, false⟩

/-- **What was written is reconstructed**: whenever a call returns without an error, and without
faults it does. -/
theorem reconstruct_of_decodes (hval : validate S m = .ok ())
    (hds : Describes S m image)
    (hfs : ∀ d ∈ m.chunks, Decodes S Z (files d) d.encodedSha256 (chunkAt image d.index)) :
    (∀ faults output, (reconstructChunkedImage S Z files faults m output).1 = .ok () →
      (reconstructChunkedImage S Z files faults m output).2 = some image) ∧
    reconstructChunkedImage S Z files .none m none = (.ok (), some image) := by
  have hvld := validate_eq_ok.mp hval
  constructor
  · intro faults output hok
    rcases reconstruct_cases S Z files faults m output with
      ⟨-, e, heq⟩ | ⟨-, heq⟩ | ⟨-, out, hout, heq⟩
    · rw [heq] at hok
      cases hok
    · rw [heq] at hok
      cases hok
    · rw [heq, writeChunks_eq_image hvld hds hfs hout]
  · obtain ⟨out, hout⟩ : ∃ out, writeChunks S Z files .none m.chunks
        (List.replicate m.virtualSizeBytes 0) = .ok out :=
      writeChunks_ok (fun d hd => ⟨_, (decodeChunk_of_describes hvld hds hfs d hd).1⟩)
        (fun _ => rfl) _
    unfold reconstructChunkedImage
    rw [hval, hout, writeChunks_eq_image hvld hds hfs hout]
    rfl

end

/-- **Scan, write and reconstruct.**  A reader of an image of 1 byte to 64 GiB may declare zero
ranges in any order, overlapping or not: the scan finds the same chunks as without them.  Whatever
was in the directory and whatever the registry has of the chunks, a manifest that is written is valid
and reconstruction from it and the payloads gives the image back; a write succeeds when no file
operation fails.

That an error of a reconstruction leaves the output path as it was holds exactly when the length of a
created output file can be set. -/
theorem scan_write_reconstruct (S : Sha256) (Z : Zstd) (image : Bytes) (hpos : 1 ≤ image.length)
    (hle : image.length ≤ maxChunkedImageBytes) (reader : ImageChunkReader)
    (hreads : Reads reader image) (registry : String → Option Bytes)
    (reused : String → Option ReusedEncodedImageChunk)
    (hsound : ReusedSound S Z image registry reused) (dir : ChunkDir)
    (hfree : S.CollisionFree (storedStrings Z image dir)) (files : ImageChunk → Option Bytes)
    (faults : OutputFaults) (m : ImageChunkManifest) (output : Option Bytes) :
    (scanImageChunks S reader = scanImageChunks S reader.undeclared ∧
      (∃ scan, scanImageChunks S reader = .ok scan ∧
        (∀ writeFaults artifact dir', writeScannedChunkedImageArtifact S Z writeFaults scan reader dir
            reused = .ok (artifact, dir') →
          validate S artifact.manifest = .ok () ∧
          (∀ faults output, (reconstructChunkedImage S Z (artifactFile registry dir' artifact) faults
              artifact.manifest output).1 = .ok () →
            (reconstructChunkedImage S Z (artifactFile registry dir' artifact) faults
              artifact.manifest output).2 = some image) ∧
          reconstructChunkedImage S Z (artifactFile registry dir' artifact) .none artifact.manifest
            none = (.ok (), some image)) ∧
        (Compatible S Z image dir → ∃ artifact dir', writeScannedChunkedImageArtifact S Z
          ⟨false, fun _ => false, false⟩ scan reader dir reused = .ok (artifact, dir'))) ∧
      ((reconstructChunkedImage S Z files faults m output).1 ≠ .ok () →
        (reconstructChunkedImage S Z files faults m output).2 = output)) ↔
    ¬ SetLenFails S faults m output := by
  have hscan := scanImageChunks_eq (S := S) hreads hpos hle
  have hrs : ∀ writeFaults artifact dir', writeScannedChunkedImageArtifact S Z writeFaults
      (scannedImage S image) reader dir reused = .ok (artifact, dir') →
      Written S Z image registry artifact dir' :=
    fun _ _ _ h => written_of_eq_ok hreads hpos hle hsound hfree h
  rw [← path_as_before_iff S Z files]
  refine ⟨fun h => h.2.2, fun h => ⟨?_, ⟨scannedImage S image, hscan, ?_, ?_⟩, h⟩⟩
  · rw [hscan, scanImageChunks_eq hreads.undeclared hpos hle]
  · intro writeFaults artifact dir' hwr
    have hwrit := hrs writeFaults artifact dir' hwr
    exact ⟨hwrit.valid, reconstruct_of_decodes hwrit.valid hwrit.describes hwrit.payloads⟩
  · intro hdir
    exact write_ok hreads hpos hle hsound hfree hdir rfl (fun _ => rfl) rfl

namespace Demo

/-- An encoding that puts one byte before the string. -/
def zstd : Zstd where
  encode bytes := 0 :: bytes
  read
    | [], _ => none
    | _ :: bytes, limit => some (bytes.take limit)
  read_encode _ _ := rfl
  length_encode_pos _ := Nat.succ_pos _
  length_encode_le bytes h := by
    have hpos : 1 ≤ imageChunkSizeBytes := by decide
    rw [length_cons]
    omega

/-- A reader of the image of the one byte 1. -/
def reader : ImageChunkReader where
  virtualSizeBytes := .ok 1
  knownZeroRanges := .ok (some [])
  readChunks reads := .ok (reads.map fun r => (([1] : Bytes).drop r.offset).take r.length)

theorem reads_reader : Reads reader [1] := ⟨rfl, ⟨some [], rfl, by simp⟩, fun _ _ => rfl⟩

theorem mem_storedStrings_one {bytes : Bytes} (h : bytes ∈ storedStrings zstd [1] fun _ => none) :
    bytes ∈ ([[1], [], [0, 1], [0]] : List Bytes) := by
  rcases h with ⟨_, rfl⟩ | ⟨_, rfl⟩ | ⟨_, h⟩
  · rw [chunkAt, block_one]
    split_ifs <;> simp
  · rw [chunkAt, block_one]
    split_ifs <;> simp [zstd]
  · cases h

theorem collisionFree_stored_one : sha256.CollisionFree (storedStrings zstd [1] fun _ => none) := by
  have hinj : ∀ a ∈ ([[1], [], [0, 1], [0]] : List Bytes),
      ∀ b ∈ ([[1], [], [0, 1], [0]] : List Bytes), sha256.digest a = sha256.digest b → a = b := by
    decide +kernel
  intro a ha b hb hdig
  exact hinj a (mem_storedStrings_one ha) b (mem_storedStrings_one hb) hdig

/-- The image of one byte goes through a scan, a write into an empty directory and a
reconstruction. -/
theorem scan_write_reconstruct_one_byte :
    ∃ scan artifact dir', scanImageChunks sha256 reader = .ok scan ∧
      scanImageChunks sha256 reader = scanImageChunks sha256 reader.undeclared ∧
      writeScannedChunkedImageArtifact sha256 zstd ⟨false, fun _ => false, false⟩ scan reader
        (fun _ => none) (fun _ => none) = .ok (artifact, dir') ∧
      validate sha256 artifact.manifest = .ok () ∧
      reconstructChunkedImage sha256 zstd (artifactFile (fun _ => none) dir' artifact) .none
        artifact.manifest none = (.ok (), some [1]) := by
  obtain ⟨hscan, ⟨scan, hok, hwrit, hwr⟩, -⟩ :=
    (scan_write_reconstruct sha256 zstd [1] (by decide) (by decide) reader reads_reader
      (fun _ => none) (fun _ => none) ⟨nofun, nofun⟩ (fun _ => none) collisionFree_stored_one
      (fun _ => none) .none manifest none).mpr (by rintro ⟨-, -, -, h⟩; cases h)
  obtain ⟨artifact, dir', hartifact⟩ := hwr (by rintro i bytes ⟨⟩)
  obtain ⟨hval, -, hrecon⟩ := hwrit _ artifact dir' hartifact
  exact ⟨scan, artifact, dir', hok, hscan, hartifact, hval, hrecon⟩

/-- The length of the new output file cannot be set: the call fails and the empty file stays. -/
theorem empty_output_left :
    reconstructChunkedImage sha256 zstd (fun _ => some [0, 1]) ⟨false, true, fun _ => false, false⟩
      manifest none = (.error .file, some []) := by
  decide +kernel

end Demo

end Intar.Image
