import Intar.Image.Chunked
import Intar.Image.Identity

/-!
# What a scan finds

A reader may declare ranges that it knows to be zero, unsorted and overlapping, and a chunk that lies
in one range after merging is not read.  For a reader of an image whose declared ranges really are
zero the scan finds the chunks that are not zero, whatever was declared (`scanImageChunks_eq`): a
merged range holds only zeros (`mergeRanges_zeros`), so only chunks of zeros are skipped, and the
chunks that are read are hashed in order, eight at a time (`scanLoop_eq`).
-/

namespace Intar.Image

open Fallible

open Registry (Bytes ImageChunk ImageChunkManifest isSha256)
open Blocks (block)
open List

/-- The positions from `start` up to `stop` are in the image and zero. -/
def Zeros (image : Bytes) (start stop : ℕ) : Prop := ∀ o, start ≤ o → o < stop → image[o]? = some 0

/-- A declared range that really is zero: a range of the image that holds only zeros. -/
structure ZeroRange (image : Bytes) (range : ByteRange) : Prop where
  start_lt : range.start < range.stop
  stop_le : range.stop ≤ image.length
  zeros : Zeros image range.start range.stop

/-- A reader of an image: it knows the size, declares only ranges that are zero, and answers a batch
of at most eight requests with the bytes of the image. -/
structure Reads (reader : ImageChunkReader) (image : Bytes) : Prop where
  size : reader.virtualSizeBytes = .ok image.length
  declared : ∃ ranges, reader.knownZeroRanges = .ok ranges ∧
    ∀ range ∈ ranges.getD [], ZeroRange image range
  read : ∀ reads : List ImageChunkRead, reads.length ≤ maxChunkReadsInFlight →
    reader.readChunks reads = .ok (reads.map fun r => (image.drop r.offset).take r.length)

/-- The reader of the same source that declares nothing. -/
def ImageChunkReader.undeclared (reader : ImageChunkReader) : ImageChunkReader :=
  { reader with knownZeroRanges := .ok none }

theorem Reads.undeclared {reader : ImageChunkReader} {image : Bytes} (h : Reads reader image) :
    Reads reader.undeclared image :=
  ⟨h.size, ⟨none, rfl, by simp⟩, h.read⟩

/-! ## Zero ranges -/

section

variable {image : Bytes}

variable {ranges : List ByteRange}

/-- **Merging keeps to zeros**, and fails for no range of the image. -/
theorem mergeRanges_zeros {normalized : List ByteRange}
    (hnorm : ∀ r ∈ normalized, Zeros image r.start r.stop)
    (hrgs : ∀ r ∈ ranges, ZeroRange image r) :
    ∃ out, mergeRanges image.length normalized ranges = .ok out ∧
      ∀ r ∈ out, Zeros image r.start r.stop := by
  induction ranges generalizing normalized with
  | nil => exact ⟨normalized.reverse, by simp [mergeRanges], by simpa using hnorm⟩
  | cons range _ ih =>
    rw [forall_mem_cons] at hrgs
    obtain ⟨hrng, hrgs⟩ := hrgs
    have hval : range.start < range.stop ∧ range.stop ≤ image.length :=
      ⟨hrng.start_lt, hrng.stop_le⟩
    cases normalized with
    | nil =>
      rw [mergeRanges, if_pos hval]
      exact ih (by simpa using hrng.zeros) hrgs
    | cons previous =>
      rw [forall_mem_cons] at hnorm
      rw [mergeRanges, if_pos hval]
      split_ifs with htouch
      · refine ih (forall_mem_cons.mpr ⟨fun o hst hstp => ?_, hnorm.2⟩) hrgs
        -- a position of the merged range lies in one of the two
        rcases Nat.lt_or_ge o previous.stop with hlt | _
        · exact hnorm.1 o hst hlt
        · exact hrng.zeros o (by omega) (by dsimp only at hstp; omega)
      · refine ih ?_ hrgs
        rw [forall_mem_cons, forall_mem_cons]
        exact ⟨hrng.zeros, hnorm⟩

theorem normalizeRanges_zeros (h : ∀ r ∈ ranges, ZeroRange image r) :
    ∃ out, normalizeRanges ranges image.length = .ok out ∧ ∀ r ∈ out, Zeros image r.start r.stop :=
  mergeRanges_zeros (by simp) fun r hr => h r ((mem_insertionSort _).mp hr)

theorem zeros_of_rangeIsCovered {start stop : ℕ}
    (hrgs : ∀ r ∈ ranges, Zeros image r.start r.stop)
    (h : rangeIsCovered ranges start stop = true) : Zeros image start stop := by
  rw [rangeIsCovered] at h
  split at h
  case h_1 range hfind =>
    simp only [Bool.decide_and, Bool.and_eq_true, decide_eq_true_eq] at h
    intro o _ _
    exact hrgs range (mem_of_find?_eq_some hfind) o (by omega) (by omega)
  case h_2 => cases h

end

/-! ## The chunks that are not zero -/

section

variable (S : Sha256) (image : Bytes)

/-- What the scan keeps of the chunk at an index. -/
def nonZeroChunk (i : ℕ) : Option ScannedImageChunk :=
  if (block imageChunkSizeBytes i image).any (· ≠ 0) then
    some ⟨i, (block imageChunkSizeBytes i image).length, S.hex (block imageChunkSizeBytes i image)⟩
  else none

/-- What a scan of an image finds. -/
def scannedImage : ScannedChunkedImage :=
  ⟨image.length, (List.range (Registry.chunkCount image.length)).filterMap (nonZeroChunk S image)⟩

variable {S image}

variable {i : ℕ} {reader : ImageChunkReader} {pending : List ℕ}

theorem nonZeroChunk_eq_none :
    nonZeroChunk S image i = none ↔ ∀ b ∈ block imageChunkSizeBytes i image, b = 0 := by
  simp [nonZeroChunk]

theorem nonZeroChunk_eq_some {chunk : ScannedImageChunk} :
    nonZeroChunk S image i = some chunk ↔ (∃ b ∈ block imageChunkSizeBytes i image, b ≠ 0) ∧
      chunk = ⟨i, (block imageChunkSizeBytes i image).length,
        S.hex (block imageChunkSizeBytes i image)⟩ := by
  have hany : (block imageChunkSizeBytes i image).any (· ≠ 0) = true ↔
      ∃ b ∈ block imageChunkSizeBytes i image, b ≠ 0 := by
    simp
  rw [nonZeroChunk]
  split_ifs with h
  · rw [Option.some.injEq, eq_comm]
    exact (and_iff_right (hany.mp h)).symm
  · exact iff_of_false nofun fun hsm => h (hany.mpr hsm.1)

theorem length_block_eq (image : Bytes) (i : ℕ) : (block imageChunkSizeBytes i image).length =
    min (i * imageChunkSizeBytes + imageChunkSizeBytes) image.length - i * imageChunkSizeBytes := by
  rw [Blocks.length_block]
  omega

/-- The bytes of one request are the block. -/
theorem take_drop_eq_block (i : ℕ) :
    (image.drop (i * imageChunkSizeBytes)).take (block imageChunkSizeBytes i image).length =
      block imageChunkSizeBytes i image := by
  rw [Blocks.length_block, ← length_drop, ← take_eq_take_min]
  rfl

theorem nonZeroChunk_of_zeros {i : ℕ}
    (h : Zeros image (i * imageChunkSizeBytes)
      (min (i * imageChunkSizeBytes + imageChunkSizeBytes) image.length)) :
    nonZeroChunk S image i = none := by
  rw [nonZeroChunk_eq_none]
  intro b hb
  obtain ⟨k, hk, rfl⟩ := mem_iff_getElem.mp hb
  have hlen := length_block_eq image i
  have hzero := h (i * imageChunkSizeBytes + k) (by omega) (by omega)
  rw [← Blocks.getElem?_block (by rw [Blocks.length_block] at hk; omega),
    getElem?_eq_getElem hk] at hzero
  exact Option.some.inj hzero

/-! ## The loop -/

/-- The request for the chunk at an index. -/
def readAt (size i : ℕ) : ScannedImageChunk × ImageChunkRead :=
  (⟨i, min (i * imageChunkSizeBytes + imageChunkSizeBytes) size - i * imageChunkSizeBytes, ""⟩,
    ⟨i * imageChunkSizeBytes,
      min (i * imageChunkSizeBytes + imageChunkSizeBytes) size - i * imageChunkSizeBytes⟩)

theorem hashBatch_eq (chunks : List ScannedImageChunk) (pending : List ℕ) :
    hashBatch S chunks ((pending.map (readAt image.length)).zip
      (pending.map fun i => block imageChunkSizeBytes i image)) =
      .ok (chunks ++ pending.filterMap (nonZeroChunk S image)) := by
  induction pending generalizing chunks with
  | nil => simp [hashBatch]
  | cons i _ ih =>
    rw [map_cons, map_cons, zip_cons_cons, readAt, hashBatch,
      if_neg (not_not.mpr (length_block_eq image i)), filterMap_cons, nonZeroChunk]
    split_ifs
    · rw [ih, length_block_eq, append_assoc]
      rfl
    · exact ih chunks

theorem readChunks_readAt (hrds : Reads reader image)
    (hlen : pending.length ≤ maxChunkReadsInFlight) :
    reader.readChunks ((pending.map (readAt image.length)).map Prod.snd) =
      .ok (pending.map fun i => block imageChunkSizeBytes i image) := by
  have hle : ((pending.map (readAt image.length)).map Prod.snd).length ≤ maxChunkReadsInFlight := by
    rw [length_map, length_map]
    exact hlen
  rw [hrds.read _ hle, map_map, map_map]
  refine congrArg Except.ok (map_congr_left fun i _ => ?_)
  have hrd : (readAt image.length i).2 =
      ⟨i * imageChunkSizeBytes, (block imageChunkSizeBytes i image).length⟩ := by
    rw [length_block_eq, readAt]
  rw [Function.comp_apply, Function.comp_apply, hrd]
  exact take_drop_eq_block i

theorem hashReadBatch_eq (hrds : Reads reader image) (chunks : List ScannedImageChunk)
    (hlen : pending.length ≤ maxChunkReadsInFlight) :
    hashReadBatch S reader chunks (pending.map (readAt image.length)) =
      .ok (chunks ++ pending.filterMap (nonZeroChunk S image)) := by
  unfold hashReadBatch
  rw [readChunks_readAt hrds hlen, ok_bind, ensure_of (by simp), ok_bind]
  exact hashBatch_eq chunks pending

/-- **The loop keeps the chunks that are not zero**: those it has hashed, and those still in the
batch it is filling. -/
theorem scanLoop_eq (hrds : Reads reader image) {zeroRanges : List ByteRange}
    (hzero : ∀ r ∈ zeroRanges, Zeros image r.start r.stop) (indices : List ℕ)
    (chunks : List ScannedImageChunk) (pending : List ℕ)
    (hlen : pending.length < maxChunkReadsInFlight) :
    ∃ (chunks' : List ScannedImageChunk) (pending' : List ℕ),
      scanLoop S reader zeroRanges image.length indices chunks
        (pending.map (readAt image.length)) = .ok (chunks', pending'.map (readAt image.length)) ∧
      pending'.length < maxChunkReadsInFlight ∧
      chunks' ++ pending'.filterMap (nonZeroChunk S image) =
        chunks ++ (pending ++ indices).filterMap (nonZeroChunk S image) := by
  induction indices generalizing chunks pending with
  | nil => exact ⟨chunks, pending, rfl, hlen, by rw [append_nil]⟩
  | cons i _ ih =>
    have hreadAt : pending.map (readAt image.length) ++ [readAt image.length i] =
        (pending ++ [i]).map (readAt image.length) := by
      rw [map_append, map_singleton]
    have hlen' : (pending ++ [i]).length = pending.length + 1 := length_append
    rw [scanLoop]
    dsimp only
    split_ifs with hcovd hfull
    · -- a covered chunk holds only zeros, so nothing of it would have been kept
      have hno := nonZeroChunk_of_zeros (S := S) (zeros_of_rangeIsCovered hzero hcovd)
      obtain ⟨chunks', pending', hrun, hlt, heq⟩ := ih chunks pending hlen
      refine ⟨chunks', pending', hrun, hlt, heq.trans ?_⟩
      rw [filterMap_append, filterMap_append, filterMap_cons_none hno]
    · rw [show (⟨i, _, ""⟩, ⟨_, _⟩) = readAt image.length i from rfl, hreadAt] at hfull ⊢
      rw [length_map] at hfull
      rw [hashReadBatch_eq hrds chunks hfull.le, ok_bind]
      obtain ⟨chunks', pending', hrun, hlt, heq⟩ :=
        ih (chunks ++ (pending ++ [i]).filterMap (nonZeroChunk S image)) [] (by decide)
      refine ⟨chunks', pending', hrun, hlt, heq.trans ?_⟩
      rw [append_assoc, ← filterMap_append, nil_append, append_assoc, singleton_append]
    · rw [show (⟨i, _, ""⟩, ⟨_, _⟩) = readAt image.length i from rfl, hreadAt] at hfull ⊢
      rw [length_map] at hfull
      obtain ⟨chunks', pending', hrun, hlt, heq⟩ := ih chunks (pending ++ [i]) (by omega)
      refine ⟨chunks', pending', hrun, hlt, heq.trans ?_⟩
      rw [append_assoc, singleton_append]

theorem sorted_scannedImage (S : Sha256) (image : Bytes) :
    (scannedImage S image).chunks.Pairwise fun a b => a.index < b.index := by
  refine List.Pairwise.filterMap _ (fun i j hlt a ha b hb => ?_) pairwise_lt_range
  rw [(nonZeroChunk_eq_some.mp ha).2, (nonZeroChunk_eq_some.mp hb).2]
  exact hlt

/-- **A scan finds the chunks that are not zero**, whatever zero ranges the reader declares. -/
theorem scanImageChunks_eq (hrds : Reads reader image) (hpos : 1 ≤ image.length)
    (hle : image.length ≤ maxChunkedImageBytes) :
    scanImageChunks S reader = .ok (scannedImage S image) := by
  obtain ⟨_, hrgs, hdeclared⟩ := hrds.declared
  obtain ⟨_, hnormalize, hzero⟩ := normalizeRanges_zeros hdeclared
  obtain ⟨chunks, pending, hloop, hlen, hch⟩ := scanLoop_eq (S := S) hrds hzero
    (List.range (Registry.chunkCount image.length)) [] [] (by decide)
  have hls : hashLastBatch S reader chunks (pending.map (readAt image.length)) =
      .ok (scannedImage S image).chunks := by
    rw [nil_append, nil_append] at hch
    rw [hashLastBatch, scannedImage, ← hch]
    cases pending with
    | nil => simp
    | cons => rw [if_neg (by simp), hashReadBatch_eq hrds chunks hlen.le]
  have hsort := (sorted_scannedImage S image).imp Nat.le_of_lt
  unfold scanImageChunks
  rw [hrds.size, ok_bind, ensure_of ⟨hpos, hle⟩, ok_bind, hrgs, ok_bind, hnormalize, ok_bind]
  simp only [show (image.length + imageChunkSizeBytes - 1) / imageChunkSizeBytes =
    Registry.chunkCount image.length from rfl]
  rw [map_nil] at hloop
  rw [hloop, ok_bind]
  rw [hls, ok_bind, hsort.insertionSort_eq]
  rfl

end

end Intar.Image
