import Intar.Lib.Fallible
import Intar.Registry.ChunkManifest

/-!
# Chunk manifests on the builder and the host

`ImageChunkManifestV1` as the Rust crates read it: `validate` checks the header and each chunk entry
in order, and then that the image id is the digest `compute_image_id` finds.  The registry has a
validator of its own for the same document (`Registry.validateImageChunkManifest`), so the two types
of entries are shared and everything that is computed from them is translated here a second time,
from the Rust source.

* `Sha256` is the hash with what is documented of it: a digest has 32 bytes.  That no two of the
  strings at hand have one digest is `Sha256.CollisionFree`, assumed where a result needs it.
* `Valid` says in one structure what an accepted manifest is (`validate_eq_ok`).
-/

namespace Intar.Image

open Registry (Bytes ImageChunk ImageChunkManifest isSha256 littleEndian)
open List

/-! ## The hash -/

/-- SHA-256, whose digests have 32 bytes. -/
structure Sha256 where
  digest : Bytes → Bytes
  length_digest : ∀ bytes, (digest bytes).length = 32

def hexChar (n : ℕ) : Char := Char.ofNat (if n < 10 then '0'.toNat + n else 'a'.toNat + n - 10)

/-- `hex_digest`: two lower-case digits for each byte. -/
def hexDigest (digest : Bytes) : String :=
  String.ofList (digest.flatMap fun b => [hexChar (b.toNat / 16), hexChar (b.toNat % 16)])

namespace Sha256

variable (S : Sha256)

/-- `sha256_bytes_hex`. -/
def hex (bytes : Bytes) : String := hexDigest (S.digest bytes)

/-- No two of the strings have one digest. -/
def CollisionFree (strings : Set Bytes) : Prop := Set.InjOn S.digest strings

end Sha256

/-! ## The manifest -/

/-- `ImageChunkManifestError`. -/
inductive ManifestError where
  | unsupportedSchema
  | unsupportedChunkSize
  | unsupportedEncoding
  | invalidVirtualSize
  | invalidChunkIndex
  | invalidChunkRawSize
  | invalidChunkEncodedSize
  | invalidChunkDigest
  | invalidImageId
deriving DecidableEq

def imageChunkManifestSchemaVersion : ℕ := 1
def imageChunkSizeBytes : ℕ := 4 * 1024 * 1024
def imageChunkEncoding : String := "zstd-v1-level-6"
def maxChunkedImageBytes : ℕ := 64 * 1024 * 1024 * 1024

/-- `chunk_count`, a `u32`. -/
def chunkCount (m : ImageChunkManifest) : ℕ :=
  min ((m.virtualSizeBytes + imageChunkSizeBytes - 1) / imageChunkSizeBytes) (2 ^ 32 - 1)

/-- `raw_size_for_index`. -/
def rawSizeForIndex (m : ImageChunkManifest) (index : ℕ) : ℕ :=
  min (m.virtualSizeBytes - index * imageChunkSizeBytes) imageChunkSizeBytes

def hexNibble (c : Char) : UInt8 :=
  if '0' ≤ c ∧ c ≤ '9' then UInt8.ofNat (c.toNat - '0'.toNat)
  else UInt8.ofNat (c.toNat - 'a'.toNat) + 10

def decodePairs : List Char → Bytes
  | high :: low :: rest => (hexNibble high <<< 4 ||| hexNibble low) :: decodePairs rest
  | _ => []

/-- `decode_sha256`.  A string of 64 lower-case hexadecimal digits is ASCII, so its bytes are its
characters. -/
def decodeSha256 (value : String) : Except ManifestError Bytes :=
  if isSha256 value then .ok (decodePairs value.toList) else .error .invalidChunkDigest

section

variable (S : Sha256)

/-- `zero_chunk_sha256`. -/
def zeroChunkSha256 (rawSize : ℕ) : Bytes := S.digest (List.replicate rawSize 0)

/-- What is hashed of one logical chunk. -/
def descriptor (index rawSize : ℕ) (digest : Bytes) : Bytes :=
  littleEndian 4 index ++ littleEndian 4 rawSize ++ digest

/-- The loop of `compute_image_id` over the logical chunks `indices`, with the entries not yet
used: an index without an entry is a chunk of zeros. -/
def descriptors (m : ImageChunkManifest) : List ℕ → List ImageChunk → Except ManifestError Bytes
  | [], _ => .ok []
  | index :: indices, [] => do
    let rest ← descriptors m indices []
    return descriptor index (rawSizeForIndex m index)
      (zeroChunkSha256 S (rawSizeForIndex m index)) ++ rest
  | index :: indices, chunk :: chunks =>
    if chunk.index = index then do
      let digest ← decodeSha256 chunk.rawSha256
      let rest ← descriptors m indices chunks
      return descriptor index (rawSizeForIndex m index) digest ++ rest
    else do
      let rest ← descriptors m indices (chunk :: chunks)
      return descriptor index (rawSizeForIndex m index)
        (zeroChunkSha256 S (rawSizeForIndex m index)) ++ rest

/-- `b"intar-raw-chunks-v1\0"`. -/
def imageIdDomain : Bytes := "intar-raw-chunks-v1\x00".toList.map fun c => UInt8.ofNat c.toNat

/-- The bytes `compute_image_id` hashes. -/
def hashedBytes (m : ImageChunkManifest) : Except ManifestError Bytes := do
  let rest ← descriptors S m (List.range (chunkCount m)) m.chunks
  return imageIdDomain ++ littleEndian 8 m.virtualSizeBytes ++ littleEndian 4 m.chunkSizeBytes
    ++ rest

/-- `compute_image_id`. -/
def computeImageId (m : ImageChunkManifest) : Except ManifestError String := do
  let bytes ← hashedBytes S m
  return S.hex bytes

/-- The loop of `validate` over the entries, with the index of the one before. -/
def validateChunks (m : ImageChunkManifest) : Option ℕ → List ImageChunk → Except ManifestError Unit
  | _, [] => .ok ()
  | previous, chunk :: chunks =>
    if chunkCount m ≤ chunk.index ∨ (∃ value ∈ previous, chunk.index ≤ value) then
      .error .invalidChunkIndex
    else if chunk.rawSizeBytes ≠ rawSizeForIndex m chunk.index then .error .invalidChunkRawSize
    else if chunk.encodedSizeBytes = 0 ∨ imageChunkSizeBytes * 2 < chunk.encodedSizeBytes then
      .error .invalidChunkEncodedSize
    else if ¬ isSha256 chunk.rawSha256 ∨ ¬ isSha256 chunk.encodedSha256 then
      .error .invalidChunkDigest
    else validateChunks m (some chunk.index) chunks

/-- `validate`. -/
def validate (m : ImageChunkManifest) : Except ManifestError Unit :=
  if m.schemaVersion ≠ imageChunkManifestSchemaVersion then .error .unsupportedSchema
  else if m.chunkSizeBytes ≠ imageChunkSizeBytes then .error .unsupportedChunkSize
  else if m.encoding ≠ imageChunkEncoding then .error .unsupportedEncoding
  else if m.virtualSizeBytes = 0 ∨ maxChunkedImageBytes < m.virtualSizeBytes then
    .error .invalidVirtualSize
  else if ¬ isSha256 m.imageId then .error .invalidImageId
  else do
    validateChunks m none m.chunks
    if (← computeImageId S m) ≠ m.imageId then .error .invalidImageId else .ok ()

end

/-! ## Digests in hexadecimal -/

open Registry (isHexChar hexDigit hexPairs hexToBytes)

theorem hexDigit_hexChar : ∀ n < 16, hexDigit (hexChar n) = n := by decide

theorem isHexChar_hexChar : ∀ n < 16, isHexChar (hexChar n) = true := by decide

theorem hexNibble_hexChar : ∀ a < 16, ∀ b < 16,
    (hexNibble (hexChar a) <<< 4 ||| hexNibble (hexChar b)) = UInt8.ofNat (16 * a + b) := by
  decide

variable {c : Char} {s : String} {m : ImageChunkManifest}

theorem exists_hexChar (h : isHexChar c = true) : ∃ n < 16, c = hexChar n := by
  have hc : Char.ofNat c.toNat = c := Char.ofNat_toNat c
  simp only [isHexChar, Bool.or_eq_true, Bool.and_eq_true, decide_eq_true_eq, Char.le_def,
    UInt32.le_iff_toNat_le] at h
  rcases h with ⟨hlo, hhi⟩ | ⟨hlo, hhi⟩
  · have hlo' : 97 ≤ c.toNat := hlo
    have hhi' : c.toNat ≤ 102 := hhi
    refine ⟨c.toNat - 87, by omega, ?_⟩
    rw [hexChar, if_neg (by omega), ← hc]
    congr 1
    simp
    omega
  · have hlo' : 48 ≤ c.toNat := hlo
    have hhi' : c.toNat ≤ 57 := hhi
    refine ⟨c.toNat - 48, by omega, ?_⟩
    rw [hexChar, if_pos (by omega), ← hc]
    congr 1
    simp
    omega

/-- The two decoders, the registry's and this one, read hexadecimal digits alike. -/
theorem decodePairs_eq_hexPairs : ∀ cs : List Char, (∀ c ∈ cs, isHexChar c = true) →
    decodePairs cs = hexPairs cs
  | [], _ | [_], _ => rfl
  | a :: b :: cs, h => by
    obtain ⟨x, hx, rfl⟩ := exists_hexChar (h a (by simp))
    obtain ⟨y, hy, rfl⟩ := exists_hexChar (h b (by simp))
    rw [decodePairs, hexPairs, hexNibble_hexChar x hx y hy, hexDigit_hexChar x hx,
      hexDigit_hexChar y hy, decodePairs_eq_hexPairs cs fun c hc => h c (by simp [hc])]

theorem hexPairs_hexDigest (digest : Bytes) : hexPairs (hexDigest digest).toList = digest := by
  rw [hexDigest, String.toList_ofList]
  induction digest with
  | nil => rfl
  | cons b _ ih =>
    have hb := b.toNat_lt
    rw [flatMap_cons, cons_append, cons_append, nil_append, hexPairs, ih,
      hexDigit_hexChar _ (by omega), hexDigit_hexChar _ (by omega), Nat.div_add_mod]
    simp

theorem length_toList_hexDigest (digest : Bytes) :
    (hexDigest digest).toList.length = 2 * digest.length := by
  rw [hexDigest, String.toList_ofList, length_flatMap]
  simp [Nat.mul_comm]

theorem isHexChar_of_mem_hexDigest {digest : Bytes} (h : c ∈ (hexDigest digest).toList) :
    isHexChar c = true := by
  rw [hexDigest, String.toList_ofList, mem_flatMap] at h
  obtain ⟨b, -, hc⟩ := h
  have hb := b.toNat_lt
  rcases mem_pair.mp hc with rfl | rfl
  · exact isHexChar_hexChar _ (by omega)
  · exact isHexChar_hexChar _ (by omega)

theorem isSha256_iff :
    isSha256 s = true ↔ s.toList.length = 64 ∧ ∀ c ∈ s.toList, isHexChar c = true := by
  simp [isSha256]

theorem decodeSha256_of_isSha256 (h : isSha256 s = true) : decodeSha256 s = .ok (hexToBytes s) := by
  obtain ⟨_, hhex⟩ := isSha256_iff.mp h
  rw [decodeSha256, if_pos h, decodePairs_eq_hexPairs _ hhex, hexToBytes,
    take_of_length_le (by omega)]

namespace Sha256

variable (S : Sha256)

@[simp] theorem isSha256_hex (bytes : Bytes) : isSha256 (S.hex bytes) = true := by
  rw [isSha256_iff]
  refine ⟨?_, fun c hc => isHexChar_of_mem_hexDigest hc⟩
  rw [hex, length_toList_hexDigest, S.length_digest]

@[simp] theorem hexToBytes_hex (bytes : Bytes) : hexToBytes (S.hex bytes) = S.digest bytes := by
  have hlen : (S.hex bytes).toList.length = 64 := (isSha256_iff.mp (S.isSha256_hex bytes)).1
  rw [hexToBytes, take_of_length_le (by omega), hex, hexPairs_hexDigest]

theorem hex_eq_hex {a b : Bytes} : S.hex a = S.hex b ↔ S.digest a = S.digest b := by
  constructor
  · intro h
    rw [← hexToBytes_hex, h, hexToBytes_hex]
  · intro h
    rw [hex, hex, h]

end Sha256

/-! ## What an accepted manifest is -/

/-- What `validate` asks of one entry, its place in the order apart. -/
structure ValidChunk (m : ImageChunkManifest) (chunk : ImageChunk) : Prop where
  index : chunk.index < chunkCount m
  rawSize : chunk.rawSizeBytes = rawSizeForIndex m chunk.index
  encodedSize_pos : 0 < chunk.encodedSizeBytes
  encodedSize_le : chunk.encodedSizeBytes ≤ imageChunkSizeBytes * 2
  rawSha256 : isSha256 chunk.rawSha256 = true
  encodedSha256 : isSha256 chunk.encodedSha256 = true

/-- What `validate` asks of a manifest. -/
structure Valid (S : Sha256) (m : ImageChunkManifest) : Prop where
  schema : m.schemaVersion = imageChunkManifestSchemaVersion
  chunkSize : m.chunkSizeBytes = imageChunkSizeBytes
  encoding : m.encoding = imageChunkEncoding
  size_pos : 0 < m.virtualSizeBytes
  size_le : m.virtualSizeBytes ≤ maxChunkedImageBytes
  chunks : ∀ chunk ∈ m.chunks, ValidChunk m chunk
  sorted : m.chunks.Pairwise fun a b => a.index < b.index
  imageId : computeImageId S m = .ok m.imageId

theorem validateChunks_eq_ok {previous : Option ℕ} {chunks : List ImageChunk} :
    validateChunks m previous chunks = .ok () ↔
      (∀ chunk ∈ chunks, ValidChunk m chunk ∧ ∀ value ∈ previous, value < chunk.index) ∧
        chunks.Pairwise fun a b => a.index < b.index := by
  induction chunks generalizing previous with
  | nil => simp [validateChunks]
  | cons chunk _ ih =>
    rw [validateChunks]
    split_ifs with hix hraw henc hdig
    · refine iff_of_false nofun fun ⟨h, _⟩ => ?_
      obtain ⟨hval, hprevious⟩ := h chunk (by simp)
      rcases hix with _ | ⟨value, hvl, _⟩
      · exact absurd hval.index (by omega)
      · exact absurd (hprevious value hvl) (by omega)
    · exact iff_of_false nofun fun ⟨h, _⟩ => hraw (h chunk (by simp)).1.rawSize
    · refine iff_of_false nofun fun ⟨h, _⟩ => ?_
      have hpos := (h chunk (by simp)).1.encodedSize_pos
      have hle := (h chunk (by simp)).1.encodedSize_le
      omega
    · refine iff_of_false nofun fun ⟨h, _⟩ => ?_
      have hval := (h chunk (by simp)).1
      simp [hval.rawSha256, hval.encodedSha256] at hdig
    push Not at hix hraw henc hdig
    have hval : ValidChunk m chunk :=
      ⟨hix.1, hraw, by omega, henc.2, by simpa using hdig.1, by simpa using hdig.2⟩
    rw [ih, forall_mem_cons, pairwise_cons]
    constructor
    · rintro ⟨hch, hsort⟩
      refine ⟨⟨⟨hval, hix.2⟩, fun c hc => ⟨(hch c hc).1, fun value hvl => ?_⟩⟩,
        fun c hc => (hch c hc).2 _ rfl, hsort⟩
      exact (hix.2 value hvl).trans ((hch c hc).2 _ rfl)
    · rintro ⟨⟨-, hch⟩, hfst, hsort⟩
      refine ⟨fun c hc => ⟨(hch c hc).1, fun value hvl => ?_⟩, hsort⟩
      cases hvl
      exact hfst c hc

/-- **An accepted manifest, in one structure.** -/
theorem validate_eq_ok {S : Sha256} : validate S m = .ok () ↔ Valid S m := by
  rw [validate]
  split_ifs with hsch hchunkSize hencd hsz hid
  · exact iff_of_false nofun fun h => hsch h.schema
  · exact iff_of_false nofun fun h => hchunkSize h.chunkSize
  · exact iff_of_false nofun fun h => hencd h.encoding
  · refine iff_of_false nofun fun h => ?_
    have hpos := h.size_pos
    have hle := h.size_le
    omega
  · push Not at hsch hchunkSize hencd hsz
    rw [Fallible.bind_eq_ok]
    constructor
    · rintro ⟨⟨⟩, hch, h⟩
      obtain ⟨hch, hsort⟩ := validateChunks_eq_ok.mp hch
      obtain ⟨_, hcompute, h⟩ := Fallible.bind_eq_ok.mp h
      split_ifs at h with hne
      rw [not_ne_iff] at hne
      exact ⟨hsch, hchunkSize, hencd, by omega, hsz.2, fun c hc => (hch c hc).1,
        hsort, hne ▸ hcompute⟩
    · intro h
      refine ⟨(), validateChunks_eq_ok.mpr ⟨fun c hc => ⟨h.chunks c hc, nofun⟩, h.sorted⟩, ?_⟩
      rw [Fallible.bind_eq_ok]
      exact ⟨m.imageId, h.imageId, if_neg (not_not.mpr rfl)⟩
  · refine iff_of_false not_false fun h => hid ?_
    obtain ⟨bytes, -, hby⟩ := Fallible.bind_eq_ok.mp h.imageId
    injection hby with hby
    rw [← hby]
    exact S.isSha256_hex bytes

end Intar.Image
