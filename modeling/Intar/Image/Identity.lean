import Intar.Image.Manifest
import Intar.Lib.Blocks

/-!
# The image id

The image id is the digest of a layout: the sizes, and for every logical chunk its index, its size
and the digest of its raw bytes, where a chunk without an entry stands for zeros.  The builder and
the host compute it with `compute_image_id`, the registry with `computeImageId`.

* Both loops take the entries along with the indices.  `walk` is that loop, and over entries in
  strictly increasing order it visits every index with the entry that has it (`walk_eq_flatMap`).
  So both hash the same bytes (`hashedBytes_eq_registry`).
* What is hashed for a manifest that describes an image is a function of the image
  (`hashedBytes_of_describes`), and the image can be read back from it (`eq_of_imageLayout_eq`), if
  the hash has no collision among its blocks.
-/

namespace Intar.Image

open Registry (Bytes ImageChunk ImageChunkManifest isSha256 littleEndian hexToBytes)
open Blocks (block)
open List

/-! ## One loop over the logical chunks -/

/-- The loop over the indices: `part` is what an index contributes, given its entry. -/
def walk (part : ℕ → Option ImageChunk → Bytes) : List ℕ → List ImageChunk → Bytes
  | [], _ => []
  | i :: is, [] => part i none ++ walk part is []
  | i :: is, d :: ds =>
    if d.index = i then part i (some d) ++ walk part is ds
    else part i none ++ walk part is (d :: ds)

/-- The entry of an index. -/
def entryAt (chunks : List ImageChunk) (i : ℕ) : Option ImageChunk :=
  chunks.find? fun d => d.index = i

variable {chunks : List ImageChunk} {i : ℕ}

theorem entryAt_eq_none : entryAt chunks i = none ↔ ∀ d ∈ chunks, d.index ≠ i := by
  simp [entryAt, find?_eq_none]

theorem entryAt_eq_some {d : ImageChunk} (h : entryAt chunks i = some d) :
    d ∈ chunks ∧ d.index = i :=
  ⟨mem_of_find?_eq_some h, by simpa using find?_some h⟩

/-- Entries in order are all met, each at its index. -/
theorem walk_eq_flatMap {part : ℕ → Option ImageChunk → Bytes}
    (hsort : chunks.Pairwise fun a b => a.index < b.index) {n start : ℕ}
    (hst : ∀ d ∈ chunks, start ≤ d.index) :
    walk part (List.range' start n) chunks =
      (List.range' start n).flatMap fun i => part i (entryAt chunks i) := by
  induction n generalizing start chunks with
  | zero => simp [walk]
  | succ n ih =>
    rw [List.range'_succ, flatMap_cons]
    cases chunks with
    | nil =>
      rw [walk, ih hsort (by simp)]
      rfl
    | cons d ds =>
      rw [pairwise_cons] at hsort
      rw [walk]
      split_ifs with hd
      · have hself : entryAt (d :: ds) start = some d := by simp [entryAt, hd]
        rw [hself, ih hsort.2 fun e he => hd ▸ hsort.1 e he]
        congr 1
        apply flatMap_congr
        intro i hi
        have hne : d.index ≠ i := by
          rw [mem_range'_1] at hi
          omega
        rw [entryAt, entryAt, find?_cons_of_neg (by simpa using hne)]
      · have hlt : start < d.index := Nat.lt_of_le_of_ne (hst d (by simp)) (Ne.symm hd)
        have hno : entryAt (d :: ds) start = none := by
          rw [entryAt_eq_none, forall_mem_cons]
          exact ⟨hd, fun e he => (hlt.trans (hsort.1 e he)).ne'⟩
        rw [hno, ih (pairwise_cons.mpr hsort)]
        rw [forall_mem_cons]
        exact ⟨hlt, fun e he => hlt.trans (hsort.1 e he)⟩

/-! ## Both implementations hash the same bytes -/

section

variable (S : Sha256)

/-- What one logical chunk contributes to the layout, with the digest of zeros for no entry. -/
def part (size : ℕ) (i : ℕ) (entry : Option ImageChunk) : Bytes :=
  let rawSize := min (size - i * imageChunkSizeBytes) imageChunkSizeBytes
  descriptor i rawSize
    (entry.elim (S.digest (List.replicate rawSize 0)) fun d => hexToBytes d.rawSha256)

variable {S}

variable {m : ImageChunkManifest} {size i : ℕ} {image : Bytes}

theorem descriptors_eq_walk (indices : List ℕ) {chunks : List ImageChunk}
    (hsha : ∀ d ∈ chunks, isSha256 d.rawSha256 = true) :
    descriptors S m indices chunks = .ok (walk (part S m.virtualSizeBytes) indices chunks) := by
  induction indices generalizing chunks with
  | nil => cases chunks <;> rfl
  | cons _ _ ih =>
    cases chunks with
    | nil =>
      rw [descriptors, walk, ih hsha]
      rfl
    | cons =>
      rw [forall_mem_cons] at hsha
      rw [descriptors, walk]
      split_ifs with hd
      · rw [decodeSha256_of_isSha256 hsha.1, ih hsha.2]
        rfl
      · rw [ih (forall_mem_cons.mpr hsha)]
        rfl

theorem chunkCount_eq (h : m.virtualSizeBytes ≤ maxChunkedImageBytes) :
    chunkCount m = Registry.chunkCount m.virtualSizeBytes := by
  rw [chunkCount, Registry.chunkCount]
  simp only [imageChunkSizeBytes, Registry.chunkSizeBytes, maxChunkedImageBytes] at h ⊢
  omega

theorem rawChunkSize_eq (h : i < Registry.chunkCount size) :
    Registry.rawChunkSize size i = min (size - i * imageChunkSizeBytes) imageChunkSizeBytes := by
  rw [Registry.rawChunkSize, Registry.finalChunkSize]
  split_ifs with hls hfull
  all_goals
    simp only [Registry.chunkCount, imageChunkSizeBytes, Registry.chunkSizeBytes] at *
    omega

section

variable (hzero : S.hex (List.replicate imageChunkSizeBytes 0) = Registry.fullZeroChunkSha256)

include hzero

/-- The registry's constant for a full chunk of zeros, and the digest it computes for a short one,
are digests of zeros. -/
theorem zeroChunkSha256_eq (h : i < Registry.chunkCount size) :
    Registry.zeroChunkSha256 S.hex size i =
      S.hex (List.replicate (min (size - i * imageChunkSizeBytes) imageChunkSizeBytes) 0) := by
  rw [Registry.zeroChunkSha256, ← rawChunkSize_eq h, Registry.rawChunkSize]
  split_ifs with hsht hls hls
  · rfl
  · exact absurd hsht.1 hls
  · rw [Classical.not_not.mp fun hne => hsht ⟨hls, hne⟩]
    exact hzero.symm
  · exact hzero.symm

theorem chunkDescriptors_eq_walk {indices : List ℕ}
    (hidx : ∀ i ∈ indices, i < Registry.chunkCount size) (chunks : List ImageChunk) :
    Registry.chunkDescriptors S.hex size indices chunks = walk (part S size) indices chunks := by
  induction indices generalizing chunks with
  | nil => cases chunks <;> rfl
  | cons i _ ih =>
    rw [forall_mem_cons] at hidx
    have hno : littleEndian 4 i ++ littleEndian 4 (Registry.rawChunkSize size i) ++
        hexToBytes (Registry.zeroChunkSha256 S.hex size i) = part S size i none := by
      rw [rawChunkSize_eq hidx.1, zeroChunkSha256_eq hzero hidx.1, S.hexToBytes_hex]
      rfl
    cases chunks with
    | nil => rw [Registry.chunkDescriptors, walk, hno, ih hidx.2]
    | cons =>
      rw [Registry.chunkDescriptors, walk]
      split_ifs with hd
      · rw [rawChunkSize_eq hidx.1, ih hidx.2]
        rfl
      · rw [hno, ih hidx.2]

end

/-- What both implementations hash, as one list over the logical chunks. -/
def layout (S : Sha256) (m : ImageChunkManifest) : Bytes :=
  imageIdDomain ++ littleEndian 8 m.virtualSizeBytes ++ littleEndian 4 imageChunkSizeBytes ++
    (List.range (Registry.chunkCount m.virtualSizeBytes)).flatMap fun i =>
      part S m.virtualSizeBytes i (entryAt m.chunks i)

theorem hashedBytes_eq (hchunkSize : m.chunkSizeBytes = imageChunkSizeBytes)
    (hsz : m.virtualSizeBytes ≤ maxChunkedImageBytes)
    (hsha : ∀ d ∈ m.chunks, isSha256 d.rawSha256 = true)
    (hsort : m.chunks.Pairwise fun a b => a.index < b.index) :
    hashedBytes S m = .ok (layout S m) := by
  rw [hashedBytes, descriptors_eq_walk _ hsha, chunkCount_eq hsz, range_eq_range',
    walk_eq_flatMap hsort (by simp), hchunkSize, ← range_eq_range']
  rfl

theorem registry_hashedBytes_eq
    (hzero : S.hex (List.replicate imageChunkSizeBytes 0) = Registry.fullZeroChunkSha256)
    (hsort : m.chunks.Pairwise fun a b => a.index < b.index) :
    Registry.hashedBytes S.hex m = layout S m := by
  have hwalk : Registry.chunkDescriptors S.hex m.virtualSizeBytes
      (List.range (Registry.chunkCount m.virtualSizeBytes)) m.chunks =
      (List.range (Registry.chunkCount m.virtualSizeBytes)).flatMap fun i =>
        part S m.virtualSizeBytes i (entryAt m.chunks i) := by
    rw [chunkDescriptors_eq_walk hzero fun i hi => mem_range.mp hi, range_eq_range',
      walk_eq_flatMap hsort fun _ _ => Nat.zero_le _]
  have hck : Registry.chunkSizeBytes = imageChunkSizeBytes := rfl
  unfold Registry.hashedBytes layout imageIdDomain
  rw [hwalk, hck]

/-! ## The layout of an image -/

/-- The image a manifest describes: the listed chunks have the listed digests, and the others are
zeros. -/
structure Describes (S : Sha256) (m : ImageChunkManifest) (image : Bytes) : Prop where
  length : image.length = m.virtualSizeBytes
  listed : ∀ d ∈ m.chunks, S.hex (block imageChunkSizeBytes d.index image) = d.rawSha256
  sparse : ∀ i, (∀ d ∈ m.chunks, d.index ≠ i) → ∀ b ∈ block imageChunkSizeBytes i image, b = 0

/-- What one logical chunk of an image contributes. -/
def imagePart (S : Sha256) (image : Bytes) (i : ℕ) : Bytes :=
  descriptor i (block imageChunkSizeBytes i image).length
    (S.digest (block imageChunkSizeBytes i image))

/-- The layout whose digest is the id of an image. -/
def imageLayout (S : Sha256) (image : Bytes) : Bytes :=
  imageIdDomain ++ littleEndian 8 image.length ++ littleEndian 4 imageChunkSizeBytes ++
    (List.range (Registry.chunkCount image.length)).flatMap (imagePart S image)

/-- The strings that are hashed to name an image. -/
def hashedStrings (S : Sha256) (image : Bytes) : Set Bytes :=
  {bytes | bytes = imageLayout S image ∨ ∃ i, bytes = block imageChunkSizeBytes i image}

theorem part_of_describes (h : Describes S m image) (i : ℕ) :
    part S m.virtualSizeBytes i (entryAt m.chunks i) = imagePart S image i := by
  have hlen : min (m.virtualSizeBytes - i * imageChunkSizeBytes) imageChunkSizeBytes =
      (block imageChunkSizeBytes i image).length := by
    rw [Blocks.length_block, h.length, Nat.min_comm]
  rw [part, imagePart]
  simp only [hlen]
  cases hent : entryAt m.chunks i with
  | none =>
    have hzeros := h.sparse i (entryAt_eq_none.mp hent)
    rw [Option.elim_none, ← eq_replicate_of_mem hzeros]
  | some d =>
    obtain ⟨hd, rfl⟩ := entryAt_eq_some hent
    rw [Option.elim_some, ← h.listed d hd, S.hexToBytes_hex]

/-- **What is hashed for a manifest depends on the image alone.** -/
theorem layout_of_describes (h : Describes S m image) : layout S m = imageLayout S image := by
  unfold layout imageLayout
  rw [h.length]
  congr 1
  apply flatMap_congr
  intro i _
  exact part_of_describes h i

theorem Valid.hashedBytes (h : Valid S m) : hashedBytes S m = .ok (layout S m) :=
  hashedBytes_eq h.chunkSize h.size_le (fun d hd => (h.chunks d hd).rawSha256) h.sorted

theorem Valid.imageId_eq (h : Valid S m) : m.imageId = S.hex (layout S m) := by
  have hid := h.imageId
  rw [computeImageId, h.hashedBytes] at hid
  exact (Except.ok.inj hid).symm

/-! ## Reading an image back from its layout -/

@[simp] theorem length_littleEndian (count value : ℕ) : (littleEndian count value).length = count := by
  simp [littleEndian]

theorem littleEndian_succ (count value : ℕ) :
    littleEndian (count + 1) value = littleEndian count value ++ [UInt8.ofNat (value / 256 ^ count)] := by
  simp [littleEndian, range_succ]

theorem mod_eq_of_littleEndian_eq {count a b : ℕ} (h : littleEndian count a = littleEndian count b) :
    a % 256 ^ count = b % 256 ^ count := by
  induction count with
  | zero => simp [Nat.mod_one]
  | succ count ih =>
    rw [littleEndian_succ, littleEndian_succ] at h
    obtain ⟨hlow, hhigh⟩ := append_inj h (by simp)
    have hbyte : a / 256 ^ count % 256 = b / 256 ^ count % 256 := by
      simpa using congrArg UInt8.toNat (singleton_inj.mp hhigh)
    rw [Nat.mod_pow_succ, Nat.mod_pow_succ, ih hlow, hbyte]

theorem length_imagePart (image : Bytes) (i : ℕ) : (imagePart S image i).length = 40 := by
  simp [imagePart, descriptor, S.length_digest]

/-- Two images with one layout are one image, if the hash tells their blocks apart. -/
theorem eq_of_imageLayout_eq {image' : Bytes} (hlt : image.length < 2 ^ 64)
    (hlt' : image'.length < 2 ^ 64)
    (hfr : S.CollisionFree (hashedStrings S image ∪ hashedStrings S image'))
    (h : imageLayout S image = imageLayout S image') : image = image' := by
  rw [imageLayout, imageLayout, append_assoc, append_assoc, append_assoc, append_assoc] at h
  obtain ⟨hsz, hrs⟩ := append_inj (append_cancel_left h) (by simp)
  have hlen : image.length = image'.length := by
    have hmod := mod_eq_of_littleEndian_eq hsz
    rwa [Nat.mod_eq_of_lt (by omega), Nat.mod_eq_of_lt (by omega)] at hmod
  rw [hlen] at hrs
  have hparts := Blocks.eq_of_flatMap_eq (length_imagePart image) (length_imagePart image')
    (append_cancel_left hrs)
  apply Blocks.ext_block (c := imageChunkSizeBytes) (by decide)
  intro i
  rcases Nat.lt_or_ge i (Registry.chunkCount image'.length) with hi | hi
  · have hpart := hparts i (mem_range.mpr hi)
    rw [imagePart, imagePart, descriptor, descriptor] at hpart
    have hdig := (append_inj hpart (by simp)).2
    exact hfr (.inl (.inr ⟨i, rfl⟩)) (.inr (.inr ⟨i, rfl⟩)) hdig
  · have hend : image'.length ≤ i * imageChunkSizeBytes := by
      simp only [Registry.chunkCount, Registry.chunkSizeBytes, imageChunkSizeBytes] at hi ⊢
      omega
    rw [Blocks.block_eq_nil hend, Blocks.block_eq_nil (hlen.trans_le hend)]

/-! ## Other encodings of the same chunks -/

/-- The manifest of the same raw chunks encoded in another way. -/
def reencode (encoding : String) (encode : ImageChunk → ℕ × String) (m : ImageChunkManifest) :
    ImageChunkManifest :=
  { m with
    encoding
    chunks := m.chunks.map fun d =>
      { d with encodedSizeBytes := (encode d).1, encodedSha256 := (encode d).2 } }

theorem descriptors_reencode (S : Sha256) (encoding : String) (encode : ImageChunk → ℕ × String)
    (m : ImageChunkManifest) (indices : List ℕ) (chunks : List ImageChunk) :
    descriptors S (reencode encoding encode m) indices (chunks.map fun d =>
      { d with encodedSizeBytes := (encode d).1, encodedSha256 := (encode d).2 }) =
      descriptors S m indices chunks := by
  induction indices generalizing chunks with
  | nil => cases chunks <;> rfl
  | cons _ _ ih =>
    cases chunks with
    | nil =>
      rw [map_nil, descriptors, descriptors, ← ih []]
      rfl
    | cons d ds =>
      rw [map_cons, descriptors, descriptors, ih ds, ← ih (d :: ds)]
      rfl

theorem computeImageId_reencode (S : Sha256) (encoding : String)
    (encode : ImageChunk → ℕ × String) (m : ImageChunkManifest) :
    computeImageId S (reencode encoding encode m) = computeImageId S m := by
  have hdescs := descriptors_reencode S encoding encode m (List.range (chunkCount m)) m.chunks
  unfold computeImageId hashedBytes
  rw [← hdescs]
  rfl

variable (sha256Hex : Bytes → String)

theorem chunkDescriptors_reencode (encode : ImageChunk → ℕ × String)
    (size : ℕ) (indices : List ℕ) (chunks : List ImageChunk) :
    Registry.chunkDescriptors sha256Hex size indices (chunks.map fun d =>
      { d with encodedSizeBytes := (encode d).1, encodedSha256 := (encode d).2 }) =
      Registry.chunkDescriptors sha256Hex size indices chunks := by
  induction indices generalizing chunks with
  | nil => cases chunks <;> rfl
  | cons _ _ ih =>
    cases chunks with
    | nil => rfl
    | cons d ds => rw [map_cons, Registry.chunkDescriptors, Registry.chunkDescriptors, ih ds,
        ← ih (d :: ds), map_cons]

theorem registry_computeImageId_reencode (encoding : String)
    (encode : ImageChunk → ℕ × String) (m : ImageChunkManifest) :
    Registry.computeImageId sha256Hex (reencode encoding encode m) =
      Registry.computeImageId sha256Hex m := by
  rw [Registry.computeImageId_eq, Registry.computeImageId_eq]
  congr 1
  unfold Registry.hashedBytes
  congr 1
  exact chunkDescriptors_reencode sha256Hex encode m.virtualSizeBytes _ m.chunks

/-- **The image id names the raw image.**  For a manifest the host accepts, the Rust and the
TypeScript implementation hash the same bytes.  Two valid manifests with one image id describe one
image, given that the hash has no collision among the strings hashed to name the two; and two that
describe one image have one id.  How the chunks were encoded does not enter: neither
implementation's id changes when the encoding, the encoded sizes and the encoded digests do. -/
theorem image_id_names_image (S : Sha256)
    (hzero : S.hex (List.replicate imageChunkSizeBytes 0) = Registry.fullZeroChunkSha256) :
    (∀ m, validate S m = .ok () → hashedBytes S m = .ok (Registry.hashedBytes S.hex m)) ∧
    (∀ m m' image image', validate S m = .ok () → validate S m' = .ok () →
      Describes S m image → Describes S m' image' →
      (S.CollisionFree (hashedStrings S image ∪ hashedStrings S image') →
        m.imageId = m'.imageId → image = image') ∧
      (image = image' → m.imageId = m'.imageId)) ∧
    (∀ m encoding encode,
      computeImageId S (reencode encoding encode m) = computeImageId S m ∧
      Registry.computeImageId S.hex (reencode encoding encode m) =
        Registry.computeImageId S.hex m) := by
  refine ⟨fun m hm => ?_, fun m m' image image' hm hm' hds hds' => ⟨fun hfr hid => ?_, ?_⟩,
    fun m encoding encode => ⟨computeImageId_reencode S encoding encode m,
      registry_computeImageId_reencode S.hex encoding encode m⟩⟩
  · have hval := validate_eq_ok.mp hm
    rw [hval.hashedBytes, registry_hashedBytes_eq hzero hval.sorted]
  · have hval := validate_eq_ok.mp hm
    have hval' := validate_eq_ok.mp hm'
    rw [hval.imageId_eq, hval'.imageId_eq, S.hex_eq_hex, layout_of_describes hds,
      layout_of_describes hds'] at hid
    have hlt : ∀ {m : ImageChunkManifest} {image : Bytes}, Valid S m → Describes S m image →
        image.length < 2 ^ 64 := by
      intro _ _ hval hds
      have hle := hval.size_le
      rw [← hds.length, maxChunkedImageBytes] at hle
      omega
    exact eq_of_imageLayout_eq (hlt hval hds) (hlt hval' hds') hfr
      (hfr (.inl (.inl rfl)) (.inr (.inl rfl)) hid)
  · rintro rfl
    rw [(validate_eq_ok.mp hm).imageId_eq, (validate_eq_ok.mp hm').imageId_eq,
      layout_of_describes hds, layout_of_describes hds']

/-! ## An image of one byte -/

namespace Demo

/-- A stand-in for SHA-256 with its value at a full chunk of zeros: the first 31 bytes of a string
and its length. -/
def sha256 : Sha256 where
  digest bytes :=
    if bytes = List.replicate imageChunkSizeBytes 0 then hexToBytes Registry.fullZeroChunkSha256
    else (bytes ++ List.replicate 31 0).take 31 ++ [UInt8.ofNat bytes.length]
  length_digest bytes := by
    have hzero : (hexToBytes Registry.fullZeroChunkSha256).length = 32 := by decide +kernel
    split_ifs
    · exact hzero
    · simp

/-- The manifest of the image of the one byte 1, stored as 5 bytes. -/
def manifest : ImageChunkManifest :=
  ⟨1, sha256.hex (imageLayout sha256 [1]), 1, imageChunkSizeBytes, imageChunkEncoding,
    [⟨0, 1, sha256.hex [1], 5, sha256.hex [2]⟩]⟩

/-- The same image, stored as 7 bytes. -/
def manifest' : ImageChunkManifest :=
  reencode imageChunkEncoding (fun _ => (7, sha256.hex [3])) manifest

theorem validate_manifest : validate sha256 manifest = .ok () := by decide +kernel

theorem validate_manifest' : validate sha256 manifest' = .ok () := by decide +kernel

theorem hex_zeros :
    sha256.hex (List.replicate imageChunkSizeBytes 0) = Registry.fullZeroChunkSha256 := by
  have hhex : hexDigest (hexToBytes Registry.fullZeroChunkSha256) = Registry.fullZeroChunkSha256 := by
    decide +kernel
  unfold Sha256.hex sha256
  simp [hhex]

theorem block_one (i : ℕ) :
    block imageChunkSizeBytes i ([1] : Bytes) = if i = 0 then [1] else [] := by
  split_ifs with hi
  · subst hi
    rfl
  · refine Blocks.block_eq_nil ?_
    simp only [length_singleton, imageChunkSizeBytes]
    omega

theorem mem_hashedStrings_one {bytes : Bytes} (h : bytes ∈ hashedStrings sha256 [1]) :
    bytes ∈ [imageLayout sha256 [1], [1], []] := by
  rcases h with rfl | ⟨i, rfl⟩
  · simp
  rw [block_one]
  split_ifs <;> simp

theorem collisionFree_one : sha256.CollisionFree (hashedStrings sha256 [1]) := by
  have hinj : ∀ a ∈ [imageLayout sha256 [1], [1], []], ∀ b ∈ [imageLayout sha256 [1], [1], []],
      sha256.digest a = sha256.digest b → a = b := by
    decide +kernel
  intro a ha b hb hdig
  exact hinj a (mem_hashedStrings_one ha) b (mem_hashedStrings_one hb) hdig

theorem describes_one {m : ImageChunkManifest} (hsz : m.virtualSizeBytes = 1)
    (hch : m.chunks.map (fun d => (d.index, d.rawSha256)) = [(0, sha256.hex [1])]) :
    Describes sha256 m [1] := by
  have hent : ∀ d ∈ m.chunks, d.index = 0 ∧ d.rawSha256 = sha256.hex [1] := by
    intro d hd
    have hmem := mem_map_of_mem (f := fun d : ImageChunk => (d.index, d.rawSha256)) hd
    rw [hch, mem_singleton, Prod.mk.injEq] at hmem
    exact hmem
  refine ⟨hsz.symm, fun d hd => ?_, fun i hi b hb => ?_⟩
  · rw [(hent d hd).1, block_one, if_pos rfl, (hent d hd).2]
  rw [block_one] at hb
  split_ifs at hb with hzero
  · have hmem : ((0 : ℕ), sha256.hex [1]) ∈ m.chunks.map fun d => (d.index, d.rawSha256) := by
      rw [hch]
      simp
    obtain ⟨d, hd, _⟩ := mem_map.mp hmem
    exact absurd (hzero ▸ (hent d hd).1) (hi d hd)
  · cases hb

/-- Two encodings of one image have one image id, and the id gives the image back. -/
theorem image_id_names_one_byte :
    hashedBytes sha256 manifest = .ok (Registry.hashedBytes sha256.hex manifest) ∧
      manifest ≠ manifest' ∧ manifest.imageId = manifest'.imageId ∧
      sha256.CollisionFree (hashedStrings sha256 [1] ∪ hashedStrings sha256 [1]) ∧
      ([1] : Bytes) = [1] := by
  obtain ⟨hhashed, hnm, -⟩ := image_id_names_image sha256 hex_zeros
  have hfr : sha256.CollisionFree (hashedStrings sha256 [1] ∪ hashedStrings sha256 [1]) := by
    rw [Set.union_self]
    exact collisionFree_one
  obtain ⟨himg, hid⟩ := hnm manifest manifest' [1] [1] validate_manifest validate_manifest'
    (describes_one rfl rfl) (describes_one rfl rfl)
  exact ⟨hhashed manifest validate_manifest, by decide +kernel, hid rfl, hfr, himg hfr (hid rfl)⟩

end Demo

end

end Intar.Image
