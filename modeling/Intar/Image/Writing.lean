import Intar.Image.Scanning

/-!
# What a write leaves behind

Each different chunk of the scan is either known to the registry or encoded into a file of its own.
After a write that succeeds, every chunk of the manifest can be read back from where it is stored,
and what is read is the chunk of the image (`Stored`).  The loops only add files and entries, so what
is stored once stays stored (`Stored.mono`), and each chunk of the scan is met once under its digest.

Two facts about the hash enter: chunks of the image with one digest are one chunk, and an encoded file
that was there before with the digest of the new one is the new one (`storedStrings`).
-/

namespace Intar.Image

open Function Fallible SortedTable Blocks

open Registry (Bytes ImageChunk ImageChunkManifest isSha256)
open Blocks (block batches)
open List

/-- The block of an image at an index. -/
abbrev chunkAt (image : Bytes) (i : ℕ) : Bytes := block imageChunkSizeBytes i image

/-- The strings that are hashed when an image is written into a directory: its blocks, their
encodings, and the files that are there. -/
def storedStrings (Z : Zstd) (image : Bytes) (dir : ChunkDir) : Set Bytes :=
  {bytes | (∃ i, bytes = chunkAt image i) ∨ (∃ i, bytes = Z.encode (chunkAt image i)) ∨
    ∃ name, dir name = some bytes}

/-- Where the payload of an encoded chunk is: in the directory, or in the registry. -/
def payload (registry : String → Option Bytes) (dir : ChunkDir) (path : Option String)
    (encodedSha256 : String) : Option Bytes :=
  match path with
  | some name => dir name
  | none => registry encodedSha256

/-- A file with the given digest that decodes to `raw`. -/
def Decodes (S : Sha256) (Z : Zstd) (file : Option Bytes) (encodedSha256 : String)
    (raw : Bytes) : Prop :=
  ∃ bytes, file = some bytes ∧ S.hex bytes = encodedSha256 ∧
    ∀ limit, Z.read bytes limit = some (raw.take limit)

/-- The metadata the registry gave belongs to payloads it has: for a chunk of the image the payload
decodes to the chunk. -/
structure ReusedSound (S : Sha256) (Z : Zstd) (image : Bytes) (registry : String → Option Bytes)
    (reused : String → Option ReusedEncodedImageChunk) : Prop where
  metadata : ∀ i r, reused (S.hex (chunkAt image i)) = some r →
    r.rawSha256 = S.hex (chunkAt image i) ∧ r.rawSizeBytes = (chunkAt image i).length ∧
      isSha256 r.encodedSha256 = true ∧ 0 < r.encodedSizeBytes ∧
      r.encodedSizeBytes ≤ imageChunkSizeBytes * 2
  payload : ∀ i r, reused (S.hex (chunkAt image i)) = some r →
    Decodes S Z (registry r.encodedSha256) r.encodedSha256 (chunkAt image i)

section

variable {S : Sha256} {Z : Zstd} {image : Bytes} {registry : String → Option Bytes}

variable (S Z image registry) in
/-- An entry of the map of encoded chunks whose payload can be read back. -/
structure Stored (dir : ChunkDir) (e : EncodedChunk) : Prop where
  decodes : ∀ i, S.hex (chunkAt image i) = e.rawSha256 →
    Decodes S Z (payload registry dir e.path e.encodedSha256) e.encodedSha256 (chunkAt image i)
  sha256 : isSha256 e.encodedSha256 = true
  size_pos : 0 < e.encodedSizeBytes
  size_le : e.encodedSizeBytes ≤ imageChunkSizeBytes * 2

/-- A directory with more files. -/
def Grows (dir dir' : ChunkDir) : Prop := ∀ name bytes, dir name = some bytes → dir' name = some bytes

theorem Grows.refl (dir : ChunkDir) : Grows dir dir := fun _ _ h => h

variable {encoded : List EncodedChunk} {reader : ImageChunkReader} {chunks : List ImageChunk}
  {size : ℕ} {m : ImageChunkManifest}

variable {e : EncodedChunk} {is : List ℕ} {unique : List ScannedImageChunk}
  {chunk u c : ScannedImageChunk}
 

variable {dir dir' : ChunkDir}

theorem Stored.mono (h : Stored S Z image registry dir e)
    (hgrw : Grows dir dir') : Stored S Z image registry dir' e := by
  refine ⟨fun i hi => ?_, h.sha256, h.size_pos, h.size_le⟩
  obtain ⟨bytes, hfl, hby⟩ := h.decodes i hi
  refine ⟨bytes, ?_, hby⟩
  cases hpt : e.path with
  | none =>
    rw [hpt] at hfl
    exact hfl
  | some name =>
    rw [hpt] at hfl
    exact hgrw name bytes hfl

/-! ## Encoding one chunk -/

/-- The scanned chunk at an index of the image. -/
def scannedAt (S : Sha256) (image : Bytes) (i : ℕ) : ScannedImageChunk :=
  ⟨i, (chunkAt image i).length, S.hex (chunkAt image i)⟩

theorem chunkFileName_inj {a b : String} (h : chunkFileName a = chunkFileName b) : a = b := by
  rw [← String.toList_inj, chunkFileName, chunkFileName, String.toList_append,
    String.toList_append] at h
  exact String.toList_inj.mp (append_cancel_right h)

/-- What a directory may hold while an image is written: only strings the hash tells apart. -/
def Known (Z : Zstd) (image : Bytes) (dir₀ dir : ChunkDir) : Prop :=
  ∀ name bytes, dir name = some bytes → bytes ∈ storedStrings Z image dir₀

variable {dir₀ : ChunkDir} {faults : WriteFaults} {i : ℕ}

theorem grows_update {name : String} {bytes : Bytes} (h : dir name = none) :
    Grows dir (update dir name (some bytes)) := by
  intro name' _ hfl
  have hne : name' ≠ name := by
    rintro rfl
    rw [h] at hfl
    cases hfl
  rw [update_of_ne hne]
  exact hfl

theorem stored_encode (hfr : S.CollisionFree (storedStrings Z image dir₀))
    (hfl : dir (chunkFileName (S.hex (chunkAt image i))) = some (Z.encode (chunkAt image i))) :
    Stored S Z image registry dir ⟨S.hex (chunkAt image i), S.hex (Z.encode (chunkAt image i)),
      (Z.encode (chunkAt image i)).length, some (chunkFileName (S.hex (chunkAt image i)))⟩ := by
  refine ⟨fun j hj => ⟨Z.encode (chunkAt image i), hfl, rfl, fun limit => ?_⟩, S.isSha256_hex _,
    Z.length_encode_pos _, Z.length_encode_le _ ?_⟩
  · -- another block with this digest is this block
    rw [hfr (.inl ⟨j, rfl⟩) (.inl ⟨i, rfl⟩) (S.hex_eq_hex.mp hj), Z.read_encode]
  · rw [length_block]
    exact Nat.min_le_left _ _

theorem encodeChunk_eq_ok (hfr : S.CollisionFree (storedStrings Z image dir₀))
    (hkn : Known Z image dir₀ dir)
    (h : encodeChunk S Z faults (scannedAt S image i) (chunkAt image i) dir = .ok (e, dir')) :
    e.rawSha256 = S.hex (chunkAt image i) ∧ Grows dir dir' ∧ Known Z image dir₀ dir' ∧
      Stored S Z image registry dir' e := by
  rw [encodeChunk, if_pos ⟨rfl, rfl⟩] at h
  split_ifs at h
  dsimp only [scannedAt] at h
  split at h
  case h_1 existing hexi =>
    split_ifs at h with hsm
    cases h
    have heq : existing = Z.encode (chunkAt image i) :=
      hfr (hkn _ _ hexi) (.inr (.inl ⟨i, rfl⟩)) (S.hex_eq_hex.mp hsm.2)
    exact ⟨rfl, Grows.refl dir, hkn, stored_encode hfr (heq ▸ hexi)⟩
  case h_2 hno =>
    cases h
    refine ⟨rfl, grows_update hno, fun name bytes hfl => ?_, stored_encode hfr (update_self _ _ _)⟩
    by_cases hnm : name = chunkFileName (S.hex (chunkAt image i))
    · subst hnm
      rw [update_self, Option.some.injEq] at hfl
      exact .inr (.inl ⟨i, hfl.symm⟩)
    · rw [update_of_ne hnm] at hfl
      exact hkn name bytes hfl

variable (S Z image) in
/-- A directory whose files, where they have the name of a chunk of the image, are its encoding. -/
def Compatible (dir : ChunkDir) : Prop :=
  ∀ i bytes, dir (chunkFileName (S.hex (chunkAt image i))) = some bytes →
    bytes = Z.encode (chunkAt image i)

theorem encodeChunk_ok (hfr : S.CollisionFree (storedStrings Z image dir₀))
    (hfault : faults.chunkFile (S.hex (chunkAt image i)) = false) (hdir : Compatible S Z image dir) :
    ∃ e dir', encodeChunk S Z faults (scannedAt S image i) (chunkAt image i) dir = .ok (e, dir') ∧
      Compatible S Z image dir' := by
  rw [encodeChunk, if_pos ⟨rfl, rfl⟩, if_neg (by simpa [scannedAt] using hfault)]
  dsimp only [scannedAt]
  split
  case h_1 existing hexi =>
    rw [hdir i existing hexi, if_pos ⟨rfl, rfl⟩]
    exact ⟨_, dir, rfl, hdir⟩
  case h_2 =>
    refine ⟨_, _, rfl, fun j bytes hfl => ?_⟩
    by_cases hnm : chunkFileName (S.hex (chunkAt image j)) = chunkFileName (S.hex (chunkAt image i))
    · have hblock : chunkAt image j = chunkAt image i :=
        hfr (.inl ⟨j, rfl⟩) (.inl ⟨i, rfl⟩) (S.hex_eq_hex.mp (chunkFileName_inj hnm))
      rw [hnm, update_self, Option.some.injEq] at hfl
      rw [hblock, hfl]
    · rw [update_of_ne hnm] at hfl
      exact hdir j bytes hfl

/-! ## The loops -/

variable (S Z image registry dir₀) in
/-- What holds between two chunks: the files are known, and every entry is stored. -/
structure EncodingInv (state : Encoding) : Prop where
  known : Known Z image dir₀ state.2
  stored : ∀ e ∈ state.1, Stored S Z image registry state.2 e

/-- There is an entry for a digest. -/
def Has (encoded : List EncodedChunk) (rawSha256 : String) : Prop :=
  ∃ e ∈ encoded, e.rawSha256 = rawSha256

theorem has_insert_self (e : EncodedChunk) (encoded : List EncodedChunk) :
    Has (insert EncodedChunk.rawSha256 e encoded) e.rawSha256 :=
  ⟨e, mem_insert_self, rfl⟩

theorem Has.insert {raw : String} (h : Has encoded raw) (e : EncodedChunk) :
    Has (insert EncodedChunk.rawSha256 e encoded) raw := by
  obtain ⟨e', he', rfl⟩ := h
  by_cases heq : e'.rawSha256 = e.rawSha256
  · rw [heq]
    exact has_insert_self e encoded
  · exact ⟨e', mem_insert.mpr (.inr ⟨he', heq⟩), rfl⟩

/-- What the loop hands to the encoder for a list of chunks. -/
def reads (S : Sha256) (image : Bytes) (is : List ℕ) : List (ScannedImageChunk × Bytes) :=
  is.map fun i => (scannedAt S image i, chunkAt image i)

theorem reads_append (S : Sha256) (image : Bytes) (is js : List ℕ) :
    reads S image (is ++ js) = reads S image is ++ reads S image js := map_append

/-- **Every chunk that is encoded is stored**, and what was stored before stays so. -/
theorem encodeBatch_eq_ok (hfr : S.CollisionFree (storedStrings Z image dir₀))
    {state state' : Encoding} (hinv : EncodingInv S Z image registry dir₀ state)
    (h : encodeBatch S Z faults (reads S image is) state = .ok state') :
    EncodingInv S Z image registry dir₀ state' ∧ (∀ raw, Has state.1 raw → Has state'.1 raw) ∧
      ∀ i ∈ is, Has state'.1 (S.hex (chunkAt image i)) := by
  induction is generalizing state with
  | nil =>
    cases h
    exact ⟨hinv, fun _ h => h, by simp⟩
  | cons i _ ih =>
    rw [reads, map_cons, encodeBatch] at h
    obtain ⟨⟨e, dir'⟩, henco, h⟩ := bind_eq_ok.mp h
    obtain ⟨hraw, hgrw, hkn, hsto⟩ : e.rawSha256 = S.hex (chunkAt image i) ∧
        Grows state.2 dir' ∧ Known Z image dir₀ dir' ∧ Stored S Z image registry dir' e :=
      encodeChunk_eq_ok hfr hinv.known henco
    have hinv' : EncodingInv S Z image registry dir₀
        (insert EncodedChunk.rawSha256 e state.1, dir') := by
      refine ⟨hkn, fun e' he' => ?_⟩
      rcases mem_insert.mp he' with rfl | ⟨he', -⟩
      · exact hsto
      · exact (hinv.stored e' he').mono hgrw
    obtain ⟨hinv'', hkeep, hnew⟩ := ih hinv' h
    refine ⟨hinv'', fun raw hraw => hkeep raw (hraw.insert e), ?_⟩
    rw [forall_mem_cons]
    exact ⟨hraw ▸ hkeep _ (has_insert_self e state.1), hnew⟩

theorem encodeBatch_ok (hfr : S.CollisionFree (storedStrings Z image dir₀))
    (hfault : ∀ raw, faults.chunkFile raw = false) (is : List ℕ) (encoded : List EncodedChunk)
    (hdir : Compatible S Z image dir) :
    ∃ state', encodeBatch S Z faults (reads S image is) (encoded, dir) = .ok state' := by
  induction is generalizing encoded dir with
  | nil => exact ⟨_, rfl⟩
  | cons i _ ih =>
    obtain ⟨e, _, henco, hdir'⟩ := encodeChunk_ok (i := i) hfr (hfault _) hdir
    obtain ⟨state', hrs⟩ := ih (insert EncodedChunk.rawSha256 e encoded) hdir'
    refine ⟨state', ?_⟩
    rw [reads, map_cons, encodeBatch, henco]
    exact hrs

theorem encodeBatch_append (xs ys : List (ScannedImageChunk × Bytes)) (state : Encoding) :
    encodeBatch S Z faults (xs ++ ys) state =
      encodeBatch S Z faults xs state >>= encodeBatch S Z faults ys := by
  induction xs generalizing state with
  | nil => rfl
  | cons x _ ih =>
    rw [cons_append, encodeBatch, encodeBatch]
    cases encodeChunk S Z faults x.1 x.2 state.2 with
    | error => rfl
    | ok =>
      rw [ok_bind, ok_bind]
      exact ih _

theorem foldlM_encodeBatch (bs : List (List (ScannedImageChunk × Bytes))) (state : Encoding) :
    bs.foldlM (fun state batch => encodeBatch S Z faults batch state) state =
      encodeBatch S Z faults bs.flatten state := by
  induction bs generalizing state with
  | nil => rfl
  | cons _ _ ih =>
    rw [foldlM_cons, flatten_cons, encodeBatch_append]
    exact bind_congr ih

/-- A batch of chunks of the image is encoded as it stands. -/
theorem encodeMissing_eq (hrds : Reads reader image) (hlen : is.length ≤ maxChunkReadsInFlight)
    (state : Encoding) :
    encodeMissing S Z faults reader (is.map (scannedAt S image)) state =
      encodeBatch S Z faults (reads S image is) state := by
  have hle : ((is.map (scannedAt S image)).map chunkRead).length ≤ maxChunkReadsInFlight := by
    rw [length_map, length_map]
    exact hlen
  have hby : reader.readChunks ((is.map (scannedAt S image)).map chunkRead) =
      .ok (is.map (chunkAt image)) := by
    rw [hrds.read _ hle, map_map, map_map]
    refine congrArg Except.ok (map_congr_left fun i _ => ?_)
    have hrd : chunkRead (scannedAt S image i) =
        ⟨i * imageChunkSizeBytes, (chunkAt image i).length⟩ := by
      rw [chunkRead, scannedAt]
    rw [comp_apply, comp_apply, hrd]
    exact take_drop_eq_block i
  have hzip : (is.map (scannedAt S image)).zip (is.map (chunkAt image)) = reads S image is := by
    rw [zip_map', reads]
  have hfind : (reads S image is).find? (fun read => read.2.length ≠ read.1.rawSizeBytes) = none := by
    rw [find?_eq_none]
    intro _ hrd
    obtain ⟨i, -, rfl⟩ := mem_map.mp hrd
    simp [scannedAt]
  unfold encodeMissing
  rw [hby, ok_bind, ensure_of (by simp), ok_bind, hzip, hfind]
  rw [foldlM_encodeBatch, flatten_batches (by decide)]

theorem foldlM_encodeMissing (hrds : Reads reader image) (is : List ℕ) (state : Encoding) :
    (batches maxChunkReadsInFlight (is.map (scannedAt S image))).foldlM
        (fun state batch => encodeMissing S Z faults reader batch state) state =
      encodeBatch S Z faults (reads S image is) state := by
  have hfold : ∀ (bs : List (List ℕ)) (state : Encoding),
      (∀ b ∈ bs, b.length ≤ maxChunkReadsInFlight) →
      (bs.map (List.map (scannedAt S image))).foldlM
          (fun state batch => encodeMissing S Z faults reader batch state) state =
        encodeBatch S Z faults (reads S image bs.flatten) state := by
    intro bs
    induction bs with
    | nil => exact fun _ _ => rfl
    | cons _ _ ih =>
      intro _ hbs
      rw [forall_mem_cons] at hbs
      rw [map_cons, foldlM_cons, encodeMissing_eq hrds hbs.1, flatten_cons,
        reads_append, encodeBatch_append]
      exact bind_congr fun state' => ih state' hbs.2
  rw [batches_map, hfold _ _ fun b hb => length_le_of_mem_batches hb, flatten_batches (by decide)]

/-! ## The chunks of a scan -/

theorem mem_enterUnique (h : u ∈ enterUnique unique chunk) : u ∈ unique ∨ u = chunk := by
  rw [enterUnique] at h
  split at h
  · exact .inl h
  · exact (mem_insert.mp h).symm.imp_left And.left

/-- After a chunk is entered, its digest has an entry, and so has every digest that had one. -/
theorem exists_mem_enterUnique (h : c ∈ unique ∨ c = chunk) :
    ∃ u ∈ enterUnique unique chunk, u.rawSha256 = c.rawSha256 := by
  rw [enterUnique]
  split
  case h_1 first hget =>
    rcases h with h | rfl
    · exact ⟨c, h, rfl⟩
    · exact ⟨first, mem_of_get hget, key_of_get hget⟩
  case h_2 hget =>
    rcases h with h | rfl
    · exact ⟨c, mem_insert.mpr (.inr ⟨h, ne_of_get_eq_none hget h⟩), rfl⟩
    · exact ⟨c, mem_insert_self, rfl⟩

theorem mem_foldl_enterUnique {chunks : List ScannedImageChunk}
    (h : u ∈ chunks.foldl enterUnique unique) : u ∈ unique ∨ u ∈ chunks := by
  induction chunks generalizing unique with
  | nil => exact .inl h
  | cons _ _ ih =>
    rw [mem_cons]
    rcases ih h with h | h
    · exact (mem_enterUnique h).imp_right .inl
    · exact .inr (.inr h)

theorem exists_mem_foldl_enterUnique (chunks unique : List ScannedImageChunk)
    (h : c ∈ unique ∨ c ∈ chunks) :
    ∃ u ∈ chunks.foldl enterUnique unique, u.rawSha256 = c.rawSha256 := by
  induction chunks generalizing unique c with
  | nil => exact ⟨c, h.resolve_right (by simp), rfl⟩
  | cons chunk _ ih =>
    rw [mem_cons, ← or_assoc] at h
    rcases h with h | h
    · obtain ⟨u, hu, heq⟩ := exists_mem_enterUnique h
      obtain ⟨v, hv, heq'⟩ := ih (enterUnique unique chunk) (.inl hu)
      exact ⟨v, hv, heq'.trans heq⟩
    · exact ih (enterUnique unique chunk) (.inr h)

/-- The chunks taken for encoding are chunks of the scan, one for each digest. -/
theorem exists_uniqueChunks (S : Sha256) (image : Bytes) (is : List ℕ) :
    ∃ js : List ℕ, uniqueChunks (is.map (scannedAt S image)) = js.map (scannedAt S image) ∧
      ∀ i ∈ is, ∃ j ∈ js, S.hex (chunkAt image j) = S.hex (chunkAt image i) := by
  have hmem : ∀ u ∈ uniqueChunks (is.map (scannedAt S image)), ∃ i, u = scannedAt S image i := by
    intro u hu
    obtain ⟨i, -, rfl⟩ := mem_map.mp ((mem_foldl_enterUnique hu).resolve_left (by simp))
    exact ⟨i, rfl⟩
  have huq : uniqueChunks (is.map (scannedAt S image)) =
      ((uniqueChunks (is.map (scannedAt S image))).map ScannedImageChunk.index).map
        (scannedAt S image) := by
    rw [map_map]
    refine (map_id' _).symm.trans (map_congr_left fun u hu => ?_)
    obtain ⟨i, rfl⟩ := hmem u hu
    rfl
  refine ⟨_, huq, fun i hi => ?_⟩
  obtain ⟨u, hu, heq⟩ := exists_mem_foldl_enterUnique _ []
    (.inr (mem_map_of_mem (f := scannedAt S image) hi))
  refine ⟨u.index, mem_map_of_mem hu, ?_⟩
  obtain ⟨j, rfl⟩ := hmem u hu
  exact heq

variable {reused : String → Option ReusedEncodedImageChunk}

/-- What the registry has is stored, and the rest is missing. -/
theorem splitReused_ok (hsnd : ReusedSound S Z image registry reused) (dir : ChunkDir)
    (is : List ℕ) (encoded : List EncodedChunk)
    (henc : ∀ e ∈ encoded, Stored S Z image registry dir e) (missing : List ℕ) :
    ∃ (encoded' : List EncodedChunk) (missing' : List ℕ),
      splitReused reused (is.map (scannedAt S image)) encoded
          (missing.map (scannedAt S image)) = .ok (encoded', missing'.map (scannedAt S image)) ∧
      (∀ e ∈ encoded', Stored S Z image registry dir e) ∧
      (∀ raw, Has encoded raw → Has encoded' raw) ∧ (∀ i ∈ missing, i ∈ missing') ∧
      ∀ i ∈ is, Has encoded' (S.hex (chunkAt image i)) ∨ i ∈ missing' := by
  induction is generalizing encoded missing with
  | nil => exact ⟨encoded, missing, rfl, henc, fun _ h => h, fun _ h => h, by simp⟩
  | cons i _ ih =>
    rw [map_cons, splitReused]
    cases hreused : reused (scannedAt S image i).rawSha256 with
    | none =>
      obtain ⟨encoded', missing', hrun, hsto, hhas, hmiss, hall⟩ := ih encoded henc (missing ++ [i])
      rw [map_append, map_singleton] at hrun
      refine ⟨encoded', missing', hrun, hsto, hhas,
        fun j hj => hmiss j (mem_append_left _ hj), ?_⟩
      rw [forall_mem_cons]
      exact ⟨.inr (hmiss i (by simp)), hall⟩
    | some r =>
      have hmeta := hsnd.metadata i r hreused
      have hent : Stored S Z image registry dir
          ⟨(scannedAt S image i).rawSha256, r.encodedSha256, r.encodedSizeBytes, none⟩ :=
        ⟨fun j hj => hsnd.payload j r (hj ▸ hreused), hmeta.2.2.1, hmeta.2.2.2.1, hmeta.2.2.2.2⟩
      obtain ⟨encoded', missing', hrun, hsto, hhas, hmiss, hall⟩ :=
        ih (insert EncodedChunk.rawSha256
          ⟨(scannedAt S image i).rawSha256, r.encodedSha256, r.encodedSizeBytes, none⟩ encoded)
          (fun e he => (mem_insert.mp he).elim (fun h => h ▸ hent)
            fun h => henc e h.1) missing
      have hval : validateReusedChunk (scannedAt S image i).rawSha256
          (scannedAt S image i).rawSizeBytes r = .ok () := by
        refine if_pos ⟨hmeta.1, hmeta.2.1, ?_, hmeta.2.2.1, hmeta.2.2.2.1⟩
        rw [hmeta.1]
        exact S.isSha256_hex _
      refine ⟨encoded', missing', ?_, hsto, fun raw h => hhas raw (h.insert _), hmiss, ?_⟩
      · dsimp only
        rw [hval, ok_bind]
        exact hrun
      · rw [forall_mem_cons]
        exact ⟨.inl (hhas _ (has_insert_self _ encoded)), hall⟩

/-! ## The scan is valid -/

/-- The indices of the chunks that are not zero. -/
def nonZeroIndices (image : Bytes) : List ℕ :=
  (List.range (Registry.chunkCount image.length)).filter fun i => (chunkAt image i).any (· ≠ 0)

theorem mem_nonZeroIndices :
    i ∈ nonZeroIndices image ↔ i < Registry.chunkCount image.length ∧ ∃ b ∈ chunkAt image i, b ≠ 0 := by
  simp [nonZeroIndices]

theorem scannedImage_chunks (S : Sha256) (image : Bytes) :
    (scannedImage S image).chunks = (nonZeroIndices image).map (scannedAt S image) := by
  rw [scannedImage, nonZeroIndices, ← filterMap_eq_map, filterMap_filter]
  apply filterMap_congr
  intro i _
  rw [nonZeroChunk]
  rfl

theorem chunkCount_spec (h : i < Registry.chunkCount image.length) :
    i * imageChunkSizeBytes < image.length ∧
      (i + 1 ≠ Registry.chunkCount image.length →
        i * imageChunkSizeBytes + imageChunkSizeBytes ≤ image.length) ∧
      (i + 1 = Registry.chunkCount image.length →
        image.length ≤ i * imageChunkSizeBytes + imageChunkSizeBytes) := by
  simp only [Registry.chunkCount, Registry.chunkSizeBytes, imageChunkSizeBytes] at h ⊢
  omega

theorem ensureChunks_ok {previous : Option ℕ}
    (his : ∀ i ∈ is, i < Registry.chunkCount image.length ∧ ∀ j ∈ previous, j < i)
    (hsort : is.Pairwise (· < ·)) :
    ensureChunks image.length previous (is.map (scannedAt S image)) = .ok () := by
  induction is generalizing previous with
  | nil => rfl
  | cons i _ ih =>
    rw [forall_mem_cons] at his
    rw [pairwise_cons] at hsort
    obtain ⟨_, hmid, hls⟩ := chunkCount_spec his.1.1
    have hsz : (chunkAt image i).length =
        if i + 1 = Registry.chunkCount image.length then image.length - i * imageChunkSizeBytes
        else imageChunkSizeBytes := by
      rw [length_block]
      split_ifs with h
      · have hle := hls h
        omega
      · have hle := hmid h
        omega
    have hval : (∀ index ∈ previous, index < (scannedAt S image i).index) ∧
        (scannedAt S image i).index <
          (image.length + imageChunkSizeBytes - 1) / imageChunkSizeBytes ∧
        (scannedAt S image i).rawSizeBytes =
          (if (scannedAt S image i).index + 1 =
              (image.length + imageChunkSizeBytes - 1) / imageChunkSizeBytes then
            image.length - (scannedAt S image i).index * imageChunkSizeBytes
          else imageChunkSizeBytes) ∧
        isSha256 (scannedAt S image i).rawSha256 = true :=
      ⟨his.1.2, his.1.1, hsz, S.isSha256_hex _⟩
    rw [map_cons, ensureChunks, if_pos hval]
    refine ih (fun j hj => ⟨(his.2 j hj).1, ?_⟩) hsort.2
    intro k hk
    cases hk
    exact hsort.1 j hj

theorem ensureScanIsValid_ok (hpos : 1 ≤ image.length) (hle : image.length ≤ maxChunkedImageBytes) :
    ensureScanIsValid (scannedImage S image) image.length = .ok () := by
  rw [ensureScanIsValid, if_pos ⟨rfl, hpos, hle⟩, scannedImage_chunks]
  exact ensureChunks_ok (fun i hi => ⟨(mem_nonZeroIndices.mp hi).1, nofun⟩)
    (pairwise_lt_range.filter _)

/-! ## The manifest -/

theorem buildManifest_eq_ok (h : buildManifest S size chunks = .ok m) :
    validate S m = .ok () ∧ m.virtualSizeBytes = size ∧ m.chunks = chunks := by
  rw [buildManifest] at h
  obtain ⟨_, -, h⟩ := bind_eq_ok.mp h
  obtain ⟨⟨⟩, hval, h⟩ := bind_eq_ok.mp h
  injection h with h
  subst h
  exact ⟨hval, rfl, rfl⟩

/-- Chunks in order that are valid by themselves make a valid manifest. -/
theorem buildManifest_ok (hpos : 1 ≤ size) (hle : size ≤ maxChunkedImageBytes) (id : String)
    (hch : ∀ d ∈ chunks, ValidChunk
      ⟨imageChunkManifestSchemaVersion, id, size, imageChunkSizeBytes, imageChunkEncoding, chunks⟩ d)
    (hsort : chunks.Pairwise fun a b => a.index < b.index) :
    ∃ m, buildManifest S size chunks = .ok m := by
  have hid : ∀ id, computeImageId S ⟨imageChunkManifestSchemaVersion, id, size,
      imageChunkSizeBytes, imageChunkEncoding, chunks⟩ = .ok (S.hex (layout S
        ⟨imageChunkManifestSchemaVersion, "", size, imageChunkSizeBytes, imageChunkEncoding,
          chunks⟩)) := by
    intro _
    unfold computeImageId
    rw [hashedBytes_eq rfl hle (fun d hd => (hch d hd).rawSha256) hsort]
    rfl
  have hval : ∀ id, S.hex (layout S ⟨imageChunkManifestSchemaVersion, "", size,
      imageChunkSizeBytes, imageChunkEncoding, chunks⟩) = id →
      validate S ⟨imageChunkManifestSchemaVersion, id, size, imageChunkSizeBytes,
        imageChunkEncoding, chunks⟩ = .ok () := by
    rintro _ rfl
    refine validate_eq_ok.mpr ⟨rfl, rfl, rfl, hpos, hle, fun d hd => ?_, hsort, hid _⟩
    obtain ⟨hix, hraw, hpos, hle, hsha, hsha'⟩ := hch d hd
    exact ⟨hix, hraw, hpos, hle, hsha, hsha'⟩
  unfold buildManifest
  dsimp only
  rw [hid, ok_bind, hval _ rfl]
  exact ⟨_, rfl⟩

/-! ## The artifact -/

/-- The payload of a chunk of an artifact, found by its index. -/
def artifactFile (registry : String → Option Bytes) (dir : ChunkDir)
    (artifact : ChunkedImageArtifact) (chunk : ImageChunk) : Option Bytes :=
  match artifact.chunks.find? fun a => a.descriptor.index = chunk.index with
  | some a => payload registry dir a.path a.descriptor.encodedSha256
  | none => none

theorem artifactChunk_eq_ok {a : EncodedImageChunkArtifact}
    (h : artifactChunk encoded (scannedAt S image i) = .ok a) :
    ∃ e ∈ encoded, e.rawSha256 = S.hex (chunkAt image i) ∧
      a = ⟨⟨i, (chunkAt image i).length, S.hex (chunkAt image i), e.encodedSizeBytes,
        e.encodedSha256⟩, e.path⟩ := by
  rw [artifactChunk] at h
  split at h
  case h_1 e hget =>
    cases h
    exact ⟨e, mem_of_get hget, key_of_get hget, rfl⟩
  case h_2 => cases h

theorem artifactChunk_ok (h : Has encoded (S.hex (chunkAt image i))) :
    ∃ a, artifactChunk encoded (scannedAt S image i) = .ok a := by
  obtain ⟨e, he, heq⟩ := h
  rw [artifactChunk]
  split
  · exact ⟨_, rfl⟩
  case h_2 hno => exact absurd heq (ne_of_get_eq_none hno he)

variable (S Z image registry) in
/-- What a successful write of an image leaves: a valid manifest that describes the image, with a
payload for each of its entries that decodes to the chunk. -/
structure Written (artifact : ChunkedImageArtifact) (dir : ChunkDir) : Prop where
  valid : validate S artifact.manifest = .ok ()
  describes : Describes S artifact.manifest image
  payloads : ∀ d ∈ artifact.manifest.chunks,
    Decodes S Z (artifactFile registry dir artifact d) d.encodedSha256 (chunkAt image d.index)

/-- The artifact made of entries that are all stored is written. -/
theorem written_of_each {chunks : List EncodedImageChunkArtifact}
    (hsto : ∀ e ∈ encoded, Stored S Z image registry dir e)
    (heach : each (artifactChunk encoded) ((nonZeroIndices image).map (scannedAt S image)) =
      .ok chunks) (hval : validate S m = .ok ()) (hsz : m.virtualSizeBytes = image.length)
    (hch : m.chunks = chunks.map EncodedImageChunkArtifact.descriptor) :
    Written S Z image registry ⟨m, chunks⟩ dir := by
  have hmem : ∀ a ∈ chunks, ∃ i ∈ nonZeroIndices image,
      artifactChunk encoded (scannedAt S image i) = .ok a := by
    intro a ha
    obtain ⟨c, hc, hok⟩ := exists_of_mem_each heach ha
    obtain ⟨i, hi, rfl⟩ := mem_map.mp hc
    exact ⟨i, hi, hok⟩
  refine ⟨hval, ⟨hsz.symm, fun d hd => ?_, fun i hi b hb => ?_⟩, fun d hd => ?_⟩
  · rw [hch] at hd
    obtain ⟨a, ha, rfl⟩ := mem_map.mp hd
    obtain ⟨i, -, hok⟩ := hmem a ha
    obtain ⟨e, -, -, rfl⟩ := artifactChunk_eq_ok hok
    rfl
  · -- an index without an entry is a block of zeros, or lies behind the image
    by_contra hb0
    have hlt : i < Registry.chunkCount image.length := by
      by_contra hge
      have hnil : block imageChunkSizeBytes i image = [] := by
        refine block_eq_nil ?_
        simp only [Registry.chunkCount, Registry.chunkSizeBytes, imageChunkSizeBytes] at hge ⊢
        omega
      rw [hnil] at hb
      cases hb
    obtain ⟨a, ha, hok⟩ := exists_mem_of_each heach
      (mem_map_of_mem (f := scannedAt S image) (mem_nonZeroIndices.mpr ⟨hlt, b, hb, hb0⟩))
    have hix : a.descriptor.index = i := by
      obtain ⟨e, -, -, rfl⟩ := artifactChunk_eq_ok hok
      rfl
    refine hi a.descriptor ?_ hix
    rw [hch]
    exact mem_map_of_mem ha
  · rw [hch] at hd
    obtain ⟨a, ha, rfl⟩ := mem_map.mp hd
    have hfd : chunks.find? (fun a' => a'.descriptor.index = a.descriptor.index) = some a := by
      cases hfind : chunks.find? fun a' => a'.descriptor.index = a.descriptor.index with
      | none =>
        have hself := find?_eq_none.mp hfind a ha
        simp at hself
      | some a' =>
        -- entries with one index come from one chunk
        have hix : a'.descriptor.index = a.descriptor.index := by
          simpa using find?_some hfind
        obtain ⟨i, -, hok⟩ := hmem a ha
        obtain ⟨j, -, hok'⟩ := hmem a' (mem_of_find?_eq_some hfind)
        have hij : j = i := by
          obtain ⟨e, -, -, rfl⟩ := artifactChunk_eq_ok hok
          obtain ⟨_, -, -, rfl⟩ := artifactChunk_eq_ok hok'
          exact hix
        rw [hij, hok] at hok'
        rw [Except.ok.inj hok']
    obtain ⟨i, -, hok⟩ := hmem a ha
    obtain ⟨e, he, hraw, rfl⟩ := artifactChunk_eq_ok hok
    unfold artifactFile
    dsimp only at hfd ⊢
    rw [hfd]
    exact (hsto e he).decodes i hraw.symm

/-! ## A write -/

/-- The map and the directory before the missing chunks are encoded. -/
theorem exists_splitReused (hsnd : ReusedSound S Z image registry reused) (dir : ChunkDir) :
    ∃ (encoded : List EncodedChunk) (missing : List ℕ),
      splitReused reused (uniqueChunks (scannedImage S image).chunks) [] [] =
        .ok (encoded, missing.map (scannedAt S image)) ∧
      EncodingInv S Z image registry dir (encoded, dir) ∧
      ∀ i ∈ nonZeroIndices image, Has encoded (S.hex (chunkAt image i)) ∨
        ∃ j ∈ missing, S.hex (chunkAt image j) = S.hex (chunkAt image i) := by
  obtain ⟨js, huq, hcov⟩ := exists_uniqueChunks S image (nonZeroIndices image)
  obtain ⟨encoded, missing, hrun, hsto, -, -, hall⟩ := splitReused_ok hsnd dir js [] (by simp) []
  refine ⟨encoded, missing, ?_, ⟨fun name bytes h => .inr (.inr ⟨name, h⟩), hsto⟩, fun i hi => ?_⟩
  · rw [scannedImage_chunks, huq]
    exact hrun
  · obtain ⟨j, hj, heq⟩ := hcov i hi
    exact (hall j hj).imp (fun h => heq ▸ h) fun h => ⟨j, h, heq⟩

/-- **A write that succeeds leaves the image readable.** -/
theorem written_of_eq_ok (hrds : Reads reader image)
    (hpos : 1 ≤ image.length) (hle : image.length ≤ maxChunkedImageBytes)
    (hsnd : ReusedSound S Z image registry reused)
    (hfr : S.CollisionFree (storedStrings Z image dir)) {artifact : ChunkedImageArtifact}
    (h : writeScannedChunkedImageArtifact S Z faults (scannedImage S image) reader dir reused =
      .ok (artifact, dir')) : Written S Z image registry artifact dir' := by
  obtain ⟨_, _, hsp, hinv, -⟩ := exists_splitReused hsnd dir
  unfold writeScannedChunkedImageArtifact at h
  rw [hrds.size, ok_bind, ensureScanIsValid_ok hpos hle, ok_bind] at h
  obtain ⟨-, -, h⟩ := bind_eq_ok.mp h
  rw [hsp, ok_bind] at h
  dsimp only at h
  rw [foldlM_encodeMissing hrds] at h
  obtain ⟨⟨_, _⟩, henco, h⟩ := bind_eq_ok.mp h
  obtain ⟨_, heach, h⟩ := bind_eq_ok.mp h
  obtain ⟨m, hman, h⟩ := bind_eq_ok.mp h
  obtain ⟨-, -, h⟩ := bind_eq_ok.mp h
  cases h
  obtain ⟨hval, hsz, hch⟩ := buildManifest_eq_ok (mapError_eq_ok.mp hman)
  rw [scannedImage_chunks] at heach
  exact written_of_each (encodeBatch_eq_ok hfr hinv henco).1.stored heach hval hsz hch

/-- **Without faults a write succeeds**, when the files that are there are those it would write. -/
theorem write_ok (hrds : Reads reader image) (hpos : 1 ≤ image.length)
    (hle : image.length ≤ maxChunkedImageBytes) (hsnd : ReusedSound S Z image registry reused)
    (hfr : S.CollisionFree (storedStrings Z image dir)) (hdir : Compatible S Z image dir)
    (hcreateDir : faults.createDir = false) (hchunkFile : ∀ raw, faults.chunkFile raw = false)
    (hpub : faults.publish = false) :
    ∃ artifact dir', writeScannedChunkedImageArtifact S Z faults (scannedImage S image) reader dir
      reused = .ok (artifact, dir') := by
  obtain ⟨encoded, missing, hsp, hinv, hcov⟩ := exists_splitReused hsnd dir
  obtain ⟨⟨encoded', dir'⟩, henco⟩ := encodeBatch_ok hfr hchunkFile missing encoded hdir
  obtain ⟨hinv', hkeep, hnew⟩ := encodeBatch_eq_ok hfr hinv henco
  have hhas : ∀ i ∈ nonZeroIndices image, Has encoded' (S.hex (chunkAt image i)) := by
    intro i hi
    rcases hcov i hi with h | ⟨j, hj, heq⟩
    · exact hkeep _ h
    · exact heq ▸ hnew j hj
  obtain ⟨chunks, heach⟩ : ∃ chunks, each (artifactChunk encoded')
      ((nonZeroIndices image).map (scannedAt S image)) = .ok chunks := by
    apply each_ok
    intro c hc
    obtain ⟨i, hi, rfl⟩ := mem_map.mp hc
    exact artifactChunk_ok (hhas i hi)
  have hidx : (chunks.map EncodedImageChunkArtifact.descriptor).map ImageChunk.index =
      nonZeroIndices image := by
    rw [map_map]
    refine (map_eq_of_each (k := ScannedImageChunk.index) ?_ heach).trans ?_
    · intro c a hok
      rw [artifactChunk] at hok
      split at hok
      · cases hok
        rfl
      · cases hok
    · rw [map_map]
      exact map_id' _
  have hvalidChunks : ∀ d ∈ chunks.map EncodedImageChunkArtifact.descriptor, ValidChunk
      ⟨imageChunkManifestSchemaVersion, "", image.length, imageChunkSizeBytes, imageChunkEncoding,
        chunks.map EncodedImageChunkArtifact.descriptor⟩ d := by
    intro d hd
    obtain ⟨a, ha, rfl⟩ := mem_map.mp hd
    obtain ⟨c, hc, hok⟩ := exists_of_mem_each heach ha
    obtain ⟨i, hi, rfl⟩ := mem_map.mp hc
    obtain ⟨e, he, -, rfl⟩ := artifactChunk_eq_ok hok
    have hsto := hinv'.stored e he
    refine ⟨?_, ?_, hsto.size_pos, hsto.size_le, S.isSha256_hex _, hsto.sha256⟩
    · rw [chunkCount_eq hle]
      exact (mem_nonZeroIndices.mp hi).1
    · dsimp only
      rw [length_block, rawSizeForIndex, Nat.min_comm]
  have hsort : (chunks.map EncodedImageChunkArtifact.descriptor).Pairwise
      fun a b => a.index < b.index := by
    rw [← pairwise_map (f := ImageChunk.index), hidx]
    exact pairwise_lt_range.filter _
  obtain ⟨m, hman⟩ := buildManifest_ok (S := S) hpos hle "" hvalidChunks hsort
  refine ⟨⟨m, chunks⟩, dir', ?_⟩
  unfold writeScannedChunkedImageArtifact
  rw [hrds.size, ok_bind, ensureScanIsValid_ok hpos hle, ok_bind,
    ensure_of (by simp [hcreateDir]), ok_bind, hsp, ok_bind]
  dsimp only
  rw [foldlM_encodeMissing hrds, henco, ok_bind]
  rw [scannedImage_chunks, heach, ok_bind,
    show (scannedImage S image).virtualSizeBytes = image.length from rfl, hman,
    ensure_of (by simp [hpub])]
  rfl

end

end Intar.Image
