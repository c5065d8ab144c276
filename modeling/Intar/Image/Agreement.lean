import Intar.Image.Identity
import Intar.Registry.ManifestUpload

/-!
# What the registry stores and what a host reads

The registry validates a manifest in normal form and stores the bytes as they came.  A host parses
the stored bytes with `serde_json` into `ImageChunkManifestV1`, which denies unknown fields, and
validates the result.  So the two agree on an upload exactly when the bytes say nothing but the normal
form (`host_reads_upload_iff`): strict JSON, no member that is unknown or comes twice, sizes and
indices written as plain integers, digests already in lower case and without white space
(`canonicalManifest`).

* `JsonReaders` has the two parsers of JSON: `decode` is `JSON.parse` after `TextDecoder`, which
  replaces what is not UTF-8 and drops a byte order mark, and `strict` is the parser of `serde_json`.
* `Accepted` is what the registry's validation means for the text, and `Accepted.valid` that the
  manifest in normal form is valid for the host.
-/

namespace Intar.Image

open JsonText

open Registry (Bytes ImageChunk ImageChunkManifest isSha256 isHexChar)
open JsonText (knownFields unsigned string last)
open Option
open Option (bind_eq_some_iff bind_some map_some)
open List

/-! ## The host -/

def chunkFields : List String :=
  ["index", "raw_size_bytes", "raw_sha256", "encoded_size_bytes", "encoded_sha256"]

def manifestFields : List String :=
  ["schema_version", "image_id", "virtual_size_bytes", "chunk_size_bytes", "encoding", "chunks"]

def buildChunk (index rawSizeBytes rawSha256 encodedSizeBytes encodedSha256 : JsonText) :
    Option ImageChunk := do
  let index ← unsigned 32 index
  let rawSizeBytes ← unsigned 32 rawSizeBytes
  let rawSha256 ← string rawSha256
  let encodedSizeBytes ← unsigned 64 encodedSizeBytes
  let encodedSha256 ← string encodedSha256
  return ⟨index, rawSizeBytes, rawSha256, encodedSizeBytes, encodedSha256⟩

/-- `ImageChunkV1` as derived: from an object, or from an array of the fields in order. -/
def deserializeChunk : JsonText → Option ImageChunk
  | .obj fields =>
    if knownFields chunkFields fields then do
      buildChunk (← last fields "index") (← last fields "raw_size_bytes")
        (← last fields "raw_sha256") (← last fields "encoded_size_bytes")
        (← last fields "encoded_sha256")
    else none
  | .arr [index, rawSizeBytes, rawSha256, encodedSizeBytes, encodedSha256] =>
    buildChunk index rawSizeBytes rawSha256 encodedSizeBytes encodedSha256
  | _ => none

def deserializeChunks : List JsonText → Option (List ImageChunk)
  | [] => some []
  | item :: items => do
    let chunk ← deserializeChunk item
    let chunks ← deserializeChunks items
    return chunk :: chunks

def buildManifestV1 (schemaVersion imageId virtualSizeBytes chunkSizeBytes encoding chunks : JsonText) :
    Option ImageChunkManifest := do
  let schemaVersion ← unsigned 16 schemaVersion
  let imageId ← string imageId
  let virtualSizeBytes ← unsigned 64 virtualSizeBytes
  let chunkSizeBytes ← unsigned 32 chunkSizeBytes
  let encoding ← string encoding
  match chunks with
  | .arr items =>
    let chunks ← deserializeChunks items
    return ⟨schemaVersion, imageId, virtualSizeBytes, chunkSizeBytes, encoding, chunks⟩
  | _ => none

/-- `ImageChunkManifestV1` as derived. -/
def deserializeManifest : JsonText → Option ImageChunkManifest
  | .obj fields =>
    if knownFields manifestFields fields then do
      buildManifestV1 (← last fields "schema_version") (← last fields "image_id")
        (← last fields "virtual_size_bytes") (← last fields "chunk_size_bytes")
        (← last fields "encoding") (← last fields "chunks")
    else none
  | .arr [schemaVersion, imageId, virtualSizeBytes, chunkSizeBytes, encoding, chunks] =>
    buildManifestV1 schemaVersion imageId virtualSizeBytes chunkSizeBytes encoding chunks
  | _ => none

/-- The two parsers of JSON.  What `serde_json` takes, `JSON.parse` takes as the same text. -/
structure JsonReaders where
  (decode strict : Bytes → Option JsonText)
  double : Doubles
  decode_of_strict : ∀ bytes text, strict bytes = some text → decode bytes = some text

/-- A host reads the bytes of a manifest and finds it valid. -/
def HostReads (S : Sha256) (R : JsonReaders) (payload : Bytes) (m : ImageChunkManifest) : Prop :=
  (∃ text, R.strict payload = some text ∧ deserializeManifest text = some m) ∧ validate S m = .ok ()

/-! ## Texts that say only the normal form -/

/-- A member that is a number of only digits. -/
def plainNumber : Option JsonText → Bool
  | some (.num l) => l.plain.isSome
  | _ => false

/-- A member that is a digest in lower case. -/
def plainSha256 : Option JsonText → Bool
  | some (.str s) => isSha256 s
  | _ => false

def canonicalChunk : JsonText → Bool
  | .obj fields =>
    knownFields chunkFields fields && plainNumber (last fields "index") &&
      plainNumber (last fields "raw_size_bytes") && plainNumber (last fields "encoded_size_bytes") &&
      plainSha256 (last fields "raw_sha256") && plainSha256 (last fields "encoded_sha256")
  | _ => false

def canonicalManifest : JsonText → Bool
  | .obj fields =>
    knownFields manifestFields fields && plainNumber (last fields "schema_version") &&
      plainNumber (last fields "virtual_size_bytes") &&
      plainNumber (last fields "chunk_size_bytes") && plainSha256 (last fields "image_id") &&
      match last fields "chunks" with
      | some (.arr items) => items.all canonicalChunk
      | _ => false
  | _ => false

/-- The bytes of a manifest in normal form. -/
def Canonical (R : JsonReaders) (payload : Bytes) : Prop :=
  ∃ text, R.strict payload = some text ∧ canonicalManifest text = true

/-! ## Digests in normal form -/

theorem isSpace_of_isHexChar {c : Char} (h : isHexChar c = true) : Js.isSpace c = false := by
  obtain ⟨n, hn, rfl⟩ := exists_hexChar h
  have hall : ∀ n < 16, Js.isSpace (hexChar n) = false := by decide
  exact hall n hn

variable {s : String}

theorem trim_of_isSha256 (h : isSha256 s = true) : Js.trim s = s := by
  have hspace : ∀ c ∈ s.toList, ¬ Js.isSpace c = true := fun c hc => by
    rw [isSpace_of_isHexChar ((isSha256_iff.mp h).2 c hc)]
    exact Bool.false_ne_true
  have hdp : s.toList.dropWhile Js.isSpace = s.toList := by
    rw [dropWhile_eq_self_iff]
    exact fun hlen => hspace _ (getElem_mem hlen)
  have hrdrop : s.toList.rdropWhile Js.isSpace = s.toList := by
    rw [rdropWhile_eq_self_iff]
    exact fun hne => hspace _ (getLast_mem hne)
  rw [Js.trim, hdp, hrdrop, String.ofList_toList]

theorem toLowerCase_of_isSha256 (h : isSha256 s = true) : Js.toLowerCase s = s := by
  have hlower : ∀ n < 16, (if (hexChar n).toNat = 0x212A then 'k' else (hexChar n).toLower) =
      hexChar n := by
    decide
  have hmap : (s.toList.map fun c => if c.toNat = 0x212A then 'k' else c.toLower) = s.toList := by
    refine (map_congr_left fun c hc => ?_).trans (map_id _)
    obtain ⟨n, hn, rfl⟩ := exists_hexChar ((isSha256_iff.mp h).2 c hc)
    exact hlower n hn
  rw [Js.toLowerCase, hmap, String.ofList_toList]

theorem normalizeSha256_of_isSha256 (h : isSha256 s = true) :
    Registry.normalizeSha256 s = some s := by
  rw [Registry.normalizeSha256, trim_of_isSha256 h, toLowerCase_of_isSha256 h]
  exact if_pos h

theorem isSha256_of_normalizeSha256 {x : String} (h : Registry.normalizeSha256 s = some x) :
    isSha256 x = true := by
  rw [Registry.normalizeSha256] at h
  split_ifs at h with hsha
  rw [← Option.some.inj h]
  exact hsha

/-! ## What the registry's checks say about the text -/

/-- A member that was read as a number; if it is only digits, it is that number. -/
def SaysNat (t : Option JsonText) (n : ℕ) : Prop :=
  ∃ l, t = some (.num l) ∧ ∀ k, l.plain = some k → n = k

/-- A member that was read as a digest; if it is one in lower case, it is that digest. -/
def SaysSha256 (t : Option JsonText) (x : String) : Prop :=
  ∃ s, t = some (.str s) ∧ (isSha256 s = true → x = s)

section

variable {double : Doubles}

variable {size next : ℕ} {sha256Hex : Bytes → String} {items : List JsonText}
  {fields : List (String × JsonText)}

variable {n width : ℕ} {t : JsonText} {x : String} {d : ImageChunk} {chunks : List ImageChunk}
  {S : Sha256} {m : ImageChunkManifest}

theorem saysNat_of_readNat {low : ℕ} {t : Option JsonText}
    (h : Registry.readNat low (t.map (toJson double)) = some n) :
    SaysNat t n ∧ low ≤ n := by
  cases t with
  | none => cases h
  | some t =>
    rw [map_some, Registry.readNat, bind_some] at h
    cases hz : (t.toJson double).asSafeInt with
    | none => simp [hz] at h
    | some =>
      simp only [hz] at h
      split_ifs at h with hlow
      cases h
      obtain ⟨l, rfl, hplain⟩ := asSafeInt_toJson hz
      refine ⟨⟨l, rfl, fun k hk => ?_⟩, by omega⟩
      rw [hplain k hk, Int.toNat_natCast]

theorem saysSha256_of_readSha256 {t : Option JsonText}
    (h : Registry.readSha256 (t.map (toJson double)) = some x) :
    SaysSha256 t x ∧ isSha256 x = true := by
  refine ⟨?_, isSha256_of_normalizeSha256 h⟩
  have hemp : Registry.normalizeSha256 "" = none := by decide +kernel
  cases hrd : Registry.readString (t.map (toJson double)) with
  | none =>
    rw [Registry.readSha256, hrd, getD_none, hemp] at h
    cases h
  | some =>
    rw [Registry.readSha256, hrd, getD_some] at h
    obtain ⟨t, rfl⟩ : ∃ t', t = some t' := by
      cases t with
      | none => cases hrd
      | some t => exact ⟨t, rfl⟩
    obtain ⟨s, hs⟩ : ∃ s, t.toJson double = .str s := by
      rw [map_some] at hrd
      unfold Registry.readString at hrd
      split at hrd
      case h_1 s heq => exact ⟨s, Option.some.inj heq⟩
      case h_2 => cases hrd
    have hstr : t = .str s := asStr_toJson.mp (by rw [hs]; rfl)
    refine ⟨s, by rw [hstr], fun hsha => ?_⟩
    have hne : s ≠ "" := by
      rintro rfl
      cases hsha
    rw [map_some, hs, Registry.readString, Js.trimOrNone, trim_of_isSha256 hsha, if_neg hne,
      Option.some.injEq] at hrd
    rw [← hrd, normalizeSha256_of_isSha256 hsha, Option.some.injEq] at h
    exact h.symm

/-- What the registry's check of an entry means for the text of the entry. -/
structure AcceptedChunk (size next : ℕ) (t : JsonText) (d : ImageChunk) : Prop where
  text : ∃ fields, t = .obj fields ∧ SaysNat (last fields "index") d.index ∧
    SaysNat (last fields "raw_size_bytes") d.rawSizeBytes ∧
    SaysNat (last fields "encoded_size_bytes") d.encodedSizeBytes ∧
    SaysSha256 (last fields "raw_sha256") d.rawSha256 ∧
    SaysSha256 (last fields "encoded_sha256") d.encodedSha256
  le_index : next ≤ d.index
  index_lt : d.index < Registry.chunkCount size
  rawSize : d.rawSizeBytes = Registry.rawChunkSize size d.index
  encodedSize_pos : 1 ≤ d.encodedSizeBytes
  encodedSize_le : d.encodedSizeBytes ≤ Registry.maxEncodedChunkBytes
  rawSha256 : isSha256 d.rawSha256 = true
  encodedSha256 : isSha256 d.encodedSha256 = true

theorem exists_fields_of_toJson {members : List (String × Json)}
    (h : t.toJson double = .obj members) : ∃ fields, t = .obj fields := by
  cases t with
  | obj fields => exact ⟨fields, rfl⟩
  | num l =>
    rw [toJson] at h
    rcases double.number l with ⟨_, hq⟩ | ⟨_, hinf⟩
    · rw [hq] at h
      cases h
    · rw [hinf] at h
      cases h
  | null | bool | str | arr => simp [toJson] at h

theorem acceptedChunk (h : Registry.validateChunk sha256Hex size next (t.toJson double) = .ok d) :
    AcceptedChunk size next t d := by
  unfold Registry.validateChunk at h
  split at h
  case h_2 => cases h
  case h_1 members hmems =>
    obtain ⟨fields, rfl⟩ := exists_fields_of_toJson hmems
    simp only [field_toJson] at h
    split at h
    case h_2 => cases h
    case h_1 index rawSize encodedSize rawSha encodedSha hix hraw henc hrawSha hencodedSha =>
      split_ifs at h with hbounds
      cases h
      obtain ⟨hindexSays, hle⟩ := saysNat_of_readNat hix
      obtain ⟨hrawSays, -⟩ := saysNat_of_readNat hraw
      obtain ⟨hencodedSays, hpos⟩ := saysNat_of_readNat henc
      obtain ⟨hrawShaSays, hrawHex⟩ := saysSha256_of_readSha256 hrawSha
      obtain ⟨hencodedShaSays, hencodedHex⟩ := saysSha256_of_readSha256 hencodedSha
      exact ⟨⟨fields, rfl, hindexSays, hrawSays, hencodedSays, hrawShaSays, hencodedShaSays⟩, hle,
        hbounds.1, hbounds.2.1, hpos, hbounds.2.2, hrawHex, hencodedHex⟩

theorem acceptedChunks {chunks : List ImageChunk}
    (h : Registry.validateChunks sha256Hex size next (items.map (toJson double)) = .ok chunks) :
    List.Forall₂ (AcceptedChunk size 0) items chunks ∧ (∀ d ∈ chunks, next ≤ d.index) ∧
      chunks.Pairwise fun a b => a.index < b.index := by
  induction items generalizing next chunks with
  | nil =>
    cases h
    exact ⟨.nil, by simp, .nil⟩
  | cons _ _ ih =>
    rw [map_cons, Registry.validateChunks] at h
    split at h
    · cases h
    case h_2 d hd =>
      split at h
      · cases h
      case h_2 rest hrs =>
        cases h
        have hacc := acceptedChunk hd
        obtain ⟨hrs, hle, hsort⟩ := ih hrs
        have hfst : ∀ e ∈ rest, d.index < e.index := fun e he => hle e he
        refine ⟨.cons { hacc with le_index := Nat.zero_le _ } hrs, ?_,
          pairwise_cons.mpr ⟨hfst, hsort⟩⟩
        rw [forall_mem_cons]
        exact ⟨hacc.le_index, fun e he => hacc.le_index.trans (hfst e he).le⟩

/-- What the registry's validation means for the text of a manifest. -/
structure Accepted (S : Sha256) (t : JsonText) (m : ImageChunkManifest) : Prop where
  text : ∃ fields items, t = .obj fields ∧ SaysNat (last fields "schema_version") m.schemaVersion ∧
    SaysSha256 (last fields "image_id") m.imageId ∧
    SaysNat (last fields "virtual_size_bytes") m.virtualSizeBytes ∧
    SaysNat (last fields "chunk_size_bytes") m.chunkSizeBytes ∧
    last fields "encoding" = some (.str m.encoding) ∧ last fields "chunks" = some (.arr items) ∧
    List.Forall₂ (AcceptedChunk m.virtualSizeBytes 0) items m.chunks
  schema : m.schemaVersion = imageChunkManifestSchemaVersion
  chunkSize : m.chunkSizeBytes = imageChunkSizeBytes
  encoding : m.encoding = imageChunkEncoding
  size_pos : 1 ≤ m.virtualSizeBytes
  size_le : m.virtualSizeBytes ≤ maxChunkedImageBytes
  sorted : m.chunks.Pairwise fun a b => a.index < b.index
  imageId : Registry.computeImageId S.hex m = m.imageId

theorem saysNat_of_asSafeInt {t : Option JsonText}
    (h : (t.map (toJson double)).bind Json.asSafeInt = some (n : ℤ)) : SaysNat t n := by
  have hrd : Registry.readNat 0 (t.map (toJson double)) = some n := by
    simp [Registry.readNat, h]
  exact (saysNat_of_readNat hrd).1

/-- What the check of the header means for the text. -/
theorem header_text {id : String} {rawChunks : List Json}
    (h : Registry.validateHeader (toJson double (.obj fields)) = some (size, id, rawChunks)) :
    SaysNat (last fields "schema_version") 1 ∧ SaysSha256 (last fields "image_id") id ∧
      SaysNat (last fields "virtual_size_bytes") size ∧
      SaysNat (last fields "chunk_size_bytes") Registry.chunkSizeBytes ∧
      last fields "encoding" = some (.str Registry.imageChunkEncoding) ∧
      (∃ items, last fields "chunks" = some (.arr items) ∧ rawChunks = items.map (toJson double)) ∧
      1 ≤ size ∧ size ≤ Registry.maxImageBytes := by
  unfold Registry.validateHeader at h
  simp only [field_toJson] at h
  split at h
  case h_2 => cases h
  case h_1 size' id' rawChunks' hsz hid hch =>
    split_ifs at h with hfixed
    obtain ⟨hsch, hchunkSize, hencd, hmax⟩ := hfixed
    cases h
    obtain ⟨hsizeSays, hpos⟩ := saysNat_of_readNat hsz
    obtain ⟨_, hencodingText, hencodingStr⟩ := bind_eq_some_iff.mp hencd
    obtain ⟨_, hls, rfl⟩ := map_eq_some_iff.mp hencodingText
    obtain ⟨_, hchunksJson, hits⟩ := bind_eq_some_iff.mp hch
    obtain ⟨_, hchunksText, rfl⟩ := map_eq_some_iff.mp hchunksJson
    obtain ⟨items, rfl, hraw⟩ := asArr_toJson.mp hits
    refine ⟨saysNat_of_asSafeInt hsch, (saysSha256_of_readSha256 hid).1, hsizeSays,
      saysNat_of_asSafeInt hchunkSize, ?_, ⟨items, hchunksText, hraw⟩, hpos, hmax⟩
    rw [hls, asStr_toJson.mp hencodingStr]

theorem accepted (h : Registry.validateImageChunkManifest S.hex (t.toJson double) = .ok m) :
    Accepted S t m := by
  unfold Registry.validateImageChunkManifest at h
  split at h
  case h_2 => cases h
  case h_1 members hmems =>
    obtain ⟨fields, rfl⟩ := exists_fields_of_toJson hmems
    split at h
    case h_1 => cases h
    case h_2 size id rawChunks hheader =>
      split at h
      · cases h
      case h_2 chunks hch =>
        dsimp only at h
        split_ifs at h with hid
        injection h with h
        subst h
        obtain ⟨hsch, hidSays, hsz, hchunkSize, hencd, ⟨items, hits, rfl⟩, hpos, hle⟩ :=
          header_text hheader
        obtain ⟨hall, -, hsort⟩ := acceptedChunks hch
        exact ⟨⟨fields, items, rfl, hsch, hidSays, hsz, hchunkSize, hencd, hits, hall⟩,
          rfl, rfl, rfl, hpos, hle, hsort, hid⟩

theorem exists_accepted_of_mem (h : List.Forall₂ (AcceptedChunk size 0) items chunks)
    (hd : d ∈ chunks) :
    ∃ t, AcceptedChunk size 0 t d := by
  induction h with
  | nil => cases hd
  | cons hhe _ ih =>
    rcases mem_cons.mp hd with rfl | hd
    · exact ⟨_, hhe⟩
    · exact ih hd

/-- **What the registry validated is valid for the host**, in normal form. -/
theorem Accepted.valid
    (hzero : S.hex (List.replicate imageChunkSizeBytes 0) = Registry.fullZeroChunkSha256)
    (h : Accepted S t m) : Valid S m := by
  obtain ⟨_, _, -, -, -, -, -, -, -, hall⟩ := h.text
  have hch : ∀ d ∈ m.chunks, ValidChunk m d := by
    intro d hd
    obtain ⟨t, ht⟩ := exists_accepted_of_mem hall hd
    refine ⟨?_, ?_, ht.encodedSize_pos, ht.encodedSize_le, ht.rawSha256, ht.encodedSha256⟩
    · rw [chunkCount_eq h.size_le]
      exact ht.index_lt
    · rw [ht.rawSize, rawChunkSize_eq ht.index_lt, rawSizeForIndex]
  refine ⟨h.schema, h.chunkSize, h.encoding, h.size_pos, h.size_le, hch, h.sorted, ?_⟩
  have hid : S.hex (layout S m) = m.imageId := by
    rw [← registry_hashedBytes_eq hzero h.sorted]
    exact (Registry.computeImageId_eq S.hex m).symm.trans h.imageId
  rw [computeImageId, hashedBytes_eq h.chunkSize h.size_le (fun d hd => (hch d hd).rawSha256)
    h.sorted, Fallible.ok_bind, hid]
  rfl

/-! ## Reading a canonical text -/

theorem unsigned_of_saysNat {t : Option JsonText} (hvl₀ : SaysNat t n)
    (hplain : plainNumber t = true) (hlt : n < 2 ^ width) :
    ∃ t', t = some t' ∧ unsigned width t' = some n := by
  obtain ⟨l, rfl, hvl⟩ := hvl₀
  rw [plainNumber, isSome_iff_exists] at hplain
  obtain ⟨k, hk⟩ := hplain
  refine ⟨.num l, rfl, ?_⟩
  rw [unsigned, hk, bind_some, ← hvl k hk, if_pos hlt]

theorem string_of_saysSha256 {t : Option JsonText} (hvl₀ : SaysSha256 t x)
    (hplain : plainSha256 t = true) : ∃ t', t = some t' ∧ string t' = some x := by
  obtain ⟨s, rfl, hvl⟩ := hvl₀
  refine ⟨.str s, rfl, ?_⟩
  rw [string, hvl hplain]

theorem chunkCount_le (h : size ≤ maxChunkedImageBytes) : Registry.chunkCount size ≤ 2 ^ 14 := by
  simp only [maxChunkedImageBytes, Registry.chunkCount, Registry.chunkSizeBytes] at h ⊢
  omega

theorem rawChunkSize_le {i : ℕ} (h : i < Registry.chunkCount size) :
    Registry.rawChunkSize size i ≤ imageChunkSizeBytes := by
  rw [rawChunkSize_eq h]
  exact Nat.min_le_right _ _

/-- A canonical entry is read by the host as the registry validated it. -/
theorem deserializeChunk_of_canonical (hsz : size ≤ maxChunkedImageBytes)
    (hacc : AcceptedChunk size 0 t d) (hcano : canonicalChunk t = true) :
    deserializeChunk t = some d := by
  obtain ⟨_, rfl, hix, hraw, henc, hrawSha, hencodedSha⟩ := hacc.text
  simp only [canonicalChunk, Bool.and_eq_true] at hcano
  obtain ⟨⟨⟨⟨⟨hkn, cindex⟩, craw⟩, cencoded⟩, crawSha⟩, cencodedSha⟩ := hcano
  have hindexLt : d.index < 2 ^ 32 := by
    have hlt := hacc.index_lt
    have hle := chunkCount_le hsz
    omega
  have hrawLt : d.rawSizeBytes < 2 ^ 32 := by
    have hle := rawChunkSize_le hacc.index_lt
    rw [← hacc.rawSize, imageChunkSizeBytes] at hle
    omega
  have hencodedLt : d.encodedSizeBytes < 2 ^ 64 := by
    have hle := hacc.encodedSize_le
    rw [Registry.maxEncodedChunkBytes, Registry.chunkSizeBytes] at hle
    omega
  obtain ⟨_, h₁, e₁⟩ := unsigned_of_saysNat hix cindex hindexLt
  obtain ⟨_, h₂, e₂⟩ := unsigned_of_saysNat hraw craw hrawLt
  obtain ⟨_, h₃, e₃⟩ := string_of_saysSha256 hrawSha crawSha
  obtain ⟨_, h₄, e₄⟩ := unsigned_of_saysNat henc cencoded hencodedLt
  obtain ⟨_, h₅, e₅⟩ := string_of_saysSha256 hencodedSha cencodedSha
  simp [deserializeChunk, hkn, h₁, h₂, h₃, h₄, h₅, buildChunk, e₁, e₂, e₃, e₄, e₅]

theorem deserializeChunks_of_canonical (hsz : size ≤ maxChunkedImageBytes)
    (hacc : List.Forall₂ (AcceptedChunk size 0) items chunks)
    (hcano : items.all canonicalChunk = true) : deserializeChunks items = some chunks := by
  induction hacc with
  | nil => rfl
  | cons hhe _ ih =>
    rw [all_cons, Bool.and_eq_true] at hcano
    simp [deserializeChunks, deserializeChunk_of_canonical hsz hhe hcano.1, ih hcano.2]

/-- **A canonical text is read by the host as the registry validated it.** -/
theorem deserializeManifest_of_canonical (hacc : Accepted S t m)
    (hcano : canonicalManifest t = true) :
    deserializeManifest t = some m := by
  obtain ⟨_, _, rfl, hsch, hid, hsz, hchunkSize, hencd, hch, hall⟩ := hacc.text
  simp only [canonicalManifest, Bool.and_eq_true, hch] at hcano
  obtain ⟨⟨⟨⟨⟨hkn, cschema⟩, csize⟩, cchunkSize⟩, cid⟩, citems⟩ := hcano
  have hsizeLt : m.virtualSizeBytes < 2 ^ 64 := by
    have hle := hacc.size_le
    rw [maxChunkedImageBytes] at hle
    omega
  have hschemaLt : m.schemaVersion < 2 ^ 16 := by
    rw [hacc.schema, imageChunkManifestSchemaVersion]
    decide
  have hchunkSizeLt : m.chunkSizeBytes < 2 ^ 32 := by
    rw [hacc.chunkSize, imageChunkSizeBytes]
    decide
  obtain ⟨_, h₁, e₁⟩ := unsigned_of_saysNat hsch cschema hschemaLt
  obtain ⟨_, h₂, e₂⟩ := string_of_saysSha256 hid cid
  obtain ⟨_, h₃, e₃⟩ := unsigned_of_saysNat hsz csize hsizeLt
  obtain ⟨_, h₄, e₄⟩ := unsigned_of_saysNat hchunkSize cchunkSize hchunkSizeLt
  have e₅ : string (.str m.encoding) = some m.encoding := rfl
  have e₆ := deserializeChunks_of_canonical hacc.size_le hall citems
  simp [deserializeManifest, hkn, h₁, h₂, h₃, h₄, hencd, hch, buildManifestV1, e₁, e₂,
    e₃, e₄, e₅, e₆]

/-! ## What a host can read is canonical -/

theorem plainNumber_of_unsigned (h : unsigned width t = some n) : plainNumber (some t) = true := by
  cases t with
  | num =>
    rw [unsigned] at h
    obtain ⟨k, hk, -⟩ := bind_eq_some_iff.mp h
    rw [plainNumber, hk]
    rfl
  | null | bool | str | arr | obj => cases h

theorem plainSha256_of_string (h : string t = some s) (hsha : isSha256 s = true) :
    plainSha256 (some t) = true := by
  cases t with
  | str =>
    rw [string, Option.some.injEq] at h
    rw [plainSha256, h, hsha]
  | null | bool | num | arr | obj => cases h

theorem canonicalChunk_of_deserializeChunk (h : deserializeChunk (.obj fields) = some d)
    (hraw : isSha256 d.rawSha256 = true) (henc : isSha256 d.encodedSha256 = true) :
    canonicalChunk (.obj fields) = true := by
  unfold deserializeChunk at h
  dsimp only at h
  split_ifs at h with hkn
  simp only [bind_eq_bind, bind_eq_some_iff, buildChunk, Option.pure_def] at h
  obtain ⟨_, h₁, _, h₂, _, h₃, _, h₄, _, h₅, _, e₁, _, e₂, _, e₃, _, e₄, _, e₅, heq⟩ := h
  injection heq with heq
  subst heq
  simp [canonicalChunk, hkn, h₁, h₂, h₃, h₄, h₅, plainNumber_of_unsigned e₁, plainNumber_of_unsigned e₂, plainNumber_of_unsigned e₄, plainSha256_of_string e₃ hraw, plainSha256_of_string e₅ henc]

theorem canonical_of_deserializeChunks {chunks' : List ImageChunk}
    (hacc : List.Forall₂ (AcceptedChunk size 0) items chunks)
    (h : deserializeChunks items = some chunks')
    (hsha : ∀ d ∈ chunks', isSha256 d.rawSha256 = true ∧ isSha256 d.encodedSha256 = true) :
    items.all canonicalChunk = true := by
  induction hacc generalizing chunks' with
  | nil => rfl
  | cons hhe _ ih =>
    obtain ⟨_, rfl, -⟩ := hhe.text
    rw [deserializeChunks] at h
    obtain ⟨d, hd, h⟩ := bind_eq_some_iff.mp h
    obtain ⟨_, hrs, h⟩ := bind_eq_some_iff.mp h
    injection h with h
    subst h
    rw [forall_mem_cons] at hsha
    rw [all_cons, Bool.and_eq_true]
    exact ⟨canonicalChunk_of_deserializeChunk hd hsha.1.1 hsha.1.2, ih hrs hsha.2⟩

/-- **What a host reads and finds valid is canonical**, among the texts the registry accepts. -/
theorem canonical_of_deserializeManifest {m' : ImageChunkManifest} (hacc : Accepted S t m)
    (h : deserializeManifest t = some m') (hval : Valid S m') :
    canonicalManifest t = true := by
  obtain ⟨_, items, rfl, -, -, -, -, -, hch, hall⟩ := hacc.text
  unfold deserializeManifest at h
  dsimp only at h
  split_ifs at h with hkn
  simp only [Option.bind_eq_bind, bind_eq_some_iff] at h
  obtain ⟨_, h₁, _, h₂, _, h₃, _, h₄, _, _, _, h₆, h⟩ := h
  rw [hch, Option.some.injEq] at h₆
  subst h₆
  simp only [buildManifestV1, Option.bind_eq_bind, bind_eq_some_iff] at h
  obtain ⟨_, e₁, s₂, e₂, _, e₃, _, e₄, _, _, _, e₆, h⟩ := h
  injection h with heq
  subst heq
  have hid : isSha256 s₂ = true := by
    have himageId := hval.imageId_eq
    dsimp only at himageId
    rw [himageId]
    exact S.isSha256_hex _
  have hits : items.all canonicalChunk = true :=
    canonical_of_deserializeChunks hall e₆ fun d hd =>
      ⟨(hval.chunks d hd).rawSha256, (hval.chunks d hd).encodedSha256⟩
  simp [canonicalManifest, hkn, h₁, h₂, h₃, h₄, hch, plainNumber_of_unsigned e₁, plainNumber_of_unsigned e₃, plainNumber_of_unsigned e₄, plainSha256_of_string e₂ hid, hits]

/-- **The host reads what the registry stored exactly when it is in normal form.**  For every upload
the registry accepts, with the manifest it validated: a host parses and validates the same bytes, with
the same image id and the same chunks, if and only if the bytes are strict JSON in which no member is
unknown or repeated, every number is written as plain digits and every digest is in lower case without
white space. -/
theorem host_reads_upload_iff (S : Sha256)
    (hzero : S.hex (List.replicate imageChunkSizeBytes 0) = Registry.fullZeroChunkSha256)
    (R : JsonReaders) {bucket bucket' : Registry.Bucket} {request : Registry.UploadRequest}
    {status : ℕ} {objectKey : String} {alreadyExists : Bool}
    (h : Registry.handleImageManifestUpload S.hex R.decode R.double bucket request =
      (.accepted status objectKey alreadyExists, bucket')) :
    ∃ m, Registry.readManifest S.hex R.decode R.double request.payload = .ok m ∧
      (alreadyExists = false →
        ∃ object, bucket' objectKey = some object ∧ object.body = request.payload) ∧
      ((∃ m', HostReads S R request.payload m' ∧ m'.imageId = m.imageId ∧ m'.chunks = m.chunks) ↔
        Canonical R request.payload) := by
  obtain ⟨m, hrd, hsto⟩ := Registry.handleImageManifestUpload_accepted h
  refine ⟨m, hrd, fun hnew => ⟨_, hsto hnew, rfl⟩, ?_⟩
  -- both sides speak of the text that the strict parser finds, which is the one that was validated
  have htext : ∀ text, R.strict request.payload = some text → Accepted S text m := by
    intro _ hstrict
    rw [Registry.readManifest, R.decode_of_strict _ _ hstrict] at hrd
    exact accepted hrd
  constructor
  · rintro ⟨_, ⟨⟨text, hstrict, hdser⟩, hval⟩, -, -⟩
    exact ⟨text, hstrict, canonical_of_deserializeManifest (htext text hstrict) hdser
      (validate_eq_ok.mp hval)⟩
  · rintro ⟨text, hstrict, hcano⟩
    have hacc := htext text hstrict
    exact ⟨m, ⟨⟨text, hstrict, deserializeManifest_of_canonical hacc hcano⟩,
      validate_eq_ok.mpr (hacc.valid hzero)⟩, rfl, rfl⟩

end

/-! ## The manifest of one byte, as written -/

namespace Demo

/-- The text of the manifest, with the image id as it is written. -/
def text (imageId : String) : JsonText :=
  .obj [("schema_version", .num (.ofNat 1)), ("image_id", .str imageId),
    ("virtual_size_bytes", .num (.ofNat 1)), ("chunk_size_bytes", .num (.ofNat 4194304)),
    ("encoding", .str "zstd-v1-level-6"),
    ("chunks", .arr [.obj [("index", .num (.ofNat 0)), ("raw_size_bytes", .num (.ofNat 1)),
      ("raw_sha256", .str (sha256.hex [1])), ("encoded_size_bytes", .num (.ofNat 5)),
      ("encoded_sha256", .str (sha256.hex [2]))]])]

/-- Its bytes. -/
def payload (imageId : String) : Bytes :=
  ("\x7b\"schema_version\":1,\"image_id\":\"" ++ imageId ++
    "\",\"virtual_size_bytes\":1,\"chunk_size_bytes\":4194304,\"encoding\":\"zstd-v1-level-6\"," ++
    "\"chunks\":[\x7b\"index\":0,\"raw_size_bytes\":1,\"raw_sha256\":\"" ++ sha256.hex [1] ++
    "\",\"encoded_size_bytes\":5,\"encoded_sha256\":\"" ++ sha256.hex [2] ++
    "\"\x7d]\x7d").toByteArray.data.toList

def lowerId : String := manifest.imageId

def upperId : String := String.ofList (manifest.imageId.toList.map Char.toUpper)

/-- Both parsers, on the two texts. -/
def decode (bytes : Bytes) : Option JsonText :=
  if bytes = payload lowerId then some (text lowerId)
  else if bytes = payload upperId then some (text upperId)
  else none

def doubles : Doubles where
  read l := l.plain.elim (.infinite l.negative) fun n =>
    if (n : ℤ) ≤ Json.maxSafeInteger then .num n else .infinite false
  number l := by
    cases l.plain with
    | none => exact .inr ⟨_, rfl⟩
    | some n =>
      dsimp only [Option.elim]
      split_ifs
      · exact .inl ⟨_, rfl⟩
      · exact .inr ⟨_, rfl⟩
  exact l n h hle := by
    rw [h]
    exact if_pos hle
  large l n h hlt := by
    rw [h]
    dsimp only [Option.elim]
    rw [if_neg (by omega)]
    rfl

def readers : JsonReaders := ⟨decode, decode, doubles, fun _ _ h => h⟩

theorem strict_lower : readers.strict (payload lowerId) = some (text lowerId) := by
  dsimp only [readers]
  unfold decode
  rw [if_pos rfl]

theorem strict_upper : readers.strict (payload upperId) = some (text upperId) := by
  have hne : payload upperId ≠ payload lowerId := by decide +kernel
  dsimp only [readers]
  unfold decode
  rw [if_neg hne, if_pos rfl]

/-- The bucket with the chunk of the image. -/
def bucket : Registry.Bucket := fun key =>
  if key = Registry.imageChunkObjectKey (sha256.hex [1]) then
    some ⟨[0, 0, 0, 0, 0], [("raw_sha256", sha256.hex [1]), ("encoded_sha256", sha256.hex [2]),
      ("raw_size_bytes", "1"), ("encoded_size_bytes", "5"), ("encoding", "zstd-v1-level-6")]⟩
  else none

def request (imageId : String) : Registry.UploadRequest :=
  ⟨"PUT", none, sha256.hex (payload imageId), some (sha256.hex (payload imageId)), payload imageId⟩

def upload (imageId : String) : Registry.UploadResponse × Registry.Bucket :=
  Registry.handleImageManifestUpload sha256.hex readers.decode readers.double bucket
    (request imageId)

/-- The manifest in normal form is stored, and a host reads it. -/
theorem host_reads_lower_case :
    (upload lowerId).1 = .accepted 201
      (Registry.imageManifestObjectKey (sha256.hex (payload lowerId))) false ∧
      ∃ m, HostReads sha256 readers (payload lowerId) m := by
  have hacc : (upload lowerId).1 = .accepted 201
      (Registry.imageManifestObjectKey (sha256.hex (payload lowerId))) false := by
    decide +kernel
  have hupload : upload lowerId = (.accepted 201
      (Registry.imageManifestObjectKey (sha256.hex (payload lowerId))) false,
      (upload lowerId).2) := by
    rw [← hacc]
  unfold upload at hupload
  obtain ⟨m, -, -, hiff⟩ := host_reads_upload_iff sha256 hex_zeros readers hupload
  obtain ⟨m', hrds, -⟩ := hiff.mpr ⟨text lowerId, strict_lower, by decide +kernel⟩
  exact ⟨hacc, m', hrds⟩

/-- **An image id in upper case** is accepted and stored by the registry, and no host reads it. -/
theorem upper_case_not_read :
    (upload upperId).1 = .accepted 201
      (Registry.imageManifestObjectKey (sha256.hex (payload upperId))) false ∧
      ¬ ∃ m, HostReads sha256 readers (payload upperId) m := by
  refine ⟨by decide +kernel, ?_⟩
  rintro ⟨m, ⟨t, hstrict, hm⟩, hval⟩
  obtain rfl : text upperId = t := Option.some.inj (strict_upper.symm.trans hstrict)
  have hrd : (deserializeManifest (text upperId)).map (validate sha256) =
      some (.error .invalidImageId) := by
    decide +kernel
  rw [hm, map_some, hval] at hrd
  cases hrd

end Demo

end Intar.Image
