import Intar.Image.Scanning

/-!
# The zero ranges of a block device

The client of an NBD server asks for the allocation of the device a window at a time, and keeps the
extents that are declared zero, merging what touches.  The ranges that it returns hold only bytes
that a reply declared zero in the window that was asked, so that after they are merged once more no
other byte is skipped (`zero_ranges_declared`).
-/

namespace Intar.Image

open Fallible

open Registry (Bytes)
open List

inductive NbdError where
  | noAllocationMetadata
  | emptyWindow
  | stream
  | simpleReply
  | unknownCookie
  | failed (payload : Bytes)
  | wrongLength
  | invalidExtent
  | replyType (kind : ℕ)
  | noExtents (offset : ℕ)

structure StructuredReply where
  done : Bool
  kind : ℕ
  payload : Bytes

/-- What the stream holds next: a simple reply has another magic. -/
inductive NbdReply where
  | simple
  | structured (cookie : ℕ) (reply : StructuredReply)

/-- `u32::from_be_bytes`. -/
def fromBe (bytes : Bytes) : ℕ := bytes.foldl (fun n byte => 256 * n + byte.toNat) 0

/-- The length and the flags of each extent. -/
def statusExtents : Bytes → List (ℕ × ℕ)
  | l₀ :: l₁ :: l₂ :: l₃ :: f₀ :: f₁ :: f₂ :: f₃ :: rest =>
    (fromBe [l₀, l₁, l₂, l₃], fromBe [f₀, f₁, f₂, f₃]) :: statusExtents rest
  | _ => []

/-- `STATE_ZERO`. -/
def stateZero (flags : ℕ) : Bool := flags.testBit 1

def readStructuredReply (cookie : ℕ) : NbdReply → Except NbdError StructuredReply
  | .simple => .error .simpleReply
  | .structured replyCookie reply =>
    if replyCookie ≠ cookie then .error .unknownCookie
    else if reply.kind.testBit 15 then .error (.failed reply.payload)
    else .ok reply

/-- A zero extent is added to the ranges, which stand in reverse. -/
def pushZero (cursor stop : ℕ) : List ByteRange → List ByteRange
  | last :: before =>
    if last.stop = cursor then ⟨last.start, stop⟩ :: before else ⟨cursor, stop⟩ :: last :: before
  | [] => [⟨cursor, stop⟩]

/-- The loop over the extents of a reply, in a window up to `stop`. -/
def extentLoop (stop : ℕ) : ℕ → List ByteRange → List (ℕ × ℕ) → Except NbdError (List ByteRange)
  | _, zeros, [] => .ok zeros
  | cursor, zeros, (length, flags) :: rest =>
    if 0 < length ∧ cursor + length ≤ stop then
      extentLoop stop (cursor + length)
        (if stateZero flags then pushZero cursor (cursor + length) zeros else zeros) rest
    else .error .invalidExtent

/-- One reply: the ranges, and whether it had extents of the context. -/
def takeReply (context offset stop : ℕ) (zeros : List ByteRange) (reply : StructuredReply) :
    Except NbdError (List ByteRange × Bool) :=
  if reply.kind = 5 then
    if 4 ≤ reply.payload.length ∧ (reply.payload.length - 4) % 8 = 0 then
      if fromBe (reply.payload.take 4) = context then
        (extentLoop stop offset zeros (statusExtents (reply.payload.drop 4))).map (·, true)
      else .ok (zeros, false)
    else .error .wrongLength
  else if reply.kind = 0 then .ok (zeros, false)
  else .error (.replyType reply.kind)

/-- The loop over the replies to one request. -/
def statusLoop (context offset stop : ℕ) :
    List ByteRange → Bool → List NbdReply → Except NbdError (List ByteRange × Bool × List NbdReply)
  | _, _, [] => .error .stream
  | zeros, extentsSeen, next :: rest => do
    let reply ← readStructuredReply 0 next
    let (zeros, seen) ← takeReply context offset stop zeros reply
    if reply.done then .ok (zeros, extentsSeen || seen, rest)
    else statusLoop context offset stop zeros (extentsSeen || seen) rest

/-- The end of the window at an offset. -/
def windowEnd (window size offset : ℕ) : ℕ := offset + min (size - offset) window

/-- The loop over the windows. -/
def windowLoop (context : ℕ) {window : ℕ} (hwindow : 0 < window) (size offset : ℕ)
    (zeros : List ByteRange) (replies : List NbdReply) : Except NbdError (List ByteRange) :=
  if _h : offset < size then
    match statusLoop context offset (windowEnd window size offset) zeros false replies with
    | .error e => .error e
    | .ok (zeros, extentsSeen, rest) =>
      if extentsSeen then windowLoop context hwindow size (windowEnd window size offset) zeros rest
      else .error (.noExtents offset)
  else .ok zeros.reverse
termination_by size - offset
decreasing_by
  rw [windowEnd]
  omega

def zeroRanges (allocationContext : Option ℕ) (size window : ℕ) (replies : List NbdReply) :
    Except NbdError (List ByteRange) :=
  match allocationContext with
  | none => .error .noAllocationMetadata
  | some context =>
    if h : 0 < window then windowLoop context h size 0 [] replies else .error .emptyWindow

/-! ## What the server declared -/

/-- The byte is in one of the extents from `cursor` on that are zero. -/
def InZeroExtent (b : ℕ) : ℕ → List (ℕ × ℕ) → Prop
  | _, [] => False
  | cursor, (length, flags) :: rest =>
    (stateZero flags = true ∧ cursor ≤ b ∧ b < cursor + length) ∨
      InZeroExtent b (cursor + length) rest

/-- The replies, each with the offset of the window that was asked when it came. -/
def asked (window size : ℕ) : ℕ → List NbdReply → List (ℕ × StructuredReply)
  | _, [] => []
  | offset, .simple :: rest => asked window size offset rest
  | offset, .structured _ reply :: rest =>
    (offset, reply) ::
      asked window size (if reply.done then windowEnd window size offset else offset) rest

/-- The reply declares the byte zero, in the window at `offset`. -/
structure Declares (allocationContext : Option ℕ) (window size b offset : ℕ)
    (reply : StructuredReply) : Prop where
  kind : reply.kind = 5
  context : allocationContext = some (fromBe (reply.payload.take 4))
  within : offset ≤ b ∧ b < windowEnd window size offset
  zero : InZeroExtent b offset (statusExtents (reply.payload.drop 4))

variable {context window size offset cursor stop : ℕ} {image : Bytes}
  {zeros zeros' : List ByteRange} {replies rest : List NbdReply}

theorem zeroRange_pushZero (hlt : cursor < stop) (hzero : Zeros image cursor stop)
    (h : ∀ r ∈ zeros, ZeroRange image r) :
    ∀ r ∈ pushZero cursor stop zeros, ZeroRange image r := by
  have hle : stop ≤ image.length := by
    have hls := (List.getElem?_eq_some_iff.mp (hzero (stop - 1) (by omega) (by omega))).1
    omega
  rw [pushZero.eq_def]
  split
  · rename_i last before
    obtain ⟨hls, hbef⟩ := forall_mem_cons.mp h
    split_ifs with htouch
    · refine forall_mem_cons.mpr ⟨⟨hls.start_lt.trans (htouch ▸ hlt), hle, fun b hb hbstop => ?_⟩,
        hbef⟩
      -- a byte of the longer range is in one of the two
      rcases Nat.lt_or_ge b cursor with hb' | hb'
      · exact hls.zeros b hb (htouch ▸ hb')
      · exact hzero b hb' hbstop
    · exact forall_mem_cons.mpr ⟨⟨hlt, hle, hzero⟩, h⟩
  · exact forall_mem_singleton.mpr ⟨hlt, hle, hzero⟩

theorem zeroRange_extentLoop {extents : List (ℕ × ℕ)}
    (hD : ∀ b, cursor ≤ b → b < stop → InZeroExtent b cursor extents → image[b]? = some 0)
    (h : ∀ r ∈ zeros, ZeroRange image r) (hloop : extentLoop stop cursor zeros extents = .ok zeros') :
    ∀ r ∈ zeros', ZeroRange image r := by
  induction extents generalizing cursor zeros with
  | nil =>
    cases hloop
    exact h
  | cons _ _ ih =>
    rw [extentLoop] at hloop
    split_ifs at hloop with hval hflag
    · refine ih (fun b hb hbstop hext => hD b (by omega) hbstop (.inr hext)) ?_ hloop
      refine zeroRange_pushZero (by omega) (fun b hb hbstop => ?_) h
      exact hD b hb (by omega) (.inl ⟨hflag, hb, hbstop⟩)
    · exact ih (fun b hb hbstop hext => hD b (by omega) hbstop (.inr hext)) h hloop

/-- The image is zero wherever one of the replies declares it. -/
def Truthful (context window : ℕ) (image : Bytes) (replies : List (ℕ × StructuredReply)) : Prop :=
  ∀ b, ∀ told ∈ replies, Declares (some context) window image.length b told.1 told.2 →
    image[b]? = some 0

theorem zeroRange_takeReply {reply : StructuredReply} {seen : Bool}
    (hD : ∀ b, Declares (some context) window image.length b offset reply → image[b]? = some 0)
    (h : ∀ r ∈ zeros, ZeroRange image r)
    (htake : takeReply context offset (windowEnd window image.length offset) zeros reply =
      .ok (zeros', seen)) : ∀ r ∈ zeros', ZeroRange image r := by
  rw [takeReply] at htake
  split_ifs at htake with hkind hlen hctx hno
  · obtain ⟨_, hloop, hpr⟩ := map_eq_ok.mp htake
    cases hpr
    exact zeroRange_extentLoop
      (fun b hb hbstop hext => hD b ⟨hkind, congrArg some hctx.symm, ⟨hb, hbstop⟩, hext⟩) h hloop
  · cases htake
    exact h
  · cases htake
    exact h

theorem zeroRange_statusLoop {extentsSeen seen : Bool}
    (hD : Truthful context window image (asked window image.length offset replies))
    (h : ∀ r ∈ zeros, ZeroRange image r)
    (hloop : statusLoop context offset (windowEnd window image.length offset) zeros extentsSeen
      replies = .ok (zeros', seen, rest)) :
    (∀ r ∈ zeros', ZeroRange image r) ∧ Truthful context window image
      (asked window image.length (windowEnd window image.length offset) rest) := by
  induction replies generalizing zeros extentsSeen with
  | nil => cases hloop
  | cons next _ ih =>
    rw [statusLoop] at hloop
    obtain ⟨_, hrd, hnx⟩ := bind_eq_ok.mp hloop
    obtain ⟨⟨_, _⟩, htake, hnx⟩ := bind_eq_ok.mp hnx
    cases next with
    | simple => cases hrd
    | structured =>
      rw [readStructuredReply] at hrd
      split_ifs at hrd
      cases hrd
      rw [asked] at hD
      have hzero := zeroRange_takeReply (fun b => hD b _ mem_cons_self) h htake
      have hrs := fun b told hmem => hD b told (mem_cons_of_mem _ hmem)
      split_ifs at hnx hrs
      · cases hnx
        exact ⟨hzero, hrs⟩
      · exact ih hrs hzero hnx

theorem zeroRange_windowLoop (hwindow : 0 < window) {ranges : List ByteRange}
    (hD : Truthful context window image (asked window image.length offset replies))
    (h : ∀ r ∈ zeros, ZeroRange image r)
    (hloop : windowLoop context hwindow image.length offset zeros replies = .ok ranges) :
    ∀ r ∈ ranges, ZeroRange image r := by
  induction hn : image.length - offset using Nat.strong_induction_on
    generalizing offset zeros replies with
  | _ n ih =>
    rw [windowLoop] at hloop
    split_ifs at hloop with hlt
    · split at hloop
      · cases hloop
      · rename_i hstat
        split_ifs at hloop
        obtain ⟨hzero, hrs⟩ := zeroRange_statusLoop hD h hstat
        refine ih _ ?_ hrs hzero hloop rfl
        rw [windowEnd]
        omega
    · cases hloop
      exact fun r hr => h r (mem_reverse.mp hr)

/-- **The zero ranges.**  A range that is returned lies in the device, and each of its bytes was
declared zero by a reply, in the window that was asked when it came; the ranges can be merged; and
what a merged range covers was declared zero. -/
theorem zero_ranges_declared (allocationContext : Option ℕ) (size window : ℕ)
    (replies : List NbdReply) (ranges : List ByteRange)
    (h : zeroRanges allocationContext size window replies = .ok ranges) :
    let Declared := fun b => ∃ told ∈ asked window size 0 replies,
      Declares allocationContext window size b told.1 told.2
    (∀ r ∈ ranges, r.start < r.stop ∧ r.stop ≤ size ∧ ∀ b, r.start ≤ b → b < r.stop → Declared b) ∧
    ∃ merged, normalizeRanges ranges size = .ok merged ∧
      ∀ start stop, rangeIsCovered merged start stop = true →
        ∀ b, start ≤ b → b < stop → Declared b := by
  classical
  intro Declared
  -- an image that is zero where the server says so and nowhere else
  let image : Bytes := (range size).map fun b => if Declared b then 0 else 1
  have hlen : image.length = size := by simp [image]
  have hzero : ∀ b, image[b]? = some 0 ↔ b < size ∧ Declared b := by
    intro b
    by_cases hb : b < size <;> by_cases hd : Declared b <;> simp [image, hb, hd]
  cases allocationContext with
  | none => cases h
  | some =>
  rw [zeroRanges] at h
  split_ifs at h with hwindow
  rw [← hlen] at h
  have hrgs : ∀ r ∈ ranges, ZeroRange image r := by
    refine zeroRange_windowLoop hwindow (fun b told hmem hdeclares => ?_) (by simp) h
    rw [hlen] at hmem hdeclares
    have hwithin := hdeclares.within
    rw [windowEnd] at hwithin
    exact (hzero b).mpr ⟨by omega, told, hmem, hdeclares⟩
  obtain ⟨merged, hmerged, hcovers⟩ := normalizeRanges_zeros hrgs
  rw [hlen] at hmerged
  refine ⟨fun r hr => ?_, merged, hmerged, fun start stop hcov b hb hbstop => ?_⟩
  · have hr' := hrgs r hr
    exact ⟨hr'.start_lt, hlen ▸ hr'.stop_le, fun b hb hbstop =>
      ((hzero b).mp (hr'.zeros b hb hbstop)).2⟩
  · exact ((hzero b).mp (zeros_of_rangeIsCovered hcovers hcov b hb hbstop)).2

/-- A device of eight bytes, all of them zero. -/
def blankDevice : List NbdReply := [.structured 0 ⟨true, 5, [0, 0, 0, 1, 0, 0, 0, 8, 0, 0, 0, 2]⟩]

theorem zero_ranges_declared_blankDevice :
    zeroRanges (some 1) 8 8 blankDevice = .ok [⟨0, 8⟩] ∧
    ∃ told ∈ asked 8 8 0 blankDevice, Declares (some 1) 8 8 3 told.1 told.2 := by
  have h : zeroRanges (some 1) 8 8 blankDevice = .ok [⟨0, 8⟩] := by
    have hstat : statusLoop 1 0 (windowEnd 8 8 0) [] false blankDevice =
        .ok ([⟨0, 8⟩], true, []) := rfl
    rw [zeroRanges, dif_pos (by decide), windowLoop, dif_pos (by decide), hstat]
    dsimp only
    rw [if_pos rfl, windowLoop]
    rfl
  exact ⟨h, ((zero_ranges_declared _ _ _ _ _ h).1 _ mem_cons_self).2.2 3 (by decide) (by decide)⟩

end Intar.Image
