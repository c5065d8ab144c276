import Mathlib

/-!
# The mirror of a terminal

`stargate-gateway/src/mirror.rs`: what a terminal shows is queued in a bounded outbox, and a writer
takes it out, turns it into frames and sends them to the control plane.  Output that does not fit
into the outbox is dropped into a gap that stands in its place.

This file has the outbox and the frames.  The text of an output is decoded as it is taken out, and a
character that two outputs share is carried over.  `std::str::from_utf8` is a parameter.
-/

namespace Intar.Gateway.Mirror

open List

abbrev Bytes := List UInt8

/-! ## Text -/

/-- `Result<&str, Utf8Error>`. -/
inductive Utf8 where
  | valid (text : String)
  | invalid (validUpTo : Nat) (errorLen : Option Nat)
deriving DecidableEq

section

variable (fromUtf8 : Bytes → Utf8)

/-- `from_utf8(bytes).unwrap_or_default()`. -/
def validText (bytes : Bytes) : String :=
  match fromUtf8 bytes with
  | .valid text => text
  | .invalid _ _ => ""

/-- The loop of `Utf8Decoder::decode`: each round reads at least one byte, so it ends within as many
rounds as there are bytes. -/
def decodeLoop : Nat → Bytes → String → String × Bytes
  | 0, rest, text => (text, rest)
  | fuel + 1, rest, text =>
    if rest = [] then (text, [])
    else
      match fromUtf8 rest with
      | .valid valid => (text ++ valid, [])
      | .invalid validUpTo errorLen =>
        let text := text ++ validText fromUtf8 (rest.take validUpTo)
        match errorLen with
        | some len => decodeLoop fuel (rest.drop (validUpTo + len)) (text ++ "�")
        | none => (text, rest.drop validUpTo)

/-- `Utf8Decoder::decode`: the text of a chunk after what was carried, and what is carried on. -/
def decode (carry chunk : Bytes) : String × Bytes :=
  decodeLoop fromUtf8 ((carry ++ chunk).length + 1) (carry ++ chunk) ""

end

/-! ## The outbox -/

def outboxLimitBytes : Nat := 1024 * 1024

def itemCostBytes : Nat := 64

def frameBytes : Nat := 32 * 1024

def eventCostBytes : Nat := 32

inductive Item where
  | output (time : Nat) (data : Bytes)
  | resize (time cols rows : Nat)
  /-- Dropped items: bytes of output, and the size of the terminal after them. -/
  | gap (bytes time cols rows : Nat)
deriving DecidableEq

structure Outbox where
  items : List Item
  (bytes cols rows : Nat)
  (ended closed : Bool)
deriving DecidableEq

namespace Outbox

def new (cols rows : Nat) : Outbox := ⟨[], 0, cols, rows, false, false⟩

/-- Fold a dropped item into the gap that ends the queue. -/
def dropItem (box : Outbox) (time bytes : Nat) : Outbox :=
  match box.items.getLast? with
  | some (.gap total _ _ _) =>
    { box with items := box.items.dropLast ++ [.gap (total + bytes) time box.cols box.rows] }
  | _ => { box with items := box.items ++ [.gap bytes time box.cols box.rows] }

def pushOutput (box : Outbox) (time : Nat) (data : Bytes) : Outbox :=
  if box.closed then box
  else if box.bytes + (data.length + itemCostBytes) > outboxLimitBytes then
    box.dropItem time data.length
  else
    { box with
      items := box.items ++ [.output time data]
      bytes := box.bytes + (data.length + itemCostBytes) }

/-- A burst of sizes is folded into its last. -/
def pushResize (box : Outbox) (time cols rows : Nat) : Outbox :=
  let box := { box with cols, rows }
  if box.closed then box
  else
    match box.items.getLast? with
    | some (.resize _ _ _) => { box with items := box.items.dropLast ++ [.resize time cols rows] }
    | _ =>
      if box.bytes + itemCostBytes > outboxLimitBytes then box.dropItem time 0
      else
        { box with
          items := box.items ++ [.resize time cols rows]
          bytes := box.bytes + itemCostBytes }

def finish (box : Outbox) : Outbox := { box with ended := true }

def take (box : Outbox) : Outbox := { box with items := [], bytes := 0 }

def close (box : Outbox) : Outbox := { box with closed := true, items := [], bytes := 0 }

end Outbox

variable (box : Outbox)

theorem closed_dropItem (time bytes : Nat) : (box.dropItem time bytes).closed = box.closed := by
  rw [Outbox.dropItem]
  split <;> rfl

theorem closed_pushOutput (time : Nat) (data : Bytes) :
    (box.pushOutput time data).closed = box.closed := by
  rw [Outbox.pushOutput]
  split_ifs
  · rfl
  · exact closed_dropItem ..
  · rfl

theorem closed_pushResize (time cols rows : Nat) :
    (box.pushResize time cols rows).closed = box.closed := by
  rw [Outbox.pushResize]
  split
  · rfl
  split
  · rfl
  split
  · exact closed_dropItem ..
  · rfl

/-! ## Frames -/

inductive EventCode where
  | output
  | resize
deriving DecidableEq

structure ShareEvent where
  time : Nat
  code : EventCode
  text : String
deriving DecidableEq

/-- `ShareIngestMessage`.  What `start` says about the session never changes and is left out.
`resumed` is not sent: it tells the gap that opens a connection from one of the outbox. -/
inductive Message where
  | start (cols rows : Nat) (midSession : Bool)
  | events (events : List ShareEvent)
  | gap (bytes : Nat) (resumed : Bool)
deriving DecidableEq

/-- `json_len`: the length of a text as a JSON string. -/
def jsonLen (text : String) : Nat :=
  (text.toList.map fun c =>
    if c ∈ ['"', '\\', '\n', '\r', '\t', '\x08', '\x0c'] then 2
    else if c < ' ' then 6
    else c.utf8Size).sum

def resizeEvent (time cols rows : Nat) : ShareEvent :=
  ⟨time, .resize, toString cols ++ "x" ++ toString rows⟩

structure Frames where
  finished : List Message
  events : List ShareEvent
  size : Nat

namespace Frames

def flush (frames : Frames) : Frames :=
  ⟨if frames.events = [] then frames.finished else frames.finished ++ [.events frames.events], [], 0⟩

def event (frames : Frames) (event : ShareEvent) : Frames :=
  let frames : Frames :=
    ⟨frames.finished, frames.events ++ [event], frames.size + (eventCostBytes + jsonLen event.text)⟩
  if frames.size ≥ frameBytes then frames.flush else frames

/-- A gap in its place, after the events before it. -/
def gap (frames : Frames) (bytes : Nat) : Frames :=
  { frames.flush with finished := frames.flush.finished ++ [.gap bytes false] }

end Frames

/-- The loop over the items, with the frames so far and what is carried. -/
def framesLoop (fromUtf8 : Bytes → Utf8) : List Item → Frames → Bytes → Frames × Bytes
  | [], frames, carry => (frames.flush, carry)
  | .output time data :: items, frames, carry =>
    let decoded := decode fromUtf8 carry data
    framesLoop fromUtf8 items
      (if decoded.1 = "" then frames else frames.event ⟨time, .output, decoded.1⟩) decoded.2
  | .resize time cols rows :: items, frames, carry =>
    framesLoop fromUtf8 items (frames.event (resizeEvent time cols rows)) carry
  | .gap bytes time cols rows :: items, frames, carry =>
    if bytes > 0 then
      -- the output after a gap does not continue a character that the dropped output began
      framesLoop fromUtf8 items ((frames.gap bytes).event (resizeEvent time cols rows)) []
    else framesLoop fromUtf8 items (frames.event (resizeEvent time cols rows)) carry

/-- `frames`: queued items as frames, and what is carried on. -/
def frames (fromUtf8 : Bytes → Utf8) (items : List Item) (carry : Bytes) : List Message × Bytes :=
  let built := framesLoop fromUtf8 items ⟨[], [], 0⟩ carry
  (built.1.finished, built.2)

def ShareEvent.outputBytes (event : ShareEvent) : Nat :=
  match event.code with
  | .output => event.text.utf8ByteSize
  | .resize => 0

/-- `output_bytes`: what a frame that was not delivered counts as lost. -/
def outputBytes : Message → Nat
  | .events events => (events.map ShareEvent.outputBytes).sum
  | .gap bytes _ => bytes
  | .start _ _ _ => 0

/-! ## What frames show -/

/-- What a viewer gets to see of the outputs: a text, or a gap. -/
inductive Mark where
  | output (text : String)
  | gap (bytes : Nat)
deriving DecidableEq

def Mark.bytes : Mark → Nat
  | .output text => text.utf8ByteSize
  | .gap bytes => bytes

def ShareEvent.mark (event : ShareEvent) : Option Mark :=
  match event.code with
  | .output => some (.output event.text)
  | .resize => none

def Message.marks : Message → List Mark
  | .start _ _ _ => []
  | .events batch => batch.filterMap ShareEvent.mark
  | .gap bytes _ => [.gap bytes]

def marks (messages : List Message) : List Mark := messages.flatMap Message.marks

@[simp] theorem marks_append (first second : List Message) :
    marks (first ++ second) = marks first ++ marks second := flatMap_append

@[simp] theorem marks_singleton (message : Message) : marks [message] = message.marks :=
  flatMap_singleton ..

/-- The marks of the items, one after another. -/
def itemMarks (fromUtf8 : Bytes → Utf8) : List Item → Bytes → List Mark × Bytes
  | [], carry => ([], carry)
  | .output _ data :: items, carry =>
    let decoded := decode fromUtf8 carry data
    let rest := itemMarks fromUtf8 items decoded.2
    (if decoded.1 = "" then rest.1 else .output decoded.1 :: rest.1, rest.2)
  | .resize _ _ _ :: items, carry => itemMarks fromUtf8 items carry
  | .gap bytes _ _ _ :: items, carry =>
    if bytes > 0 then
      let rest := itemMarks fromUtf8 items []
      (.gap bytes :: rest.1, rest.2)
    else itemMarks fromUtf8 items carry

theorem itemMarks_append (fromUtf8 : Bytes → Utf8) (items items' : List Item) (carry : Bytes) :
    itemMarks fromUtf8 (items ++ items') carry =
      ((itemMarks fromUtf8 items carry).1 ++
          (itemMarks fromUtf8 items' (itemMarks fromUtf8 items carry).2).1,
        (itemMarks fromUtf8 items' (itemMarks fromUtf8 items carry).2).2) := by
  induction items generalizing carry with
  | nil => rfl
  | cons item _ ih =>
    cases item with
    | output =>
      rw [cons_append, itemMarks, itemMarks, ih]
      split_ifs <;> rfl
    | resize => exact ih carry
    | gap =>
      rw [cons_append, itemMarks, itemMarks, ih, ih]
      split_ifs <;> rfl

/-- The marks of frames that are being put together. -/
def Frames.marks (frames : Frames) : List Mark :=
  Mirror.marks frames.finished ++ frames.events.filterMap ShareEvent.mark

@[simp] theorem Frames.marks_flush (frames : Frames) : frames.flush.marks = frames.marks := by
  rw [Frames.flush, Frames.marks, Frames.marks]
  split_ifs with hemp
  · rw [hemp]
  · simp [Message.marks]

theorem Frames.flush_events (frames : Frames) : frames.flush.events = [] := rfl

theorem Frames.marks_event (frames : Frames) (event : ShareEvent) :
    (frames.event event).marks = frames.marks ++ event.mark.toList := by
  have hpsh : (Frames.mk frames.finished (frames.events ++ [event])
      (frames.size + (eventCostBytes + jsonLen event.text))).marks =
        frames.marks ++ event.mark.toList := by
    cases hmark : event.mark <;> simp [Frames.marks, hmark]
  rw [Frames.event]
  split_ifs
  · rw [Frames.marks_flush, hpsh]
  · exact hpsh

theorem Frames.marks_gap (frames : Frames) (bytes : Nat) :
    (frames.gap bytes).marks = frames.marks ++ [.gap bytes] := by
  have hflush := frames.marks_flush
  rw [Frames.marks, Frames.flush_events, filterMap_nil, append_nil] at hflush
  rw [Frames.gap, Frames.marks, Frames.flush_events, filterMap_nil, append_nil,
    marks_append, hflush, marks_singleton]
  rfl

/-- Cutting into frames changes nothing of what they show. -/
theorem marks_framesLoop (fromUtf8 : Bytes → Utf8) (items : List Item) (built : Frames)
    (carry : Bytes) :
    marks (framesLoop fromUtf8 items built carry).1.finished =
        built.marks ++ (itemMarks fromUtf8 items carry).1 ∧
      (framesLoop fromUtf8 items built carry).2 = (itemMarks fromUtf8 items carry).2 := by
  induction items generalizing built carry with
  | nil =>
    have hflush := built.marks_flush
    rw [Frames.marks, Frames.flush_events, filterMap_nil, append_nil] at hflush
    exact ⟨by rw [framesLoop, itemMarks, append_nil, hflush], rfl⟩
  | cons item _ ih =>
    cases item with
    | output time data =>
      rw [framesLoop, itemMarks]
      obtain ⟨hmk, hcry⟩ := ih
        (if (decode fromUtf8 carry data).1 = "" then built
          else built.event ⟨time, .output, (decode fromUtf8 carry data).1⟩)
        (decode fromUtf8 carry data).2
      refine ⟨hmk.trans ?_, hcry⟩
      split_ifs
      · rfl
      rw [Frames.marks_event, append_assoc]
      rfl
    | resize time cols rows =>
      rw [framesLoop, itemMarks]
      obtain ⟨hmk, hcry⟩ := ih (built.event (resizeEvent time cols rows)) carry
      refine ⟨hmk.trans ?_, hcry⟩
      rw [Frames.marks_event, append_assoc]
      rfl
    | gap bytes time cols rows =>
      rw [framesLoop, itemMarks]
      split_ifs with hby
      · obtain ⟨hmk, hcry⟩ := ih ((built.gap bytes).event (resizeEvent time cols rows)) []
        refine ⟨hmk.trans ?_, hcry⟩
        rw [Frames.marks_event, Frames.marks_gap, append_assoc, append_assoc]
        rfl
      · obtain ⟨hmk, hcry⟩ := ih (built.event (resizeEvent time cols rows)) carry
        refine ⟨hmk.trans ?_, hcry⟩
        rw [Frames.marks_event, append_assoc]
        rfl

theorem marks_frames (fromUtf8 : Bytes → Utf8) (items : List Item) (carry : Bytes) :
    marks (frames fromUtf8 items carry).1 = (itemMarks fromUtf8 items carry).1 ∧
      (frames fromUtf8 items carry).2 = (itemMarks fromUtf8 items carry).2 :=
  marks_framesLoop fromUtf8 items ⟨[], [], 0⟩ carry

theorem outputBytes_eq (message : Message) :
    outputBytes message = (message.marks.map Mark.bytes).sum := by
  cases message with
  | start => rfl
  | gap => simp [outputBytes, Message.marks, Mark.bytes]
  | events events =>
    rw [outputBytes, Message.marks]
    induction events with
    | nil => rfl
    | cons event _ ih =>
      rw [map_cons, sum_cons, ih, filterMap_cons]
      cases hcode : event.code <;> simp [ShareEvent.mark, ShareEvent.outputBytes, hcode, Mark.bytes]

theorem sum_outputBytes (messages : List Message) :
    (messages.map outputBytes).sum = ((marks messages).map Mark.bytes).sum := by
  induction messages with
  | nil => rfl
  | cons message messages ih =>
    have hcs : marks (message :: messages) = message.marks ++ marks messages := flatMap_cons
    rw [map_cons, sum_cons, ih, outputBytes_eq, hcs, map_append, sum_append]

end Intar.Gateway.Mirror
