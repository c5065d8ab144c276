import Mathlib
import Intar.Gateway.Mirror
import Intar.Lib.Trace

/-!
# The writer of a mirror

`run_writer` and `WriterTask::stream`.  The writer connects, opens with `start` and, if output was
lost, with a gap for it, and then sends what it takes out of the outbox.  When a send fails, the
frames that were not sent count as lost, and it connects again.

A send is done when the socket has accepted the frame.  Accepted frames are on the `wire` until they
arrive; a connection that breaks takes with it what has not arrived.  Nothing is counted for those,
so the mirror has no silent holes as long as connections do not break with frames on the wire
(`Reliable`).

`Reads` says how what arrived is read off the outputs: one after another, each either shown or,
after a gap, left out.
-/

namespace Intar.Gateway.Mirror

open List

/-! ## Steps -/

inductive Phase where
  | connecting
  | opening (remaining : List Message)
  | streaming
  | sending (remaining : List Message) (ended : Bool)
  | done
deriving DecidableEq

/-- The frames that are being sent. -/
def Phase.underWay : Phase → List Message
  | .connecting => []
  | .opening remaining => remaining
  | .streaming => []
  | .sending remaining _ => remaining
  | .done => []

/-- The outbox, the writer, and the connection.  Not kept by the gateway are `stream`, all outputs
of the terminal so far, `arrived`, all that the control plane has got over all connections, and
`counted`, all that was ever counted as lost. -/
structure Writer where
  outbox : Outbox
  carry : Bytes
  lost : Nat
  midSession : Bool
  phase : Phase
  (wire arrived : List Message)
  stream : List Bytes
  counted : Nat
deriving DecidableEq

inductive Op where
  /-- The terminal shows output. -/
  | output (time : Nat) (data : Bytes)
  | resize (time cols rows : Nat)
  /-- The PTY ends. -/
  | finish
  | connect
  | connectFails
  /-- The control plane refuses the writer for good. -/
  | refuse
  | send
  /-- A send fails, and the connection with it; the frame may have arrived all the same. -/
  | sendFails (received : Bool)
  | take
  /-- The socket is closed, broken or silent. -/
  | break
  /-- The share is stopped. -/
  | stop
  /-- The first frame on the wire arrives. -/
  | arrive

namespace Writer

def new (cols rows : Nat) (midSession : Bool) : Writer :=
  ⟨Outbox.new cols rows, [], 0, midSession, .connecting, [], [], [], 0⟩

/-- The writer ends. -/
def stop (s : Writer) : Writer := { s with phase := .done, outbox := s.outbox.close }

/-- After the frames are sent: end, or wait for more. -/
def sent (s : Writer) (ended : Bool) : Writer :=
  if ended then s.stop else { s with phase := .streaming }

/-- The connection is gone; what has not arrived is lost with it. -/
def reconnect (s : Writer) : Writer :=
  { s with phase := .connecting, wire := [], midSession := true }

end Writer

/-- The frames that open a connection. -/
def openingFrames (s : Writer) : List Message :=
  .start s.outbox.cols s.outbox.rows s.midSession ::
    if s.lost > 0 then [.gap s.lost true] else []

def step (fromUtf8 : Bytes → Utf8) (s : Writer) : Op → Writer
  | .output time data =>
    { s with outbox := s.outbox.pushOutput time data, stream := s.stream ++ [data] }
  | .resize time cols rows => { s with outbox := s.outbox.pushResize time cols rows }
  | .finish => { s with outbox := s.outbox.finish }
  | .connect =>
    match s.phase with
    | .connecting =>
      { s with
        phase := .opening (openingFrames s)
        carry := if s.lost > 0 then [] else s.carry
        lost := 0 }
    | _ => s
  | .connectFails =>
    match s.phase with
    | .connecting => if s.outbox.ended then s.stop else s
    | _ => s
  | .refuse =>
    match s.phase with
    | .connecting => s.stop
    | _ => s
  | .send =>
    match s.phase with
    | .opening (frame :: rest) =>
      let s := { s with wire := s.wire ++ [frame] }
      if rest = [] then { s with phase := .streaming } else { s with phase := .opening rest }
    | .sending (frame :: rest) ended =>
      let s := { s with wire := s.wire ++ [frame] }
      if rest = [] then s.sent ended else { s with phase := .sending rest ended }
    | _ => s
  | .sendFails received =>
    match s.phase with
    | .opening (frame :: rest) =>
      Writer.reconnect
        { s with
          arrived := if received then s.arrived ++ s.wire ++ [frame] else s.arrived
          lost := s.lost + ((frame :: rest).map outputBytes).sum }
    | .sending (frame :: rest) _ =>
      Writer.reconnect
        { s with
          arrived := if received then s.arrived ++ s.wire ++ [frame] else s.arrived
          lost := s.lost + ((frame :: rest).map outputBytes).sum
          counted := s.counted + ((frame :: rest).map outputBytes).sum }
    | _ => s
  | .take =>
    match s.phase with
    | .streaming =>
      let taken := frames fromUtf8 s.outbox.items s.carry
      let s := { s with outbox := s.outbox.take, carry := taken.2 }
      if taken.1 = [] then s.sent s.outbox.ended
      else { s with phase := .sending taken.1 s.outbox.ended }
    | _ => s
  | .break =>
    match s.phase with
    | .streaming => s.reconnect
    | _ => s
  | .stop =>
    match s.phase with
    | .connecting => s.stop
    | .streaming => s.stop
    | _ => s
  | .arrive =>
    match s.wire with
    | frame :: wire => { s with arrived := s.arrived ++ [frame], wire }
    | [] => s

/-- The connection breaks only when every frame that the socket accepted has arrived. -/
def Reliable (s : Writer) : Op → Prop
  | .sendFails false => s.wire = []
  | .break => s.wire = []
  | _ => True

instance (s : Writer) : (op : Op) → Decidable (Reliable s op)
  | .sendFails false => inferInstanceAs (Decidable (s.wire = []))
  | .break => inferInstanceAs (Decidable (s.wire = []))
  | .sendFails true => isTrue trivial
  | .output .. => isTrue trivial
  | .resize .. => isTrue trivial
  | .finish => isTrue trivial
  | .connect => isTrue trivial
  | .connectFails => isTrue trivial
  | .refuse => isTrue trivial
  | .send => isTrue trivial
  | .take => isTrue trivial
  | .stop => isTrue trivial
  | .arrive => isTrue trivial

/-! ## Reading the outputs -/

section

variable (fromUtf8 : Bytes → Utf8)

/-- The outputs are read off up to a point: `marks` is what was shown of them, `carry` what the last
of them left of a character, and `gapped` says that a gap was shown since the last text. -/
inductive ReadsTo : List Bytes → List Mark → Bytes → Bool → Prop
  | start : ReadsTo [] [] [] false
  /-- The text of an output is shown. -/
  | shown {read : List Bytes} {marks : List Mark} {carry : Bytes} {gapped : Bool}
      (h : ReadsTo read marks carry gapped) (data : Bytes)
      (htext : (decode fromUtf8 carry data).1 ≠ "") :
      ReadsTo (read ++ [data]) (marks ++ [.output (decode fromUtf8 carry data).1])
        (decode fromUtf8 carry data).2 false
  /-- An output that holds only a part of a character shows nothing yet. -/
  | carried {read : List Bytes} {marks : List Mark} {carry : Bytes} {gapped : Bool}
      (h : ReadsTo read marks carry gapped) (data : Bytes)
      (htext : (decode fromUtf8 carry data).1 = "") :
      ReadsTo (read ++ [data]) marks (decode fromUtf8 carry data).2 gapped
  /-- A gap is shown. -/
  | gap {read : List Bytes} {marks : List Mark} {carry : Bytes} {gapped : Bool}
      (h : ReadsTo read marks carry gapped) {bytes : Nat} (hbytes : 0 < bytes) :
      ReadsTo read (marks ++ [.gap bytes]) [] true
  /-- In the place of a gap, an output is left out. -/
  | leftOut {read : List Bytes} {marks : List Mark} {carry : Bytes}
      (h : ReadsTo read marks carry true) (data : Bytes) :
      ReadsTo (read ++ [data]) marks carry true
  /-- There is nothing to show of an empty output. -/
  | empty {read : List Bytes} {marks : List Mark} {carry : Bytes} {gapped : Bool}
      (h : ReadsTo read marks carry gapped) : ReadsTo (read ++ [[]]) marks carry gapped

/-- What arrived is read off the outputs up to some point, in order and with a gap in the place of
what is missing. -/
def Reads (stream : List Bytes) (arrived : List Message) : Prop :=
  ∃ read rest carry gapped, stream = read ++ rest ∧
    ReadsTo fromUtf8 read (marks arrived) carry gapped

end

/-- The bytes of a gap that opens a connection. -/
def Message.resumedBytes : Message → Nat
  | .gap bytes true => bytes
  | .gap _ false => 0
  | .start _ _ _ => 0
  | .events _ => 0

/-- What was sent at the opening of connections for bytes counted as lost. -/
def resumedBytes (messages : List Message) : Nat := (messages.map Message.resumedBytes).sum

variable {fromUtf8 : Bytes → Utf8} {shown : List Mark}

variable {read : List Bytes} {carry : Bytes} {gapped : Bool}

section

theorem ReadsTo.bytes_pos (h : ReadsTo fromUtf8 read shown carry gapped) :
    ∀ mark ∈ shown, 0 < mark.bytes := by
  induction h with
  | start => exact fun _ hmark => absurd hmark not_mem_nil
  | shown _ _ htext ih =>
    intro mark hmark
    rcases mem_append.mp hmark with hmark | hmark
    · exact ih mark hmark
    rw [mem_singleton.mp hmark, Mark.bytes, Nat.pos_iff_ne_zero]
    exact fun hzero => htext (String.utf8ByteSize_eq_zero_iff.mp hzero)
  | carried _ _ _ ih | leftOut _ _ ih | empty _ ih => exact ih
  | gap _ hbytes ih =>
    intro mark hmark
    rcases mem_append.mp hmark with hmark | hmark
    · exact ih mark hmark
    rw [mem_singleton.mp hmark]
    exact hbytes

/-- What was shown first was read off first. -/
theorem ReadsTo.of_append {later : List Mark}
    (h : ReadsTo fromUtf8 read (shown ++ later) carry gapped) :
    ∃ first second carry gapped, read = first ++ second ∧
      ReadsTo fromUtf8 first shown carry gapped := by
  generalize hall : shown ++ later = all at h
  induction h generalizing later with
  | start =>
    obtain ⟨rfl, -⟩ := append_eq_nil_iff.mp hall
    exact ⟨[], [], [], false, rfl, .start⟩
  | @shown _ _ _ _ h data htext ih =>
    rcases eq_nil_or_concat later with rfl | ⟨_, _, rfl⟩
    · rw [append_nil] at hall
      exact ⟨_, [], _, _, (append_nil _).symm, hall ▸ h.shown data htext⟩
    · rw [concat_eq_append, ← append_assoc] at hall
      obtain ⟨first, second, c, g, rfl, hfst⟩ := ih (append_inj' hall rfl).1
      exact ⟨first, second ++ [data], c, g, by rw [append_assoc], hfst⟩
  | @carried _ _ _ _ _ data _ ih | @leftOut _ _ _ _ data ih =>
    obtain ⟨first, second, c, g, rfl, hfst⟩ := ih hall
    exact ⟨first, second ++ [data], c, g, by rw [append_assoc], hfst⟩
  | @gap _ _ _ _ h _ hbytes ih =>
    rcases eq_nil_or_concat later with rfl | ⟨_, _, rfl⟩
    · rw [append_nil] at hall
      exact ⟨_, [], _, _, (append_nil _).symm, hall ▸ h.gap hbytes⟩
    · rw [concat_eq_append, ← append_assoc] at hall
      exact ih (append_inj' hall rfl).1
  | @empty _ _ _ _ _ ih =>
    obtain ⟨first, second, c, g, rfl, hfst⟩ := ih hall
    exact ⟨first, second ++ [[]], c, g, by rw [append_assoc], hfst⟩

/-- Without gaps, the outputs are shown one after another. -/
theorem ReadsTo.eq_of_noGap (h : ReadsTo fromUtf8 read shown carry gapped)
    (hrd : [] ∉ read) (hshw : ∀ bytes, .gap bytes ∉ shown) :
    gapped = false ∧ itemMarks fromUtf8 (read.map (.output 0)) [] = (shown, carry) := by
  induction h with
  | start => exact ⟨rfl, rfl⟩
  | shown _ _ htext ih =>
    obtain ⟨-, hmk⟩ := ih (fun hmem => hrd (mem_append_left _ hmem))
      fun bytes hmem => hshw bytes (mem_append_left _ hmem)
    refine ⟨rfl, ?_⟩
    rw [map_append, itemMarks_append, hmk]
    simp [itemMarks, htext]
  | carried _ _ htext ih =>
    obtain ⟨hgapped, hmk⟩ := ih (fun hmem => hrd (mem_append_left _ hmem)) hshw
    refine ⟨hgapped, ?_⟩
    rw [map_append, itemMarks_append, hmk]
    simp [itemMarks, htext]
  | @gap _ _ _ _ _ bytes => exact absurd mem_concat_self (hshw bytes)
  | leftOut _ _ ih =>
    exact absurd (ih (fun hmem => hrd (mem_append_left _ hmem)) hshw).1 (by decide)
  | empty => exact absurd mem_concat_self hrd

theorem ReadsTo.leaveOut (h : ReadsTo fromUtf8 read shown carry true) (missing : List Bytes) :
    ReadsTo fromUtf8 (read ++ missing) shown carry true := by
  induction missing generalizing read with
  | nil => simpa using h
  | cons data _ ih => simpa using ih (h.leftOut data)

theorem ReadsTo.skipEmpty (h : ReadsTo fromUtf8 read shown carry gapped) (missing : List Bytes)
    (hemp : (missing.map List.length).sum = 0) :
    ReadsTo fromUtf8 (read ++ missing) shown carry gapped := by
  induction missing generalizing read with
  | nil => simpa using h
  | cons data _ ih =>
    rw [map_cons, sum_cons] at hemp
    have hdata : data = [] := eq_nil_of_length_eq_zero (by omega)
    subst hdata
    simpa using ih h.empty (by omega)

end

/-! ## What is queued -/

/-- The items stand for these outputs: each is there, or in a gap. -/
inductive Queued : List Item → List Bytes → Prop
  | nil : Queued [] []
  | output {items : List Item} {outputs : List Bytes} (h : Queued items outputs) (time : Nat)
      (data : Bytes) : Queued (.output time data :: items) (data :: outputs)
  | resize {items : List Item} {outputs : List Bytes} (h : Queued items outputs)
      (time cols rows : Nat) : Queued (.resize time cols rows :: items) outputs
  | gap {items : List Item} {outputs : List Bytes} (h : Queued items outputs)
      (dropped : List Bytes) {bytes : Nat} (hbytes : (dropped.map List.length).sum = bytes)
      (time cols rows : Nat) : Queued (.gap bytes time cols rows :: items) (dropped ++ outputs)

section

variable {items items' : List Item} {outputs outputs' : List Bytes}

theorem Queued.append (h : Queued items outputs) (h' : Queued items' outputs') :
    Queued (items ++ items') (outputs ++ outputs') := by
  induction h with
  | nil => exact h'
  | output _ time data ih => exact ih.output time data
  | resize _ time cols rows ih => exact ih.resize time cols rows
  | gap _ dropped hbytes time cols rows ih =>
    rw [append_assoc]
    exact ih.gap dropped hbytes time cols rows

theorem Queued.of_append (h : Queued (items ++ items') outputs) :
    ∃ first second, outputs = first ++ second ∧ Queued items first ∧ Queued items' second := by
  induction items generalizing outputs with
  | nil => exact ⟨[], outputs, rfl, .nil, h⟩
  | cons _ _ ih =>
    cases h with
    | output h time data =>
      obtain ⟨first, second, rfl, hfst, hsec⟩ := ih h
      exact ⟨data :: first, second, rfl, hfst.output time data, hsec⟩
    | resize h time cols rows =>
      obtain ⟨first, second, rfl, hfst, hsec⟩ := ih h
      exact ⟨first, second, rfl, hfst.resize time cols rows, hsec⟩
    | gap h dropped hbytes time cols rows =>
      obtain ⟨first, second, rfl, hfst, hsec⟩ := ih h
      exact ⟨dropped ++ first, second, (append_assoc ..).symm,
        hfst.gap dropped hbytes time cols rows, hsec⟩

theorem dropLast_append_of_getLast? {item : Item} (h : items.getLast? = some item) :
    items = items.dropLast ++ [item] :=
  (dropLast_append_getLast? item h).symm

/-- A dropped item stands in the gap at the end. -/
theorem Queued.dropItem (box : Outbox) (h : Queued box.items outputs) (time : Nat)
    (dropped : List Bytes) :
    Queued (box.dropItem time (dropped.map List.length).sum).items (outputs ++ dropped) := by
  rw [Outbox.dropItem]
  split
  · rename_i total _ _ _ hls
    rw [dropLast_append_of_getLast? hls] at h
    obtain ⟨_, _, rfl, hfst, hsec⟩ := h.of_append
    cases hsec with
    | gap hnil before hbytes =>
      cases hnil
      rw [append_nil, append_assoc]
      refine hfst.append ?_
      have hsum : ((before ++ dropped).map List.length).sum =
          total + (dropped.map List.length).sum := by
        rw [map_append, sum_append, hbytes]
      have hgap := Queued.nil.gap (before ++ dropped) hsum time box.cols box.rows
      rwa [append_nil] at hgap
  · refine h.append ?_
    have hgap := Queued.nil.gap dropped rfl time box.cols box.rows
    rwa [append_nil] at hgap

theorem Queued.pushOutput {box : Outbox} (hop : box.closed = false) (h : Queued box.items outputs)
    (time : Nat) (data : Bytes) :
    Queued (box.pushOutput time data).items (outputs ++ [data]) := by
  rw [Outbox.pushOutput, if_neg (by rw [hop]; exact Bool.false_ne_true)]
  split_ifs
  · have hdp := Queued.dropItem box h time [data]
    rwa [map_singleton, sum_singleton] at hdp
  · exact h.append (Queued.nil.output time data)

theorem Queued.pushResize {box : Outbox} (hop : box.closed = false) (h : Queued box.items outputs)
    (time cols rows : Nat) : Queued (box.pushResize time cols rows).items outputs := by
  rw [Outbox.pushResize]
  rw [if_neg (by rw [hop]; exact Bool.false_ne_true)]
  split
  · rename_i hls
    rw [dropLast_append_of_getLast? hls] at h
    obtain ⟨_, _, rfl, hfst, hsec⟩ := h.of_append
    cases hsec with
    | resize hnil =>
      cases hnil
      exact hfst.append (Queued.nil.resize time cols rows)
  · split_ifs
    · have hdp : Queued (Outbox.dropItem { box with cols, rows } time 0).items (outputs ++ []) :=
        Queued.dropItem { box with cols, rows } h time []
      rwa [append_nil] at hdp
    · have hpsh := h.append (Queued.nil.resize time cols rows)
      rwa [append_nil] at hpsh

/-- What is taken out continues the reading. -/
theorem ReadsTo.take
    (h : ReadsTo fromUtf8 read shown carry gapped) (hque : Queued items outputs) :
    ∃ gapped, ReadsTo fromUtf8 (read ++ outputs) (shown ++ (itemMarks fromUtf8 items carry).1)
      (itemMarks fromUtf8 items carry).2 gapped := by
  induction hque generalizing read shown carry gapped with
  | nil => exact ⟨gapped, by simpa [itemMarks] using h⟩
  | @output _ _ _ _ data ih =>
    rw [itemMarks]
    split_ifs with htext
    · obtain ⟨g, hrd⟩ := ih (h.carried data htext)
      exact ⟨g, by simpa using hrd⟩
    · obtain ⟨g, hrd⟩ := ih (h.shown data htext)
      exact ⟨g, by simpa using hrd⟩
  | resize _ _ _ _ ih =>
    rw [itemMarks]
    exact ih h
  | @gap _ _ _ dropped _ _ _ _ _ ih =>
    rw [itemMarks]
    split_ifs with hpos
    · obtain ⟨g, hrd⟩ := ih ((h.gap hpos).leaveOut dropped)
      exact ⟨g, by simpa using hrd⟩
    · obtain ⟨g, hrd⟩ := ih (h.skipEmpty dropped (by omega))
      exact ⟨g, by simpa using hrd⟩

end

/-! ## The invariant -/

/-- Where the outputs are: shown by what arrived or is on its way, lost and still to be reported, or
queued. -/
structure Writer.Whole (fromUtf8 : Bytes → Utf8) (s : Writer) : Prop where
  idle : s.phase = .connecting → s.wire = []
  /-- Before the writer is done the outbox takes what it is given. -/
  takes : s.phase ≠ .done → s.outbox.closed = false
  connecting : s.phase = .connecting → ∃ read missing queued carry gapped,
    s.stream = read ++ (missing ++ queued) ∧
    ReadsTo fromUtf8 read (marks s.arrived) carry gapped ∧ Queued s.outbox.items queued ∧
    (s.lost = 0 → missing = [] ∧ s.carry = carry)
  connected : s.phase ≠ .connecting → s.phase ≠ .done → s.lost = 0 ∧ ∃ read queued gapped,
    s.stream = read ++ queued ∧
    ReadsTo fromUtf8 read (marks (s.arrived ++ s.wire ++ s.phase.underWay)) s.carry gapped ∧
    Queued s.outbox.items queued
  done : s.phase = .done → Reads fromUtf8 s.stream (s.arrived ++ s.wire)

variable {s' : Writer} {queued : List Bytes} {frame : Message} {rest : List Message}
  {received : Bool}

section

variable {s : Writer}

variable {stream : List Bytes} {messages lost : List Message}

theorem Reads.append (h : Reads fromUtf8 stream messages) (more : List Bytes) :
    Reads fromUtf8 (stream ++ more) messages := by
  obtain ⟨read, rest, carry, gapped, rfl, hrd⟩ := h
  exact ⟨read, rest ++ more, carry, gapped, append_assoc .., hrd⟩

theorem Reads.of_append {later : List Message} (h : Reads fromUtf8 stream (messages ++ later)) :
    Reads fromUtf8 stream messages := by
  obtain ⟨_, rest, _, _, rfl, hrd⟩ := h
  rw [marks_append] at hrd
  obtain ⟨first, second, c, g, rfl, hfst⟩ := hrd.of_append
  exact ⟨first, second ++ rest, c, g, append_assoc .., hfst⟩

/-- In every phase, what arrived or is on the wire is read off the outputs. -/
theorem Writer.Whole.reads (h : s.Whole fromUtf8) : Reads fromUtf8 s.stream (s.arrived ++ s.wire) := by
  by_cases hcnn : s.phase = .connecting
  · obtain ⟨read, missing, queued, carry, gapped, hstr, hrd, -⟩ := h.connecting hcnn
    rw [h.idle hcnn, append_nil]
    exact ⟨read, missing ++ queued, carry, gapped, hstr, hrd⟩
  by_cases hdn : s.phase = .done
  · exact h.done hdn
  obtain ⟨-, read, queued, gapped, hstr, hrd, -⟩ := h.connected hcnn hdn
  exact Reads.of_append ⟨read, queued, _, gapped, hstr, hrd⟩

theorem Writer.Whole.stop (h : s.Whole fromUtf8) : s.stop.Whole fromUtf8 :=
  ⟨nofun, fun hne => absurd rfl hne, nofun, fun _ hne => absurd rfl hne, fun _ => h.reads⟩

/-- The connection is gone, and with it the frames that were under way. -/
theorem Writer.Whole.reconnect (hph : s'.phase = .connecting)
    (hwire : s'.wire = []) (htks : s'.outbox.closed = false) (hstr : s'.stream = read ++ queued)
    (hrd : ReadsTo fromUtf8 read (marks (s'.arrived ++ lost)) s'.carry gapped)
    (hque : Queued s'.outbox.items queued) (hlost : s'.lost = 0 → marks lost = []) :
    s'.Whole fromUtf8 := by
  refine ⟨fun _ => hwire, fun _ => htks, fun _ => ?_, fun hne => absurd hph hne, fun hdn => ?_⟩
  · rw [marks_append] at hrd
    by_cases hzero : s'.lost = 0
    · rw [hlost hzero, append_nil] at hrd
      exact ⟨read, [], queued, s'.carry, gapped, hstr, hrd, hque, fun _ => ⟨rfl, rfl⟩⟩
    · obtain ⟨first, second, carry, gapped, rfl, hfst⟩ := hrd.of_append
      exact ⟨first, second, queued, carry, gapped, by rw [hstr, append_assoc], hfst,
        hque, fun hz => absurd hz hzero⟩
  · rw [hph] at hdn
    cases hdn

/-- Frames with no bytes of output show nothing. -/
theorem marks_eq_nil (hrd : ReadsTo fromUtf8 read (marks (messages ++ lost)) carry gapped)
    (hzero : (lost.map outputBytes).sum = 0) : marks lost = [] := by
  rw [marks_append] at hrd
  rw [sum_outputBytes] at hzero
  cases hlost : marks lost with
  | nil => rfl
  | cons mark =>
    have hpos := hrd.bytes_pos mark (by rw [hlost]; simp)
    rw [hlost, map_cons, sum_cons] at hzero
    omega

/-- A failed send: the frames from it on are lost, or all but it. -/
theorem Writer.Whole.sendFails (h : s.Whole fromUtf8)
    (hcnn : s.phase ≠ .connecting) (hdn : s.phase ≠ .done)
    (hunderWay : s.phase.underWay = frame :: rest)
    (hrely : received = false → s.wire = []) (counted : Nat) :
    (Writer.reconnect
      { s with
        arrived := if received then s.arrived ++ s.wire ++ [frame] else s.arrived
        lost := s.lost + ((frame :: rest).map outputBytes).sum
        counted }).Whole fromUtf8 := by
  obtain ⟨_, _, _, _, hstr, hrd, hque⟩ := h.connected hcnn hdn
  rw [hunderWay] at hrd
  cases received with
  | true =>
    have hcut : s.arrived ++ s.wire ++ frame :: rest = s.arrived ++ s.wire ++ [frame] ++ rest := by
      simp
    have hzero : s.lost + ((frame :: rest).map outputBytes).sum = 0 → marks rest = [] := by
      intro hzero
      rw [hcut] at hrd
      refine marks_eq_nil hrd ?_
      rw [map_cons, sum_cons] at hzero
      omega
    rw [hcut] at hrd
    exact Writer.Whole.reconnect rfl rfl (h.takes hdn) hstr hrd hque hzero
  | false =>
    rw [hrely rfl, append_nil] at hrd
    have hzero : s.lost + ((frame :: rest).map outputBytes).sum = 0 → marks (frame :: rest) = [] :=
      fun hzero => marks_eq_nil hrd (by omega)
    exact Writer.Whole.reconnect rfl rfl (h.takes hdn) hstr hrd hque hzero

end

/-! ## One step -/

section

variable {s : Writer}

/-- A change of the outbox that takes in more outputs. -/
theorem Writer.Whole.push (h : s.Whole fromUtf8) {outbox : Outbox} {more : List Bytes}
    (hcls : outbox.closed = s.outbox.closed)
    (hpsh : s.outbox.closed = false → ∀ outputs, Queued s.outbox.items outputs →
      Queued outbox.items (outputs ++ more)) :
    Writer.Whole fromUtf8 { s with outbox, stream := s.stream ++ more } := by
  refine ⟨h.idle, fun hne => hcls.trans (h.takes hne), fun hcnn => ?_,
    fun hcnn hdn => ?_, fun hdn => (h.done hdn).append more⟩
  · obtain ⟨read, missing, queued, carry, gapped, hstr, hrd, hque, hzero⟩ := h.connecting hcnn
    have hop := h.takes (by rw [hcnn]; nofun)
    refine ⟨read, missing, queued ++ more, carry, gapped, ?_, hrd, hpsh hop _ hque, hzero⟩
    rw [hstr, append_assoc, append_assoc]
  · obtain ⟨hlost, read, queued, gapped, hstr, hrd, hque⟩ := h.connected hcnn hdn
    refine ⟨hlost, read, queued ++ more, gapped, ?_, hrd, hpsh (h.takes hdn) _ hque⟩
    rw [hstr, append_assoc]

theorem Writer.Whole.pushNone (h : s.Whole fromUtf8) {outbox : Outbox}
    (hcls : outbox.closed = s.outbox.closed)
    (hpsh : s.outbox.closed = false → ∀ outputs, Queued s.outbox.items outputs →
      Queued outbox.items outputs) : Writer.Whole fromUtf8 { s with outbox } := by
  have hno : Writer.Whole fromUtf8 { s with outbox, stream := s.stream ++ [] } :=
    h.push hcls fun hop outputs hque => by
      rw [append_nil]
      exact hpsh hop outputs hque
  rwa [append_nil] at hno

/-- A connected writer goes on to another phase, with the same frames on the wire and under way. -/
theorem Writer.Whole.goOn (hcnn : s'.phase ≠ .connecting)
    (hdn : s'.phase ≠ .done) (htks : s'.outbox.closed = false) (hlost : s'.lost = 0)
    (hstr : s'.stream = read ++ queued)
    (hrd : ReadsTo fromUtf8 read (marks (s'.arrived ++ s'.wire ++ s'.phase.underWay)) s'.carry
      gapped) (hque : Queued s'.outbox.items queued) : s'.Whole fromUtf8 :=
  ⟨fun h => absurd h hcnn, fun _ => htks, fun h => absurd h hcnn,
    fun _ _ => ⟨hlost, read, queued, gapped, hstr, hrd, hque⟩, fun h => absurd h hdn⟩

/-- The frames are sent, and the writer waits for more or ends. -/
theorem Writer.Whole.sent {ended : Bool} (htks : s.outbox.closed = false) (hlost : s.lost = 0)
    (hstr : s.stream = read ++ queued)
    (hrd : ReadsTo fromUtf8 read (marks (s.arrived ++ s.wire)) s.carry gapped)
    (hque : Queued s.outbox.items queued) : (s.sent ended).Whole fromUtf8 := by
  rw [Writer.sent]
  split_ifs
  · exact ⟨nofun, fun hne => absurd rfl hne, nofun, fun _ hne => absurd rfl hne,
      fun _ => ⟨read, queued, _, gapped, hstr, hrd⟩⟩
  · exact Writer.Whole.goOn nofun nofun htks hlost hstr
      (by rw [Phase.underWay, append_nil]; exact hrd) hque

variable (h : s.Whole fromUtf8)

include h

theorem Writer.Whole.connect (hph : s.phase = .connecting) :
    Writer.Whole fromUtf8
      { s with
        phase := .opening (openingFrames s)
        carry := if s.lost > 0 then [] else s.carry
        lost := 0 } := by
  obtain ⟨_, missing, _, _, _, hstr, hrd, hque, hzero⟩ := h.connecting hph
  have hop := h.takes (by rw [hph]; nofun)
  by_cases hlost : s.lost > 0
  · -- the gap of the opening stands for what is missing
    have hmk : marks (s.arrived ++ s.wire ++ openingFrames s) =
        marks s.arrived ++ [.gap s.lost] := by
      rw [h.idle hph, append_nil, marks_append, openingFrames, if_pos hlost]
      rfl
    have hopened := (hrd.gap hlost).leaveOut missing
    rw [← hmk] at hopened
    rw [if_pos hlost]
    exact Writer.Whole.goOn nofun nofun hop rfl (by rw [hstr, ← append_assoc]) hopened hque
  · obtain ⟨rfl, hcry⟩ := hzero (by omega)
    have hmk : marks (s.arrived ++ s.wire ++ openingFrames s) = marks s.arrived := by
      rw [h.idle hph, append_nil, marks_append, openingFrames, if_neg hlost]
      exact append_nil _
    rw [← hmk, ← hcry] at hrd
    rw [if_neg hlost]
    exact Writer.Whole.goOn nofun nofun hop rfl hstr hrd hque

theorem Writer.Whole.take (hph : s.phase = .streaming) :
    (Mirror.step fromUtf8 s .take).Whole fromUtf8 := by
  have hcnn : s.phase ≠ .connecting := by rw [hph]; nofun
  have hdn : s.phase ≠ .done := by rw [hph]; nofun
  obtain ⟨hlost, _, _, _, hstr, hrd, hque⟩ := h.connected hcnn hdn
  rw [hph, Phase.underWay, append_nil] at hrd
  obtain ⟨_, htk⟩ := hrd.take hque
  obtain ⟨hmk, hcry⟩ := marks_frames fromUtf8 s.outbox.items s.carry
  rw [← hmk, ← hcry, ← marks_append] at htk
  have hop : s.outbox.take.closed = false := h.takes hdn
  rw [Mirror.step, hph]
  dsimp only
  split_ifs with hno
  · rw [hno, append_nil] at htk
    exact Writer.Whole.sent hop hlost (by rw [hstr, append_nil]) htk Queued.nil
  · exact Writer.Whole.goOn nofun nofun hop hlost (by rw [hstr, append_nil]) htk Queued.nil

theorem Writer.Whole.send : (Mirror.step fromUtf8 s .send).Whole fromUtf8 := by
  rw [Mirror.step]
  split
  · rename_i hph
    have hdn : s.phase ≠ .done := by rw [hph]; nofun
    obtain ⟨hlost, _, _, _, hstr, hrd, hque⟩ := h.connected (by rw [hph]; nofun) hdn
    rw [hph, Phase.underWay, append_cons, append_assoc s.arrived] at hrd
    split_ifs with hrs
    · rw [hrs] at hrd
      exact Writer.Whole.goOn nofun nofun (h.takes hdn) hlost hstr hrd hque
    · exact Writer.Whole.goOn nofun nofun (h.takes hdn) hlost hstr hrd hque
  · rename_i hph
    have hdn : s.phase ≠ .done := by rw [hph]; nofun
    obtain ⟨hlost, _, _, _, hstr, hrd, hque⟩ := h.connected (by rw [hph]; nofun) hdn
    rw [hph, Phase.underWay, append_cons, append_assoc s.arrived] at hrd
    split_ifs with hrs
    · rw [hrs, append_nil] at hrd
      exact Writer.Whole.sent (h.takes hdn) hlost hstr hrd hque
    · exact Writer.Whole.goOn nofun nofun (h.takes hdn) hlost hstr hrd hque
  · exact h

theorem Writer.Whole.arrive {wire : List Message} (hwire : s.wire = frame :: wire) :
    Writer.Whole fromUtf8 { s with arrived := s.arrived ++ [frame], wire } := by
  have hsm : s.arrived ++ [frame] ++ wire = s.arrived ++ s.wire := by
    rw [hwire, append_assoc, singleton_append]
  refine ⟨fun hcnn => ?_, h.takes, fun hcnn => ?_, fun hcnn hdn => ?_,
    fun hdn => ?_⟩
  · rw [h.idle hcnn] at hwire
    cases hwire
  · rw [h.idle hcnn] at hwire
    cases hwire
  · dsimp only
    rw [hsm]
    exact h.connected hcnn hdn
  · dsimp only
    rw [hsm]
    exact h.done hdn

/-- **One step.** -/
theorem Writer.Whole.step {op : Op} (hrely : Reliable s op) :
    (Mirror.step fromUtf8 s op).Whole fromUtf8 := by
  cases op with
  | output time data =>
    exact h.push (closed_pushOutput ..) fun hop outputs hque => hque.pushOutput hop time data
  | resize time cols rows =>
    refine h.pushNone (closed_pushResize ..) fun hop outputs hque => ?_
    exact hque.pushResize hop time cols rows
  | finish => exact h.pushNone rfl fun _ _ hque => hque
  | connect =>
    rw [Mirror.step]
    split
    · rename_i hph
      exact h.connect hph
    · exact h
  | connectFails =>
    rw [Mirror.step]
    split
    · split_ifs
      · exact h.stop
      · exact h
    · exact h
  | refuse =>
    rw [Mirror.step]
    split
    · exact h.stop
    · exact h
  | send => exact h.send
  | sendFails received =>
    have hwire : received = false → s.wire = [] := by
      rintro rfl
      exact hrely
    rw [Mirror.step]
    split
    · rename_i hph
      exact h.sendFails (by rw [hph]; nofun) (by rw [hph]; nofun) (by rw [hph]; rfl) hwire _
    · rename_i hph
      exact h.sendFails (by rw [hph]; nofun) (by rw [hph]; nofun) (by rw [hph]; rfl) hwire _
    · exact h
  | take =>
    by_cases hph : s.phase = .streaming
    · exact h.take hph
    rw [Mirror.step]
    split
    · rename_i hstreaming
      exact absurd hstreaming hph
    · exact h
  | «break» =>
    rw [Mirror.step]
    split
    · rename_i hph
      have hdn : s.phase ≠ .done := by rw [hph]; nofun
      obtain ⟨_, _, _, _, hstr, hrd, hque⟩ := h.connected (by rw [hph]; nofun) hdn
      have hwire : s.wire = [] := hrely
      rw [hph, hwire, append_nil] at hrd
      exact Writer.Whole.reconnect rfl rfl (h.takes hdn) hstr hrd hque fun _ => rfl
    · exact h
  | stop =>
    rw [Mirror.step]
    split
    · exact h.stop
    · exact h.stop
    · exact h
  | arrive =>
    rw [Mirror.step]
    split
    · rename_i hwire
      exact h.arrive hwire
    · exact h

end

/-! ## Bytes counted as lost -/

theorem resumedBytes_append (first second : List Message) :
    resumedBytes (first ++ second) = resumedBytes first + resumedBytes second := by
  rw [resumedBytes, map_append, sum_append]
  rfl

theorem resumedBytes_le (messages : List Message) :
    resumedBytes messages ≤ (messages.map outputBytes).sum := by
  refine sum_le_sum fun message _ => ?_
  cases message with
  | start => exact le_rfl
  | events => exact Nat.zero_le _
  | gap _ resumed =>
    cases resumed with
    | true => exact le_rfl
    | false => exact Nat.zero_le _

variable {built : Frames}

theorem Frames.resumedBytes_flush (h : resumedBytes built.finished = 0) :
    resumedBytes built.flush.finished = 0 := by
  rw [Frames.flush]
  split_ifs
  · exact h
  rw [resumedBytes_append, h]
  rfl

theorem Frames.resumedBytes_event (h : resumedBytes built.finished = 0) (event : ShareEvent) :
    resumedBytes (built.event event).finished = 0 := by
  rw [Frames.event]
  split_ifs
  · exact Frames.resumedBytes_flush h
  · exact h

/-- The gaps of the outbox are not those that open a connection. -/
theorem resumedBytes_framesLoop (fromUtf8 : Bytes → Utf8) (items : List Item)
    (h : resumedBytes built.finished = 0) (carry : Bytes) :
    resumedBytes (framesLoop fromUtf8 items built carry).1.finished = 0 := by
  induction items generalizing built carry with
  | nil => exact Frames.resumedBytes_flush h
  | cons item _ ih =>
    cases item with
    | output =>
      rw [framesLoop]
      refine ih ?_ _
      split_ifs
      · exact h
      · exact Frames.resumedBytes_event h _
    | resize => exact ih (Frames.resumedBytes_event h _) _
    | gap =>
      rw [framesLoop]
      split_ifs
      · refine ih (Frames.resumedBytes_event ?_ _) _
        rw [Frames.gap, resumedBytes_append, Frames.resumedBytes_flush h]
        rfl
      · exact ih (Frames.resumedBytes_event h _) _

/-- Every byte that was counted as lost is reported by a gap that arrived or is on its way, or it is
still to be reported. -/
structure Writer.Accounted (s : Writer) : Prop where
  counted : s.counted ≤ resumedBytes s.arrived + s.lost + resumedBytes (s.wire ++ s.phase.underWay)
  sending : ∀ remaining ended, s.phase = .sending remaining ended → resumedBytes remaining = 0

section

variable {s : Writer}

theorem Writer.Accounted.sent
    (hcnt : s.counted ≤ resumedBytes s.arrived + s.lost + resumedBytes s.wire) (ended : Bool) :
    (s.sent ended).Accounted := by
  rw [Writer.sent]
  split_ifs
  · exact ⟨by simpa [Writer.stop, Phase.underWay] using hcnt, nofun⟩
  · exact ⟨by simpa [Phase.underWay] using hcnt, nofun⟩

/-- The writer stops while no frames are under way. -/
theorem Writer.Accounted.stop (h : s.Accounted) (hno : s.phase.underWay = []) :
    s.stop.Accounted := by
  refine ⟨?_, nofun⟩
  have hcnt := h.counted
  rw [hno] at hcnt
  exact hcnt

/-- A failed send counts what it does not report. -/
theorem Writer.Accounted.sendFails (h : s.Accounted)
    (hunderWay : s.phase.underWay = frame :: rest)
    (hrely : received = false → s.wire = []) {more : Nat}
    (hmore : more = 0 ∨ more ≤ ((frame :: rest).map outputBytes).sum ∧
      resumedBytes (frame :: rest) = 0) :
    (Writer.reconnect
      { s with
        arrived := if received then s.arrived ++ s.wire ++ [frame] else s.arrived
        lost := s.lost + ((frame :: rest).map outputBytes).sum
        counted := s.counted + more }).Accounted := by
  refine ⟨?_, nofun⟩
  have hcnt := h.counted
  have hle := resumedBytes_le (frame :: rest)
  rw [hunderWay, resumedBytes_append] at hcnt
  change s.counted + more ≤ resumedBytes (if received then _ else _) +
    (s.lost + ((frame :: rest).map outputBytes).sum) + 0
  cases received with
  | true =>
    rw [if_pos rfl, resumedBytes_append, resumedBytes_append]
    omega
  | false =>
    rw [hrely rfl] at hcnt
    change s.counted ≤ resumedBytes s.arrived + s.lost + (0 + resumedBytes (frame :: rest)) at hcnt
    rw [if_neg Bool.false_ne_true]
    omega

/-- **One step** of the account. -/
theorem Writer.Accounted.step (h : s.Accounted) {op : Op} (hrely : Reliable s op) :
    (Mirror.step fromUtf8 s op).Accounted := by
  cases op with
  | output | resize | finish => exact ⟨h.counted, h.sending⟩
  | connect =>
    rw [Mirror.step]
    split
    · rename_i hph
      refine ⟨?_, nofun⟩
      have hcnt := h.counted
      rw [hph, Phase.underWay, append_nil] at hcnt
      change s.counted ≤ resumedBytes s.arrived + 0 + resumedBytes (s.wire ++ openingFrames s)
      have hopening : resumedBytes (openingFrames s) = s.lost := by
        rw [openingFrames]
        split_ifs with hlost
        · simp [resumedBytes, Message.resumedBytes]
        simp [resumedBytes, Message.resumedBytes]
        omega
      rw [resumedBytes_append, hopening]
      omega
    · exact h
  | connectFails =>
    rw [Mirror.step]
    split
    · rename_i hph
      split_ifs
      · exact h.stop (by rw [hph]; rfl)
      · exact h
    · exact h
  | refuse =>
    rw [Mirror.step]
    split
    · rename_i hph
      exact h.stop (by rw [hph]; rfl)
    · exact h
  | send =>
    have hcnt := h.counted
    rw [Mirror.step]
    split
    · rename_i hph
      rw [hph, Phase.underWay, append_cons] at hcnt
      split_ifs with hrs
      · rw [hrs] at hcnt
        exact ⟨hcnt, nofun⟩
      · exact ⟨hcnt, nofun⟩
    · rename_i frame rest ended hph
      rw [hph, Phase.underWay, append_cons] at hcnt
      split_ifs with hrs
      · rw [hrs, append_nil] at hcnt
        exact Writer.Accounted.sent hcnt ended
      refine ⟨hcnt, fun remaining ended' heq => ?_⟩
      cases heq
      have hzero := h.sending _ _ hph
      rw [show frame :: rest = [frame] ++ rest from rfl, resumedBytes_append] at hzero
      omega
    · exact h
  | sendFails received =>
    have hwire : received = false → s.wire = [] := by
      rintro rfl
      exact hrely
    rw [Mirror.step]
    split
    · rename_i hph
      exact h.sendFails (by rw [hph]; rfl) hwire (.inl rfl)
    · rename_i hph
      exact h.sendFails (by rw [hph]; rfl) hwire (.inr ⟨le_rfl, h.sending _ _ hph⟩)
    · exact h
  | take =>
    rw [Mirror.step]
    split
    · rename_i hph
      have hcnt := h.counted
      rw [hph, Phase.underWay, append_nil] at hcnt
      dsimp only
      split_ifs with hno
      · refine Writer.Accounted.sent ?_ _
        exact hcnt
      refine ⟨?_, fun remaining ended heq => ?_⟩
      · refine le_trans hcnt ?_
        dsimp only
        rw [resumedBytes_append]
        omega
      · cases heq
        exact resumedBytes_framesLoop fromUtf8 s.outbox.items rfl s.carry
    · exact h
  | «break» =>
    rw [Mirror.step]
    split
    · rename_i hph
      refine ⟨?_, nofun⟩
      have hcnt := h.counted
      have hwire : s.wire = [] := hrely
      rw [hph, hwire] at hcnt
      exact hcnt
    · exact h
  | stop =>
    rw [Mirror.step]
    split
    · rename_i hph
      exact h.stop (by rw [hph]; rfl)
    · rename_i hph
      exact h.stop (by rw [hph]; rfl)
    · exact h
  | arrive =>
    rw [Mirror.step]
    split
    · rename_i frame wire hwire
      refine ⟨?_, h.sending⟩
      have hcnt := h.counted
      rw [hwire, cons_append, show frame :: (wire ++ s.phase.underWay) =
        [frame] ++ (wire ++ s.phase.underWay) from rfl, resumedBytes_append] at hcnt
      dsimp only
      rw [resumedBytes_append]
      omega
    · exact h

end

/-- **No silent holes.**  In every run in which connections break only when all accepted frames have
arrived: what the control plane got is read off the outputs of the terminal, in order, with a gap in
the place of what is missing; and the bytes counted as lost are in a gap that it got or that is on
its way, or are still to be reported. -/
theorem no_silent_hole (fromUtf8 : Bytes → Utf8) (cols rows : Nat) (midSession : Bool) (ops : List Op)
    (hreliable : Trace.Along (step fromUtf8) Reliable (Writer.new cols rows midSession) ops) :
    let s := Trace.run (step fromUtf8) (Writer.new cols rows midSession) ops
    Reads fromUtf8 s.stream s.arrived ∧
      s.counted ≤ resumedBytes s.arrived + s.lost + resumedBytes (s.wire ++ s.phase.underWay) := by
  intro s
  have hnew : (Writer.new cols rows midSession).Whole fromUtf8 :=
    ⟨fun _ => rfl, fun _ => rfl, fun _ => ⟨[], [], [], [], false, rfl, .start, .nil, fun _ => ⟨rfl, rfl⟩⟩,
      fun hne => absurd rfl hne, nofun⟩
  have hwhole : s.Whole fromUtf8 := hreliable.invariant (fun _ _ h hop => h.step hop) hnew
  have haccd : s.Accounted := hreliable.invariant (fun _ _ h hop => h.step hop) ⟨le_rfl, nofun⟩
  exact ⟨hwhole.reads.of_append, haccd.counted⟩

namespace Demo

/-- What `from_utf8` answers for plain characters. -/
def fromAscii (bytes : Bytes) : Utf8 :=
  .valid (String.ofList (bytes.map fun byte => Char.ofNat byte.toNat))

/-- Connect, and let the opening frame arrive. -/
def reopen : List Op := [.connect, .send, .arrive]

/-- Show an output, and let it arrive. -/
def show' (time : Nat) (byte : UInt8) : List Op := [.output time [byte], .take, .send, .arrive]

/-- A send fails, and the gap for it opens the next connection. -/
def failedSend : List Op :=
  reopen ++ show' 1 97 ++ [.output 2 [98], .take, .sendFails false] ++ reopen ++
    [.send, .arrive] ++ show' 3 99

/-- A connection breaks with an accepted frame on the wire. -/
def brokenWire : List Op :=
  reopen ++ show' 1 97 ++ [.output 2 [98], .take, .send, .break] ++ reopen ++ show' 3 99

theorem failedSend_gap :
    let s := Trace.run (step fromAscii) (Writer.new 80 24 false) failedSend
    marks s.arrived = [.output "a", .gap 1, .output "c"] ∧ Reads fromAscii s.stream s.arrived ∧
      s.counted ≤ resumedBytes s.arrived + s.lost + resumedBytes (s.wire ++ s.phase.underWay) :=
  ⟨by decide +kernel, no_silent_hole fromAscii 80 24 false failedSend (by decide +kernel)⟩

theorem brokenWire_hole :
    let s := Trace.run (step fromAscii) (Writer.new 80 24 false) brokenWire
    s.stream = [[97], [98], [99]] ∧ marks s.arrived = [.output "a", .output "c"] ∧
      ¬ Reads fromAscii s.stream s.arrived := by
  intro s
  have hstr : s.stream = [[97], [98], [99]] := by decide +kernel
  have hmk : marks s.arrived = [.output "a", .output "c"] := by decide +kernel
  refine ⟨hstr, hmk, ?_⟩
  rintro ⟨read, rest, _, _, hsp, hrd⟩
  rw [hstr] at hsp
  rw [hmk] at hrd
  -- without a gap the outputs would have to be shown in a row
  obtain ⟨-, hrow⟩ := hrd.eq_of_noGap (fun hmem => by
    have hemp : [] ∈ ([[97], [98], [99]] : List Bytes) := hsp ▸ mem_append_left rest hmem
    exact absurd hemp (by decide)) (fun bytes => by simp)
  have hinit : read ∈ ([[97], [98], [99]] : List Bytes).inits :=
    (mem_inits _ _).mpr ⟨rest, hsp.symm⟩
  have hno : ∀ read ∈ ([[97], [98], [99]] : List Bytes).inits,
      (itemMarks fromAscii (read.map (.output 0)) []).1 ≠ [.output "a", .output "c"] := by
    decide +kernel
  exact hno read hinit (congrArg Prod.fst hrow)

end Demo

end Intar.Gateway.Mirror
