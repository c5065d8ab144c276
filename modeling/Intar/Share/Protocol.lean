import Mathlib

/-!
# The messages and files of a run share

A public share is a log of messages that is published as files: immutable segments of the log,
checkpoints that repeat sixty segments each, and a head that says how far they reach.  This file has
the messages, the files, the frames a producer sends, and the archived recordings a share may be rebuilt
from.

A stored message stands for the line of JSON it is written as, and a file of messages for its lines:
`JSON.stringify` escapes every line break, so joining such lines and splitting them again gives the
lines back.  Lengths of texts count characters.  The times of a recording are exact rationals, where
the source adds up doubles.
-/

namespace Intar.Share

abbrev SessionId := String
abbrev VmId := String

/-! ## Messages -/

inductive TerminalSessionMode
  | browser
  | native
  deriving DecidableEq

/-- The codes `"o"` and `"r"`. -/
inductive EventCode
  | output
  | resize
  deriving DecidableEq

structure ShareEvent where
  atMs : ℕ
  code : EventCode
  data : String
  deriving DecidableEq

/-- `ShareViewerMessage` without its number. -/
inductive Message
  | start (session : SessionId) (vmId : VmId) (mode : TerminalSessionMode) (cols rows atMs : ℕ)
    (midSession resumed : Bool)
  | events (session : SessionId) (events : List ShareEvent)
  | gap (session : SessionId) (bytes : ℕ)
  /-- The terminal ended. -/
  | ended (session : SessionId)
  /-- The writer dropped, and may resume. -/
  | detach (session : SessionId)
  /-- Output past the storage cap is not published. -/
  | truncated
  deriving DecidableEq

def Message.session : Message → Option SessionId
  | start session _ _ _ _ _ _ _ | events session _ | gap session _ | ended session
  | detach session => some session
  | truncated => none

/-- A message with its number, as a line of a segment holds it. -/
structure StoredMessage where
  seq : ℕ
  message : Message
  deriving DecidableEq

/-! ## Files -/

structure ShareHead where
  (generation segment checkpoint seq : ℕ)
  (truncated recorded : Bool)
  deriving DecidableEq

/-- `SHARE_CHECKPOINT_SEGMENTS`. -/
def checkpointSegments : ℕ := 60

/-- The names of the files of one share. -/
inductive Path
  | mission
  | head
  | segment (generation segment : ℕ)
  | checkpoint (generation checkpoint : ℕ)
  deriving DecidableEq

inductive File
  | mission (text : String)
  | head (head : ShareHead)
  | lines (messages : List StoredMessage)
  deriving DecidableEq

/-! ## Frames of a producer -/

def maxCols : ℕ := 500
def maxRows : ℕ := 200

/-- `Number.MAX_SAFE_INTEGER`. -/
def maxSafeInteger : ℕ := 2 ^ 53 - 1

def isCount (value : ℕ) : Bool := value ≤ maxSafeInteger

def clamp (value bound : ℕ) : ℕ := min (max value 1) bound

def digitsValue (digits : List Char) : ℕ :=
  digits.foldl (fun value digit => 10 * value + (digit.toNat - '0'.toNat)) 0

/-- What `/^(\d{1,n})x(\d{1,n})$/` captures. -/
def parseGrid (n : ℕ) (data : String) : Option (ℕ × ℕ) :=
  let cols := data.toList.takeWhile Char.isDigit
  match data.toList.drop cols.length with
  | 'x' :: rows =>
    if 1 ≤ cols.length ∧ cols.length ≤ n ∧ 1 ≤ rows.length ∧ rows.length ≤ n ∧
        rows.all Char.isDigit then
      some (digitsValue cols, digitsValue rows)
    else none
  | _ => none

/-- An event as a producer or a recording has it. -/
structure RawEvent where
  atMs : ℕ
  (code data : String)
  deriving DecidableEq

def normalizeEvent (event : RawEvent) : Option ShareEvent :=
  if isCount event.atMs = false then none
  else if event.code = "o" then some ⟨event.atMs, .output, event.data⟩
  else if event.code ≠ "r" then none
  else
    (parseGrid 5 event.data).map fun size =>
      ⟨event.atMs, .resize, s!"{clamp size.1 maxCols}x{clamp size.2 maxRows}"⟩

/-- A frame that is an object with fields of the right types.  The source closes the socket on any
other. -/
inductive Frame
  | start (session : SessionId) (vmId : VmId) (mode : TerminalSessionMode) (cols rows atMs : ℕ)
    (midSession : Bool)
  | gap (bytes : ℕ)
  | events (events : List RawEvent)
  deriving DecidableEq

def isAlphanumeric (c : Char) : Bool := c.isDigit || c.isLower || c.isUpper

/-- `SESSION_ID`. -/
def validSessionId (id : SessionId) : Bool :=
  1 ≤ id.toList.length && id.toList.length ≤ 64 && id.toList.all fun c => isAlphanumeric c || c == '-'

/-- `VM_ID`. -/
def validVmId (id : VmId) : Bool :=
  1 ≤ id.toList.length && id.toList.length ≤ 128 &&
    id.toList.all fun c => isAlphanumeric c || c == '.' || c == '_' || c == '-'

/-! ## Recordings -/

/-- One archived recording of a VM, as the archive reported it. -/
structure ShareRecordingInput where
  (startMs durationMs : ℕ)
  castKey : String
  deriving DecidableEq

/-- A row of the table of the sessions.  The two flags are the bits of `incomplete`: the live capture
has a gap, or the size cap cut it off. -/
structure LiveSession where
  id : SessionId
  vmId : VmId
  mode : TerminalSessionMode
  atMs : ℕ
  midSession : Bool
  gap : Bool := false
  truncated : Bool := false
  deriving DecidableEq

def LiveSession.incomplete (session : LiveSession) : Bool := session.gap || session.truncated

structure CastEvent where
  interval : ℚ
  (code data : String)
  deriving DecidableEq

/-- The text of a recording, read line by line.  Without a header of version 3 there is no size, and a
line that is no event stands as `none`. -/
structure Cast where
  term : Option (ℕ × ℕ)
  events : List (Option CastEvent)
  deriving DecidableEq

/-- `Math.round` of what is not negative. -/
def roundMs (ms : ℚ) : ℕ := ⌊ms + 1 / 2⌋₊

def flushBatch (session : SessionId) (batch : List ShareEvent) : List Message :=
  if batch = [] then [] else [.events session batch]

/-- The loop of `castMessages` over the lines after the header. -/
def castEvents (session : SessionId) (atMs : ℚ) (batch : List ShareEvent) (batchBytes : ℕ) :
    List (Option CastEvent) → Option (List Message)
  | [] => some (flushBatch session batch)
  | none :: _ => none
  | some event :: rest =>
    if event.interval < 0 then none
    else
      let atMs := atMs + event.interval * 1000
      if event.code ≠ "o" ∧ event.code ≠ "r" then castEvents session atMs batch batchBytes rest
      else
        match normalizeEvent ⟨roundMs atMs, event.code, event.data⟩ with
        | none => castEvents session atMs batch batchBytes rest
        | some normalized =>
          let batch := batch ++ [normalized]
          let batchBytes := batchBytes + event.data.toList.length + 32
          if 32 * 1024 ≤ batchBytes then
            (castEvents session atMs [] 0 rest).map (flushBatch session batch ++ ·)
          else castEvents session atMs batch batchBytes rest

def castMessages (cast : Cast) (session : LiveSession) : Option (List Message) :=
  match cast.term with
  | none => none
  | some (cols, rows) =>
    (castEvents session.id 0 [] 0 cast.events).map fun messages =>
      .start session.id session.vmId session.mode (clamp cols maxCols) (clamp rows maxRows)
        session.atMs false false :: (messages ++ [.ended session.id])

/-! ### Is a recording the one of a session? -/

def recordingLateMs : ℕ := 30000
def recordingEarlyMs : ℕ := 5000
def minVerifiedOutput : ℕ := 64
def maxVerifiedOutput : ℕ := 16 * 1024

/-- The output without its replacement characters. -/
def comparableOutput (output : List Char) : List Char := output.filter fun c => c.toNat ≠ 0xFFFD

/-- The data of the output events of a message. -/
def Message.output : Message → List (List Char)
  | .events _ list => (list.filter fun event => event.code = .output).map (·.data.toList)
  | _ => []

/-- `sharedOutputBeforeHole`, of the messages of the session. -/
def outputBeforeHole (output : List Char) : List Message → List Char
  | [] => output.take maxVerifiedOutput
  | .gap _ _ :: _ => output.take maxVerifiedOutput
  | .events session list :: rest =>
    let output := output ++ (Message.events session list).output.flatten
    if maxVerifiedOutput ≤ output.length then output.take maxVerifiedOutput
    else outputBeforeHole output rest
  | _ :: rest => outputBeforeHole output rest

/-- The pieces of output, one after another until the text has `length` characters. -/
def takeOutput (length : ℕ) (output : List Char) : List (List Char) → List Char
  | [] => output
  | piece :: rest =>
    let output := output ++ comparableOutput piece
    if length ≤ output.length then output else takeOutput length output rest

def recordedOutput (messages : List Message) (length : ℕ) : List Char :=
  takeOutput length [] (messages.flatMap Message.output)

def sharedMatchesRecording (shared recording : List Char) : Bool :=
  let opening := recording.take minVerifiedOutput
  if opening.length < minVerifiedOutput then false
  else
    match shared.tails.find? fun overlap => opening.isPrefixOf overlap with
    | none => false
    | some overlap => minVerifiedOutput ≤ overlap.length && overlap.isPrefixOf recording

end Intar.Share
