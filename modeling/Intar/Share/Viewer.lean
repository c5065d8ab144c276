import Intar.Share.Protocol

/-!
# The viewer of a run share

A viewer follows a share by reading its files: the mission once, then the head again and again, and
the segments and checkpoints that the head names and that it does not hold yet.  What the files say is
folded into the model that the page shows.

`reduceShareMessage` is that model.  A batch of updates is applied one by one: the source copies the
events of a session once a batch and appends to the copy in place, which no one else sees.

`Viewer.step` is the poller.  It waits for one answer after another, and each act below is one answer
that arrives.  When it asks again is up to the caller, so timers, the backoff and the status of the link
are not here.  Heads come from a cache that may be a little behind, but never goes back.
-/

namespace Intar.Share

/-! ## The model -/

inductive ShareSessionStatus
  | live
  | detached
  | ended
  deriving DecidableEq

structure ShareGrid where
  (cols rows : ℕ)
  deriving DecidableEq

/-- `SHARE_MAX_CELLS`. -/
def shareMaxCells : ℕ := 1000

def clampShareGrid (cols rows : ℕ) : ShareGrid :=
  ⟨min (max cols 2) shareMaxCells, min (max rows 1) shareMaxCells⟩

def parseShareResize (data : String) : Option ShareGrid :=
  (parseGrid 6 data).map fun size => clampShareGrid size.1 size.2

structure ShareSession where
  id : SessionId
  vmId : VmId
  mode : TerminalSessionMode
  (cols rows atMs : ℕ)
  midSession : Bool
  events : List ShareEvent := []
  status : ShareSessionStatus := .live
  gapBytes : ℕ := 0
  deriving DecidableEq

/-- The grid after the last resize in the log, else the one it began with. -/
def currentShareGrid (session : ShareSession) : ShareGrid :=
  (session.events.reverse.findSome? fun event =>
    if event.code = .resize then parseShareResize event.data else none).getD
      ⟨session.cols, session.rows⟩

structure SharedRunState where
  mission : Option String := none
  generation : Option ℕ := none
  sessions : List ShareSession := []
  truncated : Bool := false
  /-- The number of the last message applied. -/
  seq : Option ℕ := none
  deriving DecidableEq

/-- What the model is told.  A message of a file has its number. -/
inductive ShareUpdate
  | mission (text : String)
  | generation (generation : ℕ)
  | message (seq : Option ℕ) (message : Message)
  deriving DecidableEq

def ShareUpdate.stored (row : StoredMessage) : ShareUpdate := .message (some row.seq) row.message

namespace SharedRunState

variable (state : SharedRunState)

def updateSession (id : SessionId) (update : ShareSession → ShareSession) : SharedRunState :=
  match state.sessions.findIdx? fun session => session.id = id with
  | none => state
  | some index => { state with sessions := state.sessions.modify index update }

def startSession (session : SessionId) (vmId : VmId) (mode : TerminalSessionMode)
    (cols rows atMs : ℕ) (midSession : Bool) : SharedRunState :=
  let grid := clampShareGrid cols rows
  if state.sessions.any fun known => known.id = session then
    state.updateSession session fun known =>
      if currentShareGrid known = grid then { known with status := .live }
      else
        { known with
          status := .live
          events := known.events ++
            [⟨(known.events.getLast?.map (·.atMs)).getD 0, .resize, s!"{grid.cols}x{grid.rows}"⟩] }
  else
    { state with sessions := state.sessions ++
        [{ id := session, vmId, mode, cols := grid.cols, rows := grid.rows, atMs, midSession }] }

def applyStored : Message → SharedRunState
  | .start session vmId mode cols rows atMs midSession _ =>
    state.startSession session vmId mode cols rows atMs midSession
  | .events session list =>
    if list = [] then state
    else state.updateSession session fun known => { known with events := known.events ++ list }
  | .gap session bytes =>
    state.updateSession session fun known => { known with gapBytes := known.gapBytes + bytes }
  | .ended session => state.updateSession session ({ · with status := .ended })
  | .detach session =>
    state.updateSession session fun known =>
      if known.status = .ended then known else { known with status := .detached }
  | .truncated => { state with truncated := true }

end SharedRunState

def reduceShareMessage (state : SharedRunState) : ShareUpdate → SharedRunState
  | .mission text => { state with mission := some text }
  | .generation generation =>
    if state.generation = some generation then state
    else
      { state with
        generation := some generation, sessions := [], truncated := false, seq := none }
  | .message none message => state.applyStored message
  | .message (some seq) message =>
    -- a message that does not come in order is already here
    if state.seq.any (seq ≤ ·) then state
    else { state.applyStored message with seq := some seq }

def applyShareMessages (state : SharedRunState) (messages : List ShareUpdate) : SharedRunState :=
  messages.foldl reduceShareMessage state

/-! ## The fetch plan -/

/-- One file to read, and the newest segment the messages in it reach. -/
structure ShareFetch where
  path : Path
  through : ℕ
  deriving DecidableEq

def segmentFetches (generation first last : ℕ) : List ShareFetch :=
  (List.range' first (last + 1 - first)).map fun segment => ⟨.segment generation segment, segment⟩

def checkpointFetches (generation first last : ℕ) : List ShareFetch :=
  (List.range' first (last + 1 - first)).map fun checkpoint =>
    ⟨.checkpoint generation checkpoint, checkpoint * checkpointSegments⟩

/-- The files that bring a viewer who holds the segments up to `applied` up to the head: segments up to
the next checkpoint's start, then whole checkpoints, then the segments after the last of them. -/
def shareFetchPlan (generation applied : ℕ) (head : ShareHead) : List ShareFetch :=
  let complete := min head.checkpoint (head.segment / checkpointSegments)
  -- the first checkpoint that starts after everything the viewer holds
  let first := (applied + (checkpointSegments - 1)) / checkpointSegments + 1
  if complete < first then segmentFetches generation (applied + 1) head.segment
  else
    segmentFetches generation (applied + 1) ((first - 1) * checkpointSegments) ++
      (checkpointFetches generation first complete ++
        segmentFetches generation (complete * checkpointSegments + 1) head.segment)

/-! ## The poller -/

/-- `SHARE_SEGMENT_PARALLELISM`. -/
def shareSegmentParallelism : ℕ := 4

inductive Answer
  | messages (list : List StoredMessage)
  | gone
  deriving DecidableEq

/-- A file of the plan, and what it answered if it did. -/
structure Asked where
  fetch : ShareFetch
  answer : Option Answer := none
  deriving DecidableEq

/-- The file is read.  Segments and checkpoints are never anything but lines. -/
def Asked.ask (bucket : Path → Option File) (asked : Asked) : Asked :=
  if asked.answer.isSome then asked
  else
    { asked with answer := some (match bucket asked.fetch.path with
        | some (.lines list) => .messages list
        | _ => .gone) }

/-- Where `read` stands. -/
inductive Round
  | idle
  /-- The head is read, the mission is not. -/
  | mission (head : ShareHead)
  | delivering (head : ShareHead) (looks : ℕ) (files : List Asked)
  deriving DecidableEq

/-- The variables of the poller, and the model.  Two components are no variables of it: `seen` is the
position of the newest head it has read among all that were published, and `reached` is the head that
`onHead` was called with last, if no file was delivered since. -/
structure Viewer where
  model : SharedRunState := {}
  loaded : Bool := false
  generation : ℕ := 0
  announced : Bool := false
  applied : ℕ := 0
  round : Round := .idle
  seen : ℕ := 0
  reached : Option ShareHead := none
  deriving DecidableEq

inductive ViewerAct
  /-- A round begins, and its head is there. -/
  | look (index : ℕ)
  | mission
  /-- A file that was asked for is there. -/
  | fetch (index : ℕ)
  | deliver
  /-- A file was gone, and the head is read again. -/
  | lookAgain (index : ℕ)
  /-- A read failed. -/
  | fail
  deriving DecidableEq

namespace Viewer

variable (v : Viewer)

def say (updates : List ShareUpdate) : Viewer :=
  { v with model := applyShareMessages v.model updates }

def announce : Viewer :=
  if v.announced then v else { v with announced := true }.say [.generation v.generation]

/-- `read` after its loop. -/
def finish (head : ShareHead) : Viewer :=
  { v.announce with round := .idle, reached := some head }

/-- `deliver` at its next file, or at its end. -/
def deliver (head : ShareHead) (looks : ℕ) (files : List Asked) : Viewer :=
  if files = [] then v.finish head else { v with round := .delivering head looks files }

/-- A generation that is new is read from its first segment. -/
def enter (generation : ℕ) : Viewer :=
  if generation = v.generation then v
  else { v with generation, applied := 0, announced := false }

/-- The body of the loop of `read`, up to its first answer. -/
def follow (head : ShareHead) (looks : ℕ) : Viewer :=
  let v := v.enter head.generation
  v.deliver head looks ((shareFetchPlan v.generation v.applied head).map (⟨·, none⟩))

/-- The heads that a viewer may read: none that is older than one it has seen. -/
def readHead (heads : List ShareHead) (index : ℕ) : Option ShareHead :=
  if v.seen ≤ index then heads[index]? else none

def look (heads : List ShareHead) (index : ℕ) : Viewer :=
  match v.round, v.readHead heads index with
  | .idle, some head =>
    if v.loaded then { v with seen := index }.follow head 1
    else { v with seen := index, round := .mission head }
  | _, _ => v

def readMission (bucket : Path → Option File) : Viewer :=
  match v.round, bucket .mission with
  | .mission head, some (.mission text) =>
    ({ v with loaded := true }.say [.mission text]).follow head 1
  | .mission _, _ => { v with round := .idle }
  | _, _ => v

def fetch (bucket : Path → Option File) (index : ℕ) : Viewer :=
  match v.round with
  | .delivering head looks files =>
    if index < shareSegmentParallelism then
      { v with round := .delivering head looks (files.modify index (·.ask bucket)) }
    else v
  | _ => v

def deliverNext : Viewer :=
  match v.round with
  | .delivering head looks (⟨fetch, some (.messages list)⟩ :: files) =>
    { v.announce.say (list.map .stored) with applied := fetch.through, reached := none }.deliver head
      looks files
  | _ => v

def lookAgain (heads : List ShareHead) (index : ℕ) : Viewer :=
  match v.round with
  | .delivering head looks (⟨_, some .gone⟩ :: _) =>
    if looks < 3 then
      match v.readHead heads index with
      | none => v
      | some next =>
        if next.generation = head.generation then { v with seen := index, round := .idle }
        else { v with seen := index }.follow next (looks + 1)
    else { v with round := .idle }
  | _ => v

def step (heads : List ShareHead) (bucket : Path → Option File) : ViewerAct → Viewer
  | .look index => v.look heads index
  | .mission => v.readMission bucket
  | .fetch index => v.fetch bucket index
  | .deliver => v.deliverNext
  | .lookAgain index => v.lookAgain heads index
  | .fail => { v with round := .idle }

end Viewer

end Intar.Share
