import Intar.Lib.Trace
import Intar.Share.Protocol

/-!
# The Durable Object of a run share

The object keeps the log of a share in its storage and publishes it to a bucket.  Its storage calls
are atomic, and nothing else is delivered to it while it waits for one.  It does wait for the bucket
while other requests, frames and alarms are delivered, so every handler that uses the bucket is a
process here that stands at one of its awaits, and a step of the system takes one process to its next
await.

A put in flight takes effect when it `landed`, which may be any time before it settles.  A put that
settles well has landed; one that reports an error may have landed all the same.  Listing and deleting
files is taken to be complete.  Alarms do not overlap, and one may come at any time.

Two components of the state are no part of the system: `heads` are all heads that ever reached the
bucket, in order, and `history` is every message that was ever stored.
-/

namespace Intar.Share

/-! ## Caps -/

def maxLogBytes : ℕ := 16 * 1024 * 1024
def segmentBytes : ℕ := 256 * 1024
def maxCastBytes : ℕ := 8 * 1024 * 1024
def maxRecordingBytes : ℕ := 32 * 1024 * 1024

/-! ## The storage -/

/-- The archived recordings of a VM, and whether it finished archiving. -/
structure VmRecordings where
  vmId : VmId
  sessions : List ShareRecordingInput := []
  done : Bool := false
  deriving DecidableEq

/-- The tables.  `shared` says that the share has its id and `mission` that it was set up; a
number that is not stored reads as its default. -/
structure Store where
  shared : Bool := false
  mission : Bool := false
  stopped : Bool := false
  recordingDue : Bool := false
  recorded : Bool := false
  generation : ℕ := 1
  segment : ℕ := 0
  flushedSeq : ℕ := 0
  checkpoint : ℕ := 0
  checkpointSeq : ℕ := 0
  seq : ℕ := 0
  total : ℕ := 0
  truncated : Bool := false
  log : List StoredMessage := []
  sessions : List LiveSession := []
  recordings : List VmRecordings := []
  deriving DecidableEq

namespace Store

variable (s : Store)

/-- Shared and not stopped. -/
def live : Bool := s.mission && !s.stopped

/-- What `putFile` asks before and after a put. -/
def writable : Bool := s.shared && !s.stopped

/-- The messages of a session, in order. -/
def capture (session : SessionId) : List Message :=
  (s.log.map (·.message)).filter fun message => message.session = some session

/-- `markIncomplete`. -/
def markIncomplete (session : SessionId) (reason : LiveSession → LiveSession) : Store :=
  { s with sessions := s.sessions.map fun row => if row.id = session then reason row else row }

def store (message : Message) (total : ℕ) : Store :=
  { s with log := s.log ++ [⟨s.seq + 1, message⟩], seq := s.seq + 1, total }

/-- `append`.  The length is that of the line a message is stored as. -/
def append (length : StoredMessage → ℕ) (message : Message) : Store :=
  if s.live = false ∨ s.recorded = true then s
  else
    let total := s.total + length ⟨s.seq + 1, message⟩
    match message with
    | .events session _ =>
      if s.truncated then s.markIncomplete session ({ · with truncated := true })
      else if maxLogBytes < total then
        ({ s with truncated := true }.markIncomplete session ({ · with truncated := true })).store
          .truncated total
      else s.store message total
    | .gap session _ => (s.markIncomplete session ({ · with gap := true })).store message total
    | _ => s.store message total

/-- `toViewerMessage`, for a socket with this attachment: the message, and the storage, in which a
session may be new. -/
def toViewerMessage (attachment : Option SessionId) : Frame → Option (Message × Store)
  | .start session vmId mode cols rows atMs midSession =>
    if validSessionId session = false ∨ validVmId vmId = false ∨ isCount cols = false ∨
        isCount rows = false ∨ isCount atMs = false then none
    else if attachment ≠ none ∧ attachment ≠ some session then none
    else
      let known := s.sessions.any fun row => row.id = session
      some (.start session vmId mode (clamp cols maxCols) (clamp rows maxRows) atMs midSession known,
        if known then s
        else { s with sessions := s.sessions ++ [⟨session, vmId, mode, atMs, midSession, false, false⟩] })
  | .gap bytes =>
    match attachment with
    | none => none
    | some session => if isCount bytes then some (.gap session bytes, s) else none
  | .events raw =>
    match attachment with
    | none => none
    | some session => (raw.mapM normalizeEvent).map fun list => (.events session list, s)

end Store

/-! ## Processes -/

structure Put where
  path : Path
  file : File
  landed : Bool := false
  deriving DecidableEq

/-- What `putFile` waits for: the put, or the delete of a put that lost against a stop. -/
inductive Await
  | put (put : Put)
  | delete (path : Path)
  deriving DecidableEq

/-- What `flushLive` has read: the new messages, the first of them apart, and their segment. -/
structure Flush where
  first : StoredMessage
  rest : List StoredMessage
  segment : ℕ
  deriving DecidableEq

namespace Flush

def rows (flush : Flush) : List StoredMessage := flush.first :: flush.rest

/-- `last.seq`. -/
def lastSeq (flush : Flush) : ℕ := (flush.rows.getLast (List.cons_ne_nil _ _)).seq

end Flush

/-- The one recording that matched so far. -/
structure Winner where
  key : String
  size : ℕ
  messages : List Message
  deriving DecidableEq

/-- `verifiedRecording` before its next candidate. -/
structure Verifying where
  session : LiveSession
  shared : List Char
  candidates : List ShareRecordingInput
  winner : Option Winner
  deriving DecidableEq

/-- The variables of `publishRecording`.  `pending` is what is left to emit of the session at hand.
`began` is no variable of it: the number of the last message stored when it began. -/
structure Rebuild where
  generation : ℕ
  recordings : List VmRecordings
  sessions : List LiveSession
  pending : List Message := []
  seq : ℕ := 0
  segment : ℕ := 0
  chunk : List StoredMessage := []
  chunkBytes : ℕ := 0
  truncated : Bool := false
  budget : ℕ := maxRecordingBytes
  used : List String := []
  began : ℕ
  deriving DecidableEq

/-- The publish of an alarm, at one of its awaits or, while it rebuilds, between two. -/
inductive Work
  | segment (flush : Flush) (await : Await)
  | checkpoint (flush : Flush) (checkpoint : ℕ) (await : Await)
  | head (flush : Flush) (checkpoint : ℕ) (await : Await)
  | rebuilding (rebuild : Rebuild)
  | verifying (rebuild : Rebuild) (verifying : Verifying)
  | writing (rebuild : Rebuild) (await : Await)
  | finishing (rebuild : Rebuild) (await : Await)
  | sweeping (rebuild : Rebuild)
  deriving DecidableEq

/-- `init`, at its first or its second put. -/
structure Init where
  atHead : Bool
  await : Await
  deriving DecidableEq

/-- `wipe`: it waits for the publish in flight, and then deletes the files it has listed. -/
inductive Wipe
  | waiting (shared : Bool)
  | deleting (listed : Path → Bool)

/-- A request that found the share live and waits for its body. -/
inductive Request
  | recording (vmId : VmId) (sessions : List ShareRecordingInput)
  | vmComplete (vmId : VmId)
  deriving DecidableEq

structure State where
  store : Store := {}
  bucket : Path → Option File := fun _ => none
  /-- What each socket is attached to. -/
  attachments : ℕ → Option SessionId := fun _ => none
  work : Option Work := none
  inits : List Init := []
  wipes : List Wipe := []
  requests : List Request := []
  wiped : Bool := false
  heads : List ShareHead := []
  history : List StoredMessage := []

/-! ## Puts -/

/-- How an await ends. -/
inductive Settled
  /-- The file is there to stay. -/
  | resumed
  | waiting (await : Await)
  | threw
  /-- The file is deleted again, and then it throws. -/
  | deleted (path : Path)
  deriving DecidableEq

/-- `putFile` after its await, which ended well or with an error. -/
def Await.settle (s : Store) (ok : Bool) : Await → Settled
  | .put p =>
    if ok = false then .threw
    else if p.landed = false then .waiting (.put p)
    else if s.writable then .resumed
    else .waiting (.delete p.path)
  | .delete path => .deleted path

/-- The put of an await that has yet to land, and the await once it has. -/
def Await.land : Await → Option (Put × Await)
  | .put p => if p.landed then none else some (p, .put { p with landed := true })
  | .delete _ => none

namespace State

variable (s : State)

/-- A put takes effect. -/
def putObject (put : Put) : State :=
  { s with
    bucket := Function.update s.bucket put.path (some put.file)
    heads := match put.file with
      | .head head => s.heads ++ [head]
      | _ => s.heads }

def deleteObject (path : Path) : State := { s with bucket := Function.update s.bucket path none }

/-! ## The publish of an alarm -/

/-- The publish calls `putFile`, which throws when the share is stopped. -/
def issue (work : Await → Work) (path : Path) (file : File) : State :=
  { s with work := if s.store.writable then some (work (.put ⟨path, file, false⟩)) else none }

/-- `flushLive` up to its first await. -/
def flushLive : State :=
  if s.store.recorded then s
  else
    match s.store.log.filter fun row => s.store.flushedSeq < row.seq with
    | [] => s
    | first :: rest =>
      let flush : Flush := ⟨first, rest, s.store.segment + 1⟩
      s.issue (.segment flush) (.segment 1 flush.segment) (.lines flush.rows)

def flushHead (flush : Flush) (checkpoint : ℕ) : State :=
  s.issue (.head flush checkpoint) .head (.head
    { generation := 1, segment := flush.segment, checkpoint, seq := flush.lastSeq,
      truncated := s.store.truncated, recorded := false })

/-- `flushLive` after the put of the segment. -/
def flushCheckpoint (flush : Flush) : State :=
  if flush.segment % checkpointSegments = 0 then
    let checkpoint := s.store.checkpoint + 1
    s.issue (.checkpoint flush checkpoint) (.checkpoint 1 checkpoint) (.lines
      (s.store.log.filter fun row => s.store.checkpointSeq < row.seq ∧ row.seq ≤ flush.lastSeq))
  else s.flushHead flush s.store.checkpoint

/-- `flushLive` after the put of the head. -/
def flushDone (flush : Flush) (checkpoint : ℕ) : State :=
  let complete := flush.segment % checkpointSegments = 0
  { s with
    work := none
    store := { s.store with
      segment := flush.segment
      flushedSeq := flush.lastSeq
      checkpoint := if complete then checkpoint else s.store.checkpoint
      checkpointSeq := if complete then flush.lastSeq else s.store.checkpointSeq } }

/-- `publishRecording` up to its loop. -/
def publishRecording : State :=
  { s with work := some (.rebuilding
    { generation := s.store.generation + 1
      recordings := s.store.recordings
      sessions := s.store.sessions.mergeSort fun x y =>
        x.atMs < y.atMs || (x.atMs == y.atMs && x.id ≤ y.id)
      began := s.store.seq }) }

def publish : State :=
  if s.store.live = false then s
  else if s.store.recordingDue then s.publishRecording
  else s.flushLive

end State

/-! ## The rebuild -/

namespace Rebuild

variable (r : Rebuild) (s : Store)

/-- The live capture of a session, closed. -/
def capture (session : LiveSession) : Rebuild :=
  let messages := s.capture session.id
  { r with
    truncated := r.truncated || session.truncated
    pending := messages.filter (fun message => message ≠ .detach session.id) ++
      if messages.contains (.ended session.id) then [] else [.ended session.id] }

/-- `verifiedRecording` up to its loop. -/
def verify (session : LiveSession) : Verifying :=
  { session
    shared := comparableOutput (outputBeforeHole [] (s.capture session.id))
    candidates := ((r.recordings.find? fun vm => vm.vmId = session.vmId).map (·.sessions)).getD []
      |>.filter fun candidate => candidate.castKey ∉ r.used ∧
        session.atMs ≤ candidate.startMs + recordingEarlyMs ∧
        candidate.startMs ≤ session.atMs + recordingLateMs
    winner := none }

/-- The session is replaced by its recording. -/
def replace (winner : Winner) : Rebuild :=
  { r with
    budget := r.budget - winner.size
    used := r.used ++ [winner.key]
    pending := winner.messages }

end Rebuild

/-- An archived recording as the bucket of the artifacts has it. -/
structure Artifact where
  size : ℕ
  cast : Cast
  deriving DecidableEq

namespace State

variable (s : State) (length : StoredMessage → ℕ)

/-- `publishRecording` goes on: it emits the next message, or turns to the next session, or is through
with all of them. -/
def rebuild (r : Rebuild) : State :=
  match r.pending, r.sessions with
  | message :: pending, _ =>
    let stored : StoredMessage := ⟨r.seq + 1, message⟩
    if segmentBytes < r.chunkBytes + length stored ∧ r.chunk ≠ [] then
      s.issue (.writing r) (.segment r.generation (r.segment + 1)) (.lines r.chunk)
    else
      { s with work := some (.rebuilding { r with
          pending, seq := r.seq + 1, chunk := r.chunk ++ [stored]
          chunkBytes := r.chunkBytes + length stored + 1 }) }
  | [], session :: sessions =>
    let r := { r with sessions }
    let verifying := r.verify s.store session
    if session.incomplete ∧ session.midSession = false ∧
        minVerifiedOutput ≤ verifying.shared.length then
      { s with work := some (.verifying r verifying) }
    else { s with work := some (.rebuilding (r.capture s.store session)) }
  | [], [] =>
    if r.chunk ≠ [] then
      s.issue (.writing r) (.segment r.generation (r.segment + 1)) (.lines r.chunk)
    else
      s.issue (.finishing r) .head (.head
        { generation := r.generation, segment := r.segment, checkpoint := 0, seq := r.seq,
          truncated := r.truncated, recorded := true })

/-- `verifiedRecording` with the object of its next candidate, or at its end. -/
def verify (r : Rebuild) (v : Verifying) (artifact : Option Artifact) : State :=
  let keepCapture := { s with work := some (.rebuilding (r.capture s.store v.session)) }
  match v.candidates, artifact with
  | [], _ =>
    match v.winner with
    | some winner => { s with work := some (.rebuilding (r.replace winner)) }
    | none => keepCapture
  | _ :: _, none => keepCapture
  | candidate :: candidates, some object =>
    if maxCastBytes < object.size ∨ r.budget < object.size then keepCapture
    else
      match castMessages object.cast v.session with
      | none => keepCapture
      | some messages =>
        if sharedMatchesRecording v.shared (recordedOutput messages v.shared.length) = false then
          { s with work := some (.verifying r { v with candidates }) }
        else if v.winner.isSome then keepCapture
        else
          { s with work := some (.verifying r { v with
              candidates
              winner := some ⟨candidate.castKey, object.size, messages⟩ }) }

/-- The files of a generation are deleted, viewers are on the next. -/
def sweep (r : Rebuild) : State :=
  { s with
    work := none
    bucket := fun path =>
      match path with
      | .segment generation _ | .checkpoint generation _ =>
        if generation + 1 = r.generation ∧ s.store.shared then none else s.bucket path
      | _ => s.bucket path
    store := { s.store with
      generation := r.generation, segment := r.segment, recorded := true, recordingDue := false
      log := [] } }

end State

/-! ## What the publish waits for -/

namespace Work

def await : Work → Option Await
  | segment _ a | checkpoint _ _ a | head _ _ a | writing _ a | finishing _ a => some a
  | rebuilding _ | verifying _ _ | sweeping _ => none

def setAwait (a : Await) : Work → Work
  | segment flush _ => segment flush a
  | checkpoint flush number _ => checkpoint flush number a
  | head flush number _ => head flush number a
  | writing r _ => writing r a
  | finishing r _ => finishing r a
  | work => work

/-- The publish after a put that is there to stay. -/
def resume (s : State) : Work → State
  | segment flush _ => s.flushCheckpoint flush
  | checkpoint flush number _ => s.flushHead flush number
  | head flush number _ => s.flushDone flush number
  | writing r _ =>
    { s with work := some (.rebuilding { r with
        segment := r.segment + 1, chunk := [], chunkBytes := 0 }) }
  | finishing r _ => { s with work := some (.sweeping r) }
  | _ => s

end Work

/-! ## The system -/

inductive Act
  /-- A frame of a producer. -/
  | receive (socket : ℕ) (frame : Frame)
  /-- A socket is gone.  Another may have resumed its session, and a closed socket may keep its
  attachment. -/
  | gone (socket : ℕ) (ended resumed cleared : Bool)
  | alarm
  /-- The put of the publish takes effect. -/
  | land
  /-- What the publish waits for ends, well or with an error. -/
  | settle (ok : Bool)
  /-- The rebuild goes on, with the object it read if it waited for one. -/
  | proceed (artifact : Option Artifact)
  | request (request : Request)
  /-- The body of a request is there. -/
  | body (index : ℕ)
  | init (mission : String)
  | initLand (index : ℕ)
  | initSettle (index : ℕ) (ok : Bool)
  | wipe
  /-- The wipe goes on; deleting the files may fail. -/
  | wipeProceed (index : ℕ) (ok : Bool)
  /-- The object restarts: what it was doing is lost. -/
  | restart

namespace State

variable (s : State) (length : StoredMessage → ℕ)

/-- `append`, which a message that is stored enters the history with. -/
def append (message : Message) : State :=
  let store := s.store.append length message
  { s with
    store
    history := s.history ++ store.log.drop s.store.log.length }

def receive (socket : ℕ) (frame : Frame) : State :=
  match s.store.toViewerMessage (s.attachments socket) frame with
  | none => s
  | some (message, store) =>
    let attachments := match message with
      | .start session _ _ _ _ _ _ _ => Function.update s.attachments socket (some session)
      | _ => s.attachments
    { s with store, attachments }.append length message

/-- `producerGone`. -/
def gone (socket : ℕ) (ended resumed cleared : Bool) : State :=
  match s.attachments socket with
  | none => s
  | some session =>
    let s' := if cleared then
        { s with attachments := Function.update s.attachments socket none }
      else s
    if resumed ∧ ended = false then s'
    else s'.append length (if ended then .ended session else .detach session)

def landWork : State :=
  match s.work with
  | none => s
  | some work =>
    match work.await.bind Await.land with
    | none => s
    | some (put, a) => { s.putObject put with work := some (work.setAwait a) }

def settleWork (ok : Bool) : State :=
  match s.work with
  | none => s
  | some (.sweeping r) => if ok then s.sweep r else { s with work := none }
  | some work =>
    match work.await with
    | none => s
    | some a =>
      match a.settle s.store ok with
      | .resumed => work.resume s
      | .waiting a' => { s with work := some (work.setAwait a') }
      | .threw => { s with work := none }
      | .deleted path => { s.deleteObject path with work := none }

def proceed (artifact : Option Artifact) : State :=
  match s.work with
  | some (.rebuilding r) => s.rebuild length r
  | some (.verifying r v) => s.verify r v artifact
  | _ => s

/-- The row of a VM, made if it is not there. -/
def upsertRecordings (rows : List VmRecordings) (vmId : VmId) (change : VmRecordings → VmRecordings) :
    List VmRecordings :=
  if rows.any fun row => row.vmId = vmId then
    rows.map fun row => if row.vmId = vmId then change row else row
  else rows ++ [change ⟨vmId, [], false⟩]

/-- `recording` and `vmComplete` once they have their body. -/
def serve : Request → State
  | .recording vmId sessions =>
    if validVmId vmId = false then s
    else
      { s with store := { s.store with
          recordings := upsertRecordings s.store.recordings vmId ({ · with sessions }) } }
  | .vmComplete vmId =>
    if validVmId vmId = false then s
    else
      let recordings := upsertRecordings s.store.recordings vmId ({ · with done := true })
      let waiting := s.store.sessions.any fun session =>
        !(recordings.any fun row => row.vmId = session.vmId && row.done)
      { s with store := { s.store with
          recordings, recordingDue := s.store.recordingDue || !waiting } }

def init (mission : String) : State :=
  if s.store.stopped then s
  else
    { s with
      store := { s.store with shared := true }
      inits := s.inits ++ [⟨false, .put ⟨.mission, .mission mission, false⟩⟩] }

/-- The head of a share that is new. -/
def firstHead : ShareHead := ⟨1, 0, 0, 0, false, false⟩

/-- `init` after a put that is there to stay. -/
def initResume (index : ℕ) (i : Init) : State :=
  if i.atHead then
    { s with inits := s.inits.eraseIdx index, store := { s.store with mission := true } }
  else
    { s with inits := s.inits.set index ⟨true, .put ⟨.head, .head firstHead, false⟩⟩ }

def initLand (index : ℕ) : State :=
  match s.inits[index]? with
  | none => s
  | some i =>
    match i.await.land with
    | none => s
    | some (put, a) => { s.putObject put with inits := s.inits.set index ⟨i.atHead, a⟩ }

def initSettle (index : ℕ) (ok : Bool) : State :=
  match s.inits[index]? with
  | none => s
  | some i =>
    match i.await.settle s.store ok with
    | .resumed => s.initResume index i
    | .waiting a => { s with inits := s.inits.set index ⟨i.atHead, a⟩ }
    | .threw => { s with inits := s.inits.eraseIdx index }
    | .deleted path => { s.deleteObject path with inits := s.inits.eraseIdx index }

/-- `wipe` up to its first await: the fence. -/
def wipe : State :=
  { s with
    wipes := s.wipes ++ [.waiting s.store.shared]
    store := { s.store with stopped := true, mission := false, recordingDue := false } }

/-- The end of `wipe`: everything is forgotten but the marker. -/
def wipeDone (index : ℕ) : State :=
  { s with wipes := s.wipes.eraseIdx index, store := { stopped := true }, wiped := true }

def wipeProceed (index : ℕ) (ok : Bool) : State :=
  match s.wipes[index]? with
  | none => s
  | some (.waiting shared) =>
    if s.work.isSome then s
    else if shared then
      { s with wipes := s.wipes.set index (.deleting fun path => (s.bucket path).isSome) }
    else s.wipeDone index
  | some (.deleting listed) =>
    if ok then
      { s with bucket := fun path => if listed path then none else s.bucket path }.wipeDone index
    else { s with wipes := s.wipes.eraseIdx index }

end State

def State.step (length : StoredMessage → ℕ) (s : State) : Act → State
  | .receive socket frame => s.receive length socket frame
  | .gone socket ended resumed cleared => s.gone length socket ended resumed cleared
  | .alarm => if s.work.isSome then s else s.publish
  | .land => s.landWork
  | .settle ok => s.settleWork ok
  | .proceed artifact => s.proceed length artifact
  | .request request =>
    if s.store.live = false ∨ s.store.recorded = true then s
    else { s with requests := s.requests ++ [request] }
  | .body index =>
    match s.requests[index]? with
    | none => s
    | some request => { s with requests := s.requests.eraseIdx index }.serve request
  | .init mission => s.init mission
  | .initLand index => s.initLand index
  | .initSettle index ok => s.initSettle index ok
  | .wipe => s.wipe
  | .wipeProceed index ok => s.wipeProceed index ok
  | .restart => { s with work := none, inits := [], wipes := [], requests := [] }

end Intar.Share
