import Intar.Lib.Batch
import Intar.Lib.Js
import Intar.Lib.Json

/-!
# Registry admission: shared writers against the exclusive sweep

The model of `lib/image-registry-admission.ts`.  Uploads, publishes and catalog pointer mutations
are *shared writers* of the image registry; the collector's sweep is *exclusive*.  The gate that
keeps them apart is one row of D1 and the `WHERE` clauses of a dozen statements.

* `Tables` is the state: the gate row (there is one key, so the table is an `Option`), the
  upload sessions, the operation writers and the collector runs.
* Each statement of the source is a `Statement` here, and each operation its list of statements:
  `admitRegistryOperation`, `createRegistryUploadSession`, `reapRegistryAdmission`,
  `acquireRegistrySweep` and so on.  D1 runs such a list as one transaction.
* `Op` names every operation with its inputs, the clock it reads and the ids it draws, and `step`
  is its effect.  An operation of the source that runs two batches (closing a session and then
  compacting) is two actions here, so that anything may happen in between.

What the gate guarantees over every interleaving is in `Intar.Registry.AdmissionSafety`.
-/

namespace Intar.Registry

/-! ## The tables -/

/-- Milliseconds as `Date.now()` counts them.  A cutoff can lie before the epoch. -/
abbrev Millis := Int

inductive EnforcementMode where
  | reportOnly
  | enforce
deriving DecidableEq

/-- `ImageRegistryGateState`; `opened` is the source's `"open"`. -/
inductive GateState where
  | opened
  | sweeping
deriving DecidableEq

inductive SessionOwnerKind where
  | publishToken
  | builder
deriving DecidableEq

/-- A writer row is owned by a credential, as a session is, or by the Worker itself. -/
inductive WriterOwnerKind where
  | credential (kind : SessionOwnerKind)
  | system
deriving DecidableEq

/-- `ImageRegistrySessionState`; `opened` is the source's `"open"`. -/
inductive SessionState where
  | opened
  | completed
  | abandoned
  | reaped
deriving DecidableEq

inductive WriterOutcome where
  | pending
  | ok
  | error
  | unknown
deriving DecidableEq

inductive GcRunState where
  | running
  | completed
  | failed
  | aborted
deriving DecidableEq

inductive OperationKind where
  | chunkExists
  | chunkPut
  | manifestPut
  | multipartCreate
  | multipartPart
  | multipartComplete
  | bundlePut
  | publish
  | pointerMutation
  | guestTools
  | runStart
deriving DecidableEq

/-- The row of `image_registry_admission` under `REGISTRY_ADMISSION_KEY`. -/
structure Gate where
  protocolVersion : Nat
  enforcement : EnforcementMode
  epoch : Nat
  state : GateState
  (sweepToken sweepOwner : Option String)
  (sweepStartedAt sweepHeartbeatAt sweepExpiresAt pausedAt : Option Millis)
  pauseReason : Option String
  updatedAt : Millis
deriving DecidableEq

/-- `RegistryAdmissionOwner`: who the verified credential says the caller is. -/
structure Owner where
  kind : SessionOwnerKind
  id : String
deriving DecidableEq

/-- A row of `image_registry_upload_sessions`. -/
structure Session where
  id : String
  owner : Owner
  intent : Option String
  epoch : Nat
  state : SessionState
  (createdAt heartbeatAt expiresAt : Millis)
  closedAt : Option Millis
  closeReason : Option String
deriving DecidableEq

/-- A row of `image_registry_operation_writers`. -/
structure Writer where
  id : String
  sessionId : Option String
  ownerKind : WriterOwnerKind
  ownerId : String
  operation : OperationKind
  epoch : Nat
  outcome : WriterOutcome
  (createdAt heartbeatAt expiresAt : Millis)
  releasedAt : Option Millis
deriving DecidableEq

/-- The counters of a collector run, which only move forward. -/
structure GcCounters where
  (scannedObjects deletedObjects blockedObjects bytesReclaimed : Nat)
deriving DecidableEq

/-- A row of `image_registry_gc_runs`. -/
structure GcRun where
  (id owner sweepToken : String)
  state : GcRunState
  (startedAt heartbeatAt : Millis)
  finishedAt : Option Millis
  counters : GcCounters
  (error detailJson : Option String)
  (createdAt updatedAt : Millis)
deriving DecidableEq

/-- The four tables the admission rules read and write. -/
structure Tables where
  gate : Option Gate
  sessions : List Session
  writers : List Writer
  gcRuns : List GcRun
deriving DecidableEq

/-- The database after the migrations: no row in any of the tables. -/
def Tables.empty : Tables := ⟨none, [], [], []⟩

/-- The unique index a statement violated. -/
inductive Violation where
  | writerId
  | sessionId
  | gcRunId
  | gcRunSweepToken

/-- A statement on the admission tables. -/
abbrev Query := Statement Tables Violation

def protocolVersion : Nat := 1
def sessionLeaseMs : Millis := 10 * 60 * 1000
def operationLeaseMs : Millis := 5 * 60 * 1000
def internalWriterLeaseMs : Millis := 2 * 60 * 1000
def sweepLeaseMs : Millis := 5 * 60 * 1000
def reapGraceMs : Millis := 60 * 60 * 1000
def reapBatchSize : Int := 500
def closedSessionRetainMs : Millis := 6 * 60 * 60 * 1000

def Session.isOpen (x : Session) : Bool := x.state = .opened

/-- `released_at IS NULL OR outcome = 'unknown'`: the write the row stands for is unresolved, or
it ended inconclusively.  Such a row holds off every sweep. -/
def Writer.isHold (w : Writer) : Bool := w.releasedAt.isNone || w.outcome = .unknown

def GcRun.isRunning (r : GcRun) : Bool := r.state = .running

/-! ## Statements on one table -/

def updateGate (p : Gate → Bool) (f : Gate → Gate) : Query := fun s =>
  match s.gate with
  | none => .ok (s, 0)
  | some g => if p g then .ok ({ s with gate := some (f g) }, 1) else .ok (s, 0)

/-- `INSERT … ON CONFLICT(key) DO UPDATE SET f WHERE p`: the row `g₀` if there is none yet. -/
def upsertGate (g₀ : Gate) (p : Gate → Bool) (f : Gate → Gate) : Query := fun s =>
  match s.gate with
  | none => .ok ({ s with gate := some g₀ }, 1)
  | some g => if p g then .ok ({ s with gate := some (f g) }, 1) else .ok (s, 0)

def updateSessions (p : Tables → Session → Bool) (f : Session → Session) : Query := fun s =>
  .ok ({ s with sessions := Table.update (p s) f s.sessions }, s.sessions.countP (p s))

/-- Deleting a session sets the `session_id` of the writers that named it to `NULL`. -/
def deleteSessions (p : Tables → Session → Bool) : Query := fun s =>
  let gone := (s.sessions.filter (p s)).map Session.id
  .ok ({ s with
    sessions := Table.delete (p s) s.sessions
    writers := Table.update (fun w => w.sessionId.any (gone.contains ·))
      (fun w => { w with sessionId := none }) s.writers }, gone.length)

def updateWriters (p : Writer → Bool) (f : Writer → Writer) : Query := fun s =>
  .ok ({ s with writers := Table.update p f s.writers }, s.writers.countP p)

def deleteWriters (p : Tables → Writer → Bool) : Query := fun s =>
  .ok ({ s with writers := Table.delete (p s) s.writers }, s.writers.countP (p s))

def updateGcRuns (p : GcRun → Bool) (f : GcRun → GcRun) : Query := fun s =>
  .ok ({ s with gcRuns := Table.update p f s.gcRuns }, s.gcRuns.countP p)

/-- `INSERT INTO image_registry_operation_writers … SELECT … FROM gate WHERE guard`. -/
def insertWriter (guard : Tables → Gate → Bool) (row : Gate → Writer) : Query := fun s =>
  match s.gate with
  | none => .ok (s, 0)
  | some g =>
    if guard s g then
      match Table.insert Writer.id (row g) s.writers with
      | none => .error .writerId
      | some ws => .ok ({ s with writers := ws }, 1)
    else .ok (s, 0)

/-- `INSERT INTO image_registry_upload_sessions … SELECT … FROM gate WHERE guard`. -/
def insertSession (guard : Gate → Bool) (row : Gate → Session) : Query := fun s =>
  match s.gate with
  | none => .ok (s, 0)
  | some g =>
    if guard g then
      match Table.insert Session.id (row g) s.sessions with
      | none => .error .sessionId
      | some xs => .ok ({ s with sessions := xs }, 1)
    else .ok (s, 0)

/-- `INSERT INTO image_registry_gc_runs … WHERE guard`: both the id and the token are unique. -/
def insertGcRun (guard : Tables → Bool) (row : GcRun) : Query := fun s =>
  if guard s then
    match Table.insert GcRun.id row s.gcRuns, Table.insert GcRun.sweepToken row s.gcRuns with
    | none, _ => .error .gcRunId
    | _, none => .error .gcRunSweepToken
    | some _, some rs => .ok ({ s with gcRuns := rs }, 1)
  else .ok (s, 0)

/-- The gate row as every first insert writes it. -/
def freshGate (now : Millis) : Gate where
  protocolVersion
  enforcement := .reportOnly
  epoch := 0
  state := .opened
  sweepToken := none
  sweepOwner := none
  sweepStartedAt := none
  sweepHeartbeatAt := none
  sweepExpiresAt := none
  pausedAt := none
  pauseReason := none
  updatedAt := now

def ensureRegistryAdmissionRow (now : Millis) : Query :=
  upsertGate (freshGate now) (fun _ => false) id

/-- `gate.sweep_expires_at IS NULL OR gate.sweep_expires_at <= now`. -/
def Gate.noLiveSweepLease (g : Gate) (now : Millis) : Bool := g.sweepExpiresAt.all (· ≤ now)

/-- The gate clauses of both writer inserts. -/
def Gate.admitsWriter (g : Gate) (now : Millis) : Bool :=
  g.state = .opened && g.pausedAt.isNone && g.noLiveSweepLease now

/-- The session clauses of the writer insert: the caller's own session, open and not expired. -/
def Session.coversWriter (x : Session) (id : String) (owner : Owner) (now : Millis) : Bool :=
  x.id = id && x.owner = owner && x.isOpen && now < x.expiresAt

/-! ## The operations, as their batches -/

/-- `UPDATE image_registry_upload_sessions SET heartbeat_at, expires_at`, for the caller's own open
session that has not expired. -/
def touchRegistryUploadSession (sessionId : String) (owner : Owner) (now : Millis) : Query :=
  updateSessions (fun _ x => x.coversWriter sessionId owner now)
    fun x => { x with heartbeatAt := now, expiresAt := now + sessionLeaseMs }

/-- Catalog pointers and guest tools are single short commits; every other operation of an
uploader runs inside an upload session. -/
def operationNeedsSession (operation : OperationKind) : Bool :=
  operation ≠ .pointerMutation && operation ≠ .guestTools

/-- `SESSION_ID_RE`. -/
def validSessionId (id : String) : Bool :=
  1 ≤ id.length && id.length ≤ 64 &&
    id.toList.all fun c => c.isAlphanum || c = '.' || c = '_' || c = '-'

/-- What a request asks `admitRegistryOperation` for: the owner its credential proves, the session
its header names, and the operation of its route. -/
structure AdmitRequest where
  owner : Owner
  sessionId : Option String
  operation : OperationKind
  requireSession : Option Bool
deriving DecidableEq

/-- The refusals of `admitRegistryOperation` before it touches the database. -/
inductive AdmitRefusal where
  | invalidSessionId
  | sessionRequired
deriving DecidableEq

/-- The checks on the request.  `seen` is the enforcement mode of an earlier read of the gate, so
it may be out of date when the batch runs. -/
def AdmitRequest.refusal (req : AdmitRequest) (seen : EnforcementMode) : Option AdmitRefusal :=
  if req.sessionId.any fun id => !validSessionId id then some .invalidSessionId
  else if req.sessionId.isNone &&
      req.requireSession.getD (seen = .enforce && operationNeedsSession req.operation) then
    some .sessionRequired
  else none

/-- The guarded insert of a writer on behalf of a credential. -/
def insertRequestWriter (req : AdmitRequest) (operationId : String) (now : Millis) : Query :=
  insertWriter
    (fun s g => g.admitsWriter now &&
      req.sessionId.all fun id => s.sessions.any (·.coversWriter id req.owner now))
    fun g =>
      { id := operationId
        sessionId := req.sessionId
        ownerKind := .credential req.owner.kind
        ownerId := req.owner.id
        operation := req.operation
        epoch := g.epoch
        outcome := .pending
        createdAt := now
        heartbeatAt := now
        expiresAt := now + operationLeaseMs
        releasedAt := none }

def admitRegistryOperation (req : AdmitRequest) (seen : EnforcementMode) (operationId : String)
    (now : Millis) : List Query :=
  match req.refusal seen with
  | some _ => []
  | none =>
    ensureRegistryAdmissionRow now ::
      (req.sessionId.toList.map fun id => touchRegistryUploadSession id req.owner now) ++
      [insertRequestWriter req operationId now]

/-- `admitInternalRegistryOperation`: a writer of the Worker itself, with no session. -/
def admitInternalRegistryOperation (operation : OperationKind) (ownerId operationId : String)
    (now : Millis) : List Query :=
  [ensureRegistryAdmissionRow now,
    insertWriter (fun _ g => g.admitsWriter now) fun g =>
      { id := operationId
        sessionId := none
        ownerKind := .system
        ownerId
        operation
        epoch := g.epoch
        outcome := .pending
        createdAt := now
        heartbeatAt := now
        expiresAt := now + internalWriterLeaseMs
        releasedAt := none }]

/-- `releaseRegistryOperation`: an inconclusive end keeps the row as a hold, a settled one deletes
it. -/
def releaseRegistryOperation (operationId : String) (outcome : WriterOutcome) (now : Millis) :
    List Query :=
  if outcome = .unknown then
    [updateWriters (fun w => w.id = operationId && w.releasedAt.isNone)
      fun w => { w with outcome := .unknown, releasedAt := some now, heartbeatAt := now }]
  else [deleteWriters fun _ w => w.id = operationId]

/-- A session may be opened while the gate is paused: only a sweep refuses it. -/
def createRegistryUploadSession (owner : Owner) (intent : Option String) (sessionId : String)
    (now : Millis) : List Query :=
  [ensureRegistryAdmissionRow now,
    insertSession (fun g => g.state = .opened && g.noLiveSweepLease now) fun g =>
      { id := sessionId
        owner
        intent := Js.trimOrNone intent
        epoch := g.epoch
        state := .opened
        createdAt := now
        heartbeatAt := now
        expiresAt := now + sessionLeaseMs
        closedAt := none
        closeReason := none }]

def heartbeatRegistryUploadSession (owner : Owner) (sessionId : String) (now : Millis) :
    List Query :=
  [touchRegistryUploadSession sessionId owner now]

/-- The two ends an uploader can report for its session. -/
inductive CloseOutcome where
  | published
  | abandoned
deriving DecidableEq

def CloseOutcome.sessionState : CloseOutcome → SessionState
  | .published => .completed
  | .abandoned => .abandoned

def CloseOutcome.text : CloseOutcome → String
  | .published => "published"
  | .abandoned => "abandoned"

/-- Close the session, then delete the settled writers it still owns: rows that were never
reported, or that ended inconclusively, stay as holds. -/
def completeRegistryUploadSession (owner : Owner) (sessionId : String) (outcome : CloseOutcome)
    (now : Millis) : List Query :=
  [updateSessions (fun _ x => x.id = sessionId && x.owner = owner && x.isOpen) fun x =>
      { x with
        state := outcome.sessionState
        closedAt := some now
        closeReason := some outcome.text },
    deleteWriters fun s w => w.sessionId = some sessionId && !w.isHold &&
      s.sessions.any fun x => x.id = sessionId && !x.isOpen]

/-- `compactRegistryAdmissionHistory`: drop the closed sessions of before the cutoff that no
writer names any more, together with their settled writers. -/
def compactRegistryAdmissionHistory (retainClosedSessionsMs : Option Millis) (now : Millis) :
    List Query :=
  let cutoff := now - retainClosedSessionsMs.getD closedSessionRetainMs
  let closedBefore (x : Session) : Bool := !x.isOpen && x.closedAt.any (· ≤ cutoff)
  [deleteWriters fun s w => !w.isHold &&
      w.sessionId.any fun id => s.sessions.any fun x => x.id = id && closedBefore x,
    deleteSessions fun s x => closedBefore x && !s.writers.any fun w => w.sessionId = some x.id]

/-- The options of an operator's reap. -/
structure ReapInput where
  graceMs : Option Millis
  limit : Option Int
  resolveStalledSweeps : Bool
deriving DecidableEq

/-- `reapRegistryAdmission`: an operator takes over the stale rows, and on request ends a sweep
whose heartbeat is older than the grace. -/
def reapRegistryAdmission (input : ReapInput) (now : Millis) : List Query :=
  let cutoff := now - input.graceMs.getD reapGraceMs
  let limit := input.limit.getD reapBatchSize
  [updateSessions
      (fun s x => ((Table.select (fun y => y.isOpen && y.expiresAt ≤ cutoff) Session.expiresAt limit
        s.sessions).map Session.id).contains x.id)
      (fun x => { x with
        state := .reaped, closedAt := some now, closeReason := some "operator_reap" }),
    deleteWriters
      (fun s w => ((Table.select (fun v => v.releasedAt.isNone && v.expiresAt ≤ cutoff)
        Writer.expiresAt limit s.writers).map Writer.id).contains w.id),
    deleteWriters
      (fun s w => ((Table.select (fun v => v.releasedAt.isSome && v.outcome = .unknown)
        (fun v => v.releasedAt.getD 0) limit s.writers).map Writer.id).contains w.id)] ++
  if input.resolveStalledSweeps then
    [updateGcRuns (fun r => r.isRunning && r.heartbeatAt ≤ cutoff) (fun r =>
        { r with
          state := .aborted
          error := some (r.error.getD "sweep stalled and was resolved by an operator")
          finishedAt := some now
          updatedAt := now }),
      fun s => updateGate
        (fun g => g.state = .sweeping && g.sweepHeartbeatAt.any (· ≤ cutoff) &&
          !s.gcRuns.any GcRun.isRunning)
        (fun g => { g with
          state := .opened
          sweepOwner := none
          sweepStartedAt := none
          sweepHeartbeatAt := none
          sweepExpiresAt := none
          updatedAt := now }) s,
      updateGate (fun g => g.state = .opened && g.sweepExpiresAt.isNone)
        fun g => { g with sweepToken := none, updatedAt := now }]
  else []

def setRegistryEnforcement (mode : EnforcementMode) (now : Millis) : List Query :=
  [upsertGate { freshGate now with enforcement := mode } (fun _ => true)
    fun g => { g with enforcement := mode, updatedAt := now }]

/-- `setRegistryPause`; the cleanup Worker's `holdRegistry` and `releaseRegistryHold` are the same
two statements. -/
def setRegistryPause (paused : Bool) (reason : Option String) (now : Millis) : List Query :=
  if paused then
    let reason := (Js.trimOrNone reason).getD "operator_pause"
    [upsertGate { freshGate now with pausedAt := some now, pauseReason := some reason }
      (fun _ => true)
      fun g => { g with pausedAt := some now, pauseReason := some reason, updatedAt := now }]
  else
    [updateGate (fun _ => true)
      fun g => { g with pausedAt := none, pauseReason := none, updatedAt := now }]

/-- The inputs of `acquireRegistrySweep`, with the ids it draws when the caller names none. -/
structure SweepInput where
  owner : String
  leaseMs : Option Millis
  (sweepToken runId : String)
deriving DecidableEq

/-- The gate as the acquiring statement leaves it. -/
def Gate.startSweep (g : Gate) (input : SweepInput) (now : Millis) : Gate :=
  { g with
    state := .sweeping
    sweepToken := some input.sweepToken
    sweepOwner := some input.owner
    sweepStartedAt := some now
    sweepHeartbeatAt := some now
    sweepExpiresAt := some (now + input.leaseMs.getD sweepLeaseMs)
    epoch := g.epoch + 1
    updatedAt := now }

/-- The acquiring statement: it selects no row while a hold, an open session or a running collector
run exists, and takes the gate only from an open, unpaused row. -/
def takeSweep (input : SweepInput) (now : Millis) : Query := fun s =>
  if s.writers.any Writer.isHold || s.sessions.any Session.isOpen ||
      s.gcRuns.any GcRun.isRunning then .ok (s, 0)
  else upsertGate ((freshGate now).startSweep input now)
    (fun g => g.state = .opened && g.pausedAt.isNone) (fun g => g.startSweep input now) s

def acquireRegistrySweep (input : SweepInput) (now : Millis) : List Query :=
  [ensureRegistryAdmissionRow now,
    takeSweep input now,
    insertGcRun
      (fun s => s.gate.any fun g => g.state = .sweeping && g.sweepToken = some input.sweepToken)
      { id := input.runId
        owner := input.owner
        sweepToken := input.sweepToken
        state := .running
        startedAt := now
        heartbeatAt := now
        finishedAt := none
        counters := ⟨0, 0, 0, 0⟩
        error := none
        detailJson := none
        createdAt := now
        updatedAt := now }]

/-- The clause by which a sweep names itself: the gate is sweeping under its token. -/
def Gate.sweepsAs (g : Gate) (token : String) : Bool :=
  g.state = .sweeping && g.sweepToken = some token

def heartbeatRegistrySweep (sweepToken : String) (leaseMs : Option Millis) (now : Millis) :
    List Query :=
  [updateGate (·.sweepsAs sweepToken) (fun g =>
      { g with
        sweepHeartbeatAt := some now
        sweepExpiresAt := some (now + leaseMs.getD sweepLeaseMs)
        updatedAt := now }),
    updateGcRuns (fun r => r.sweepToken = sweepToken && r.isRunning) fun r =>
      { r with heartbeatAt := now, updatedAt := now }]

/-- `counterValue`: a missing, negative or unsafe counter counts as zero. -/
def counterValue (value : Option Int) : Nat :=
  match value with
  | some n => if 0 < n ∧ n ≤ Json.maxSafeInteger then n.toNat else 0
  | none => 0

/-- The optional counters of a progress report. -/
structure CounterInput where
  (scannedObjects deletedObjects blockedObjects bytesReclaimed : Option Int)
deriving DecidableEq

def GcCounters.raise (c : GcCounters) (i : CounterInput) : GcCounters where
  scannedObjects := max c.scannedObjects (counterValue i.scannedObjects)
  deletedObjects := max c.deletedObjects (counterValue i.deletedObjects)
  blockedObjects := max c.blockedObjects (counterValue i.blockedObjects)
  bytesReclaimed := max c.bytesReclaimed (counterValue i.bytesReclaimed)

def recordRegistryGcProgress (sweepToken : String) (counters : CounterInput)
    (detail : Option String) (now : Millis) : List Query :=
  [updateGcRuns (fun r => r.sweepToken = sweepToken && r.isRunning) fun r =>
    { r with
      heartbeatAt := now
      updatedAt := now
      counters := r.counters.raise counters
      detailJson := detail.orElse fun _ => r.detailJson }]

/-- The two ends a collector can report for its sweep. -/
inductive SweepOutcome where
  | completed
  | failed
deriving DecidableEq

def SweepOutcome.runState : SweepOutcome → GcRunState
  | .completed => .completed
  | .failed => .failed

def finishRegistrySweep (sweepToken : String) (outcome : SweepOutcome) (error : Option String)
    (counters : CounterInput) (now : Millis) : List Query :=
  [updateGate (·.sweepsAs sweepToken) (fun g =>
      { g with
        state := .opened
        sweepToken := none
        sweepOwner := none
        sweepStartedAt := none
        sweepHeartbeatAt := none
        sweepExpiresAt := none
        updatedAt := now }),
    updateGcRuns (fun r => r.sweepToken = sweepToken && r.isRunning) fun r =>
      { r with
        state := outcome.runState
        finishedAt := some now
        heartbeatAt := now
        error := error.orElse fun _ => r.error
        updatedAt := now
        counters := r.counters.raise counters }]

/-! ## What the sweep reads and is answered -/

/-- `RegistryAdmissionCounts`, as far as the sweep reads them. -/
structure AdmissionCounts where
  (openSessions pendingWriters : Nat)
deriving DecidableEq

def readRegistryAdmissionCounts (s : Tables) : AdmissionCounts :=
  ⟨s.sessions.countP Session.isOpen, s.writers.countP Writer.isHold⟩

def registryAdmissionBlockedReason (counts : AdmissionCounts) : Option String :=
  if 0 < counts.openSessions then some "registry_upload_session_open"
  else if 0 < counts.pendingWriters then some "registry_write_unresolved"
  else none

/-- `RegistryAdmissionState`, as far as the sweep reads it. -/
structure AdmissionState where
  enforcement : EnforcementMode
  (paused sweepActive sweepStalled : Bool)
  sweepToken : Option String
  counts : AdmissionCounts
deriving DecidableEq

/-- `readRegistryAdmissionState`.  The gate and the counts are two reads side by side, so they may
be of two moments. -/
def readRegistryAdmissionState (gate : Option Gate) (counts : AdmissionCounts) (now : Millis) :
    AdmissionState :=
  let sweepActive := gate.any fun g => g.state = .sweeping && g.sweepToken.isSome
  { enforcement := (gate.map Gate.enforcement).getD .reportOnly
    paused := gate.any fun g => g.pausedAt.isSome
    sweepActive
    sweepStalled := sweepActive && gate.any fun g => g.sweepExpiresAt.any (· ≤ now)
    sweepToken := gate.bind Gate.sweepToken
    counts }

/-- Why the holder of the sweep may not delete, as an acquisition and a heartbeat say it. -/
def AdmissionState.blockedReason (state : AdmissionState) : Option String :=
  if state.enforcement = .enforce then registryAdmissionBlockedReason state.counts
  else some "registry_enforcement_disabled"

/-- `heartbeatRegistrySweep`. -/
inductive Heartbeat where
  | superseded
  | current (deleteAllowed : Bool) (blockedReason : Option String)

/-- `assertRegistrySweepDeletable`. -/
inductive Assertion where
  | refused (code : String)
  | granted (deletable blocked : List String)

/-- `acquireRegistrySweep`. -/
inductive Acquisition where
  | busy (openSessions pendingWriters : Nat)
  | lease (deleteAllowed : Bool) (blockedReason : Option String)
deriving DecidableEq

/-- The acquiring statement returned a row: the sweep was granted. -/
def acquires (s : Tables) (input : SweepInput) (now : Millis) : Bool :=
  match Batch.exec (acquireRegistrySweep input now) s with
  | .ok (_, [_, marker, _]) => marker = 1
  | _ => false

/-- Every delete batch is gated: all of its keys, or none. -/
def assertRegistrySweepDeletable (state : AdmissionState) (sweepToken : String)
    (objectKeys : List String) : Assertion :=
  if !state.sweepActive || state.sweepToken ≠ some sweepToken then
    .refused "registry_sweep_superseded"
  else if state.sweepStalled then .refused "registry_sweep_stalled"
  else if state.paused then .refused "registry_paused"
  else if state.enforcement ≠ .enforce then .refused "registry_enforcement_disabled"
  else
    match registryAdmissionBlockedReason state.counts with
    | some reason => .refused reason
    | none => .granted objectKeys []

/-! ## The transition system -/

/-- One batch of one operation, with everything it does not read from the database: its inputs,
the ids it draws, and the clock. -/
inductive Op where
  | admitOperation (req : AdmitRequest) (seen : EnforcementMode) (operationId : String) (now : Millis)
  | admitInternal (operation : OperationKind) (ownerId operationId : String) (now : Millis)
  | touch (sessionId : String) (owner : Owner) (now : Millis)
  | release (operationId : String) (outcome : WriterOutcome) (now : Millis)
  | createSession (owner : Owner) (intent : Option String) (sessionId : String) (now : Millis)
  | completeSession (owner : Owner) (sessionId : String) (outcome : CloseOutcome) (now : Millis)
  | reap (input : ReapInput) (now : Millis)
  | compact (retainClosedSessionsMs : Option Millis) (now : Millis)
  | setPause (paused : Bool) (reason : Option String) (now : Millis)
  | setEnforcement (mode : EnforcementMode) (now : Millis)
  | acquireSweep (input : SweepInput) (now : Millis)
  | heartbeatSweep (sweepToken : String) (leaseMs : Option Millis) (now : Millis)
  | recordProgress (sweepToken : String) (counters : CounterInput) (detail : Option String)
      (now : Millis)
  | finishSweep (sweepToken : String) (outcome : SweepOutcome) (error : Option String)
      (counters : CounterInput) (now : Millis)
deriving DecidableEq

/-- The statements an operation sends. -/
def Op.batch : Op → List Query
  | .admitOperation req seen operationId now => admitRegistryOperation req seen operationId now
  | .admitInternal operation ownerId operationId now =>
    admitInternalRegistryOperation operation ownerId operationId now
  | .touch sessionId owner now => heartbeatRegistryUploadSession owner sessionId now
  | .release operationId outcome now => releaseRegistryOperation operationId outcome now
  | .createSession owner intent sessionId now =>
    createRegistryUploadSession owner intent sessionId now
  | .completeSession owner sessionId outcome now =>
    completeRegistryUploadSession owner sessionId outcome now
  | .reap input now => reapRegistryAdmission input now
  | .compact retain now => compactRegistryAdmissionHistory retain now
  | .setPause paused reason now => setRegistryPause paused reason now
  | .setEnforcement mode now => setRegistryEnforcement mode now
  | .acquireSweep input now => acquireRegistrySweep input now
  | .heartbeatSweep sweepToken leaseMs now => heartbeatRegistrySweep sweepToken leaseMs now
  | .recordProgress sweepToken counters detail now =>
    recordRegistryGcProgress sweepToken counters detail now
  | .finishSweep sweepToken outcome error counters now =>
    finishRegistrySweep sweepToken outcome error counters now

/-- The effect of one operation: its batch, all or nothing. -/
def step (s : Tables) (op : Op) : Tables := Batch.commit op.batch s

end Intar.Registry
