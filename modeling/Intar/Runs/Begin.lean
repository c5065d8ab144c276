import Intar.Runs.Cancel
import Intar.Runs.Draft

/-!
# Starting a run

`beginScenarioRun` in `lib/scenario-runs/begin.ts`: any number of starts on one database, with
everything else that writes it.

A start is a long sequence of database statements, and between any two of them other starts run, so
it is a `StartPhase` that says which statement comes next, and `advance` sends one.  Its order is what
admission rests on: on each host the version of the desired state is read first, then the host with
its report, then the quotas, and the admission batch compares and sets that version.

What a start learns from code that is not modelled (course gate, image preparation, selection of
hosts, the checks on a report) comes with the action as an `Answer`, and so do clocks and random
values: any answer is possible at any time.

`EnvAct` is what the rest of the program does to the tables: anything at all to those a start only
reads, writes of the desired state that start no VM, the statements of a reservation reconcile, and
the projections of a run.  Runs are not deleted.
-/

namespace Intar.Runs

open Host (Millis DesiredState DesiredRow)

/-! ## Errors and results -/

def admissionCasAttempts : Nat := 3

/-- `BeginScenarioRunResult`. -/
structure BeginResult where
  (runId scenarioId : String)
  acceptedAt : Millis
  reused : Bool
  hostId : String
deriving DecidableEq

def registryBusy : StartError :=
  .app 503 "registry_busy" "the image registry is busy; retry the start"

def runsDrained : StartError :=
  .app 503 "runtime_cutover_drained" "new VM runs are paused for a short runtime update"

def scenarioNotFound : StartError := .app 404 "scenario_not_found" "scenario not found"

def scenarioCandidateNotReady : StartError :=
  .app 409 "scenario_candidate_not_ready" "candidate scenario is unavailable or not ready"

def scenarioSourceChanged : StartError :=
  .app 409 "scenario_source_changed"
    "the scenario image changed while the run was starting; start it again"

def scenarioStartAccessRevoked : StartError :=
  .app 403 "access_revoked" "account access was revoked while the scenario was starting"

def scenarioContentAccessChanged : StartError :=
  .app 409 "scenario_content_access_changed"
    "scenario, course, or administrator access changed during admission"

def idempotencyKeyConflict : StartError :=
  .app 409 "idempotency_key_conflict"
    "this Idempotency-Key was used for a different start request"

def activeRunConflictError (activeRunTitle : Option String) : StartError :=
  .app 409 "scenario_run_active_conflict" <|
    match activeRunTitle.filter (· ≠ "") with
    | some title => "you already have an active run for \"" ++ title ++
        "\" — finish or destroy it before starting another scenario"
    | none => "you already have an active scenario run — finish or destroy it before starting " ++
        "another scenario"

def capacityContended : StartError :=
  .app 409 "scenario_host_capacity_contended"
    "scenario capacity changed during admission; retry the start"

def cancelContended : StartError :=
  .app 409 "scenario_host_capacity_contended"
    "scenario capacity changed while cancelling the start"

def hostUnavailable (explicitHost : Bool) : StartError :=
  .app 409 "scenario_host_unavailable" <|
    if explicitHost then "host does not have enough CPU, memory, and worst-case disk capacity"
    else "no scenario host can provide strict CPU isolation"

/-- An `AppError` below 500: without an explicit host the next one is tried. -/
def StartError.isClientError : StartError → Bool
  | .app status _ _ => status < 500
  | .other _ => false

def StartError.hasCode (code : String) : StartError → Bool
  | .app _ code' _ => code' = code
  | .other _ => false

/-! ## Reads -/

def Db.loadRunByIdempotencyKey (db : Db) (userId idempotencyKey : String) : Option RunRow :=
  db.runs.find? fun run => run.userId = userId && run.requestIdempotencyKey = some idempotencyKey

/-- The run that the key admitted is the answer, if it was the same request. -/
def replay (run : RunRow) (scope : RequestScope) : Except StartError BeginResult :=
  if run.requestScope = some scope then
    .ok ⟨run.runId, run.scenarioId, run.createdAt, true, run.hostId⟩
  else .error idempotencyKeyConflict

def Db.loadActiveRunRow (db : Db) (userId : String) : Option RunRow :=
  db.runs.find? (·.activeKey = some userId)

/-- `ScenarioStartSource`. -/
structure StartSource where
  scenario : LaunchSource
  candidateProof : Option CandidateProof
deriving DecidableEq

/-- `loadScenarioForStart`. -/
def Db.loadScenarioForStart (db : Db) (parseManifest : String → Option CandidateManifest)
    (input : BeginInput) (request : Option CandidateRequest) (agrees : Bool) :
    Except StartError (Option StartSource) :=
  match request with
  | some request =>
    .ok ((db.loadCandidateScenarioRunSource parseManifest request input.scenarioId
      input.organizationId agrees).map fun read => ⟨read.1, some read.2⟩)
  | none =>
    (db.loadEnabledScenario input.scenarioId input.organizationId).map fun scenario =>
      scenario.map fun scenario => ⟨scenario, none⟩

/-- A host with the report that was read together with it. -/
structure LaunchHost where
  host : HostRow
  actual : ActualStateRow
deriving DecidableEq

/-- `loadScenarioLaunchHostForUser`.  What it asks of the contents of the report comes with the
answer. -/
def Db.loadScenarioLaunchHostForUser (db : Db) (hostId userId : String)
    (organizationId : Option String) (now : Millis) (reportReady : Except StartError Unit) :
    Except StartError LaunchHost :=
  match db.hosts.find? fun host =>
      host.id = hostId && db.metalAdmission host userId organizationId with
  | none => .error (.app 404 "scenario_host_not_found" "host not found")
  | some host =>
    if host.disabled then .error (.app 403 "scenario_host_disabled" "host is disabled")
    else if host.role ≠ "agent" ∨ host.scenarioEnabled = false then
      .error (.app 403 "scenario_host_not_launchable" "host cannot run scenarios")
    else
      match (db.actual.find? (·.hostId = hostId)).filter fun actual => host.connected &&
          (host.lastHeartbeatAt.any fun heartbeat => now - heartbeat ≤ hostHeartbeatTtlMs) &&
          now - actual.updatedAt ≤ hostDegradedAfterMs with
      | none => .error (.app 409 "scenario_host_unavailable" "host is not connected")
      | some actual => reportReady.map fun _ => ⟨host, actual⟩

/-- What a plan reads of the quotas of a host. -/
def Db.cpuReservationsOf (db : Db) (hostId : String) : List Host.CpuReservationCapacityRow :=
  (db.cpuReservations.filter (·.hostId = hostId)).map fun row => ⟨row.runId, row.cpuMillis, row.state⟩

/-- `assertAccountStillActive`: the account is active and the run is where it was admitted. -/
def Db.accountStillActive (db : Db) (userId runId hostId : String) : Bool :=
  db.activeAccount userId && db.runs.any fun run => run.userId = userId && run.runId = runId &&
    run.hostId = hostId && run.state = .provisioning && run.deleteRequestedAt.isNone

/-! ## Phases of a start -/

/-- Where an allocation stands: the attempt, the host it is bound to, if to one, the time it began and
the hosts that are left. -/
structure Plan where
  attempt : Nat
  requestedHostId : Option String
  now : Millis
  rest : List String
deriving DecidableEq

/-- What is asked again after a refused commit, to name the reason. -/
inductive RefusalCheck where
  | gate
  | account
  | source
  | content
deriving DecidableEq

/-- The next statement of `admitNewRun`. -/
inductive AdmitPhase where
  | preparing
  | allocating (attempt : Nat) (requestedHostId : Option String)
  | readingDesired (plan : Plan) (hostId : String)
  | readingHost (plan : Plan) (hostId : String) (current : DesiredState)
  | readingReservations (plan : Plan) (hostId : String) (current : DesiredState)
      (readiness : HostReadiness)
  | readingSnapshot (plan : Plan) (hostId : String) (current : DesiredState)
      (readiness : HostReadiness)
  | gate (attempt : Nat) (requestedHostId : Option String) (allocation : Allocation)
  | committing (attempt : Nat) (requestedHostId : Option String) (allocation : Allocation)
  | keyLookup
  | replaying (ifNone : StartError)
  | checking (checks : List RefusalCheck) (retry : Option (Nat × Option String))
  | fencing (hostId : String)
  | cancelLoading (attempt : Nat) (now : Millis) (hostId : String) (error : StartError)
  | cancelWriting (attempt : Nat) (now : Millis) (hostId : String) (error : StartError)
      (current : DesiredState) (next : Option DesiredState)
deriving DecidableEq

/-- The next statement of a start, or its end. -/
inductive StartPhase where
  | opening
  | loading (request : Option CandidateRequest)
  | loadingActive (request : Option CandidateRequest) (source : Option StartSource)
  | loadingSource (request : Option CandidateRequest) (active : Option RunRow)
  | courseGate (source : StartSource) (active : Option RunRow)
  | accountCheck (source : StartSource) (active : Option RunRow) (course : CourseLecture)
  | replayLookup (source : StartSource) (active : Option RunRow) (course : CourseLecture)
  | building (source : StartSource) (course : CourseLecture)
  | admitting (draft : Draft) (phase : AdmitPhase)
  | accepted (result : BeginResult)
  | refused (error : StartError)
deriving DecidableEq

/-- A start.  The last two fields are for the record: the run id it drew, and whether it has
committed its admission. -/
structure Start where
  input : BeginInput
  phase : StartPhase
  drew : Option String
  committed : Bool
deriving DecidableEq

/-- `requireIdempotencyKey` returns the trimmed key. -/
def Start.idempotencyKey (start : Start) : String := Js.trim start.input.idempotencyKey

/-- What a start is told by what is not modelled. -/
structure Answer where
  registryOpen : Bool
  /-- Of the two reads that start together, the active run comes back first. -/
  (activeFirst candidateAgrees : Bool)
  course : Except StartError CourseLecture
  material : Material
  /-- `preparePersonalScenarioImages`. -/
  preparedHostId : Except StartError (Option String)
  /-- `selectScenarioHosts`, or the check of the host that was asked for. -/
  hostIds : Except StartError (List String)
  /-- The row of the host, as the load of its desired state has read it. -/
  agentHost : Option Host.AgentHost
  reportReady : Except StartError Unit
  /-- `runtimeResourcesFit`. -/
  resourcesFit : Bool
  now : Millis
  /-- The clock of the database. -/
  dbNow : Millis

/-! ## Before the admission -/

section

variable (db : Db) (parseManifest : String → Option CandidateManifest) (start : Start)
  (answer : Answer)

/-- Both first reads are back. -/
def afterReads (request : Option CandidateRequest) (source : Option StartSource)
    (active : Option RunRow) : StartPhase :=
  match source with
  | some source => .courseGate source active
  | none => .refused (if request.isSome then scenarioCandidateNotReady else scenarioNotFound)

def opened : Except StartError (Option CandidateRequest) := do
  if db.runsHeld start.input.allowDrainedAdminProof then .error runsDrained
  else
    let _ ← requireIdempotencyKey start.input.idempotencyKey
    let request ← candidateRequestFromInput start.input
    if answer.registryOpen then return request else .error registryBusy

/-- The answer to a repeated request, if the key has admitted a run. -/
def replayed (ifNone : StartPhase) : StartPhase :=
  match db.loadRunByIdempotencyKey start.input.userId start.idempotencyKey with
  | none => ifNone
  | some run =>
    match replay run (scenarioStartRequestScope start.input) with
    | .ok result => .accepted result
    | .error e => .refused e

/-- What a start reads before it drafts a run; it writes nothing. -/
def readPhase : StartPhase → StartPhase
  | .opening =>
    match opened db start answer with
    | .ok request => .loading request
    | .error e => .refused e
  | .loading request =>
    if answer.activeFirst then .loadingSource request (db.loadActiveRunRow start.input.userId)
    else
      match db.loadScenarioForStart parseManifest start.input request answer.candidateAgrees with
      | .ok source => .loadingActive request source
      | .error e => .refused e
  | .loadingActive request source =>
    afterReads request source (db.loadActiveRunRow start.input.userId)
  | .loadingSource request active =>
    match db.loadScenarioForStart parseManifest start.input request answer.candidateAgrees with
    | .ok source => afterReads request source active
    | .error e => .refused e
  | .courseGate source active =>
    match answer.course with
    | .ok course => .accountCheck source active course
    | .error e => .refused e
  | .accountCheck source active course =>
    if db.activeAccount start.input.userId then .replayLookup source active course
    else .refused scenarioStartAccessRevoked
  | .replayLookup source active course =>
    replayed db start <|
      match active with
      | some run => .refused (activeRunConflictError run.title)
      | none => .building source course
  | phase => phase

end

/-! ## Admission -/

section

variable (localeCompare : String → String → Ordering) (parseReport : String → Json) (db : Db)
  (start : Start) (draft : Draft) (answer : Answer)

/-- `planAdmissionHost` goes on to the next host. -/
def nextHost (plan : Plan) : StartPhase :=
  match plan.rest with
  | [] => .refused (hostUnavailable plan.requestedHostId.isSome)
  | hostId :: rest => .admitting draft (.readingDesired { plan with rest } hostId)

/-- The VMs of the run, with their images and the guest tools, go into the desired state. -/
def admissionMutator : Host.Mutator := fun doc =>
  .ok (draft.desiredVms.foldl
    (fun doc vm => Host.upsertDesiredVm vm (Host.upsertDesiredCachedImage ⟨vm.imageKey, vm.imageId⟩
      doc))
    (Host.upsertDesiredGuestTools draft.guestTools doc))

/-- The host and its report, if they can be anchored on. -/
def LaunchHost.readiness (launch : LaunchHost) : Option HostReadiness := do
  let session ← launch.host.activeSessionId.filter (· ≠ "")
  guard (0 < launch.host.credentialGeneration)
  some ⟨launch.host.credentialGeneration, session, launch.actual.updatedAt,
    launch.actual.reportText⟩

/-- The demand fits beside the quotas, on the report that the commit is anchored on. -/
def quotaFits (readiness : HostReadiness)
    (reservations : List Host.CpuReservationCapacityRow) : Bool :=
  (Host.hostCpuReservationCapacityFromSnapshot (parseReport readiness.actualReportText)
    reservations).any fun capacity => draft.cpuMillis ≤ capacity.availableCpuMillis

/-- Reading a host for a plan, up to the commit. -/
def planPhase : AdmitPhase → StartPhase
  | .readingHost plan hostId current =>
    match db.loadScenarioLaunchHostForUser hostId start.input.userId start.input.organizationId
        answer.now answer.reportReady with
    | .error e =>
      if plan.requestedHostId.isNone && e.isClientError then nextHost draft plan else .refused e
    | .ok launch =>
      match launch.readiness with
      | none => nextHost draft plan
      | some readiness => .admitting draft (.readingReservations plan hostId current readiness)
  | .readingReservations plan hostId current readiness =>
    if quotaFits parseReport draft readiness (db.cpuReservationsOf hostId) then
      .admitting draft (.readingSnapshot plan hostId current readiness)
    else nextHost draft plan
  | .readingSnapshot plan hostId current readiness =>
    if answer.resourcesFit then
      match Host.mutateDesiredState localeCompare current (admissionMutator draft) plan.now with
      | .error e => .refused (.other e)
      | .ok none => nextHost draft plan
      | .ok (some next) => .admitting draft
          (.gate plan.attempt plan.requestedHostId ⟨hostId, readiness, current.version, next⟩)
    else nextHost draft plan
  | .gate attempt requestedHostId allocation =>
    if db.runsHeld draft.allowDrainedAdminProof then .refused runsDrained
    else .admitting draft (.committing attempt requestedHostId allocation)
  | phase => .admitting draft phase

/-- `AdmissionCommitOutcome`. -/
inductive CommitOutcome where
  | ok
  | casLost
  | duplicateKey
  /-- Another run of the user is active; the key decides. -/
  | activeKey
  /-- The batch went through without the run. -/
  | refused
  | error (error : StartError)
deriving DecidableEq

/-- The first part of `commitAdmissionBatch`: the batch, and what its error means. -/
def commitAdmissionBatch (input : CommitInput) (dbNow : Millis) : Db × CommitOutcome :=
  match admissionStatements parseReport input dbNow with
  | none => (db, .error (.other "runtime VM access key material is incomplete"))
  | some statements =>
    match Batch.exec statements db with
    | .error .generationPositive => (db, .casLost)
    | .error .requestIdempotency => (db, .duplicateKey)
    | .error .activeKey => (db, .activeKey)
    | .error .activeSlot => (db, .activeKey)
    | .error (.constraint name) => (db, .error (.other ("constraint failed: " ++ name)))
    | .ok (db', inserted) => (db', if inserted[1]? = some 0 then .refused else .ok)

/-- What follows a commit. -/
def afterCommit (attempt : Nat) (requestedHostId : Option String) (hostId : String) :
    CommitOutcome → StartPhase
  | .ok => .admitting draft (.fencing hostId)
  | .casLost => .admitting draft
      (.checking [.gate, .account, .source, .content] (some (attempt, requestedHostId)))
  | .duplicateKey => .admitting draft (.replaying idempotencyKeyConflict)
  | .activeKey => .admitting draft .keyLookup
  | .refused => .admitting draft (.checking [.source, .gate, .account, .content] none)
  | .error e => .refused e

/-- `sourceAnchorRefusal`. -/
def Db.sourceAnchorRefusal : Option StartError :=
  match draft.candidateProof, draft.sourceAnchor with
  | some proof, _ =>
    if db.candidateAnchor
        (candidateScenarioId draft.run.organizationId proof.revision draft.run.scenarioId) proof
    then none else some scenarioCandidateNotReady
  | none, some fingerprint =>
    if db.liveSourceAnchor draft.run.scenarioId fingerprint then none
    else some scenarioSourceChanged
  | none, none => none

def Db.refusal : RefusalCheck → Option StartError
  | .gate => if db.runsHeld draft.allowDrainedAdminProof then some runsDrained else none
  | .account =>
    if db.activeAccount draft.run.userId then none else some scenarioStartAccessRevoked
  | .source => db.sourceAnchorRefusal draft
  | .content =>
    if db.contentAccess (admissionContentAccess draft.run draft.allowDrainedAdminProof) then none
    else some scenarioContentAccessChanged

/-- No check has named a reason: a lost compare-and-set is tried again. -/
def afterChecks : Option (Nat × Option String) → StartPhase
  | none => .refused scenarioStartAccessRevoked
  | some (attempt, requestedHostId) =>
    if attempt < admissionCasAttempts then
      .admitting draft (.allocating (attempt + 1) requestedHostId)
    else .refused capacityContended

/-- The phases around a commit that read and decide. -/
def decidePhase : AdmitPhase → StartPhase
  | .preparing =>
    match if draft.candidateProof.isSome then .ok none else answer.preparedHostId with
    | .ok hostId => .admitting draft
        (.allocating 1 ((hostId.filter (· ≠ "")).or (start.input.hostId.filter (· ≠ ""))))
    | .error e =>
      if e.hasCode "scenario_preparation_changed" then .admitting draft (.replaying e)
      else .refused e
  | .allocating attempt requestedHostId =>
    match answer.hostIds with
    | .error e => .refused e
    | .ok hostIds => nextHost draft ⟨attempt, requestedHostId, answer.now,
        Keyed.addAll [] (match requestedHostId with
          | some hostId => [hostId]
          | none => hostIds)⟩
  | .keyLookup =>
    if (db.loadRunByIdempotencyKey start.input.userId start.idempotencyKey).isSome then
      .admitting draft (.replaying idempotencyKeyConflict)
    else .refused (activeRunConflictError none)
  | .replaying ifNone => replayed db start (.refused ifNone)
  | .checking [] retry => afterChecks draft retry
  | .checking (check :: checks) retry =>
    match db.refusal draft check with
    | some e => .refused e
    | none => .admitting draft (.checking checks retry)
  | .fencing hostId =>
    if db.accountStillActive draft.run.userId draft.run.runId hostId then
      .accepted ⟨draft.run.runId, draft.run.scenarioId, draft.run.createdAt, false, hostId⟩
    else .admitting draft (.cancelLoading 0 answer.now hostId scenarioStartAccessRevoked)
  | phase => .admitting draft phase

/-! ## Cancelling -/

def Draft.cancelInput (hostId : String) : CancelInput :=
  ⟨draft.run.runId, draft.run.userId, hostId, draft.run.stateJson⟩

/-- The batch of one attempt to cancel, and what follows. -/
def cancelWrite (attempt : Nat) (now : Millis) (hostId : String) (error : StartError)
    (current : DesiredState) (next : Option DesiredState) : Db × StartPhase :=
  match Batch.exec (cancelStatements (draft.cancelInput hostId) current next now) db with
  | .ok (db', _) => (db', .refused error)
  | .error .generationPositive =>
    (db, if attempt + 1 < admissionCasAttempts then
      .admitting draft (.cancelLoading (attempt + 1) now hostId error)
      else .refused cancelContended)
  | .error _ => (db, .refused (.other "the cancel batch failed"))

/-- What a cancel publishes. -/
def cancelPlan (attempt : Nat) (now : Millis) (hostId : String) (error : StartError)
    (current : DesiredState) : StartPhase :=
  match Host.mutateDesiredState localeCompare current (cancelMutator (draft.cancelInput hostId))
      now with
  | .error e => .refused (.other e)
  | .ok next => .admitting draft (.cancelWriting attempt now hostId error current next)

end

/-! ## The rest of the program -/

/-- The VM is in the document, as it is or still to be stopped. -/
def keepsVm (doc : DesiredState) (vm : Host.DesiredVm) : Bool :=
  doc.vms.any fun vm' => vm = vm' || vm = { vm' with desiredPhase := .absent }

/-- What another writer may publish over a document: its next version, in normal form, which starts
no VM. -/
def writesOver (doc next : DesiredState) : Bool :=
  next.version = doc.version + 1 && next.vms.all (keepsVm doc) &&
    (next.vms.map Host.desiredVmIdentity).Nodup

/-- The columns of a run that its projections write.  The active key can only be given up. -/
def RunRow.project (run new : RunRow) : RunRow :=
  { run with
    state := new.state
    stateRank := new.stateRank
    stateJson := new.stateJson
    activeKey := if new.activeKey.isSome then run.activeKey else none
    archiveEnteredAt := new.archiveEnteredAt
    deleteRequestedAt := new.deleteRequestedAt
    solvedAt := new.solvedAt
    completedAt := new.completedAt
    failedAt := new.failedAt
    updatedAt := new.updatedAt }

inductive EnvAct where
  /-- Accounts, hosts, reports, gates, courses, the catalog and its candidates become these. -/
  | outside (tables : Outside)
  /-- The compare-and-set of another writer of the desired state lands. -/
  | writeDesired (hostId : String) (next : DesiredState)
  | commitHostCpuReservation (hostId runId : String) (now : Millis)
  | rollbackPendingHostCpuReservation (hostId runId : String) (now : Millis)
  /-- The batch of a reconcile that releases a committed quota. -/
  | releaseHostCpuReservation (hostId runId executionId : String) (now : Millis)
  | syncScenarioRuntimeResourceReservation (executionId hostId : String) (cpuMillis : Int)
      (now : Millis)
  | projectRun (runId : String) (new : RunRow)
  | projectExecution (id : String) (state : ExecutionState) (leaseExpiresAt : Option Millis)
      (now : Millis)
  | releaseSlot (executionId : String)

def Db.deleteCpuReservation (db : Db) (hostId runId : String) (state : Host.CpuReservationState) :
    Db :=
  { db with
    cpuReservations := Table.delete
      (fun row => row.hostId = hostId && row.runId = runId && row.state = state)
      db.cpuReservations }

def Db.releaseResources (db : Db) (executionId hostId : String)
    (states : List ResourceReservationState) (now : Millis) : Db :=
  { db with
    resourceReservations := Table.update
      (fun row => row.executionId = executionId && row.hostId = hostId && row.state ∈ states)
      (fun row => { row with state := .released, releasedAt := some now, updatedAt := now })
      db.resourceReservations }

def envStep (db : Db) : EnvAct → Db
  | .outside tables => { db with toOutside := tables }
  | .writeDesired hostId next =>
    match db.desired hostId with
    | some row =>
      if writesOver row.doc next then db.setDesired hostId ⟨next.version, next⟩ else db
    | none => db
  | .commitHostCpuReservation hostId runId now =>
    { db with
      cpuReservations := Table.update
        (fun row => row.hostId = hostId && row.runId = runId)
        (fun row => { row with state := .committed, expiresAt := none, updatedAt := now })
        db.cpuReservations }
  | .rollbackPendingHostCpuReservation hostId runId now =>
    (db.deleteCpuReservation hostId runId .pending).releaseResources runId hostId [.pending] now
  | .releaseHostCpuReservation hostId runId executionId now =>
    (db.deleteCpuReservation hostId runId .committed).releaseResources executionId hostId
      [.pending, .committed] now
  | .syncScenarioRuntimeResourceReservation executionId hostId cpuMillis now =>
    { db with
      resourceReservations := Table.update
        (fun row => row.executionId = executionId && row.hostId = hostId && row.state ≠ .released)
        (fun row => { row with
          cpuMillis, state := .committed, expiresAt := none, updatedAt := now })
        db.resourceReservations }
  | .projectRun runId new =>
    { db with runs := Table.update (·.runId = runId) (·.project new) db.runs }
  | .projectExecution id state leaseExpiresAt now =>
    { db with
      executions := Table.update (·.id = id)
        (fun row => { row with state, leaseExpiresAt, updatedAt := now })
        db.executions }
  | .releaseSlot executionId =>
    { db with activeSlots := Table.delete (·.executionId = executionId) db.activeSlots }

/-! ## The system -/

structure State where
  db : Db
  starts : Nat → Option Start
  /-- Every run id that was ever drawn. -/
  drawn : List String

inductive Act where
  /-- A request comes in. -/
  | start (id : Nat) (input : BeginInput)
  /-- The start sends its next statement. -/
  | advance (id : Nat) (answer : Answer)
  /-- The statement fails, and so does the start. -/
  | fail (id : Nat) (error : StartError) (now : Millis)
  | env (act : EnvAct)

def State.setStart (s : State) (id : Nat) (start : Start) : State :=
  { s with starts := Function.update s.starts id (some start) }

section

variable (localeCompare : String → String → Ordering) (parseReport : String → Json)
  (parseManifest : String → Option CandidateManifest) (s : State) (id : Nat) (start : Start)

/-- The start goes on in the phase, on the database as it is now. -/
def State.goOn (db : Db) (phase : StartPhase) : State :=
  { s with db }.setStart id { start with phase }

/-- The run is drafted, under an id that was never drawn before. -/
def build (source : StartSource) (course : CourseLecture) (material : Material) : State :=
  if material.runId ∈ s.drawn then s
  else
    { s with drawn := material.runId :: s.drawn }.setStart id
      { start with
        drew := some material.runId
        phase :=
          match draftNewRun start.input source.scenario source.candidateProof course
              start.idempotencyKey material with
          | .ok draft => .admitting draft .preparing
          | .error e => .refused e }

/-- The admission batch. -/
def commit (draft : Draft) (attempt : Nat) (requestedHostId : Option String)
    (allocation : Allocation) (answer : Answer) : State :=
  let (db, outcome) :=
    commitAdmissionBatch parseReport s.db ⟨draft, allocation, answer.now⟩ answer.dbNow
  { s with db }.setStart id
    { start with
      phase := afterCommit draft attempt requestedHostId allocation.hostId outcome
      committed := start.committed || outcome = CommitOutcome.ok }

/-- One statement of `admitNewRun`. -/
def advanceAdmission (draft : Draft) (phase : AdmitPhase) (answer : Answer) : State :=
  match phase with
  | .readingDesired plan hostId =>
    let (db, current) := s.db.loadOrCreateDesired hostId answer.agentHost plan.now
    match current with
    | .ok current =>
      s.goOn id start db (.admitting draft (.readingHost plan hostId current))
    | .error e => s.goOn id start db (.refused (.other e))
  | .readingHost .. | .readingReservations .. | .readingSnapshot .. | .gate .. =>
    s.goOn id start s.db (planPhase localeCompare parseReport s.db start draft answer phase)
  | .committing attempt requestedHostId allocation =>
    commit parseReport s id start draft attempt requestedHostId allocation answer
  | .cancelLoading attempt now hostId error =>
    let (db, current) := s.db.loadOrCreateDesired hostId answer.agentHost now
    match current with
    | .ok current =>
      s.goOn id start db (cancelPlan localeCompare draft attempt now hostId error current)
    | .error e => s.goOn id start db (.refused (.other e))
  | .cancelWriting attempt now hostId error current next =>
    let (db, phase) := cancelWrite s.db draft attempt now hostId error current next
    s.goOn id start db phase
  | _ => s.goOn id start s.db (decidePhase s.db start draft answer phase)

/-- One statement of a start. -/
def advance (answer : Answer) : State :=
  match start.phase with
  | .building source course => build s id start source course answer.material
  | .admitting draft phase =>
    advanceAdmission localeCompare parseReport s id start draft phase answer
  | .accepted _ => s
  | .refused _ => s
  | phase => s.goOn id start s.db (readPhase s.db parseManifest start answer phase)

/-- A statement throws.  After the commit that is the fence, which cancels the run. -/
def failed (error : StartError) (now : Millis) : State :=
  match start.phase with
  | .accepted _ => s
  | .refused _ => s
  | .admitting draft (.fencing hostId) =>
    s.goOn id start s.db (.admitting draft (.cancelLoading 0 now hostId error))
  | _ => s.goOn id start s.db (.refused error)

end

section

variable (localeCompare : String → String → Ordering) (parseReport : String → Json)
  (parseManifest : String → Option CandidateManifest)

def step (s : State) : Act → State
  | .start id input =>
    match s.starts id with
    | none => s.setStart id ⟨input, .opening, none, false⟩
    | some _ => s
  | .advance id answer =>
    match s.starts id with
    | some start => advance localeCompare parseReport parseManifest s id start answer
    | none => s
  | .fail id error now =>
    match s.starts id with
    | some start => failed s id start error now
    | none => s
  | .env act => { s with db := envStep s.db act }

end

end Intar.Runs
