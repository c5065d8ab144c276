import Intar.Builds.Queueing
import Intar.Lib.Trace

/-!
# The build scheduler

`lib/build-scheduler.ts` as a system of tasks over the tables: bundles being queued, assignment
passes, build reports, requeueing, stale marking, retries and the reconciliation of a desired state.
Each task is at one of its program points, and a step takes one task from one access to the database
to the next.  Any number of tasks run, in any order.

* A `Statement` is one write.  What a step does to the tables is `Tables.exec` of a statement, so
  what a property needs of the writes is said once for each of them.
* A `Move` is what a task does at a program point: a statement, the point it goes on to, and what
  becomes of its locks.
* A coordination lock is a lease.  It can lapse under its holder (`Op.lapse`), and then another task
  may take it; `asserting` is the point where a task makes sure that it still has its own.

A task that was killed is one that takes no further step.
-/

namespace Intar.Builds

open Function

open Registry (Architecture BuildStatus)
open Host (Millis DesiredBuild)

/-! ## Statements -/

/-- The conditional updates at the end of the locked sections, with what their tasks read. -/
inductive Update where
  | retry (read : BuildRow) (now : Millis)
  | report (hostId : String) (report : BuildReport) (read : BuildRow) (now : Millis)
  | requeue (hostId : String) (buildIds : List String) (now : Millis)
  | markStale (hostId : String) (buildIds : List String) (now : Millis)

def Update.now : Update → Millis
  | .retry _ now => now
  | .report _ _ _ now => now
  | .requeue _ _ now => now
  | .markStale _ _ now => now

/-- The `WHERE` of an update. -/
def Update.guard : Update → BuildRow → Bool
  | .retry read _, row =>
    row.id = read.id && row.status = read.status && row.updatedAt = read.updatedAt
  | .report hostId message read _, row =>
    row.id = message.buildId && row.hostId = some hostId && row.scenarioId = read.scenarioId &&
      row.contentHash = read.contentHash && isOnBuilder row.status
  | .requeue hostId buildIds _, row =>
    row.hostId = some hostId && row.status = .assigned && row.id ∈ buildIds
  | .markStale hostId buildIds _, row =>
    row.hostId = some hostId && row.status = .building && row.id ∈ buildIds

/-- The `SET` of an update. -/
def Update.set : Update → BuildRow → BuildRow
  | .retry read now, row =>
    { row with
      hostId := none
      status := .queued
      phase := .queued
      attempt := 0
      error := none
      logR2Key := none
      timings := { read.timings with
        queuedAt := some now, startedAt := none, finishedAt := none, lastReportAt := none } }
  | .report hostId message read _, row =>
    { row with
      hostId := some hostId
      phase := message.phase
      status := buildStatusFromPhase message.phase
      attempt := message.attempt
      error := message.error
      timings := mergeBuildTimings read.timings message }
  | .requeue _ _ _, row =>
    { row with
      hostId := none
      status := .queued
      phase := .queued
      error := some "builder disconnected before starting build" }
  | .markStale _ _ _, row =>
    { row with status := .stale, error := some "builder stopped reporting build progress" }

/-- The rows that hold a build worker of a host. -/
def BuildRow.holdsSlot (hostId : String) (row : BuildRow) : Bool :=
  row.hostId = some hostId && isOnBuilder row.status && isPrePublication row.phase

def Tables.slotsUsed (t : Tables) (hostId : String) : Nat :=
  t.builds.countP (BuildRow.holdsSlot hostId)

/-- The `WHERE` of the claim of an assignment pass; the slots are counted in the same statement. -/
def Tables.claimable (t : Tables) (buildId hostId : String) (row : BuildRow) : Bool :=
  row.id = buildId && row.status = .queued && row.hostId = none &&
    t.slotsUsed hostId < builderBuildSlots

/-- One write to the database. -/
inductive Statement where
  | none
  | upsertBundle (input : BundleInput)
  | queueBatch (input : QueueInput)
  | clearRetired (now : Millis) (queuedIds : List String)
  | claim (buildId hostId : String) (now : Millis)
  | update (update : Update)
  /-- `revokePlatformHost`: the builds on the host have failed. -/
  | revoke (hostId : String) (now : Millis)
  /-- The registry cleanup marks builds, or takes the mark away. -/
  | retire (buildIds : List String) (retiredAt : Option Millis) (now : Millis)
  | publish (hostId : String) (builds : List DesiredBuild)
  | remove (hostId : String) (buildIds : List String)

def Tables.exec (t : Tables) : Statement → Tables
  | .none => t
  | .upsertBundle input =>
    match t.upsertBundle input with
    | .ok upserted => upserted
    | .error _ => t
  | .queueBatch input =>
    match Builds.queueBatch input t with
    | .ok (queued, _) => queued
    | .error _ => t
  | .clearRetired now queuedIds => t.clearRetired now queuedIds
  | .claim buildId hostId now =>
    t.update now (t.claimable buildId hostId) fun row =>
      { row with hostId := some hostId, status := .assigned, phase := .queued }
  | .update update => t.update update.now update.guard update.set
  | .revoke hostId now =>
    t.update now (fun row => row.hostId = some hostId && isOnBuilder row.status) fun row =>
      { row with status := .failed, phase := .failed
                 error := some "Platform host access was revoked." }
  | .retire buildIds retiredAt now =>
    t.update now (fun row => row.id ∈ buildIds) fun row => { row with artifactsRetiredAt := retiredAt }
  | .publish hostId builds =>
    t.mutateDesired hostId fun d => builds.foldl (fun d build => d.upsert build) d
  | .remove hostId buildIds => t.mutateDesired hostId (·.remove buildIds)

/-! ## Reads -/

/-- The builds of some rows, with the archives of their bundles: `INNER JOIN image_build_bundles`.
-/
def Tables.joinBundles (t : Tables) (rows : List BuildRow) : List QueuedBuild :=
  rows.filterMap fun row =>
    (t.bundles.find? (·.rev = row.rev)).map fun bundle =>
      ⟨row.id, row.scenarioId, row.arch, row.rev, row.contentHash, bundle.r2Key⟩

/-- The place of a queued row: the builds of its scope that are on a builder, and those of its scope
that wait before it. -/
def Tables.queueRank (t : Tables) (waiting : List BuildRow) (row : BuildRow) : Nat :=
  t.builds.countP (fun other => other.organizationId = row.organizationId && other.arch = row.arch &&
      isOnBuilder other.status) +
    waiting.countP fun other => other.organizationId = row.organizationId && other.arch = row.arch &&
      ((compare other.createdAt row.createdAt).then (compare other.id row.id)) ≠ .gt

def Tables.loadQueuedBuildRows (t : Tables) : List QueuedBuild :=
  let waiting := t.builds.filter fun row =>
    row.status = .queued && row.hostId = none && t.bundles.any (·.rev = row.rev)
  t.joinBundles (waiting.insertionSort fun left right =>
    (((compare (t.queueRank waiting left) (t.queueRank waiting right)).then
      (compare left.createdAt right.createdAt)).then (compare left.id right.id)) ≠ .gt)

/-- The builds that a host has to build. -/
def Tables.assignments (t : Tables) (hostId : String) : List QueuedBuild :=
  t.joinBundles (t.builds.filter fun row => row.hostId = some hostId && isOnBuilder row.status)

/-- The row is still assigned to the host. -/
def Tables.isAssigned (t : Tables) (hostId buildId : String) : Bool :=
  t.builds.any fun row => row.id = buildId && row.hostId = some hostId && isOnBuilder row.status

/-! ## Tasks -/

/-- What a coordination lock is for. -/
structure Key where
  scenarioId : String
  arch : Architecture
deriving DecidableEq

def BuildRow.key (row : BuildRow) : Key := ⟨row.scenarioId, row.arch⟩

def ScenarioBuild.key (scenario : ScenarioBuild) : Key := ⟨scenario.scenarioId, scenario.arch⟩

/-- The locked sections. -/
inductive Section where
  | queue (input : BundleInput) (scenario : ScenarioBuild × String)
      (rest : List (ScenarioBuild × String))
  | retry (buildId : String) (now : Millis)
  | report (hostId : String) (report : BuildReport) (now : Millis)
  | requeue (hostId : String) (candidates : List String) (now : Millis)
  | markStale (hostId : String) (candidates : List String) (now : Millis)

/-- An assignment pass between two builds; `candidates` is what it read of the builders, counted up
as it goes. -/
structure Pass where
  candidates : List BuilderCandidate
  compileDigest : Option String
  queued : List QueuedBuild
  now : Millis

/-- Another build for a builder, or a missed claim, which counts as a taken slot only. -/
def Pass.count (pass : Pass) (hostId : String) (active : Nat) : Pass :=
  { pass with candidates := pass.candidates.map fun candidate =>
      if candidate.hostId = hostId then
        { candidate with
          activeBuildCount := candidate.activeBuildCount + active
          prePublicationBuildCount := candidate.prePublicationBuildCount + 1 }
      else candidate }

/-- The program points, each named for what comes next. -/
inductive Task where
  | idle
  /-- The loop of `queueImageBuildsFromBundle`. -/
  | bundle (input : BundleInput) (rest : List (ScenarioBuild × String))
  /-- Taking the locks `missing` of `keys`. -/
  | locking (missing keys : List Key) (work : Section)
  | inside (keys : List Key) (work : Section)
  /-- `queueImageBuildScenario` behind its batch. -/
  | clearing (keys : List Key) (input : BundleInput) (rest : List (ScenarioBuild × String))
      (queuedIds : List String)
  /-- `retryImageBuild` takes the build from the host it was on. -/
  | unpublishing (keys : List Key) (hostId : String) (read : BuildRow) (now : Millis)
  | asserting (keys : List Key) (update : Update)
  | updating (keys : List Key) (update : Update)
  /-- `removeDesiredBuildsFromHost`, and with it the task ends. -/
  | removing (hostId : String) (buildIds : List String)
  | assigning (pass : Pass)
  | publishing (pass : Pass) (hostId : String) (build : QueuedBuild)
  | rechecking (pass : Pass) (hostId : String) (build : QueuedBuild)
  | withdrawing (pass : Pass) (hostId : String) (build : QueuedBuild)
  /-- `reconcileAssignedBuildsForHost` behind each of its accesses. -/
  | comparing (hostId : String) (assignments : List QueuedBuild)
  | republishing (hostId : String) (assignments : List QueuedBuild)
  | reviewing (hostId : String) (assignments : List QueuedBuild)

/-- What becomes of a task's locks. -/
inductive LockMove where
  | keep
  | take (key : Key)
  | release

structure Move where
  statement : Statement
  next : Task
  locks : LockMove

/-- What a task sees of the locks. -/
structure LockView where
  (free mine : Key → Bool)

/-- The task ends, and leaves its locks. -/
def Move.stop : Move := ⟨.none, .idle, .release⟩

section

variable (localeCompare : String → String → Ordering) (t : Tables) (locks : LockView)

/-- The assertion behind a section: a bundle whose lock is gone is not gone on with. -/
def nextScenario (keys : List Key) (input : BundleInput) (rest : List (ScenarioBuild × String)) :
    Task :=
  if keys.all locks.mine then .bundle input rest else .idle

/-- The first access of a locked section.  `ok` says that the host is the one the section was
entered for: still connected with this session, or still away. -/
def Section.move (keys : List Key) (ok : Bool) : Section → Move
  | .queue input scenario rest =>
    match queueBatch (input.queueInput scenario) t with
    | .error _ => .stop
    | .ok (_, []) =>
      ⟨.queueBatch (input.queueInput scenario), nextScenario locks keys input rest, .release⟩
    | .ok (_, queuedIds) =>
      ⟨.queueBatch (input.queueInput scenario), .clearing keys input rest queuedIds, .keep⟩
  | .retry buildId now =>
    match t.builds.find? (·.id = buildId) with
    | none => .stop
    | some row =>
      if canRetryImageBuild row.status row.error then
        match row.hostId with
        | none => ⟨.none, .asserting keys (.retry row now), .keep⟩
        | some hostId => ⟨.none, .unpublishing keys hostId row now, .keep⟩
      else .stop
  | .report hostId message now =>
    match t.builds.find? (fun row => row.id = message.buildId && ok) with
    | none => .stop
    | some row =>
      if shouldAcknowledgeTerminalBuildReport row hostId message then
        ⟨.none, .removing hostId [message.buildId], .release⟩
      else if shouldAcceptBuildReport row hostId message then
        ⟨.none, .asserting keys (.report hostId message row now), .keep⟩
      else .stop
  | .requeue hostId candidates now =>
    let found := t.builds.filter fun row =>
      row.hostId = some hostId && row.status = .assigned && row.id ∈ candidates && ok
    if found = [] then .stop
    else ⟨.none, .asserting keys (.requeue hostId (found.map BuildRow.id) now), .keep⟩
  | .markStale hostId candidates now =>
    let found := t.builds.filter fun row =>
      row.hostId = some hostId && row.id ∈ candidates && isSilentBuildingBuild row now
    if found = [] then .stop
    else ⟨.none, .asserting keys (.markStale hostId (found.map BuildRow.id) now), .keep⟩

/-- The ids an update returns. -/
def Tables.updated (update : Update) : List String := (t.builds.filter update.guard).map BuildRow.id

/-- The update of a section.  The builds it takes from a host leave the desired state within the
section; a build that has ended leaves it behind the section. -/
def Update.move (ok : Bool) (update : Update) : Move :=
  match update with
  | .retry _ _ => ⟨.update update, .idle, .release⟩
  | .report hostId message _ _ =>
    if ok then
      ⟨.update update,
        if isTerminalBuildPhase message.phase && t.updated update ≠ [] then
          .removing hostId [message.buildId]
        else .idle,
        .release⟩
    else .stop
  | .requeue hostId _ _ | .markStale hostId _ _ =>
    if t.updated update = [] then ⟨.update update, .idle, .release⟩
    else ⟨.update update, .removing hostId (t.updated update), .keep⟩

/-- The step of a task.  `ok` is false where a lock is not had in time, a desired state cannot be
written, or the host is no longer the one it was. -/
def Task.move (ok : Bool) : Task → Move
  | .idle => ⟨.none, .idle, .keep⟩
  | .bundle _ [] => ⟨.none, .idle, .keep⟩
  | .bundle input (scenario :: rest) =>
    ⟨.none, .locking [scenario.1.key] [scenario.1.key] (.queue input scenario rest), .keep⟩
  | .locking missing keys work =>
    if !ok then .stop
    else match missing with
      | [] => ⟨.none, .inside keys work, .keep⟩
      | key :: missing =>
        if locks.free key then ⟨.none, .locking missing keys work, .take key⟩
        else ⟨.none, .locking (key :: missing) keys work, .keep⟩
  | .inside keys work => Section.move t locks keys ok work
  | .clearing keys input rest queuedIds =>
    ⟨.clearRetired input.nowUnixMs queuedIds, nextScenario locks keys input rest, .release⟩
  | .unpublishing keys hostId read now =>
    if ok then ⟨.remove hostId [read.id], .asserting keys (.retry read now), .keep⟩ else .stop
  | .asserting keys update =>
    if keys.all locks.mine then ⟨.none, .updating keys update, .keep⟩ else .stop
  | .updating _ update => Update.move t ok update
  | .removing hostId buildIds => if ok then ⟨.remove hostId buildIds, .idle, .release⟩ else .stop
  | .assigning pass =>
    match pass.queued with
    | [] => ⟨.none, .idle, .keep⟩
    | build :: queued =>
      let pass := { pass with queued }
      match chooseLeastLoadedBuilder localeCompare pass.candidates build pass.compileDigest with
      | none => ⟨.none, .assigning pass, .keep⟩
      | some builder =>
        if t.builds.any (t.claimable build.id builder.hostId) then
          ⟨.claim build.id builder.hostId pass.now, .publishing pass builder.hostId build, .keep⟩
        else ⟨.none, .assigning (pass.count builder.hostId 0), .keep⟩
  | .publishing pass hostId build =>
    ⟨if ok then .publish hostId [desiredBuildFromSource build] else .none,
      .rechecking pass hostId build, .keep⟩
  | .rechecking pass hostId build =>
    if t.isAssigned hostId build.id then ⟨.none, .assigning (pass.count hostId 1), .keep⟩
    else ⟨.none, .withdrawing pass hostId build, .keep⟩
  | .withdrawing pass hostId build =>
    if ok then ⟨.remove hostId [build.id], .assigning pass, .keep⟩ else .stop
  | .comparing hostId assignments =>
    if assignments.all fun build => build.id ∈ (t.desired hostId).ids then ⟨.none, .idle, .keep⟩
    else ⟨.none, .republishing hostId assignments, .keep⟩
  | .republishing hostId assignments =>
    if ok then
      ⟨.publish hostId (assignments.map desiredBuildFromSource), .reviewing hostId assignments,
        .keep⟩
    else .stop
  | .reviewing hostId assignments =>
    match (assignments.map QueuedBuild.id).filter fun id => !t.isAssigned hostId id with
    | [] => ⟨.none, .idle, .keep⟩
    | lost => ⟨.none, .removing hostId lost, .keep⟩

end

/-! ## The system -/

/-- The calls a task begins with. -/
inductive Job where
  | queueImageBuildsFromBundle (input : BundleInput)
  | assignQueuedImageBuilds (candidates : List BuilderCandidate) (compileDigest : Option String)
      (now : Millis)
  | retryImageBuild (buildId : String) (now : Millis)
  | recordImageBuildReport (hostId : String) (report : BuildReport) (now : Millis)
  | requeueAssignedBuildsForDisconnectedHost (hostId : String) (now : Millis)
  | markSilentBuildingBuildsStale (hostId : String) (now : Millis)
  | reconcileAssignedBuildsForHost (hostId : String)

/-- The task with the locks of these rows. -/
def lockRows (rows : List BuildRow) (work : Section) : Task :=
  if rows = [] then .idle
  else .locking (rows.map BuildRow.key).dedup (rows.map BuildRow.key).dedup work

/-- The first access of a call. -/
def Job.move (t : Tables) : Job → Move
  | .queueImageBuildsFromBundle input =>
    match t.upsertBundle input with
    | .error _ => ⟨.none, .idle, .keep⟩
    | .ok _ => ⟨.upsertBundle input, .bundle input input.scenarios, .keep⟩
  | .assignQueuedImageBuilds candidates compileDigest now =>
    ⟨.none, .assigning ⟨candidates, compileDigest, t.loadQueuedBuildRows, now⟩, .keep⟩
  | .retryImageBuild buildId now =>
    ⟨.none, lockRows (t.builds.find? (·.id = buildId)).toList (.retry buildId now), .keep⟩
  | .recordImageBuildReport hostId report now =>
    ⟨.none, lockRows (t.builds.find? (·.id = report.buildId)).toList (.report hostId report now),
      .keep⟩
  | .requeueAssignedBuildsForDisconnectedHost hostId now =>
    let candidates := t.builds.filter fun row => row.hostId = some hostId && row.status = .assigned
    ⟨.none, lockRows candidates (.requeue hostId (candidates.map BuildRow.id) now), .keep⟩
  | .markSilentBuildingBuildsStale hostId now =>
    let candidates := t.builds.filter fun row =>
      row.hostId = some hostId && isSilentBuildingBuild row now
    ⟨.none, lockRows candidates (.markStale hostId (candidates.map BuildRow.id) now), .keep⟩
  | .reconcileAssignedBuildsForHost hostId =>
    match t.assignments hostId with
    | [] => ⟨.none, .idle, .keep⟩
    | assignments => ⟨.none, .comparing hostId assignments, .keep⟩

structure State where
  tables : Tables
  /-- The task that has a lock. -/
  locks : Key → Option Nat
  tasks : Nat → Task

inductive Op where
  /-- An idle task begins a call. -/
  | start (task : Nat) (job : Job)
  | advance (task : Nat) (ok : Bool)
  /-- A lease runs out. -/
  | lapse (key : Key)
  | revoke (hostId : String) (now : Millis)
  | retire (buildIds : List String) (retiredAt : Option Millis) (now : Millis)

def LockMove.apply (task : Nat) (locks : Key → Option Nat) : LockMove → Key → Option Nat
  | .keep => locks
  | .take key => update locks key (some task)
  | .release => fun key => if locks key = some task then none else locks key

def State.view (s : State) (task : Nat) : LockView :=
  ⟨fun key => s.locks key = none, fun key => s.locks key = some task⟩

/-- A task does what its move says. -/
def State.make (s : State) (task : Nat) (move : Move) : State where
  tables := s.tables.exec move.statement
  locks := move.locks.apply task s.locks
  tasks := update s.tasks task move.next

section

variable (localeCompare : String → String → Ordering)

def step (s : State) : Op → State
  | .start task job =>
    match s.tasks task with
    | .idle => s.make task (job.move s.tables)
    | _ => s
  | .advance task ok => s.make task ((s.tasks task).move localeCompare s.tables (s.view task) ok)
  | .lapse key => { s with locks := update s.locks key none }
  | .revoke hostId now => { s with tables := s.tables.exec (.revoke hostId now) }
  | .retire buildIds retiredAt now =>
    { s with tables := s.tables.exec (.retire buildIds retiredAt now) }

/-- The write of a step. -/
def State.statement (s : State) : Op → Statement
  | .start task job =>
    match s.tasks task with
    | .idle => (job.move s.tables).statement
    | _ => .none
  | .advance task ok => ((s.tasks task).move localeCompare s.tables (s.view task) ok).statement
  | .lapse _ => .none
  | .revoke hostId now => .revoke hostId now
  | .retire buildIds retiredAt now => .retire buildIds retiredAt now

/-- All that a step does to the tables is one statement. -/
theorem step_tables (s : State) (op : Op) :
    (step localeCompare s op).tables = s.tables.exec (s.statement localeCompare op) := by
  cases op with
  | start =>
    simp only [step, State.statement]
    split
    · rfl
    · rfl
  | _ => rfl

end

/-- No task runs. -/
def State.Quiet (s : State) : Prop := ∀ task, s.tasks task = .idle

/-- The system at rest over some tables. -/
def State.rest (t : Tables) : State := ⟨t, fun _ => none, fun _ => .idle⟩

/-- The task that takes a step. -/
def Op.task : Op → Option Nat
  | .start task _ => some task
  | .advance task _ => some task
  | _ => none

def Task.isIdle : Task → Bool
  | .idle => true
  | _ => false

variable {t : Tables}

section

variable {localeCompare : String → String → Ordering}

theorem step_tasks_of_ne {s : State} {op : Op} {task : Nat} (h : op.task ≠ some task) :
    (step localeCompare s op).tasks task = s.tasks task := by
  cases op with
  | start other =>
    have hne : task ≠ other := fun heq => h (by rw [heq]; rfl)
    simp only [step]
    split
    · exact update_of_ne hne ..
    · rfl
  | advance other =>
    have hne : task ≠ other := fun heq => h (by rw [heq]; rfl)
    exact update_of_ne hne ..
  | _ => rfl

/-- Only the tasks that took a step can be running. -/
theorem quiet_of_isIdle {ops : List Op} (h : ∀ task ∈ ops.filterMap Op.task,
      ((Trace.run (step localeCompare) (State.rest t) ops).tasks task).isIdle = true) :
    (Trace.run (step localeCompare) (State.rest t) ops).Quiet := by
  intro task
  by_cases hmem : task ∈ ops.filterMap Op.task
  · have hidle := h task hmem
    cases hcase : (Trace.run (step localeCompare) (State.rest t) ops).tasks task with
    | idle => rfl
    | _ =>
      rw [hcase] at hidle
      cases hidle
  · refine Trace.run_invariant_of_mem (P := fun s : State => s.tasks task = .idle)
      (fun s op hop hs => ?_) rfl
    rw [step_tasks_of_ne fun heq => hmem (List.mem_filterMap.mpr ⟨op, hop, heq⟩)]
    exact hs

end

/-! ## What a step can do -/

/-- The row that a retry has read and not yet written. -/
def Task.retryRow : Task → Option BuildRow
  | .unpublishing _ _ read _ => some read
  | .asserting _ (.retry read _) => some read
  | .updating _ (.retry read _) => some read
  | _ => none

/-- The writes that neither end a locked section nor add to a desired state. -/
inductive Statement.Plain : Statement → Prop
  | none : Plain .none
  | upsertBundle (input : BundleInput) : Plain (.upsertBundle input)
  | queueBatch (input : QueueInput) : Plain (.queueBatch input)
  | clearRetired (now : Millis) (queuedIds : List String) : Plain (.clearRetired now queuedIds)
  | claim (buildId hostId : String) (now : Millis) : Plain (.claim buildId hostId now)
  | remove (hostId : String) (buildIds : List String) : Plain (.remove hostId buildIds)

/-- **The moves of a task**, as far as the properties below tell them apart: the stages of a retry,
the updates of the locked sections, the two publications, and the others. -/
inductive Move.Kind (t : Tables) (task : Task) : Move → Prop
  | plain {move : Move} (hstatement : move.statement.Plain) (hnext : move.next.retryRow = none) :
      Kind t task move
  | reads {move : Move} (keys : List Key) (read : BuildRow) (now : Millis) (hread : read ∈ t.builds)
      (hretry : canRetryImageBuild read.status read.error = true) (hstatement : move.statement = .none)
      (hnext : (read.hostId = none ∧ move.next = .asserting keys (.retry read now)) ∨
        ∃ hostId, read.hostId = some hostId ∧ move.next = .unpublishing keys hostId read now) :
      Kind t task move
  | unpublishes (keys : List Key) (hostId : String) (read : BuildRow) (now : Millis)
      (htask : task = .unpublishing keys hostId read now) :
      Kind t task ⟨.remove hostId [read.id], .asserting keys (.retry read now), .keep⟩
  | asserts (keys : List Key) (update : Update) (htask : task = .asserting keys update) :
      Kind t task ⟨.none, .updating keys update, .keep⟩
  | updates {move : Move} (keys : List Key) (update : Update) (htask : task = .updating keys update)
      (hstatement : move.statement = .update update) (hnext : move.next.retryRow = none) :
      Kind t task move
  | publishes (pass : Pass) (hostId : String) (build : QueuedBuild)
      (htask : task = .publishing pass hostId build) :
      Kind t task ⟨.publish hostId [desiredBuildFromSource build], .rechecking pass hostId build,
        .keep⟩
  | republishes (hostId : String) (assignments : List QueuedBuild)
      (htask : task = .republishing hostId assignments) :
      Kind t task ⟨.publish hostId (assignments.map desiredBuildFromSource),
        .reviewing hostId assignments, .keep⟩

section

variable {locks : LockView} {keys : List Key} {ok : Bool} {task : Task}

theorem kind_stop : Move.Kind t task .stop := .plain .none rfl

theorem retryRow_nextScenario (input : BundleInput) (rest : List (ScenarioBuild × String)) :
    (nextScenario locks keys input rest).retryRow = none := by
  rw [nextScenario]
  split
  · rfl
  · rfl

theorem retryRow_lockRows (rows : List BuildRow) (work : Section) :
    (lockRows rows work).retryRow = none := by
  rw [lockRows]
  split
  · rfl
  · rfl

theorem Section.kind_move (work : Section) :
    Move.Kind t task (Section.move t locks keys ok work) := by
  cases work with
  | queue input _ rest =>
    simp only [Section.move]
    split
    · exact kind_stop
    · exact .plain (.queueBatch _) (retryRow_nextScenario input rest)
    · exact .plain (.queueBatch _) rfl
  | retry _ now =>
    simp only [Section.move]
    split
    · exact kind_stop
    rename_i row hfind
    split
    · rename_i hretry
      have hrow := List.mem_of_find?_eq_some hfind
      split
      · rename_i hho
        exact .reads keys row now hrow hretry rfl (.inl ⟨hho, rfl⟩)
      · rename_i hostId hho
        exact .reads keys row now hrow hretry rfl (.inr ⟨hostId, hho, rfl⟩)
    · exact kind_stop
  | report =>
    simp only [Section.move]
    split
    · exact kind_stop
    split
    · exact .plain .none rfl
    split
    · exact .plain .none rfl
    · exact kind_stop
  | requeue | markStale =>
    simp only [Section.move]
    split
    · exact kind_stop
    · exact .plain .none rfl

theorem Update.kind_move (update : Update) :
    Move.Kind t (.updating keys update) (Update.move t ok update) := by
  cases update with
  | retry => exact .updates keys _ rfl rfl rfl
  | report =>
    simp only [Update.move]
    split
    · refine .updates keys _ rfl rfl ?_
      split
      · rfl
      · rfl
    · exact kind_stop
  | requeue | markStale =>
    simp only [Update.move]
    split
    · exact .updates keys _ rfl rfl rfl
    · exact .updates keys _ rfl rfl rfl

variable (localeCompare : String → String → Ordering)

theorem Task.kind_move (task : Task) : Move.Kind t task (task.move localeCompare t locks ok) := by
  cases task with
  | idle => exact .plain .none rfl
  | bundle _ rest =>
    cases rest with
    | nil | cons => exact .plain .none rfl
  | locking missing =>
    simp only [Task.move]
    split_ifs
    · exact kind_stop
    cases missing with
    | nil => exact .plain .none rfl
    | cons =>
      dsimp only
      split
      · exact .plain .none rfl
      · exact .plain .none rfl
  | inside _ work => exact work.kind_move
  | clearing _ input rest =>
    exact .plain (.clearRetired _ _) (retryRow_nextScenario input rest)
  | unpublishing keys hostId read now =>
    simp only [Task.move]
    split
    · exact .unpublishes keys hostId read now rfl
    · exact kind_stop
  | asserting keys update =>
    simp only [Task.move]
    split
    · exact .asserts keys update rfl
    · exact kind_stop
  | updating _ update => exact update.kind_move
  | removing | withdrawing =>
    simp only [Task.move]
    split
    · exact .plain (.remove _ _) rfl
    · exact kind_stop
  | assigning =>
    simp only [Task.move]
    split
    · exact .plain .none rfl
    split
    · exact .plain .none rfl
    split
    · exact .plain (.claim _ _ _) rfl
    · exact .plain .none rfl
  | publishing pass hostId build =>
    simp only [Task.move]
    split
    · exact .publishes pass hostId build rfl
    · exact .plain .none rfl
  | rechecking | comparing | reviewing =>
    simp only [Task.move]
    split
    · exact .plain .none rfl
    · exact .plain .none rfl
  | republishing hostId assignments =>
    simp only [Task.move]
    split
    · exact .republishes hostId assignments rfl
    · exact kind_stop

theorem Job.kind_move (job : Job) : Move.Kind t task (job.move t) := by
  cases job with
  | queueImageBuildsFromBundle input =>
    simp only [Job.move]
    split
    · exact .plain .none rfl
    · exact .plain (.upsertBundle input) rfl
  | assignQueuedImageBuilds => exact .plain .none rfl
  | retryImageBuild | recordImageBuildReport | requeueAssignedBuildsForDisconnectedHost =>
    exact .plain .none (retryRow_lockRows _ _)
  | markSilentBuildingBuildsStale => exact .plain .none (retryRow_lockRows _ _)
  | reconcileAssignedBuildsForHost =>
    simp only [Job.move]
    split
    · exact .plain .none rfl
    · exact .plain .none rfl

theorem State.kind_advance (s : State) (task : Nat)
    (ok : Bool) : Move.Kind s.tables (s.tasks task)
      ((s.tasks task).move localeCompare s.tables (s.view task) ok) :=
  Task.kind_move localeCompare (s.tasks task)

end

/-! ## Ids stay unique -/

theorem uniqueIds_of_builds {t' : Tables} (h : t.UniqueIds) (hblds : t'.builds = t.builds) :
    t'.UniqueIds := by
  rwa [Tables.UniqueIds, hblds]

theorem uniqueIds_exec (h : t.UniqueIds) (statement : Statement) :
    (t.exec statement).UniqueIds := by
  cases statement with
  | none => exact h
  | upsertBundle =>
    simp only [Tables.exec]
    split
    · rename_i hups
      exact uniqueIds_of_builds h (upsertBundle_eq_ok hups).1
    · exact h
  | queueBatch =>
    simp only [Tables.exec]
    split
    · rename_i hbat
      refine uniqueIds_insertOrRequeue ?_ hbat
      exact uniqueIds_update (fun _ => rfl) (uniqueIds_of_builds h rfl)
    · exact h
  | clearRetired | claim | revoke | retire => exact uniqueIds_update (fun _ => rfl) h
  | update update => exact uniqueIds_update (fun _ => by cases update <;> rfl) h
  | publish | remove => exact uniqueIds_of_builds h rfl

namespace Demo

/-- A queued build of the public catalog. -/
def build (id scenarioId contentHash : String) : BuildRow where
  id
  organizationId := none
  scenarioId
  arch := .x86_64
  rev := "rev"
  contentHash
  catalogChannel := .live
  hostId := none
  status := .queued
  phase := .queued
  attempt := 0
  error := none
  logR2Key := none
  timings := ⟨some 1, none, none, none⟩
  artifactsRetiredAt := none
  createdAt := 1
  updatedAt := 1
  revision := 0

def tables (builds : List BuildRow) : Tables where
  builds
  bundles := [⟨"rev", none, "bundles/rev", ⟨[], none⟩, 1, 1⟩]
  desired := fun _ => .empty

/-- A builder without builds, and a pass that finds it. -/
def assignment (now : Millis) : Job :=
  .assignQueuedImageBuilds [⟨"builder", true, some .x86_64, true, false, 0, 0, none, none⟩] none now

def report (row : BuildRow) (phase : BuildPhase) (now : Millis) : Job :=
  .recordImageBuildReport "builder"
    ⟨row.id, "builder", row.scenarioId, row.contentHash, phase, 1, none, none, none, now⟩ now

/-- A task begins a call and takes so many steps in it. -/
def call (task : Nat) (job : Job) (steps : Nat) : List Op :=
  .start task job :: List.replicate steps (.advance task true)

end Demo

end Intar.Builds
