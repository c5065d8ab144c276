import Intar.Runs.Source

/-!
# The admission batch

The one transaction that admits a run (`admissionStatements` in `lib/scenario-runs/begin.ts`).  Its
statements guard themselves: the run is inserted if the account, the host, the host's report, the
course and the image source are still what the start has seen, and every later statement selects
from the row of the run.  Two *sentinels*, inserts that violate a check whenever they insert
anything, abort the batch when the run was refused or when the desired state had moved on.

`exec_admissionStatements` says what this comes to.  A batch that commits changed nothing, or it is
`Db.admitRun`: it added the run with everything that belongs to it, while the desired state of the host
was the one the plan was made for and all the anchors held.
-/

namespace Intar.Runs

open Batch

open Registry (ImageKey)
open Host (Millis DesiredVm DesiredState DesiredRow)
open List

/-! ## What a start commits -/

/-- The host snapshot that a plan was made from. -/
structure HostReadiness where
  credentialGeneration : Int
  activeSessionId : String
  actualReportedAt : Millis
  actualReportText : String
deriving DecidableEq

/-- `AdmissionHostAllocation`. -/
structure Allocation where
  hostId : String
  readiness : HostReadiness
  expectedVersion : Nat
  next : DesiredState
deriving DecidableEq

structure ResourceDemand where
  (cpuMillis memoryMib worstCaseDiskMib : Int)
deriving DecidableEq

/-- A `RuntimeVmSpec` with the id of its row. -/
structure RuntimeVmSpec where
  (runtimeVmId vmId : String)
  ordinal : Nat
  runtimeVmName : String
  imageKey : ImageKey
  imageSha256 : String
  (cpuMillis memoryMib diskMib : Int)
deriving DecidableEq

structure EncryptedKey where
  (ciphertextB64 ivB64 : String)
deriving DecidableEq

/-- A run that is ready to be admitted, before it has a host. -/
structure Draft where
  run : RunRow
  sshKeyRows : List SshKeyRow
  runtimeVms : List RuntimeVmSpec
  accessKeys : List EncryptedKey
  desiredVms : List DesiredVm
  guestTools : Host.DesiredGuestTools
  cpuMillis : Int
  reservationResources : ResourceDemand
  leaseExpiresAt : Option Millis
  allowDrainedAdminProof : Bool
  candidateProof : Option CandidateProof
  sourceAnchor : Option (List ImageRef)
deriving DecidableEq

/-- `AdmissionCommitInput`: the draft with its host, at a time. -/
structure CommitInput where
  draft : Draft
  desired : Allocation
  now : Millis
deriving DecidableEq

/-- The run as it is inserted. -/
def CommitInput.run (input : CommitInput) : RunRow :=
  { input.draft.run with hostId := input.desired.hostId }

def runtimePendingResourceReservationTtlMs : Millis := 5 * 60000

def hostHeartbeatTtlMs : Millis := 90000

def hostDegradedAfterMs : Millis := 60000

/-! ## Guards -/

/-- `json_extract(report, '$.relay_connected') = 1`. -/
def relayConnected (report : Json) : Bool :=
  match report.field "relay_connected" with
  | some (.bool b) => b
  | some (.num q) => q = 1
  | _ => false

section

-- `JSON.parse` of a report column, and what SQLite reads in it.
variable (parseReport : String → Json)

/-- `admissionHostReadinessCondition`: the host and its report are the ones the plan was made from,
and neither is stale by the clock of the database. -/
def Db.hostReady (db : Db) (host : HostRow) (readiness : HostReadiness) (dbNow : Millis) : Bool :=
  host.connected && host.activeSessionId = some readiness.activeSessionId &&
  host.credentialGeneration = readiness.credentialGeneration &&
  (host.lastHeartbeatAt.any fun heartbeat => dbNow - hostHeartbeatTtlMs ≤ heartbeat) &&
  db.actual.any fun actual => actual.hostId = host.id &&
    actual.updatedAt = readiness.actualReportedAt &&
    dbNow - hostDegradedAfterMs ≤ actual.updatedAt &&
    actual.reportText = readiness.actualReportText &&
    (host.scope = some .platform || relayConnected (parseReport actual.reportText))

end

/-- `admissionContentAccess`. -/
def admissionContentAccess (run : RunRow) (allowDrainedAdminProof : Bool) : ContentAccess where
  userId := run.userId
  organizationId := run.organizationId
  scenarioId := run.scenarioId
  courseScopeKey := run.courseScopeKey
  courseId := run.courseId
  lectureId := run.lectureId
  allowSequenceBypass := run.requestScope.any (·.allowSequenceBypass)
  requiresAdmin := allowDrainedAdminProof || run.requestScope.any (·.allowDrainedAdminProof) ||
    run.requestScope.any (·.allowSequenceBypass)

/-- The anchor on the source of the images.  The scenario of a live anchor is the sixth bound value:
the number is that of the `scenario_id` column, but the host id is not bound, so the value is the
scenario name. -/
def Db.sourceAnchorHolds (db : Db) (draft : Draft) : Bool :=
  match draft.candidateProof, draft.sourceAnchor with
  | some proof, _ =>
    db.candidateAnchor
      (candidateScenarioId draft.run.organizationId proof.revision draft.run.scenarioId) proof
  | none, some fingerprint => db.liveSourceAnchor draft.run.scenarioName fingerprint
  | none, none => true

/-! ## Statements -/

abbrev Query := Statement Db DbError

/-- Insert a row where the condition holds. -/
def insertWhere (condition : Db → Bool) (insert : Db → Except DbError Db) : Query := fun db =>
  if condition db then (insert db).map fun db' => (db', 1) else .ok (db, 0)

/-- `INSERT … SELECT … FROM scenario_runs run WHERE run.run_id = runId AND condition`. -/
def insertForRun (runId : String) (condition : Db → RunRow → Bool)
    (insert : RunRow → Db → Except DbError Db) : Query := fun db =>
  match (db.findRun runId).filter (condition db) with
  | some run => (insert run db).map fun db' => (db', 1)
  | none => .ok (db, 0)

/-- A row that the check on the generation refuses. -/
def sentinelExecution (id : String) (run : RunRow) (at₁ at₂ : Millis) : ExecutionRow where
  id
  userId := run.userId
  organizationId := run.organizationId
  hostId := run.hostId
  domainId := run.runId
  generation := 0
  state := .queued
  leaseExpiresAt := none
  createdAt := at₁
  updatedAt := at₂

section

variable (parseReport : String → Json) (input : CommitInput)

def CommitInput.execution : ExecutionRow where
  id := input.run.runtimeExecutionId.getD input.run.runId
  userId := input.run.userId
  organizationId := input.run.organizationId
  hostId := input.run.hostId
  domainId := input.run.runId
  generation := 1
  state := .provisioning
  leaseExpiresAt := input.draft.leaseExpiresAt
  createdAt := input.now
  updatedAt := input.now

def runtimeExecutionStatement : Query :=
  insertWhere
    (fun db => (db.hosts.find? (·.id = input.run.hostId)).any fun host => !host.disabled &&
      db.metalAdmission host input.run.userId input.run.organizationId)
    (Db.insertExecution input.execution)

/-- The condition of the run insert on the host row. -/
def Db.admits (db : Db) (dbNow : Millis) (host : HostRow) : Bool :=
  !host.disabled && host.role = "agent" && host.scenarioEnabled &&
  db.metalAdmission host input.run.userId input.run.organizationId &&
  db.hostReady parseReport host input.desired.readiness dbNow &&
  db.contentAccess (admissionContentAccess input.run input.draft.allowDrainedAdminProof) &&
  !db.runsHeld input.draft.allowDrainedAdminProof &&
  db.sourceAnchorHolds input.draft

def insertRunStatement (dbNow : Millis) : Query :=
  insertWhere
    (fun db => (db.hosts.find? (·.id = input.run.hostId)).any (db.admits parseReport input dbNow))
    (Db.insertRun input.run)

/-- Aborts the batch when the run was refused although the account is active. -/
def runRefusedSentinelStatement : Query :=
  insertWhere
    (fun db => (db.findRun input.run.runId).isNone && db.activeAccount input.run.userId)
    (Db.insertExecution
      (sentinelExecution ("__admission_run_refused__:" ++ input.run.runId) input.run input.now
        input.now))

def sshKeyStatement (key : SshKeyRow) : Query :=
  insertForRun key.runId
    (fun _ run => run.userId = input.run.userId && run.hostId = input.run.hostId &&
      run.state = .provisioning)
    (fun _ => Db.insertSshKey key)

/-- Publish the VMs of the run, if the desired state still has the version of the plan. -/
def desiredStateCasStatement : Query := fun db =>
  if (db.desired input.run.hostId).any (·.version = input.desired.expectedVersion) ∧
      (db.findRun input.run.runId).any (·.hostId = input.run.hostId) then
    .ok (db.setDesired input.run.hostId ⟨input.desired.next.version, input.desired.next⟩, 1)
  else .ok (db, 0)

/-- The desired state of the host has a VM of the run. -/
def Db.desiresRun (db : Db) (hostId runId : String) : Bool :=
  (db.desired hostId).any fun row => row.doc.vms.any (·.runId = runId)

/-- Aborts the batch when the desired state has no VM of the run. -/
def casSentinelStatement : Query :=
  insertForRun input.run.runId (fun db run => !db.desiresRun run.hostId run.runId)
    (fun run => Db.insertExecution
      (sentinelExecution ("__admission_desired_cas__:" ++ run.runId) run run.createdAt
        run.updatedAt))

def CommitInput.cpuReservation : CpuReservationRow where
  runId := input.run.runId
  hostId := input.run.hostId
  cpuMillis := input.draft.cpuMillis
  state := .committed
  expiresAt := none
  createdAt := input.now
  updatedAt := input.now

/-- `admissionCpuQuotaStatement`. -/
def cpuQuotaStatement : Query :=
  insertForRun input.run.runId
    (fun db run => run.userId = input.run.userId && run.hostId = input.run.hostId &&
      (db.desired run.hostId).any (·.version = input.desired.next.version))
    (fun _ => Db.insertCpuReservation input.cpuReservation)

/-- The run is there with its own id as its execution, and is being provisioned. -/
def isProvisioned (runId : String) (run : RunRow) : Bool :=
  run.runtimeExecutionId = some runId && run.state = .provisioning

def CommitInput.runtimeVmRow (vm : RuntimeVmSpec) : RuntimeVmRow where
  id := vm.runtimeVmId
  executionId := input.run.runId
  vmId := vm.vmId
  ordinal := vm.ordinal
  runtimeVmName := vm.runtimeVmName
  imageKey := vm.imageKey
  imageSha256 := vm.imageSha256
  cpuMillis := vm.cpuMillis
  memoryMib := vm.memoryMib
  diskMib := vm.diskMib
  createdAt := input.now
  updatedAt := input.now

/-- The first authorized key of the desired VM with the name. -/
def CommitInput.publicKey (vm : RuntimeVmSpec) : String :=
  ((input.draft.desiredVms.find? (·.vmName = vm.runtimeVmName)).bind
    (·.sshAuthorizedKeysOpenssh.head?)).getD ""

def CommitInput.accessKeyRow (vm : RuntimeVmSpec) (key : EncryptedKey) : AccessKeyRow where
  runtimeVmId := vm.runtimeVmId
  executionId := input.run.runId
  publicKeyOpenssh := input.publicKey vm
  privateKeyCiphertextB64 := key.ciphertextB64
  privateKeyIvB64 := key.ivB64
  createdAt := input.now

/-- The two rows of a VM: the VM itself and the key to it. -/
def runtimeVmStatement (vm : RuntimeVmSpec) (key : EncryptedKey) : List Query :=
  [insertForRun input.run.runId (fun _ => isProvisioned input.run.runId)
      (fun _ => Db.insertRuntimeVm (input.runtimeVmRow vm)),
    insertForRun input.run.runId (fun _ => isProvisioned input.run.runId)
      (fun _ => Db.insertAccessKey (input.accessKeyRow vm key))]

/-- The VMs with their keys, if there is a key for every VM. -/
def CommitInput.keyedVms : Option (List (RuntimeVmSpec × EncryptedKey)) :=
  if input.draft.runtimeVms.length ≤ input.draft.accessKeys.length ∧
      input.draft.runtimeVms.all (fun vm => input.publicKey vm ≠ "") then
    some (input.draft.runtimeVms.zip input.draft.accessKeys)
  else none

def CommitInput.resourceReservation (executionId : String) : ResourceReservationRow where
  executionId
  hostId := input.run.hostId
  cpuMillis := input.draft.reservationResources.cpuMillis
  memoryMib := input.draft.reservationResources.memoryMib
  worstCaseDiskMib := input.draft.reservationResources.worstCaseDiskMib
  state := .pending
  expiresAt := some (input.now + runtimePendingResourceReservationTtlMs)
  releasedAt := none
  createdAt := input.now
  updatedAt := input.now

/-- A column that must not be `NULL`. -/
def required (value : Option String) (name : String) : Except DbError String :=
  match value with
  | some value => .ok value
  | none => .error (.constraint name)

/-- `admissionResourceReservationStatement`. -/
def resourceReservationStatement : Query :=
  insertForRun input.run.runId
    (fun _ run => run.hostId = input.run.hostId && run.state = .provisioning)
    (fun run db => do
      let executionId ← required run.runtimeExecutionId "host_resource_reservations.execution_id"
      db.insertResourceReservation (input.resourceReservation executionId))

def activeSlotStatement : Query :=
  insertForRun input.run.runId
    (fun _ run => run.activeKey.isSome && run.runtimeExecutionId.isSome)
    (fun run db => do
      let executionId ← required run.runtimeExecutionId "active_runtime_slots.execution_id"
      db.insertActiveSlot ⟨run.userId, executionId, run.createdAt⟩)

/-- The batch; `none` is a draft with a VM that has no key, for which no batch is made. -/
def admissionStatements (dbNow : Millis) : Option (List Query) :=
  input.keyedVms.map fun vms =>
    [runtimeExecutionStatement input, insertRunStatement parseReport input dbNow,
      runRefusedSentinelStatement input] ++
    input.draft.sshKeyRows.map (sshKeyStatement input) ++
    [desiredStateCasStatement input, casSentinelStatement input, cpuQuotaStatement input] ++
    vms.flatMap (fun vm => runtimeVmStatement input vm.1 vm.2) ++
    [resourceReservationStatement input, activeSlotStatement input]

end

/-! ## The statements one by one -/

variable {db db' : Db} {n : Nat} {ns : List Nat} {condition : Db → Bool}
  {insert : Db → Except DbError Db}

section

variable {runId : String} {run : RunRow}

theorem insertWhere_eq_ok (h : insertWhere condition insert db = .ok (db', n)) :
    (condition db = true ∧ n = 1 ∧ insert db = .ok db') ∨
      (condition db = false ∧ n = 0 ∧ db' = db) := by
  rw [insertWhere] at h
  split at h
  · rename_i hcd
    obtain ⟨_, hins, heq⟩ := Fallible.map_eq_ok.mp h
    cases heq
    exact .inl ⟨hcd, rfl, hins⟩
  · rename_i hcd
    cases h
    exact .inr ⟨Bool.eq_false_iff.mpr hcd, rfl, rfl⟩

variable {condition : Db → RunRow → Bool}

variable {insert : RunRow → Db → Except DbError Db}

theorem insertForRun_of_none (hrun : db.findRun runId = none) :
    insertForRun runId condition insert db = .ok (db, 0) := by
  rw [insertForRun, hrun, Option.filter_none]

/-- With the run there, its row is inserted or its condition failed. -/
theorem insertForRun_of_some (hrun : db.findRun runId = some run)
    (h : insertForRun runId condition insert db = .ok (db', n)) :
    (condition db run = true ∧ insert run db = .ok db') ∨
      (condition db run = false ∧ db' = db) := by
  rw [insertForRun, hrun] at h
  by_cases hcd : condition db run = true
  · rw [Option.filter_some_pos hcd] at h
    obtain ⟨_, hins, heq⟩ := Fallible.map_eq_ok.mp h
    cases heq
    exact .inl ⟨hcd, hins⟩
  · rw [Option.filter_some_neg (Bool.eq_false_iff.mpr hcd)] at h
    cases h
    exact .inr ⟨Bool.eq_false_iff.mpr hcd, rfl⟩

theorem insertForRun_of_condition
    (hrun : db.findRun runId = some run) (hcd : condition db run = true)
    (h : insertForRun runId condition insert db = .ok (db', n)) : insert run db = .ok db' := by
  rcases insertForRun_of_some hrun h with ⟨-, hins⟩ | ⟨hfls, -⟩
  · exact hins
  rw [hcd] at hfls
  cases hfls

/-- A sentinel that finds something to insert aborts the batch. -/
theorem insertExecution_sentinel {id : String} {at₁ at₂ : Millis} :
    db.insertExecution (sentinelExecution id run at₁ at₂) ≠ .ok db' := by
  intro h
  have hpos : (0 : Int) < 0 := (insertExecution_eq_ok h).1
  omega

end

/-! ## The batch as a whole -/

/-- What makes the later statements of the batch find the run that it inserted. -/
structure Draft.WellFormed (draft : Draft) : Prop where
  execution : draft.run.runtimeExecutionId = some draft.run.runId
  state : draft.run.state = .provisioning
  active : draft.run.activeKey = some draft.run.userId
  sshKeys : ∀ key ∈ draft.sshKeyRows, key.runId = draft.run.runId

/-- The run with everything that belongs to it. -/
def Db.admitRun (db : Db) (input : CommitInput) (vms : List (RuntimeVmSpec × EncryptedKey)) : Db :=
  { db.setDesired input.run.hostId ⟨input.desired.next.version, input.desired.next⟩ with
    executions := db.executions ++ [input.execution]
    runs := db.runs ++ [input.run]
    sshKeys := db.sshKeys ++ input.draft.sshKeyRows
    cpuReservations := db.cpuReservations ++ [input.cpuReservation]
    runtimeVms := db.runtimeVms ++ vms.map fun vm => input.runtimeVmRow vm.1
    accessKeys := db.accessKeys ++ vms.map fun vm => input.accessKeyRow vm.1 vm.2
    resourceReservations := db.resourceReservations ++ [input.resourceReservation input.run.runId]
    activeSlots := db.activeSlots ++ [⟨input.run.userId, input.run.runId, input.run.createdAt⟩] }

/-- What held when a run was admitted. -/
structure Admission (parseReport : String → Json) (db : Db) (input : CommitInput) (dbNow : Millis)
    (vms : List (RuntimeVmSpec × EncryptedKey)) : Prop where
  host : ∃ host, db.hosts.find? (·.id = input.run.hostId) = some host ∧
    db.admits parseReport input dbNow host = true
  unique : Table.insertUnder runIndexes input.run db.runs = .ok (db.runs ++ [input.run])
  version : (db.desired input.run.hostId).any (·.version = input.desired.expectedVersion) = true
  cpu : 0 < input.draft.cpuMillis
  keyed : input.keyedVms = some vms
  names : (vms.map (·.1.runtimeVmName)).Nodup

section

variable {parseReport : String → Json} {input : CommitInput} {dbNow : Millis}
 

theorem exec_sshKeyStatements {keys : List SshKeyRow}
    (hrun : db.findRun input.run.runId = some input.run) (hsta : input.run.state = .provisioning)
    (hkeys : ∀ key ∈ keys, key.runId = input.run.runId)
    (h : exec (keys.map (sshKeyStatement input)) db = .ok (db', ns)) :
    db' = { db with sshKeys := db.sshKeys ++ keys } := by
  induction keys generalizing db ns with
  | nil =>
    cases h
    rw [append_nil]
  | cons key _ ih =>
    obtain ⟨_, _, _, hkey, hrs, -⟩ := exec_cons_eq_ok.mp h
    have hfind : db.findRun key.runId = some input.run := by
      rw [hkeys key mem_cons_self, hrun]
    have hins := insertForRun_of_condition hfind (by simp [hsta]) hkey
    obtain rfl := insertSshKey_eq_ok hins
    -- The other tables have not changed, so the run is still found.
    have hih := ih (by exact hrun) (fun key' hkey' => hkeys key' (mem_cons_of_mem _ hkey')) hrs
    rw [hih]
    simp [singleton_append]

variable {qs : List Query} {e : DbError}

variable {vms : List (RuntimeVmSpec × EncryptedKey)}

/-- The names of the VMs are new within the execution, one after the other. -/
theorem exec_runtimeVmStatements (hrun : db.findRun input.run.runId = some input.run)
    (hprvd : isProvisioned input.run.runId input.run = true)
    (h : exec (vms.flatMap fun vm => runtimeVmStatement input vm.1 vm.2) db = .ok (db', ns)) :
    db' = { db with
      runtimeVms := db.runtimeVms ++ vms.map fun vm => input.runtimeVmRow vm.1
      accessKeys := db.accessKeys ++ vms.map fun vm => input.accessKeyRow vm.1 vm.2 } ∧
    (∀ x ∈ db.runtimeVms, x.executionId = input.run.runId →
      x.runtimeVmName ∉ vms.map (·.1.runtimeVmName)) ∧
    (vms.map (·.1.runtimeVmName)).Nodup := by
  induction vms generalizing db ns with
  | nil =>
    cases h
    simp
  | cons _ _ ih =>
    rw [flatMap_cons] at h
    obtain ⟨_, _, _, hvm, hrs, -⟩ := exec_append_eq_ok.mp h
    obtain ⟨_, _, _, hvmRow, hkeyRow, -⟩ := exec_cons_eq_ok.mp hvm
    obtain ⟨_, _, _, hkeyRow, hnil, -⟩ := exec_cons_eq_ok.mp hkeyRow
    cases hnil
    obtain ⟨hfr, rfl⟩ := insertRuntimeVm_eq_ok (insertForRun_of_condition hrun hprvd hvmRow)
    obtain rfl := insertAccessKey_eq_ok (insertForRun_of_condition (by exact hrun) hprvd hkeyRow)
    obtain ⟨rfl, hnm, hnd⟩ := ih (by exact hrun) hrs
    refine ⟨by simp only [map_cons, append_assoc, singleton_append], ?_, ?_⟩
    · intro x hx hexec
      rw [map_cons, mem_cons, not_or]
      exact ⟨hfr x hx hexec, hnm x (mem_append_left _ hx) hexec⟩
    · rw [map_cons, nodup_cons]
      exact ⟨hnm _ mem_concat_self rfl, hnd⟩

/-- The statements behind the sentinel for a refused run. -/
def runStatements (input : CommitInput) (vms : List (RuntimeVmSpec × EncryptedKey)) : List Query :=
  input.draft.sshKeyRows.map (sshKeyStatement input) ++
    desiredStateCasStatement input :: casSentinelStatement input :: cpuQuotaStatement input ::
      (vms.flatMap (fun vm => runtimeVmStatement input vm.1 vm.2) ++
        [resourceReservationStatement input, activeSlotStatement input])

theorem admissionStatements_eq (h : admissionStatements parseReport input dbNow = some qs) :
    ∃ vms, input.keyedVms = some vms ∧
      qs = [runtimeExecutionStatement input, insertRunStatement parseReport input dbNow,
        runRefusedSentinelStatement input] ++ runStatements input vms := by
  obtain ⟨vms, hvms, rfl⟩ := Option.map_eq_some_iff.mp h
  refine ⟨vms, hvms, ?_⟩
  simp [runStatements]

/-- Without the run nothing is written. -/
theorem exec_runStatements_of_none (vms : List (RuntimeVmSpec × EncryptedKey))
    (hwf : input.draft.WellFormed) (hrun : db.findRun input.run.runId = none) :
    ∃ ns, exec (runStatements input vms) db = .ok (db, ns) := by
  refine ⟨_, exec_of_idle fun q hq => ?_⟩
  simp only [runStatements, mem_append, mem_map, mem_flatMap, runtimeVmStatement,
    mem_cons, not_mem_nil, or_false] at hq
  rcases hq with ⟨key, hkey, rfl⟩ | rfl | rfl | rfl | ⟨_, -, rfl | rfl⟩ | rfl | rfl
  · exact insertForRun_of_none ((hwf.sshKeys key hkey).symm ▸ hrun)
  · rw [desiredStateCasStatement, hrun]
    simp [Option.any_none, and_false]
  all_goals exact insertForRun_of_none hrun

/-- With the run, everything is written, and the desired state was the one of the plan. -/
theorem exec_runStatements_of_some (hwf : input.draft.WellFormed)
    (hrun : db.findRun input.run.runId = some input.run)
    (hnew : db.desiresRun input.run.hostId input.run.runId = false)
    (h : exec (runStatements input vms) db = .ok (db', ns)) :
    (db.desired input.run.hostId).any (·.version = input.desired.expectedVersion) = true ∧
    0 < input.draft.cpuMillis ∧ (vms.map (·.1.runtimeVmName)).Nodup ∧
    db' = { db.admitRun input vms with executions := db.executions, runs := db.runs } := by
  have hexec : input.run.runtimeExecutionId = some input.run.runId := hwf.execution
  have hsta : input.run.state = .provisioning := hwf.state
  obtain ⟨_, _, _, hkeys, h, -⟩ := exec_append_eq_ok.mp h
  obtain rfl := exec_sshKeyStatements hrun hsta hwf.sshKeys hkeys
  obtain ⟨_, _, _, hcas, h, -⟩ := exec_cons_eq_ok.mp h
  obtain ⟨_, _, _, hsen, h, -⟩ := exec_cons_eq_ok.mp h
  obtain ⟨_, _, _, hquo, h, -⟩ := exec_cons_eq_ok.mp h
  rw [desiredStateCasStatement] at hcas
  split at hcas
  · rename_i hln
    cases hcas
    have hdes : (db.setDesired input.run.hostId
        ⟨input.desired.next.version, input.desired.next⟩).desired input.run.hostId =
          some ⟨input.desired.next.version, input.desired.next⟩ :=
      setDesired_self
    rcases insertForRun_of_some (by exact hrun) hsen with ⟨-, hab⟩ | ⟨-, rfl⟩
    · exact absurd hab insertExecution_sentinel
    obtain ⟨hcpu, rfl⟩ := insertCpuReservation_eq_ok
      (insertForRun_of_condition (by exact hrun)
        (by simp only [decide_true, Bool.true_and]; exact hdes ▸ by simp) hquo)
    obtain ⟨_, _, _, hvms, h, -⟩ := exec_append_eq_ok.mp h
    obtain ⟨rfl, -, hnm⟩ := exec_runtimeVmStatements (by exact hrun)
      (by simp [isProvisioned, hexec, hsta]) hvms
    obtain ⟨_, _, _, hrsc, h, -⟩ := exec_cons_eq_ok.mp h
    obtain ⟨_, _, _, hslot, hnil, -⟩ := exec_cons_eq_ok.mp h
    cases hnil
    have hrsc := insertForRun_of_condition (by exact hrun) (by simp [hsta]) hrsc
    rw [hexec] at hrsc
    obtain rfl := insertResourceReservation_eq_ok hrsc
    have hslot := insertForRun_of_condition (by exact hrun)
      (by rw [hexec]; exact hwf.active ▸ rfl) hslot
    rw [hexec] at hslot
    obtain rfl := insertActiveSlot_eq_ok hslot
    exact ⟨hln.1, hcpu, hnm, rfl⟩
  · -- The compare-and-set missed: the document has no VM of this run, and the sentinel aborts.
    cases hcas
    rcases insertForRun_of_some (by exact hrun) hsen with ⟨-, hab⟩ | ⟨hsil, -⟩
    · exact absurd hab insertExecution_sentinel
    rw [Bool.not_eq_false'] at hsil
    have hdsr : db.desiresRun input.run.hostId input.run.runId = true := hsil
    rw [hnew] at hdsr
    cases hdsr

/-- A host that admits the run also takes its execution. -/
theorem find_host_of_admits
    (h : (db.hosts.find? (·.id = input.run.hostId)).any (db.admits parseReport input dbNow) = true) :
    ∃ host, db.hosts.find? (·.id = input.run.hostId) = some host ∧
      db.admits parseReport input dbNow host = true ∧ host.disabled = false ∧
      db.metalAdmission host input.run.userId input.run.organizationId = true := by
  obtain ⟨host, hho, hads⟩ := (Option.any_eq_true _ _).mp h
  have hconds := hads
  simp only [Db.admits, Bool.and_eq_true, Bool.not_eq_true'] at hconds
  exact ⟨host, hho, hads, hconds.1.1.1.1.1.1.1, hconds.1.1.1.1.2⟩

/-- **All or nothing.**  A batch that commits left the database as it was, or it admitted the run
with everything that belongs to it; the number of rows its second statement inserted tells which. -/
theorem exec_admissionStatements (hwf : input.draft.WellFormed)
    (hfr : db.findRun input.run.runId = none)
    (hnew : db.desiresRun input.run.hostId input.run.runId = false)
    (hqs : admissionStatements parseReport input dbNow = some qs) (h : exec qs db = .ok (db', ns)) :
    (ns[1]? = some 0 ∧ db' = db) ∨
      (ns[1]? = some 1 ∧ ∃ vms, Admission parseReport db input dbNow vms ∧
        db' = db.admitRun input vms) := by
  obtain ⟨vms, hvms, rfl⟩ := admissionStatements_eq hqs
  obtain ⟨db₁, _, _, hexec, h, hns⟩ := exec_cons_eq_ok.mp h
  obtain ⟨db₂, _, _, hrun, h, hns₁⟩ := exec_cons_eq_ok.mp h
  obtain ⟨_, _, _, href, hrs, -⟩ := exec_cons_eq_ok.mp h
  subst hns hns₁
  rcases insertWhere_eq_ok hrun with ⟨hads, rfl, hins⟩ | ⟨-, rfl, rfl⟩
  · -- The run was inserted, and the execution before it.
    refine .inr ⟨rfl, vms, ?_⟩
    obtain ⟨huq, hdb₂⟩ := insertRun_eq_ok hins
    have hdb₁ : db₁ = { db with executions := db.executions ++ [input.execution] } := by
      rcases insertWhere_eq_ok hexec with ⟨-, -, hins₁⟩ | ⟨hnot, -, rfl⟩
      · exact (insertExecution_eq_ok hins₁).2
      -- The guard of the execution is part of that of the run.
      obtain ⟨_, hho, -, hdisabled, hmetal⟩ := find_host_of_admits hads
      rw [hho, Option.any_some, hdisabled, hmetal] at hnot
      cases hnot
    subst hdb₁ hdb₂
    have hfd : Db.findRun { db with
        executions := db.executions ++ [input.execution]
        runs := db.runs ++ [input.run] } input.run.runId = some input.run := by
      rw [Db.findRun, find?_append]
      have hno : db.runs.find? (·.runId = input.run.runId) = none := hfr
      rw [hno]
      simp
    rcases insertWhere_eq_ok href with ⟨hcd, -, -⟩ | ⟨-, -, rfl⟩
    · rw [hfd] at hcd
      cases hcd
    obtain ⟨hver, hcpu, hnm, rfl⟩ := exec_runStatements_of_some hwf hfd hnew hrs
    obtain ⟨host, hho, hadmd, -⟩ := find_host_of_admits hads
    exact ⟨⟨⟨host, hho, hadmd⟩, huq, hver, hcpu, hvms, hnm⟩, rfl⟩
  · -- The run was refused.  As the sentinel is silent, the account is not active, and then no host
    -- took the execution either.
    refine .inl ⟨rfl, ?_⟩
    have hdb : db₂ = db := by
      rcases insertWhere_eq_ok hexec with ⟨htk, -, hins₁⟩ | ⟨-, -, rfl⟩
      · obtain ⟨-, rfl⟩ := insertExecution_eq_ok hins₁
        obtain ⟨_, -, hho⟩ := (Option.any_eq_true _ _).mp htk
        rw [Bool.and_eq_true] at hho
        have hact := activeAccount_of_metalAdmission hho.2
        rcases insertWhere_eq_ok href with ⟨-, -, hab⟩ | ⟨hsil, -⟩
        · exact absurd hab insertExecution_sentinel
        rw [Bool.and_eq_false_iff] at hsil
        rcases hsil with hsm | hinactive
        · have hno : (db.findRun input.run.runId).isNone = false := hsm
          rw [hfr] at hno
          cases hno
        · have hfls : db.activeAccount input.run.userId = false := hinactive
          rw [hact] at hfls
          cases hfls
      · rfl
    subst hdb
    rcases insertWhere_eq_ok href with ⟨-, -, hab⟩ | ⟨-, -, rfl⟩
    · exact absurd hab insertExecution_sentinel
    obtain ⟨_, hidle⟩ := exec_runStatements_of_none vms hwf hfr
    have hsam := hrs.symm.trans hidle
    cases hsam
    rfl

theorem insertWhere_eq_error
    (h : insertWhere condition insert db = .error e) : insert db = .error e := by
  rw [insertWhere] at h
  split at h
  · cases hins : insert db with
    | error =>
      rw [hins] at h
      cases h
      rfl
    | ok =>
      rw [hins] at h
      cases h
  · cases h

/-- An execution is refused by a check or by an index of its own table. -/
theorem insertExecution_eq_error {row : ExecutionRow} (h : db.insertExecution row = .error e) :
    e = .generationPositive ∨ ∃ name, e = .constraint name := by
  rw [Db.insertExecution, check] at h
  split at h
  · refine .inr ?_
    rw [Table.insertUnder] at h
    cases hfind : executionIndexes.find? (fun i => db.executions.any fun x => i.collide x row) with
    | none =>
      rw [hfind] at h
      cases h
    | some =>
      rw [hfind] at h
      have hi := mem_of_find?_eq_some hfind
      simp only [executionIndexes, mem_cons, not_mem_nil, or_false] at hi
      rcases hi with rfl | rfl
      · cases h
        exact ⟨_, rfl⟩
      · cases h
        exact ⟨_, rfl⟩
  · cases h
    exact .inl rfl

/-- **How a batch fails that does not insert the run**: by a sentinel, or by the row of the
execution, and not by a key of the run. -/
theorem exec_admissionStatements_error
    (hwf : input.draft.WellFormed) (hfr : db.findRun input.run.runId = none)
    (hqs : admissionStatements parseReport input dbNow = some qs)
    (hnot : (db.hosts.find? (·.id = input.run.hostId)).any (db.admits parseReport input dbNow) =
      false)
    (h : exec qs db = .error e) : e = .generationPositive ∨ ∃ name, e = .constraint name := by
  obtain ⟨vms, _, rfl⟩ := admissionStatements_eq hqs
  rcases exec_cons_eq_error.mp h with hexec | ⟨db₁, _, hexec, h⟩
  · exact insertExecution_eq_error (insertWhere_eq_error hexec)
  -- Whether or not the execution was inserted, the run is still refused, and still not there.
  obtain ⟨executions, rfl⟩ : ∃ executions, db₁ = { db with executions } := by
    rcases insertWhere_eq_ok hexec with ⟨-, -, hins⟩ | ⟨-, -, rfl⟩
    · exact ⟨_, (insertExecution_eq_ok hins).2⟩
    · exact ⟨db₁.executions, rfl⟩
  have href : insertRunStatement parseReport input dbNow { db with executions } =
      .ok ({ db with executions }, 0) := by
    rw [insertRunStatement, insertWhere, if_neg]
    rw [Bool.not_eq_true]
    exact hnot
  rcases exec_cons_eq_error.mp h with hrun | ⟨_, _, hrun, h⟩
  · rw [href] at hrun
    cases hrun
  rw [href] at hrun
  cases hrun
  rcases exec_cons_eq_error.mp h with hsen | ⟨_, _, hsen, h⟩
  · exact insertExecution_eq_error (insertWhere_eq_error hsen)
  rcases insertWhere_eq_ok hsen with ⟨-, -, hab⟩ | ⟨-, -, rfl⟩
  · exact absurd hab insertExecution_sentinel
  obtain ⟨_, hidle⟩ := exec_runStatements_of_none vms hwf
    (show Db.findRun { db with executions } input.run.runId = none from hfr)
  have hboth := h.symm.trans hidle
  cases hboth

end

end Intar.Runs
