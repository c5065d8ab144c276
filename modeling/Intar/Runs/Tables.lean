import Intar.Lib.Batch
import Intar.Host.CpuReservations
import Intar.Host.DesiredStateStore
import Intar.Registry.Retention
import Intar.Runs.State

/-!
# The tables of a scenario start

The database as the admission of a scenario run reads and writes it (`db/schema/`): accounts and
hosts, the live catalog and its candidates, and the tables a run is spread over.  A row has the
columns that some modelled statement reads or writes.

* `Db` is the state of the database, and an `insert…` function adds one row under the checks and
  unique indexes of its table.
* `Db.Constraints` says that the tables respect their unique indexes and checks, which is what the
  database guarantees at all times.

A query that the model does not look into (who may see which course unit) is a function in the
state, so that anything may change its answer at any time.
-/

namespace Intar.Runs

open Fallible

open Registry (ImageKey BuildStatus)
open Host (Millis HostScope DesiredRow DesiredState CpuReservationState)
open List

/-! ## Accounts and hosts -/

structure User where
  id : String
  deletedAt : Option Millis
  banned : Bool
  metalPlacement : HostScope

structure Member where
  (userId organizationId : String)

structure Organization where
  id : String
  metalPlacement : HostScope
deriving DecidableEq

structure HostRow extends Host.AgentHost where
  id : String
  (disabled scenarioEnabled connected : Bool)
  activeSessionId : Option String
  credentialGeneration : Int
  lastHeartbeatAt : Option Millis
deriving DecidableEq

/-- The last report of a host, as the text it is stored as. -/
structure ActualStateRow where
  (hostId reportText : String)
  updatedAt : Millis
deriving DecidableEq

/-- A row of `runtime_operation_gates`. -/
structure Gate where
  (key state : String)

/-! ## The catalog -/

/-- A row of `vm_scenarios`. -/
structure ScenarioRow where
  scenarioId : String
  organizationId : Option String
  title : String
  enabled : Bool
  enabledAt : Option Millis

/-- A row of `vm_scenario_vms`, with the probes of the VM. -/
structure CatalogVm where
  (scenarioId id : String)
  ordinal : Int
  (vmName image : String)
  imageKey : Option ImageKey
  imageSha256 : Option String
  imageFormat : String
  imageVirtualSizeBytes : Int
  chunkManifestSha256 : Option String
  guestBootstrapAbi : Option Int
  (kernelSha256 initrdSha256 bootCmdline : String)
  (cpuMillis memoryMib diskMib : Int)
  probes : List ProbeDescriptor
deriving DecidableEq

/-- A row of `scenario_catalog_candidates`. -/
structure CandidateRow where
  (id revision buildId scenarioId : String)
  organizationId : Option String
  manifestText : String
deriving DecidableEq

/-- A row of `image_builds`. -/
structure BuildRow where
  id : String
  status : BuildStatus
  artifactsRetiredAt : Option Millis

/-! ## The rows of a run -/

/-- `ScenarioStartRequestScope`. -/
structure RequestScope where
  scenarioId : String
  (organizationId hostId candidateRevision candidateBuildId : Option String)
  (allowDrainedAdminProof allowSequenceBypass : Bool)
deriving DecidableEq

/-- A row of `scenario_runs`; the texts that are only shown are left out, except the title. -/
structure RunRow where
  (runId userId : String)
  (organizationId runtimeExecutionId : Option String)
  (hostId scenarioId scenarioName : String)
  (courseScopeKey courseId lectureId : Option String)
  title : String
  vmCount : Nat
  state : RunPhase
  stateRank : Nat
  (activeKey requestIdempotencyKey : Option String)
  requestScope : Option RequestScope
  stateJson : RunStateDocument
  (archiveEnteredAt deleteRequestedAt solvedAt completedAt failedAt : Option Millis)
  (createdAt updatedAt : Millis)
deriving DecidableEq

inductive ExecutionState where
  | queued
  | provisioning
  | ready
  | archiving
  | archived
  | failed
deriving DecidableEq

/-- A row of `runtime_executions` of the domain kind `scenario`. -/
structure ExecutionRow where
  (id userId : String)
  organizationId : Option String
  (hostId domainId : String)
  generation : Int
  state : ExecutionState
  leaseExpiresAt : Option Millis
  (createdAt updatedAt : Millis)
deriving DecidableEq

structure SshKeyRow where
  (id runId vmId runtimeVmName publicKeyOpenssh privateKeyCiphertextB64 privateKeyIvB64 : String)
  createdAt : Millis
deriving DecidableEq

structure CpuReservationRow where
  (runId hostId : String)
  cpuMillis : Int
  state : CpuReservationState
  expiresAt : Option Millis
  (createdAt updatedAt : Millis)
deriving DecidableEq

structure RuntimeVmRow where
  (id executionId vmId : String)
  ordinal : Nat
  runtimeVmName : String
  imageKey : ImageKey
  imageSha256 : String
  (cpuMillis memoryMib diskMib : Int)
  (createdAt updatedAt : Millis)
deriving DecidableEq

structure AccessKeyRow where
  (runtimeVmId executionId publicKeyOpenssh privateKeyCiphertextB64 privateKeyIvB64 : String)
  createdAt : Millis
deriving DecidableEq

inductive ResourceReservationState where
  | pending
  | committed
  | released
deriving DecidableEq

structure ResourceReservationRow where
  (executionId hostId : String)
  (cpuMillis memoryMib worstCaseDiskMib : Int)
  state : ResourceReservationState
  (expiresAt releasedAt : Option Millis)
  (createdAt updatedAt : Millis)
deriving DecidableEq

structure ActiveSlotRow where
  (userId executionId : String)
  acquiredAt : Millis
deriving DecidableEq

/-! ## The database -/

/-- What `admissionContentAccessCondition` is asked. -/
structure ContentAccess where
  userId : String
  organizationId : Option String
  scenarioId : String
  (courseScopeKey courseId lectureId : Option String)
  (allowSequenceBypass requiresAdmin : Bool)
deriving DecidableEq

/-- The tables that a start only reads.  Other parts of the program write them: account and server
administration, host reports, publishes and promotions. -/
structure Outside where
  users : List User
  members : List Member
  organizations : List Organization
  hosts : List HostRow
  actual : List ActualStateRow
  gates : List Gate
  contentAccess : ContentAccess → Bool
  scenarios : List ScenarioRow
  catalog : List CatalogVm
  candidates : List CandidateRow
  builds : List BuildRow

/-- The database.  `host_desired_state` has one row for each host. -/
structure Db extends Outside where
  desired : String → Option DesiredRow
  executions : List ExecutionRow
  runs : List RunRow
  sshKeys : List SshKeyRow
  cpuReservations : List CpuReservationRow
  runtimeVms : List RuntimeVmRow
  accessKeys : List AccessKeyRow
  resourceReservations : List ResourceReservationRow
  activeSlots : List ActiveSlotRow

/-- What the code tells apart in the error of a failed statement. -/
inductive DbError where
  /-- The check `runtime_executions_generation_positive`, which the abort sentinels trip. -/
  | generationPositive
  | requestIdempotency
  | activeKey
  | activeSlot
  | constraint (name : String)
deriving DecidableEq

/-! ## Indexes and checks -/

/-- The two values are equal, and SQL does not hold equal two that are `NULL`. -/
def sameValue {α : Type} [DecidableEq α] (a b : Option α) : Bool := a.isSome && a = b

def runIndexes : List (Table.UniqueIndex RunRow DbError) :=
  [⟨fun a b => a.runId = b.runId, .constraint "scenario_runs.run_id"⟩,
    ⟨fun a b => sameValue a.activeKey b.activeKey, .activeKey⟩,
    ⟨fun a b => a.userId = b.userId && sameValue a.requestIdempotencyKey b.requestIdempotencyKey,
      .requestIdempotency⟩,
    ⟨fun a b => sameValue a.runtimeExecutionId b.runtimeExecutionId,
      .constraint "scenario_runs.runtime_execution_id"⟩]

def executionIndexes : List (Table.UniqueIndex ExecutionRow DbError) :=
  [⟨fun a b => a.id = b.id, .constraint "runtime_executions.id"⟩,
    ⟨fun a b => a.domainId = b.domainId && a.generation = b.generation,
      .constraint "runtime_executions.domain_id"⟩]

def sshKeyIndexes : List (Table.UniqueIndex SshKeyRow DbError) :=
  [⟨fun a b => a.id = b.id, .constraint "scenario_run_ssh_keys.id"⟩,
    ⟨fun a b => a.runId = b.runId && a.vmId = b.vmId, .constraint "scenario_run_ssh_keys.vm_id"⟩]

def cpuReservationIndexes : List (Table.UniqueIndex CpuReservationRow DbError) :=
  [⟨fun a b => a.runId = b.runId, .constraint "host_cpu_reservations.run_id"⟩]

def runtimeVmIndexes : List (Table.UniqueIndex RuntimeVmRow DbError) :=
  [⟨fun a b => a.id = b.id, .constraint "runtime_vms.id"⟩,
    ⟨fun a b => a.executionId = b.executionId && a.vmId = b.vmId, .constraint "runtime_vms.vm_id"⟩,
    ⟨fun a b => a.executionId = b.executionId && a.ordinal = b.ordinal,
      .constraint "runtime_vms.ordinal"⟩,
    ⟨fun a b => a.executionId = b.executionId && a.runtimeVmName = b.runtimeVmName,
      .constraint "runtime_vms.runtime_vm_name"⟩]

def accessKeyIndexes : List (Table.UniqueIndex AccessKeyRow DbError) :=
  [⟨fun a b => a.runtimeVmId = b.runtimeVmId, .constraint "runtime_vm_access_keys.runtime_vm_id"⟩]

def resourceReservationIndexes : List (Table.UniqueIndex ResourceReservationRow DbError) :=
  [⟨fun a b => a.executionId = b.executionId, .constraint "host_resource_reservations.execution_id"⟩]

def activeSlotIndexes : List (Table.UniqueIndex ActiveSlotRow DbError) :=
  [⟨fun a b => a.userId = b.userId, .activeSlot⟩,
    ⟨fun a b => a.executionId = b.executionId, .activeSlot⟩]

/-! ## Inserts -/

/-- A check of a table. -/
def check (holds : Bool) (error : DbError) : Except DbError Unit :=
  if holds then .ok () else .error error

def Db.insertExecution (row : ExecutionRow) (db : Db) : Except DbError Db := do
  check (0 < row.generation) .generationPositive
  return { db with executions := ← Table.insertUnder executionIndexes row db.executions }

/-- A run references its execution. -/
def Db.insertRun (row : RunRow) (db : Db) : Except DbError Db := do
  let runs ← Table.insertUnder runIndexes row db.runs
  check (row.runtimeExecutionId.all fun id => db.executions.any (·.id = id))
    (.constraint "scenario_runs.runtime_execution_id")
  return { db with runs }

def Db.insertSshKey (row : SshKeyRow) (db : Db) : Except DbError Db := do
  return { db with sshKeys := ← Table.insertUnder sshKeyIndexes row db.sshKeys }

def Db.insertCpuReservation (row : CpuReservationRow) (db : Db) : Except DbError Db := do
  check (0 < row.cpuMillis) (.constraint "host_cpu_reservations_cpu_positive")
  return { db with
    cpuReservations := ← Table.insertUnder cpuReservationIndexes row db.cpuReservations }

def Db.insertRuntimeVm (row : RuntimeVmRow) (db : Db) : Except DbError Db := do
  check (0 < row.cpuMillis) (.constraint "runtime_vms_cpu_positive")
  check (0 < row.memoryMib) (.constraint "runtime_vms_memory_positive")
  check (0 < row.diskMib) (.constraint "runtime_vms_disk_positive")
  return { db with runtimeVms := ← Table.insertUnder runtimeVmIndexes row db.runtimeVms }

def Db.insertAccessKey (row : AccessKeyRow) (db : Db) : Except DbError Db := do
  return { db with accessKeys := ← Table.insertUnder accessKeyIndexes row db.accessKeys }

def Db.insertResourceReservation (row : ResourceReservationRow) (db : Db) : Except DbError Db := do
  check (0 < row.cpuMillis) (.constraint "host_resource_reservations_cpu_positive")
  check (0 < row.memoryMib) (.constraint "host_resource_reservations_memory_positive")
  check (0 < row.worstCaseDiskMib) (.constraint "host_resource_reservations_disk_positive")
  return { db with
    resourceReservations := ←
      Table.insertUnder resourceReservationIndexes row db.resourceReservations }

def Db.insertActiveSlot (row : ActiveSlotRow) (db : Db) : Except DbError Db := do
  return { db with activeSlots := ← Table.insertUnder activeSlotIndexes row db.activeSlots }

def Db.setDesired (db : Db) (hostId : String) (row : DesiredRow) : Db :=
  { db with desired := Function.update db.desired hostId (some row) }

/-! ## Queries -/

/-- The run with the id, of which there is at most one. -/
def Db.findRun (db : Db) (runId : String) : Option RunRow := db.runs.find? (·.runId = runId)

/-- `activeAccountExistsSql`. -/
def Db.activeAccount (db : Db) (userId : String) : Bool :=
  db.users.any fun user => user.id = userId && user.deletedAt.isNone && !user.banned

/-- `metalAdmissionSql`: the account is active, belongs to the organization, and its runs go to hosts
like this one. -/
def Db.metalAdmission (db : Db) (host : HostRow) (userId : String)
    (organizationId : Option String) : Bool :=
  db.users.any fun owner =>
    owner.id = userId && owner.deletedAt.isNone && !owner.banned &&
    (organizationId.all fun org =>
      db.members.any fun member => member.userId = userId && member.organizationId = org) &&
    ((owner.metalPlacement = .personal && host.scope = some .personal &&
        host.ownerUserId = some userId) ||
      (owner.metalPlacement = .platform &&
        ((organizationId.isNone && host.scope = some .platform) ||
          db.organizations.any fun org =>
            some org.id = organizationId &&
            ((org.metalPlacement = .platform && host.scope = some .platform) ||
              (org.metalPlacement = .organization && host.scope = some .organization &&
                host.organizationId = organizationId)))))

/-- `runsHeldCondition`. -/
def Db.runsHeld (db : Db) (allowDrainedAdminProof : Bool) : Bool :=
  db.gates.any fun gate =>
    (gate.key = "image_promotion" && gate.state = "drained") ||
    (gate.key = "image_cutover" &&
      if allowDrainedAdminProof then gate.state = "wiped"
      else gate.state = "drained" || gate.state = "wiped")

/-- The CPU held for a host. -/
def Db.heldCpuMillis (db : Db) (hostId : String) : Int :=
  ((db.cpuReservations.filter (·.hostId = hostId)).map CpuReservationRow.cpuMillis).sum

/-! ## What an insert does -/

section

variable {db db' : Db}

theorem check_eq_ok {holds : Bool} {error : DbError} {u : Unit} :
    check holds error = .ok u ↔ holds = true := by
  rw [check]
  split
  · rename_i h
    exact ⟨fun _ => h, fun _ => rfl⟩
  · rename_i h
    simp [h]

variable {hostId : String} {row : DesiredRow} {α : Type}

@[simp] theorem setDesired_self : (db.setDesired hostId row).desired hostId = some row :=
  Function.update_self ..

theorem setDesired_of_ne {host : String} (h : host ≠ hostId) :
    (db.setDesired hostId row).desired host = db.desired host :=
  Function.update_of_ne h ..

@[simp] theorem sameValue_none_right [DecidableEq α] (a : Option α) : sameValue a none = false := by
  cases a with
  | none => rfl
  | some => simp [sameValue]

/-- The tables after an insert that ends a statement. -/
theorem eq_of_insertUnder {indexes : List (Table.UniqueIndex α DbError)} {r : α} {t : List α}
    {set : List α → Db}
    (h : (Table.insertUnder indexes r t >>= fun rows => pure (set rows)) = .ok db') :
    db' = set (t ++ [r]) := by
  obtain ⟨_, hrws, h⟩ := bind_eq_ok.mp h
  obtain ⟨-, rfl⟩ := Table.insertUnder_eq_ok.mp hrws
  exact (Except.ok.inj h).symm

/-- An execution of generation zero is never inserted. -/
theorem insertExecution_eq_ok {row : ExecutionRow} (h : db.insertExecution row = .ok db') :
    0 < row.generation ∧ db' = { db with executions := db.executions ++ [row] } := by
  obtain ⟨u, hcheck, h⟩ := bind_eq_ok.mp h
  obtain rfl := eq_of_insertUnder h
  exact ⟨of_decide_eq_true (check_eq_ok.mp hcheck), rfl⟩

theorem insertRun_eq_ok {row : RunRow} (h : db.insertRun row = .ok db') :
    Table.insertUnder runIndexes row db.runs = .ok db'.runs ∧
      db' = { db with runs := db.runs ++ [row] } := by
  obtain ⟨_, hrws, h⟩ := bind_eq_ok.mp h
  obtain ⟨-, -, h⟩ := bind_eq_ok.mp h
  cases h
  obtain ⟨-, rfl⟩ := Table.insertUnder_eq_ok.mp hrws
  exact ⟨hrws, rfl⟩

theorem insertSshKey_eq_ok {row : SshKeyRow} (h : db.insertSshKey row = .ok db') :
    db' = { db with sshKeys := db.sshKeys ++ [row] } := by
  obtain rfl := eq_of_insertUnder h
  rfl

theorem insertCpuReservation_eq_ok {row : CpuReservationRow}
    (h : db.insertCpuReservation row = .ok db') :
    0 < row.cpuMillis ∧ db' = { db with cpuReservations := db.cpuReservations ++ [row] } := by
  obtain ⟨u, hcheck, h⟩ := bind_eq_ok.mp h
  obtain rfl := eq_of_insertUnder h
  exact ⟨of_decide_eq_true (check_eq_ok.mp hcheck), rfl⟩

theorem insertRuntimeVm_eq_ok {row : RuntimeVmRow} (h : db.insertRuntimeVm row = .ok db') :
    (∀ x ∈ db.runtimeVms, x.executionId = row.executionId → x.runtimeVmName ≠ row.runtimeVmName) ∧
      db' = { db with runtimeVms := db.runtimeVms ++ [row] } := by
  obtain ⟨-, -, h⟩ := bind_eq_ok.mp h
  obtain ⟨-, -, h⟩ := bind_eq_ok.mp h
  obtain ⟨-, -, h⟩ := bind_eq_ok.mp h
  obtain ⟨_, hrws, h⟩ := bind_eq_ok.mp h
  obtain ⟨hfr, rfl⟩ := Table.insertUnder_eq_ok.mp hrws
  cases h
  refine ⟨fun x hx hexec hnm => ?_, rfl⟩
  have hcol := hfr _ (getLast_mem (by simp [runtimeVmIndexes])) x hx
  simp [runtimeVmIndexes, hexec, hnm] at hcol

theorem insertAccessKey_eq_ok {row : AccessKeyRow} (h : db.insertAccessKey row = .ok db') :
    db' = { db with accessKeys := db.accessKeys ++ [row] } := by
  obtain rfl := eq_of_insertUnder h
  rfl

theorem insertResourceReservation_eq_ok {row : ResourceReservationRow}
    (h : db.insertResourceReservation row = .ok db') :
    db' = { db with resourceReservations := db.resourceReservations ++ [row] } := by
  obtain ⟨-, -, h⟩ := bind_eq_ok.mp h
  obtain ⟨-, -, h⟩ := bind_eq_ok.mp h
  obtain ⟨-, -, h⟩ := bind_eq_ok.mp h
  obtain rfl := eq_of_insertUnder h
  rfl

theorem insertActiveSlot_eq_ok {row : ActiveSlotRow} (h : db.insertActiveSlot row = .ok db') :
    db' = { db with activeSlots := db.activeSlots ++ [row] } := by
  obtain rfl := eq_of_insertUnder h
  rfl

theorem findRun_eq_none {runId : String} :
    db.findRun runId = none ↔ ∀ run ∈ db.runs, run.runId ≠ runId := by
  simp [Db.findRun]

/-- The account of a run that a host takes is active. -/
theorem activeAccount_of_metalAdmission {host : HostRow} {userId : String}
    {organizationId : Option String} (h : db.metalAdmission host userId organizationId = true) :
    db.activeAccount userId = true := by
  obtain ⟨owner, hown, h⟩ := any_eq_true.mp h
  simp only [Bool.and_eq_true] at h
  refine any_eq_true.mpr ⟨owner, hown, ?_⟩
  simp only [Bool.and_eq_true]
  exact h.1.1

end

/-- The unique indexes and checks of the tables hold. -/
structure Db.Constraints (db : Db) : Prop where
  runs : Table.Respects runIndexes db.runs
  cpuPositive : ∀ row ∈ db.cpuReservations, 0 < row.cpuMillis

section

variable {db : Db} {run run' : RunRow}

theorem Db.Constraints.eq_of_runId (h : db.Constraints) (hrun : run ∈ db.runs)
    (hrun' : run' ∈ db.runs) (heq : run.runId = run'.runId) : run = run' := by
  refine h.runs.eq_of_collide (mem_cons_self ..) (fun a b => ?_) hrun hrun' ?_
  · simp [eq_comm]
  · simpa using heq

end

end Intar.Runs
