import Intar.Lib.SortedTable
import Mathlib

/-!
# The state of jailerd and of its host

`JailerdCore` is what the daemon keeps in memory behind its lock.  The state of the system adds what
happens outside the lock (detached launches and checks of running VMs, which hold neither lock nor
table), and what a restart finds again: the transient units, the metadata of each generation and the
identity reservations.

Everything jailerd does is a sequence of elementary changes.  An operation is modelled as the list of
the changes it makes, in order, so that a crash in the middle of it leaves the changes made so far on
the host and none in memory.

`units` is what may be running: a unit enters it when its start is attempted, whatever the attempt
reports, and leaves it when a stop or a destroy of it has succeeded.  `births` is no part of the
system: it remembers what every generation was launched with.
-/

namespace Intar.Jailer

abbrev ValidatedId := String

/-! ## Quotas and requests -/

def cpuPeriodMicros : ℕ := 100000

structure CpuQuota where
  (cpuMillis quotaMicros periodMicros : ℕ)
  deriving DecidableEq

/-- The number of virtual CPUs, the quota in whole CPUs rounded up, has to fit 16 bits. -/
def CpuQuota.fromMillis (cpuMillis : ℕ) : Option CpuQuota :=
  if cpuMillis = 0 then none
  else if 65535 < (cpuMillis + 999) / 1000 then none
  else some ⟨cpuMillis, cpuMillis * cpuPeriodMicros / 1000, cpuPeriodMicros⟩

theorem CpuQuota.cpuMillis_of_fromMillis {cpuMillis : ℕ} {quota : CpuQuota}
    (h : CpuQuota.fromMillis cpuMillis = some quota) : quota.cpuMillis = cpuMillis := by
  rw [CpuQuota.fromMillis] at h
  split at h
  · cases h
  split at h
  · cases h
  cases h
  rfl

/-- A launch request.  `rest` is the text of the fields that only count as a part of the whole: the
memory and disk sizes, the addresses and the artifacts. -/
structure VmLaunchRequest where
  (runId vmId : ValidatedId)
  cpuMillis : ℕ
  sshPublicPort : Option ℕ
  rest : String
  deriving DecidableEq

/-- A digest is known by what it was taken of: no two requests share one. -/
structure Sha256Digest where
  request : VmLaunchRequest
  deriving DecidableEq

def requestFingerprint (request : VmLaunchRequest) : Sha256Digest := ⟨request⟩

structure EnsureRunNetworkRequest where
  runId : ValidatedId
  (guestCidr gateway : String)
  deriving DecidableEq

structure RunNetworkResult where
  runId : ValidatedId
  namespaceName : String
  namespaceInode : ℕ
  (bridgeName hostVethName namespaceVethName hostTransitCidr namespaceTransitCidr : String)
  deriving DecidableEq

structure RunNetworkRecord where
  request : EnsureRunNetworkRequest
  result : RunNetworkResult
  deriving DecidableEq

def RunNetworkRecord.runId (network : RunNetworkRecord) : ValidatedId := network.request.runId

/-! ## Generations -/

/-- What a generation is launched with. -/
structure LaunchReservation where
  generation : ValidatedId
  request : VmLaunchRequest
  requestFingerprint : Sha256Digest
  runNetwork : RunNetworkRecord
  (uid gid : ℕ)
  quota : CpuQuota
  deriving DecidableEq

def LaunchReservation.SameVm (launch : LaunchReservation) (runId vmId : ValidatedId) : Prop :=
  launch.request.runId = runId ∧ launch.request.vmId = vmId

instance (launch : LaunchReservation) (runId vmId : ValidatedId) :
    Decidable (launch.SameVm runId vmId) :=
  inferInstanceAs (Decidable (_ ∧ _))

/-- The record of a VM: what it was launched with, and what is known of its unit.  The unit's name,
the paths and the namespace follow from the rest; the schema version and the hash of the runtime are
constants. -/
structure VmRecord extends LaunchReservation where
  /-- When the quota was last attested. -/
  quotaAttestation : Option ℕ
  sshForwardActive : Bool
  (cgroupPath hostBootId : Option String)
  (pidStartTimeTicks jailRootInode : Option ℕ)
  deriving DecidableEq

structure UnresolvedRecovery where
  (runId generation : ValidatedId)
  (uid gid : ℕ)
  deriving DecidableEq

def vmUnitName (generation : ValidatedId) : String := "intar-vm-" ++ generation ++ ".service"

/-- `unresolved_recovery_for_record`, which looks only at the launch. -/
def LaunchReservation.recovery (launch : LaunchReservation) : UnresolvedRecovery :=
  { runId := launch.request.runId, generation := launch.generation, uid := launch.uid,
    gid := launch.gid }

structure CpuCharge where
  generation : ValidatedId
  quota : CpuQuota
  deriving DecidableEq

structure IdentityReservation where
  generation : ValidatedId
  uid : ℕ
  deriving DecidableEq

def LaunchReservation.identity (launch : LaunchReservation) : IdentityReservation :=
  ⟨launch.generation, launch.uid⟩

/-! ## Detached work -/

/-- How far a detached launch got: each of the four flags of the source implies the ones before. -/
inductive DetachedLaunchProgress
  | nothing
  | identityReserved
  | jailPrepareAttempted
  | networkPrepareAttempted
  | unitStartAttempted
  deriving DecidableEq

namespace DetachedLaunchProgress

def hasIdentity (progress : DetachedLaunchProgress) : Bool := progress ≠ nothing

def hasJail : DetachedLaunchProgress → Bool
  | nothing | identityReserved => false
  | jailPrepareAttempted | networkPrepareAttempted | unitStartAttempted => true

def hasNetwork : DetachedLaunchProgress → Bool
  | networkPrepareAttempted | unitStartAttempted => true
  | _ => false

def hasUnit (progress : DetachedLaunchProgress) : Bool := progress = unitStartAttempted

end DetachedLaunchProgress

structure StartedUnit where
  (cgroupPath hostBootId : Option String)
  pidStartTimeTicks : Option ℕ
  deriving DecidableEq

structure DetachedLaunchFailure where
  cgroupDrainProven : Bool
  cleanupFailures : List String
  identityReleased : Bool
  deriving DecidableEq

/-- What `execute` does next. -/
inductive LaunchStage
  | validating
  | reserving
  | preparing
  | networking (record : VmRecord)
  | recording (record : VmRecord)
  | starting (record : VmRecord)
  | granting (record : VmRecord) (started : StartedUnit)
  | identifying (record : VmRecord)
  | cleaning (progress : DetachedLaunchProgress)
  | succeeded (record : VmRecord)
  | failed (failure : DetachedLaunchFailure)
  deriving DecidableEq

structure DetachedLaunchTask where
  reservation : LaunchReservation
  stage : LaunchStage
  deriving DecidableEq

def DetachedLaunchTask.generation (task : DetachedLaunchTask) : ValidatedId :=
  task.reservation.generation

structure RecoveryContainmentOutcome where
  cgroupDrainProven : Bool
  failures : List String
  deriving DecidableEq

inductive ExistingOutcome
  | success
  | inspectionFailed
  | identityMismatch (containment : RecoveryContainmentOutcome)
  deriving DecidableEq

/-- A detached check of a VM that is already there; no outcome while it is under way. -/
structure ExistingCheck where
  record : VmRecord
  outcome : Option ExistingOutcome
  deriving DecidableEq

/-! ## The state -/

/-- What the daemon keeps in memory.  `attested` stands for the two flags of the readiness that the
daemon takes back itself, always both together. -/
structure JailerdCore where
  records : List VmRecord := []
  pendingCpuReservations : List CpuCharge := []
  inflightLaunches : List LaunchReservation := []
  unresolvedRecoveries : List UnresolvedRecovery := []
  allocatedIdentities : List ℕ := []
  runNetworks : List RunNetworkRecord := []
  attested : Bool := false
  deriving DecidableEq

structure State extends JailerdCore where
  running : Bool := false
  tasks : List DetachedLaunchTask := []
  checks : List ExistingCheck := []
  units : List LaunchReservation := []
  metadata : List VmRecord := []
  reservations : List IdentityReservation := []
  births : List LaunchReservation := []
  deriving DecidableEq

def JailerdCore.committedCpuMillis (core : JailerdCore) : ℕ :=
  (core.records.map fun record => record.quota.cpuMillis).sum +
    (core.pendingCpuReservations.map fun charge => charge.quota.cpuMillis).sum

/-- The first record of a logical VM, in the order of the generations. -/
def JailerdCore.findRecord (core : JailerdCore) (runId vmId : ValidatedId) : Option VmRecord :=
  core.records.find? fun record => record.SameVm runId vmId

/-! ## Changes -/

/-- The elementary changes.  The last six are to the host, the others to the memory of the daemon. -/
inductive Change
  | beget (launch : LaunchReservation)
  | allocate (uid : ℕ)
  | free (uid : ℕ)
  | charge (charge : CpuCharge)
  | discharge (generation : ValidatedId)
  | fly (reservation : LaunchReservation)
  | land (generation : ValidatedId)
  | retain (recovery : UnresolvedRecovery)
  | settle (generation : ValidatedId)
  | commit (record : VmRecord)
  /-- The record of a launch that was in flight, which it no longer is. -/
  | promote (record : VmRecord)
  | drop (generation : ValidatedId)
  | addNetwork (network : RunNetworkRecord)
  | dropNetwork (runId : ValidatedId)
  | distrust
  | setTask (task : DetachedLaunchTask)
  | endTask (generation : ValidatedId)
  | addCheck (check : ExistingCheck)
  | endCheck (check : ExistingCheck)
  /-- The core is built and takes requests. -/
  | serve (attested : Bool)
  /-- The daemon ends, with everything it kept in memory. -/
  | shut
  | start (launch : LaunchReservation)
  | drain (generation : ValidatedId)
  | persist (record : VmRecord)
  | remove (generation : ValidatedId)
  | reserve (identity : IdentityReservation)
  | release (generation : ValidatedId)
  deriving DecidableEq

open SortedTable (insert erase)

def State.apply (s : State) : Change → State
  | .beget launch => { s with births := launch :: s.births }
  | .allocate uid => { s with allocatedIdentities := insert id uid s.allocatedIdentities }
  | .free uid => { s with allocatedIdentities := erase id uid s.allocatedIdentities }
  | .charge charge =>
    { s with pendingCpuReservations := insert (·.generation) charge s.pendingCpuReservations }
  | .discharge generation =>
    { s with pendingCpuReservations := erase (·.generation) generation s.pendingCpuReservations }
  | .fly reservation =>
    { s with inflightLaunches := insert (·.generation) reservation s.inflightLaunches }
  | .land generation =>
    { s with inflightLaunches := erase (·.generation) generation s.inflightLaunches }
  | .retain recovery =>
    { s with unresolvedRecoveries := insert (·.generation) recovery s.unresolvedRecoveries }
  | .settle generation =>
    { s with unresolvedRecoveries := erase (·.generation) generation s.unresolvedRecoveries }
  | .commit record => { s with records := insert (·.generation) record s.records }
  | .promote record =>
    { s with
      records := insert (·.generation) record s.records
      inflightLaunches := erase (·.generation) record.generation s.inflightLaunches }
  | .drop generation => { s with records := erase (·.generation) generation s.records }
  | .addNetwork network => { s with runNetworks := insert (·.runId) network s.runNetworks }
  | .dropNetwork runId => { s with runNetworks := erase (·.runId) runId s.runNetworks }
  | .distrust => { s with attested := false }
  | .setTask task => { s with tasks := insert (·.generation) task s.tasks }
  | .endTask generation => { s with tasks := erase (·.generation) generation s.tasks }
  | .addCheck check => { s with checks := check :: s.checks }
  | .endCheck check => { s with checks := s.checks.erase check }
  | .serve attested => { s with running := true, attested }
  | .shut =>
    { units := s.units, metadata := s.metadata, reservations := s.reservations, births := s.births }
  | .start launch => { s with units := insert (·.generation) launch s.units }
  | .drain generation => { s with units := erase (·.generation) generation s.units }
  | .persist record => { s with metadata := insert (·.generation) record s.metadata }
  | .remove generation => { s with metadata := erase (·.generation) generation s.metadata }
  | .reserve identity => { s with reservations := insert (·.generation) identity s.reservations }
  | .release generation => { s with reservations := erase (·.generation) generation s.reservations }

end Intar.Jailer
