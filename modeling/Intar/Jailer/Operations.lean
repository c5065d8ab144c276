import Intar.Jailer.State
import Intar.Lib.Trace

/-!
# What jailerd does

Each function of the daemon is written as the changes it makes.  What the host answers is a part of
the label: a stop, a destroy, a start and the network operations succeed or fail, and an operation on
the file system may in addition have been carried out and still report an error (`Answer.lost`).  A
successful stop or destroy is taken to prove that the unit's cgroup is drained; a failed one proves
nothing.

The functions that run under the lock are single operations.  A detached launch takes the lock to
reserve and to commit, and goes through `execute` without it, one call of the host at a time.  The
work that several functions share (stopping and destroying a unit, and cleaning up behind it) is one
operation also where it runs without the lock.

Changes to different tables that one critical section makes are listed in an order in which no state
in between has a running unit that is in no table.  No one sees those states: a crash loses all tables
at once.

Two details are not modelled.  The metadata of a generation is read back as it was written; what the
daemon does with files it cannot read is its own affair.  And the ids drawn for generations are new.
-/

namespace Intar.Jailer

open SortedTable (get)

/-- `uid_gid_start`, `uid_gid_end`, `cpu_reserved_millis` and the capacity of the host. -/
structure JailerdConfig where
  (uidGidStart uidGidEnd cpuReservedMillis totalCpuMillis : ℕ)

def JailerdConfig.schedulable (config : JailerdConfig) : ℕ :=
  config.totalCpuMillis - config.cpuReservedMillis

/-- The answer of an operation on the file system. -/
inductive Answer
  | done
  /-- Carried out, and reported as an error. -/
  | lost
  | failed
  deriving DecidableEq

/-- The change of an operation, if it took place. -/
def Answer.took (answer : Answer) (change : Change) : List Change :=
  if answer = .failed then [] else [change]

/-- The answers of the host to the functions that end a unit and clean up behind it. -/
structure HostAnswers where
  reserve : Answer
  (stop destroy network : Bool)
  (quarantine release : Answer)
  deriving DecidableEq

def HostAnswers.drainProven (answers : HostAnswers) : Bool := answers.stop || answers.destroy

/-- A stop and then a destroy of the unit. -/
def stopAndDestroy (generation : ValidatedId) (answers : HostAnswers) : List Change :=
  (if answers.stop then [.drain generation] else []) ++
    (if answers.destroy then [.drain generation] else [])

/-- A stop, a destroy, and the quarantine of what a drained unit leaves. -/
def endUnit (generation : ValidatedId) (answers : HostAnswers) : List Change :=
  stopAndDestroy generation answers ++
    if answers.drainProven then answers.quarantine.took (.remove generation) else []

/-! ## Containment -/

section

variable (config : JailerdConfig)

def attemptRecoveredContainment (recovery : UnresolvedRecovery) (answers : HostAnswers) :
    RecoveryContainmentOutcome × List Change :=
  let inRange := recovery.uid = recovery.gid ∧
    config.uidGidStart ≤ recovery.uid ∧ recovery.uid ≤ config.uidGidEnd
  let unitName := vmUnitName recovery.generation
  ({ cgroupDrainProven := answers.drainProven
     failures :=
      (if inRange ∧ answers.reserve ≠ .done then
        ["preserve quarantined VM identity reservation"] else []) ++
      (if answers.stop then [] else ["drain mismatched transient unit " ++ unitName]) ++
      (if answers.destroy then [] else ["remove mismatched transient unit " ++ unitName]) ++
      (if answers.drainProven then
        (if answers.network then []
          else ["destroy recovered VM network for " ++ recovery.generation]) ++
        (if answers.quarantine = .done then []
          else ["quarantine mismatched recovered jail " ++ recovery.generation])
      else ["preserved VM network and jail " ++ recovery.generation ++
        " because cgroup drain was not proven"]) },
   (if inRange then answers.reserve.took (.reserve ⟨recovery.generation, recovery.uid⟩) else []) ++
    endUnit recovery.generation answers)

end

/-- `rollback_failed_launch`: what failed, and the changes. -/
def rollbackFailedLaunch (generation : ValidatedId) (answers : HostAnswers) :
    List String × List Change :=
  ((if answers.stop then [] else ["stop transient unit " ++ vmUnitName generation]) ++
    (if answers.destroy then [] else ["destroy transient unit " ++ vmUnitName generation]) ++
    (if answers.drainProven then
      (if answers.network then [] else ["destroy VM network for generation " ++ generation]) ++
      (if answers.quarantine = .done then [] else ["quarantine generation " ++ generation])
    else ["preserved VM network and generation " ++ generation ++
      " because cgroup drain was not proven"]),
   endUnit generation answers)

def failLaunch (generation : ValidatedId) (answers : HostAnswers) : List Change :=
  let rollback := rollbackFailedLaunch generation answers
  rollback.2 ++
    if rollback.1 = [] then [.discharge generation, .settle generation]
    else (if answers.drainProven then [.discharge generation] else []) ++ [.distrust]

def containFailedBootSeal (record : VmRecord) (answers : HostAnswers) : List Change :=
  let rollback := rollbackFailedLaunch record.generation answers
  .distrust :: (rollback.2 ++ if rollback.1 = [] then [.drop record.generation] else [])

/-! ## Run networks -/

/-- The backend answers with the network it ensured, or fails. -/
def JailerdCore.ensureRunNetwork (core : JailerdCore) (request : EnsureRunNetworkRequest)
    (answer : Option RunNetworkResult) : List Change :=
  match answer with
  | none => []
  | some result =>
    match get (·.runId) request.runId core.runNetworks with
    | some _ => []
    | none => [.addNetwork ⟨request, result⟩]

def JailerdCore.destroyRunNetwork (core : JailerdCore) (runId : ValidatedId) (answer : Bool) :
    List Change :=
  if core.records.any (fun record => record.request.runId = runId) then []
  else if answer then [.dropNetwork runId] else []

/-! ## Admission of a launch -/

inductive LaunchError
  | bail (message : String)
  | cpuCapacityExhausted (committed requested schedulable : ℕ)
  deriving DecidableEq

/-- An admission in flight has a record to check, or a reservation to launch. -/
inductive DetachedLaunchAdmission
  | existing (record : VmRecord)
  | reserved (reservation : LaunchReservation)
  deriving DecidableEq

/-- `allocate_identity`: the first identity of the range that is not allocated. -/
def JailerdCore.allocateIdentity (core : JailerdCore) (config : JailerdConfig) : Option ℕ :=
  (List.range' config.uidGidStart (config.uidGidEnd + 1 - config.uidGidStart)).find?
    fun uid => uid ∉ core.allocatedIdentities

/-- What `begin_detached_launch` and `launch_vm_validated` do once no record of the VM is found: the
reservation of the generation drawn. -/
def JailerdCore.reservation (core : JailerdCore) (config : JailerdConfig)
    (request : VmLaunchRequest) (quota : CpuQuota) (generation : ValidatedId) :
    Except LaunchError LaunchReservation :=
  match get (·.runId) request.runId core.runNetworks with
  | none => .error (.bail "run network must be ensured before launching a VM")
  | some runNetwork =>
    if config.schedulable < core.committedCpuMillis + quota.cpuMillis then
      .error (.cpuCapacityExhausted core.committedCpuMillis quota.cpuMillis config.schedulable)
    else
      match core.allocateIdentity config with
      | none => .error (.bail "VM UID/GID allocation range is exhausted")
      | some uid =>
        .ok { generation, request,
              requestFingerprint := requestFingerprint request, runNetwork,
              uid, gid := uid, quota }

/-- `accepted` is the answer of the checks that do not concern the tables: the form of the request,
the policy of the configuration and the readiness of the host apart from what the daemon itself takes
back. -/
def JailerdCore.beginDetachedLaunch (core : JailerdCore) (config : JailerdConfig)
    (request : VmLaunchRequest) (accepted : Bool) (generation : ValidatedId) :
    Except LaunchError DetachedLaunchAdmission :=
  match CpuQuota.fromMillis request.cpuMillis with
  | none => .error (.bail "validate template-backed VM launch request")
  | some quota =>
    if accepted = false ∨ core.attested = false then
      .error (.bail "host readiness attestation does not permit template-backed VM launches")
    else
      match core.findRecord request.runId request.vmId with
      | some existing =>
        if existing.requestFingerprint = requestFingerprint request then .ok (.existing existing)
        else .error (.bail "logical VM already exists with a different launch request")
      | none =>
        match core.inflightLaunches.find? fun launch => launch.SameVm request.runId request.vmId with
        | some existing =>
          if existing.requestFingerprint = requestFingerprint request then
            .error (.cpuCapacityExhausted core.committedCpuMillis existing.quota.cpuMillis
              config.schedulable)
          else .error (.bail "logical VM launch already exists with a different launch request")
        | none =>
          match core.reservation config request quota generation with
          | .error error => .error error
          | .ok reservation => .ok (.reserved reservation)

/-- The changes an admission makes. -/
def DetachedLaunchAdmission.changes : DetachedLaunchAdmission → List Change
  | .existing record => [.addCheck ⟨record, none⟩]
  | .reserved reservation =>
    [.beget reservation, .allocate reservation.uid,
      .charge ⟨reservation.generation, reservation.quota⟩, .fly reservation,
      .setTask ⟨reservation, .validating⟩]

/-! ## A detached launch -/

/-- The metadata written before the unit is started. -/
def LaunchReservation.intent (reservation : LaunchReservation) (hostBootId : Option String)
    (jailRootInode : Option ℕ) : VmRecord :=
  { reservation with
    quotaAttestation := none, sshForwardActive := false, cgroupPath := none,
    hostBootId, pidStartTimeTicks := none, jailRootInode }

/-- The metadata of a unit that was started, attested at `now`. -/
def VmRecord.identified (record : VmRecord) (started : StartedUnit) (now : ℕ) : VmRecord :=
  { record with
    cgroupPath := started.cgroupPath, hostBootId := started.hostBootId,
    pidStartTimeTicks := started.pidStartTimeTicks, quotaAttestation := some now }

/-- What the host answers to one call of `execute`: the answer, and what the calls that return
something return.  An answer that is an error also stands for a mismatch found in what was
returned. -/
structure TaskAnswer where
  answer : Answer
  hostBootId : Option String
  jailRootInode : Option ℕ
  started : StartedUnit
  now : ℕ
  cleanup : HostAnswers
  deriving DecidableEq

def cleanupDetachedLaunch (reservation : LaunchReservation) (progress : DetachedLaunchProgress)
    (answers : HostAnswers) : DetachedLaunchFailure × List Change :=
  let generation := reservation.generation
  let drainProven := !progress.hasUnit || answers.drainProven
  let releases := progress.hasIdentity && !progress.hasJail && drainProven
  ({ cgroupDrainProven := drainProven
     cleanupFailures :=
      (if progress.hasUnit then
        (if answers.stop then [] else ["stop transient unit " ++ vmUnitName generation]) ++
        (if answers.destroy then [] else ["destroy transient unit " ++ vmUnitName generation])
      else []) ++
      (if drainProven then
        (if progress.hasNetwork && !answers.network then
          ["destroy VM network for generation " ++ generation] else []) ++
        (if progress.hasJail ∧ answers.quarantine ≠ .done then
          ["quarantine generation " ++ generation] else [])
      else ["preserved VM network and generation " ++ generation ++
        " because cgroup drain was not proven"]) ++
      (if releases ∧ answers.release ≠ .done then
        ["release unused identity reservation for " ++ generation] else [])
     identityReleased := !progress.hasIdentity || (releases && answers.release = .done) },
   (if progress.hasUnit then stopAndDestroy generation answers else []) ++
    ((if drainProven && progress.hasJail then answers.quarantine.took (.remove generation) else []) ++
      (if releases then answers.release.took (.release generation) else [])))

/-- The next call of `execute`. -/
def DetachedLaunchTask.advance (task : DetachedLaunchTask) (a : TaskAnswer) : List Change :=
  let reservation := task.reservation
  let goOn (stage : LaunchStage) : Change := .setTask { task with stage }
  match task.stage with
  | .validating =>
    [if a.answer = .done then goOn .reserving else goOn (.cleaning .nothing)]
  | .reserving =>
    a.answer.took (.reserve reservation.identity) ++
      [if a.answer = .done then goOn .preparing else goOn (.cleaning .identityReserved)]
  | .preparing =>
    [if a.answer = .done then goOn (.networking (reservation.intent a.hostBootId a.jailRootInode))
      else goOn (.cleaning .jailPrepareAttempted)]
  | .networking record =>
    [if a.answer = .done then goOn (.recording record)
      else goOn (.cleaning .networkPrepareAttempted)]
  | .recording record =>
    a.answer.took (.persist record) ++
      [if a.answer = .done then goOn (.starting record)
        else goOn (.cleaning .networkPrepareAttempted)]
  | .starting record =>
    -- the unit may be running from here on, whatever the start reports
    [if a.answer = .done then goOn (.granting record a.started)
      else goOn (.cleaning .unitStartAttempted), .start reservation]
  | .granting record started =>
    [if a.answer = .done then goOn (.identifying (record.identified started a.now))
      else goOn (.cleaning .unitStartAttempted)]
  | .identifying record =>
    a.answer.took (.persist record) ++
      [if a.answer = .done then goOn (.succeeded record)
        else goOn (.cleaning .unitStartAttempted)]
  | .cleaning progress =>
    let cleanup := cleanupDetachedLaunch reservation progress a.cleanup
    cleanup.2 ++ [goOn (.failed cleanup.1)]
  | .succeeded _ | .failed _ => []

/-- `complete_detached_launch_vm_v2`, for a launch that has its outcome. -/
def JailerdCore.completeDetachedLaunch (core : JailerdCore) (task : DetachedLaunchTask) :
    List Change :=
  let reservation := task.reservation
  let generation := reservation.generation
  let fenced := get (·.generation) generation core.inflightLaunches = some reservation ∧
    get (·.generation) generation core.pendingCpuReservations = some ⟨generation, reservation.quota⟩
  match task.stage with
  | .succeeded record =>
    if ¬ fenced then [.endTask generation, .distrust]
    else if (core.findRecord reservation.request.runId reservation.request.vmId).isSome then
      [.endTask generation]
    else [.endTask generation, .promote record, .discharge generation, .settle generation]
  | .failed failure =>
    if ¬ fenced then [.endTask generation, .distrust]
    else
      .endTask generation ::
        ((if failure.cleanupFailures = [] then [.settle generation]
          else [.retain reservation.recovery, .distrust]) ++
        (.land generation ::
          ((if failure.cgroupDrainProven then [.discharge generation] else []) ++
            (if failure.identityReleased then [.free reservation.uid] else []))))
  | _ => []

/-! ## A check of a VM that is already there -/

/-- `detached_existing_identity_matches`. -/
def VmRecord.IdentityMatches (expected current : VmRecord) : Prop :=
  expected.toLaunchReservation = current.toLaunchReservation ∧
    expected.cgroupPath = current.cgroupPath ∧ expected.hostBootId = current.hostBootId ∧
    expected.pidStartTimeTicks = current.pidStartTimeTicks ∧
    expected.jailRootInode = current.jailRootInode

instance (expected current : VmRecord) : Decidable (expected.IdentityMatches current) :=
  inferInstanceAs (Decidable (_ ∧ _))

/-- The inspection fails, or says whether the unit is the one the record knows. -/
structure CheckAnswer where
  inspection : Option Bool
  ingress : Bool
  containment : HostAnswers
  deriving DecidableEq

def executeExistingLaunch (config : JailerdConfig) (record : VmRecord) (a : CheckAnswer) :
    ExistingOutcome × List Change :=
  match a.inspection with
  | none => (.inspectionFailed, [])
  | some true => (.success, [])
  | some false =>
    let containment := attemptRecoveredContainment config record.recovery a.containment
    (.identityMismatch
      { cgroupDrainProven := containment.1.cgroupDrainProven
        failures :=
          (if a.ingress then []
            else ["close SSH ingress for mismatched generation " ++ record.generation]) ++
          containment.1.failures },
      containment.2)

/-- `complete_detached_existing_launch`: the changes, and the record a launch is answered with. -/
def JailerdCore.completeExistingLaunch (core : JailerdCore) (record : VmRecord)
    (outcome : ExistingOutcome) (ingress : Bool) : List Change × Option VmRecord :=
  let generation := record.generation
  match outcome, get (·.generation) generation core.records with
  | .success, none => ([], none)
  | .success, some current =>
    if record.IdentityMatches current then ([], some current) else ([.distrust], none)
  | .inspectionFailed, none => ([], none)
  | .inspectionFailed, some current =>
    (if record.IdentityMatches current then [] else [.distrust], none)
  | .identityMismatch _, none => ([.distrust], none)
  | .identityMismatch containment, some current =>
    let failures := containment.failures ++
      if ingress then [] else ["commit SSH ingress revocation for mismatched generation " ++ generation]
    (.distrust ::
      match CpuQuota.fromMillis record.request.cpuMillis with
      | none => []
      | some conservative =>
        (if containment.cgroupDrainProven then [.discharge generation]
          else [.charge ⟨generation, conservative⟩]) ++
        ((if failures = [] then [.settle generation] else [.retain record.recovery]) ++
          (if record.IdentityMatches current then [.drop generation] else [])), none)

/-! ## A launch under the lock -/

/-- What the host answers in `launch_vm_validated`. -/
structure LaunchAnswers where
  check : CheckAnswer
  ingress : Bool
  reserve : Answer
  prepare : Bool
  hostBootId : Option String
  jailRootInode : Option ℕ
  network : Bool
  intent : Answer
  started : Option StartedUnit
  grant : Bool
  attested : Option ℕ
  identity : Answer
  cleanup : HostAnswers
  deriving DecidableEq

/-- `launch_vm_validated` from `start_unit` on. -/
def launchStarted (intent : VmRecord) (a : LaunchAnswers) : List Change × Option ValidatedId :=
  let generation := intent.generation
  match a.started, a.grant, a.attested with
  | some started, true, some now =>
    let record := intent.identified started now
    if a.identity = .done then
      ([.persist record, .commit record, .discharge generation, .settle generation],
        some generation)
    else (a.identity.took (.persist record) ++ failLaunch generation a.cleanup, none)
  | _, _, _ => (failLaunch generation a.cleanup, none)

/-- `launch_vm_validated` from the reservation of the identity on. -/
def launchReserved (reservation : LaunchReservation) (a : LaunchAnswers) :
    List Change × Option ValidatedId :=
  let generation := reservation.generation
  let quarantined := a.cleanup.quarantine.took (.remove generation)
  if a.reserve ≠ .done then (a.reserve.took (.reserve reservation.identity), none)
  else
    let intent := reservation.intent a.hostBootId a.jailRootInode
    if a.prepare = false then ([.reserve reservation.identity], none)
    else if a.network = false then (.reserve reservation.identity :: quarantined, none)
    else if a.intent ≠ .done then
      (.reserve reservation.identity :: (a.intent.took (.persist intent) ++ quarantined), none)
    else
      let rest := launchStarted intent a
      ([.reserve reservation.identity, .persist intent, .charge ⟨generation, reservation.quota⟩,
        .retain reservation.recovery, .start reservation] ++ rest.1, rest.2)

/-- `launch_vm_v2` and `launch_vm_v3`: the changes, and the generation of a successful answer. -/
def JailerdCore.launchVm (core : JailerdCore) (config : JailerdConfig) (request : VmLaunchRequest)
    (accepted : Bool) (generation : ValidatedId) (a : LaunchAnswers) :
    List Change × Option ValidatedId :=
  match CpuQuota.fromMillis request.cpuMillis with
  | none => ([], none)
  | some quota =>
    if accepted = false ∨ core.attested = false then ([], none)
    else
      match core.findRecord request.runId request.vmId with
      | some existing =>
        if existing.requestFingerprint = requestFingerprint request then
          let executed := executeExistingLaunch config existing a.check
          let completed := core.completeExistingLaunch existing executed.1 a.ingress
          (executed.2 ++ completed.1, completed.2.map (·.generation))
        else ([], none)
      | none =>
        match core.reservation config request quota generation with
        | .error _ => ([], none)
        | .ok reservation =>
          let rest := launchReserved reservation a
          ([.beget reservation, .allocate reservation.uid] ++ rest.1, rest.2)

/-! ## The life of a committed VM -/

/-- A generation, or a run and a VM. -/
inductive VmSelector
  | generation (generation : ValidatedId)
  | logical (runId vmId : ValidatedId)
  deriving DecidableEq

def JailerdCore.resolveGeneration (core : JailerdCore) : VmSelector → Option ValidatedId
  | .generation generation => some generation
  | .logical runId vmId => (core.findRecord runId vmId).map (·.generation)

structure FinalizeAnswers where
  verify : Bool
  attested : Option ℕ
  persistSeal : Answer
  forward : Bool
  persistForward : Answer
  rollback : Bool
  containment : HostAnswers
  deriving DecidableEq

/-- The quota of the VM is attested at `now`. -/
def VmRecord.sealedAt (record : VmRecord) (now : ℕ) : VmRecord :=
  { record with quotaAttestation := some now }

/-- Ingress is open if the VM has a port. -/
def VmRecord.forwarded (record : VmRecord) : VmRecord :=
  { record with sshForwardActive := record.request.sshPublicPort.isSome }

/-- `finalize_vm_boot` after `verify_vm_cpu`: the ingress of a sealed VM. -/
def finalizeForwarding (record : VmRecord) (a : FinalizeAnswers) : List Change :=
  if a.forward = false ∨ record.sshForwardActive = record.request.sshPublicPort.isSome then []
  else
    a.persistForward.took (.persist record.forwarded) ++
      if a.persistForward = .done then [.commit record.forwarded]
      else if a.rollback then [] else containFailedBootSeal record.forwarded a.containment

def JailerdCore.finalizeVmBoot (core : JailerdCore) (generation : ValidatedId)
    (a : FinalizeAnswers) : List Change :=
  match get (·.generation) generation core.records with
  | none => []
  | some record =>
    if record.cgroupPath = none then []
    else if a.verify = false then containFailedBootSeal record a.containment
    else
      match a.attested with
      | none => []
      | some now =>
        a.persistSeal.took (.persist (record.sealedAt now)) ++
          if a.persistSeal = .done then
            .commit (record.sealedAt now) :: finalizeForwarding (record.sealedAt now) a
          else containFailedBootSeal (record.sealedAt now) a.containment

def JailerdCore.inspectVm (core : JailerdCore) (selector : VmSelector) (a : CheckAnswer) :
    List Change :=
  match (core.resolveGeneration selector).bind (get (·.generation) · core.records), a.inspection with
  | some record, some false =>
    if a.containment.stop = false then []
    else if a.containment.destroy = false then [.drain record.generation]
    else [.drain record.generation, .drain record.generation] ++
      a.containment.quarantine.took (.remove record.generation)
  | _, _ => []

def JailerdCore.stopVm (core : JailerdCore) (selector : VmSelector) (answer : Bool) : List Change :=
  match (core.resolveGeneration selector).bind (get (·.generation) · core.records) with
  | some record => if answer then [.drain record.generation] else []
  | none => []

structure DestroyAnswers where
  reserve : Answer
  (destroy network : Bool)
  (files release : Answer)

/-- `destroy_vm` of a generation without a record. -/
def destroyUnknown (generation : ValidatedId) (a : DestroyAnswers) : List Change :=
  if a.destroy then .drain generation :: a.files.took (.remove generation) else []

/-- `destroy_vm` of a generation with a record. -/
def destroyRecord (record : VmRecord) (a : DestroyAnswers) : List Change :=
  let generation := record.generation
  a.reserve.took (.reserve record.identity) ++
    if a.reserve ≠ .done ∨ a.destroy = false then []
    else .drain generation ::
      if a.network = false then []
      else if a.files ≠ .done then a.files.took (.remove generation)
      else .remove generation :: .drop generation :: (a.release.took (.release generation) ++
        if a.release = .done then [.free record.uid] else [])

def JailerdCore.destroyVm (core : JailerdCore) (selector : VmSelector) (a : DestroyAnswers) :
    List Change :=
  match core.resolveGeneration selector with
  | none => []
  | some generation =>
    match get (·.generation) generation core.records with
    | none => destroyUnknown generation a
    | some record => destroyRecord record a

/-! ## Recovery -/

/-- One more attempt at a generation whose containment is incomplete. -/
def retryRecovery (config : JailerdConfig) (recovery : UnresolvedRecovery) (answers : HostAnswers) :
    List Change :=
  let containment := attemptRecoveredContainment config recovery answers
  containment.2 ++
    ((if containment.1.cgroupDrainProven then [.discharge recovery.generation] else []) ++
      (if containment.1.failures = [] then [.settle recovery.generation] else []))

def JailerdCore.retryUnresolvedRecoveries (core : JailerdCore) (config : JailerdConfig)
    (answers : ValidatedId → HostAnswers) : List Change :=
  core.unresolvedRecoveries.flatMap fun recovery =>
    retryRecovery config recovery (answers recovery.generation)

/-- The charge for a generation that cannot be reattached. -/
def VmRecord.conservativeQuota (record : VmRecord) : CpuQuota :=
  (CpuQuota.fromMillis (max record.request.cpuMillis record.quota.cpuMillis)).getD
    ⟨65535000, 6553500000, cpuPeriodMicros⟩

def containOrRetainRecoveredRecord (config : JailerdConfig) (record : VmRecord)
    (answers : HostAnswers) : List Change :=
  [.charge ⟨record.generation, record.conservativeQuota⟩, .retain record.recovery] ++
    (retryRecovery config record.recovery answers ++ [.allocate record.uid])

/-- What the host answers about one generation at the start of the daemon.  `trusted` is the outcome of
the checks on the metadata and of the inspection of the unit. -/
structure RecoveryAnswers where
  trusted : Bool
  network : Option RunNetworkResult
  verify : Bool
  attested : Option ℕ
  persist : Answer
  (attach forward : Bool)
  containment : HostAnswers

/-- The networks known after the one of a record is looked up or restored, unless it is another. -/
def restoreRunNetwork (networks : List RunNetworkRecord) (record : VmRecord)
    (answer : Option RunNetworkResult) : Option (List Change) :=
  match get (·.runId) record.request.runId networks with
  | some existing => if existing = record.runNetwork then some [] else none
  | none => if answer = some record.runNetwork.result then some [.addNetwork record.runNetwork] else none

inductive Recovered
  /-- The daemon does not start. -/
  | aborted (changes : List Change)
  | contained (changes : List Change)
  | adopted (changes : List Change)

/-- One round of the loop in `new_with_readiness`. -/
def recoverRecord (config : JailerdConfig) (networks : List RunNetworkRecord) (active : List ℕ)
    (record : VmRecord) (a : RecoveryAnswers) : Recovered :=
  let contain := containOrRetainRecoveredRecord config record a.containment
  if a.trusted = false then .contained contain
  else
    match restoreRunNetwork networks record a.network with
    | none => .contained contain
    | some restored =>
      if record.cgroupPath = none ∨ a.verify = false then .contained (restored ++ contain)
      else
        match a.attested with
        | none => .aborted restored
        | some now =>
          let sealed := record.sealedAt now
          if a.persist ≠ .done then
            .contained (restored ++ (a.persist.took (.persist sealed) ++ contain))
          else if a.attach = false ∨ (record.sshForwardActive = true ∧ a.forward = false) ∨
              record.uid ∈ active then
            .contained (restored ++ (.persist sealed :: contain))
          else .adopted (restored ++ [.persist sealed, .allocate record.uid, .commit sealed])

/-- The rest of the loop.  The tables it has filled so far are those of `core`; `active` are the
identities of the records it has adopted. -/
def recoverRecords (config : JailerdConfig) (ready : Bool) (answers : ValidatedId → RecoveryAnswers)
    (core : State) (active : List ℕ) (clean : Bool) : List VmRecord → List Change
  | [] => [.serve (ready && clean)]
  | record :: rest =>
    match recoverRecord config core.runNetworks active record (answers record.generation) with
    | .aborted changes => changes ++ [.shut]
    | .contained changes =>
      changes ++ recoverRecords config ready answers (Trace.run State.apply core changes) active
        false rest
    | .adopted changes =>
      changes ++ recoverRecords config ready answers (Trace.run State.apply core changes)
        (record.uid :: active) clean rest

/-- `new_with_readiness`.  The metadata is found in any order; two reservations of one identity keep
the daemon from starting. -/
def State.newWithReadiness (s : State) (config : JailerdConfig) (ready : Bool)
    (found : List VmRecord) (answers : ValidatedId → RecoveryAnswers) : List Change :=
  if ¬ (s.reservations.map (·.uid)).Nodup ∨ ¬ found.Perm s.metadata then []
  else
    let reserved := s.reservations.map fun identity => Change.allocate identity.uid
    reserved ++ recoverRecords config ready answers (Trace.run State.apply s reserved) [] true found

/-! ## The system -/

/-- The operations, with everything the host and the caller choose. -/
inductive Operation
  | ensureRunNetwork (request : EnsureRunNetworkRequest) (answer : Option RunNetworkResult)
  | destroyRunNetwork (runId : ValidatedId) (answer : Bool)
  /-- The admission of a detached launch, with the generation it draws. -/
  | begin (request : VmLaunchRequest) (accepted : Bool) (generation : ValidatedId)
  | advance (generation : ValidatedId) (answer : TaskAnswer)
  | complete (generation : ValidatedId)
  | executeCheck (record : VmRecord) (answer : CheckAnswer)
  | completeCheck (record : VmRecord) (outcome : ExistingOutcome) (ingress : Bool)
  /-- A launch under the lock, with the generation it draws. -/
  | launch (request : VmLaunchRequest) (accepted : Bool) (generation : ValidatedId)
    (answers : LaunchAnswers)
  | finalize (generation : ValidatedId) (answers : FinalizeAnswers)
  | inspect (selector : VmSelector) (answer : CheckAnswer)
  | stop (selector : VmSelector) (answer : Bool)
  | destroy (selector : VmSelector) (answers : DestroyAnswers)
  | retry (answers : ValidatedId → HostAnswers)
  /-- The daemon starts, and finds the metadata in some order. -/
  | boot (ready : Bool) (found : List VmRecord) (answers : ValidatedId → RecoveryAnswers)

def State.Fresh (s : State) (generation : ValidatedId) : Prop :=
  ∀ launch ∈ s.births, launch.generation ≠ generation

instance (s : State) (generation : ValidatedId) : Decidable (s.Fresh generation) :=
  inferInstanceAs (Decidable (∀ _ ∈ _, _))

/-- The changes an operation makes in a running daemon. -/
def State.served (s : State) (config : JailerdConfig) : Operation → List Change
  | .ensureRunNetwork request answer => s.ensureRunNetwork request answer
  | .destroyRunNetwork runId answer => s.destroyRunNetwork runId answer
  | .begin request accepted generation =>
    if s.Fresh generation then
      match s.beginDetachedLaunch config request accepted generation with
      | .ok admission => admission.changes
      | .error _ => []
    else []
  | .advance generation answer =>
    match get (·.generation) generation s.tasks with
    | some task => task.advance answer
    | none => []
  | .complete generation =>
    match get (·.generation) generation s.tasks with
    | some task => s.completeDetachedLaunch task
    | none => []
  | .executeCheck record answer =>
    if ⟨record, none⟩ ∈ s.checks then
      let executed := executeExistingLaunch config record answer
      executed.2 ++ [.endCheck ⟨record, none⟩, .addCheck ⟨record, some executed.1⟩]
    else []
  | .completeCheck record outcome ingress =>
    if ⟨record, some outcome⟩ ∈ s.checks then
      .endCheck ⟨record, some outcome⟩ :: (s.completeExistingLaunch record outcome ingress).1
    else []
  | .launch request accepted generation answers =>
    if s.Fresh generation then (s.launchVm config request accepted generation answers).1 else []
  | .finalize generation answers => s.finalizeVmBoot generation answers
  | .inspect selector answer => s.inspectVm selector answer
  | .stop selector answer => s.stopVm selector answer
  | .destroy selector answers => s.destroyVm selector answers
  | .retry answers => s.retryUnresolvedRecoveries config answers
  | .boot _ _ _ => []

def State.changes (s : State) (config : JailerdConfig) (operation : Operation) : List Change :=
  if s.running then s.served config operation
  else
    match operation with
    | .boot ready found answers => s.newWithReadiness config ready found answers
    | _ => []

/-- An operation is carried out, or the daemon ends in the middle of it: after its first `made`
changes. -/
inductive Act
  | finish (operation : Operation)
  | crash (operation : Operation) (made : ℕ)

def State.step (config : JailerdConfig) (s : State) : Act → State
  | .finish operation => Trace.run State.apply s (s.changes config operation)
  | .crash operation made =>
    (Trace.run State.apply s ((s.changes config operation).take made)).apply .shut

/-- Nothing was ever launched on the host, and the daemon is not running. -/
def State.initial : State := {}

end Intar.Jailer
