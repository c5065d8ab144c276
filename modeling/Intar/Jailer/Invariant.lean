import Intar.Jailer.Operations

/-!
# What holds in every state of jailerd

One invariant carries everything that is proved about the daemon.  Its first part says that whatever
mentions a generation mentions it as it was launched, and what a detached launch has done by the stage
it has reached.  The other parts are the accounting of CPU, the networks of the runs, the identities of
the units and the logical VMs.

Three of the parts do not hold in every run.  `Guards` says which of them are asked for, and each is
kept by the operations that respect its guard.

The invariant holds after every elementary change, not only after every operation, because a crash
may leave any of those states behind.
-/

namespace Intar.Jailer

open SortedTable (insert erase Unique mem_insert mem_insert_self mem_erase unique_insert unique_erase)

/-! ## Where a generation is -/

namespace State

variable (s : State)

/-- The unit of the generation may be running. -/
def Live (generation : ValidatedId) : Prop := ∃ unit ∈ s.units, unit.generation = generation

def OnDisk (generation : ValidatedId) : Prop := ∃ record ∈ s.metadata, record.generation = generation

def Committed (launch : LaunchReservation) : Prop :=
  ∃ record ∈ s.records, record.toLaunchReservation = launch

/-- Committed or in flight. -/
def Addressed (launch : LaunchReservation) : Prop :=
  s.Committed launch ∨ launch ∈ s.inflightLaunches

def Stored (launch : LaunchReservation) : Prop :=
  ∃ record ∈ s.metadata, record.toLaunchReservation = launch

/-- The launch holds its identity. -/
def Held (launch : LaunchReservation) : Prop :=
  s.Addressed launch ∨ launch ∈ s.units ∨ s.Stored launch

/-- The quota of the launch is a part of what is committed. -/
def Charged (launch : LaunchReservation) : Prop :=
  (∃ record ∈ s.records, record.generation = launch.generation ∧ record.quota = launch.quota) ∨
    ∃ charge ∈ s.pendingCpuReservations,
      charge.generation = launch.generation ∧ launch.quota.cpuMillis ≤ charge.quota.cpuMillis

/-- The daemon knows of the generation: as a record, as a launch in flight, or as a containment that
is not complete. -/
def Tracked (generation : ValidatedId) : Prop :=
  (∃ record ∈ s.records, record.generation = generation) ∨
    (∃ launch ∈ s.inflightLaunches, launch.generation = generation) ∨
    ∃ recovery ∈ s.unresolvedRecoveries, recovery.generation = generation

end State

/-- A restart can reattach the generation: its metadata names the unit. -/
def VmRecord.Adoptable (record : VmRecord) : Prop := record.cgroupPath ≠ none

/-- What the admission of a launch makes sure of. -/
structure LaunchReservation.Valid (launch : LaunchReservation) : Prop where
  quota : CpuQuota.fromMillis launch.request.cpuMillis = some launch.quota
  fingerprint : launch.requestFingerprint = Jailer.requestFingerprint launch.request
  network : launch.runNetwork.runId = launch.request.runId

def LaunchReservation.SameVmAs (launch other : LaunchReservation) : Prop :=
  launch.SameVm other.request.runId other.request.vmId

theorem LaunchReservation.SameVmAs.symm {launch other : LaunchReservation}
    (h : launch.SameVmAs other) : other.SameVmAs launch :=
  ⟨h.1.symm, h.2.symm⟩

/-! ## What a detached launch has done -/

namespace LaunchStage

/-- The unit may be running. -/
def started : LaunchStage → Bool
  | granting _ _ | identifying _ | succeeded _ => true
  | cleaning progress => progress.hasUnit
  | failed failure =>
    !failure.cgroupDrainProven && !failure.identityReleased && failure.cleanupFailures ≠ []
  | _ => false

/-- There may be metadata. -/
def recorded : LaunchStage → Bool
  | recording _ | starting _ | granting _ _ | identifying _ | succeeded _ => true
  | cleaning progress => progress.hasJail
  | failed failure => !failure.identityReleased && failure.cleanupFailures ≠ []
  | _ => false

/-- The identity is reserved. -/
def reserved : LaunchStage → Bool
  | preparing | networking _ | recording _ | starting _ | granting _ _ | identifying _
  | succeeded _ => true
  | _ => false

/-- The metadata the launch has put together. -/
def record : LaunchStage → Option VmRecord
  | networking record | recording record | starting record | granting record _ | identifying record
  | succeeded record => some record
  | _ => none

/-- The metadata that is written before the start. -/
def intent : LaunchStage → Option VmRecord
  | networking record | recording record | starting record => some record
  | _ => none

end LaunchStage

/-- The host bears out the stage of a launch. -/
structure StageOk (units : List LaunchReservation) (metadata : List VmRecord)
    (reservations : List IdentityReservation) (task : DetachedLaunchTask) : Prop where
  unstarted : task.stage.started = false → ∀ unit ∈ units, unit.generation ≠ task.generation
  unrecorded : task.stage.recorded = false → ∀ record ∈ metadata,
    record.generation ≠ task.generation
  reserved : task.stage.reserved = true → task.reservation.identity ∈ reservations
  record : ∀ record, task.stage.record = some record → record.toLaunchReservation = task.reservation
  intent : ∀ record, task.stage.intent = some record → ¬ record.Adoptable

/-! ## The invariant -/

/-- Which of the conditional parts of the invariant are asked for. -/
structure Guards where
  /-- No destroy names a generation in flight. -/
  destroys : Prop
  /-- No network is destroyed under a generation, and the daemon does not restart. -/
  networks : Prop
  /-- No launch under the lock overtakes one in flight. -/
  launches : Prop

structure Inv (G : Guards) (s : State) : Prop where
  births_unique : Unique (·.generation) s.births
  births_valid : ∀ launch ∈ s.births, launch.Valid
  units_nodup : (s.units.map (·.generation)).Nodup
  metadata_nodup : (s.metadata.map (·.generation)).Nodup
  units_born : ∀ unit ∈ s.units, unit ∈ s.births
  metadata_born : ∀ record ∈ s.metadata, record.toLaunchReservation ∈ s.births
  records_born : ∀ record ∈ s.records, record.toLaunchReservation ∈ s.births
  inflight_born : ∀ launch ∈ s.inflightLaunches, launch ∈ s.births
  unresolved_born : ∀ recovery ∈ s.unresolvedRecoveries, ∃ launch ∈ s.births,
    recovery = launch.recovery
  checks_born : ∀ check ∈ s.checks, check.record.toLaunchReservation ∈ s.births
  -- detached work
  idle : s.running = false → s.tasks = [] ∧ s.checks = [] ∧ s.inflightLaunches = []
  tasks_unique : Unique (·.generation) s.tasks
  tasks_inflight : ∀ task ∈ s.tasks, task.reservation ∈ s.inflightLaunches
  tasks_unresolved : ∀ task ∈ s.tasks, ∀ recovery ∈ s.unresolvedRecoveries,
    recovery.generation ≠ task.generation
  tasks_checks : ∀ task ∈ s.tasks, ∀ check ∈ s.checks, check.record.generation ≠ task.generation
  tasks_charged : ∀ task ∈ s.tasks, ∃ charge ∈ s.pendingCpuReservations,
    charge.generation = task.generation ∧ task.reservation.quota.cpuMillis ≤ charge.quota.cpuMillis
  tasks_stage : ∀ task ∈ s.tasks, StageOk s.units s.metadata s.reservations task
  inflight_records : ∀ launch ∈ s.inflightLaunches, ∀ record ∈ s.records,
    record.generation ≠ launch.generation
  checks_drained : ∀ check ∈ s.checks, ∀ containment,
    check.outcome = some (.identityMismatch containment) →
      containment.cgroupDrainProven = true ∨ containment.failures = [] →
        ¬ s.Live check.record.generation
  -- the accounting of CPU
  charged : G.destroys → s.running = true → ∀ unit ∈ s.units, s.Charged unit
  stored : G.destroys → ∀ unit ∈ s.units, s.Stored unit
  tasks_stored : G.destroys → ∀ task ∈ s.tasks, ∀ record, task.stage = .starting record →
    s.Stored task.reservation
  -- the networks of the runs
  records_network : G.networks → ∀ record ∈ s.records, record.runNetwork ∈ s.runNetworks
  inflight_network : G.networks → ∀ launch ∈ s.inflightLaunches, launch.runNetwork ∈ s.runNetworks
  unresolved_network : G.networks → ∀ recovery ∈ s.unresolvedRecoveries, ∀ launch ∈ s.births,
    launch.generation = recovery.generation → launch.runNetwork ∈ s.runNetworks
  tracked : G.networks → ∀ unit ∈ s.units, s.Tracked unit.generation
  -- the identities
  uid_unique : ∀ x y, s.Held x → s.Held y → x.uid = y.uid → x = y
  uid_allocated : s.running = true → ∀ x, s.Held x → x.uid ∈ s.allocatedIdentities
  reserved : ∀ x, s.Committed x ∨ x ∈ s.units ∨ s.Stored x → x.identity ∈ s.reservations
  -- the logical VMs
  vm_unique : G.launches → ∀ x y, s.Addressed x → s.Addressed y → x.SameVmAs y → x = y
  disk_unique : G.launches → ∀ m ∈ s.metadata, ∀ m' ∈ s.metadata, m.Adoptable → m'.Adoptable →
    m.SameVmAs m'.toLaunchReservation → m.generation = m'.generation
  disk_addressed : G.launches → ∀ x, s.Addressed x → ∀ m ∈ s.metadata, m.Adoptable →
    m.SameVmAs x → m.generation = x.generation
  disk_known : G.launches → s.running = true → s.attested = true → ∀ m ∈ s.metadata, m.Adoptable →
    s.Addressed m.toLaunchReservation ∨
      ∃ recovery ∈ s.unresolvedRecoveries, recovery.generation = m.generation

variable {records : List VmRecord} {record : VmRecord} {x : LaunchReservation}

theorem exists_of_mem_insert
    (h : ∃ r ∈ insert (·.generation) record records, r.toLaunchReservation = x) :
    x = record.toLaunchReservation ∨ ∃ r ∈ records, r.toLaunchReservation = x := by
  obtain ⟨r, hr, rfl⟩ := h
  rcases mem_insert.mp hr with rfl | ⟨hr, -⟩
  · exact .inl rfl
  · exact .inr ⟨r, hr, rfl⟩

namespace Inv

variable {G : Guards} {s : State}

variable {launch : LaunchReservation} {P : LaunchReservation → Prop}

variable (h : Inv G s)

include h

/-- A generation is launched once. -/
theorem launch_eq {y : LaunchReservation} (hx : x ∈ s.births) (hy : y ∈ s.births)
    (heq : x.generation = y.generation) : x = y :=
  h.births_unique x hx y hy heq

theorem held_born (hx : s.Held x) : x ∈ s.births := by
  rcases hx with (⟨record, hrec, rfl⟩ | hx) | hx | ⟨record, hrec, rfl⟩
  · exact h.records_born record hrec
  · exact h.inflight_born x hx
  · exact h.units_born x hx
  · exact h.metadata_born record hrec

/-- One more launch among those that hold an identity, if it shares it with none of them. -/
theorem uid_unique_of (hP : ∀ x, P x → x = launch ∨ s.Held x)
    (huid : ∀ x, s.Held x → x.uid = launch.uid → x = launch) :
    ∀ x y, P x → P y → x.uid = y.uid → x = y := by
  intro x y hx hy heq
  rcases hP x hx with hxl | hx' <;> rcases hP y hy with hyl | hy'
  · rw [hxl, hyl]
  · rw [hxl, huid y hy' (heq.symm.trans (by rw [hxl]))]
  · rw [hyl, huid x hx' (heq.trans (by rw [hyl]))]
  · exact h.uid_unique x y hx' hy' heq

theorem uid_allocated_of (hP : ∀ x, P x → x = launch ∨ s.Held x)
    (halc : s.running = true → launch.uid ∈ s.allocatedIdentities) :
    s.running = true → ∀ x, P x → x.uid ∈ s.allocatedIdentities := by
  intro hup x hx
  rcases hP x hx with rfl | hx
  · exact halc hup
  · exact h.uid_allocated hup x hx

/-- A record put in place of the one of its generation is there, and so is every other. -/
theorem exists_mem_insert (hx : x ∈ s.births) (hbn : record.toLaunchReservation ∈ s.births)
    (hmem : ∃ r ∈ records, r.toLaunchReservation = x) :
    ∃ r ∈ insert (·.generation) record records, r.toLaunchReservation = x := by
  obtain ⟨r, hr, rfl⟩ := hmem
  by_cases heq : r.generation = record.generation
  · exact ⟨record, mem_insert_self, (h.launch_eq hx hbn heq).symm⟩
  · exact ⟨r, mem_insert.mpr (.inr ⟨hr, heq⟩), rfl⟩

/-- The quotas of a launch that is charged stay accounted for when a record is put in its place. -/
theorem charged_insert
    (hbn : record.toLaunchReservation ∈ s.births) (hx : x ∈ s.births) (hchd : s.Charged x) :
    (s.apply (.commit record)).Charged x := by
  rcases hchd with ⟨r, hr, hgen, -⟩ | hpd
  · obtain ⟨r', hr', heq⟩ :=
      h.exists_mem_insert hx hbn ⟨r, hr, h.launch_eq (h.records_born r hr) hx hgen⟩
    exact .inl ⟨r', hr', congrArg (·.generation) heq, congrArg (·.quota) heq⟩
  · exact .inr hpd

theorem reserved_insert (hres : record.identity ∈ s.reservations) (x : LaunchReservation)
    (hx : (s.apply (.commit record)).Committed x ∨ x ∈ s.units ∨ s.Stored x) :
    x.identity ∈ s.reservations := by
  rcases hx with hx | hx
  · rcases exists_of_mem_insert hx with rfl | hx
    · exact hres
    · exact h.reserved x (.inl hx)
  · exact h.reserved x (.inr hx)

end Inv

end Intar.Jailer
