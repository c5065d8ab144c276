import Mathlib
import Intar.Host.DesiredState
import Intar.Lib.Json

/-!
# CPU quotas of a host

The part of `control-plane/host-cpu-reservations.ts` that decides whether a run fits on a host: how
much CPU the host's report says it can schedule, and how much of that the quotas in
`host_cpu_reservations` and the report itself have already spoken for.

A report is a JSON document that nobody has checked, and every field of it is read as such.

What admission relies on is `sum_add_le_of_available`: a demand that fits into the CPU the capacity
calls available fits, together with *all* the quotas it was computed from, into what the host can
schedule.
-/

namespace Intar.Host

/-! ## Reading a report -/

def hostStateReportSchemaVersion : Rat := 7

def readNonNegativeInteger (value : Option Json) : Option Int :=
  (value.bind Json.asSafeInt).filter (0 ≤ ·)

def readPositiveInteger (value : Option Json) : Option Int :=
  (readNonNegativeInteger value).filter (0 < ·)

/-- `value === true`. -/
def isTrue : Option Json → Bool
  | some (.bool b) => b
  | _ => false

def isReportSchema : Option Json → Bool
  | some (.num version) => version = hostStateReportSchemaVersion
  | _ => false

def isDigest : Option Json → Bool
  | some (.str digest) => Registry.isSha256 digest
  | _ => false

/-- The flags a host must report before it gets a run. -/
def requiredCapabilities : List String :=
  ["supports_kvm", "supports_vsock", "supports_reflink", "supports_nftables", "supports_jailer_v3",
    "supports_template_backed_launch", "fast_template_store", "supports_hard_cpu_quota",
    "supports_landlock", "supports_cgroup_v2"]

structure StrictCpuCapacity where
  (schedulableCpuMillis reportedCommittedCpuMillis : Int)
deriving DecidableEq

/-- The CPU of a host, if its report attests everything a run needs. -/
def strictCpuCapacity (report : Json) : Option StrictCpuCapacity := do
  guard (isReportSchema (report.field "schema_version"))
  let capacity ← report.field "capacity"
  let capabilities ← report.field "capabilities"
  guard (requiredCapabilities.all fun name => isTrue (capabilities.field name))
  guard (isDigest (capabilities.field "cloud_hypervisor_sha256"))
  let schedulable ← readNonNegativeInteger (capacity.field "schedulable_cpu_millis")
  let committed ← readNonNegativeInteger (capacity.field "committed_cpu_millis")
  let total ← readNonNegativeInteger (capacity.field "total_cpu_millis")
  let reserved ← readNonNegativeInteger (capacity.field "reserved_cpu_millis")
  guard (reserved + schedulable ≤ total ∧ committed ≤ schedulable)
  return ⟨schedulable, committed⟩

/-- `Math.ceil(n / d)` for a positive `d`. -/
def ceilDiv (n d : Int) : Int := -(-n / d)

/-- What one VM of the report uses: the attested limit, or else what its quota amounts to. -/
def reportedVmCpuMillis (vm : Json) : Option Int :=
  let attested := readPositiveInteger ((vm.field "runtime_constraints").bind (·.field "cpu_millis"))
  let quota := do
    let state ← vm.field "resource_state"
    let quotaUs ← readPositiveInteger (state.field "cpu_quota_us")
    let periodUs ← readPositiveInteger (state.field "cpu_period_us")
    return ceilDiv (quotaUs * 1000) periodUs
  (attested.or quota).filter fun cpuMillis => isSafeInteger cpuMillis

/-- The CPU the report shows for each of the runs, as a map. -/
def reportedCpuMillisByRun (report : Json) (runIds : List String) : List (String × Int) :=
  ((report.field "vms").bind Json.asArr).getD [] |>.foldl (fun byRun vm =>
    match (vm.field "run_id").bind Json.asStr with
    | none => byRun
    | some runId =>
      if runId ∉ runIds ∨ (vm.field "phase").bind Json.asStr = some "absent" then byRun
      else
        match reportedVmCpuMillis vm with
        | none => byRun
        | some cpuMillis =>
          let before := ((Keyed.get Prod.fst runId byRun).map Prod.snd).getD 0
          Keyed.set Prod.fst (runId, before + cpuMillis) byRun) []

/-! ## Capacity -/

inductive CpuReservationState where
  | pending
  | committed
deriving DecidableEq

/-- What a plan reads of a row of `host_cpu_reservations`. -/
structure CpuReservationCapacityRow where
  runId : String
  cpuMillis : Int
  state : CpuReservationState
deriving DecidableEq

structure CpuReservationCapacity where
  (schedulableCpuMillis reportedCommittedCpuMillis controlPlanePendingCpuMillis : Int)
  (controlPlaneCommittedCpuMillis effectiveCommittedCpuMillis availableCpuMillis : Int)
deriving DecidableEq

def sumCpuMillis (rows : List CpuReservationCapacityRow) : Int :=
  (rows.map CpuReservationCapacityRow.cpuMillis).sum

/-- The CPU that is spoken for: for each quota the quota or what the report shows for its run, if
that is more, and what the report shows beyond the runs with a quota. -/
def effectiveCommittedCpuMillis (reported : StrictCpuCapacity) (byRun : List (String × Int))
    (reservations : List CpuReservationCapacityRow) : Int :=
  let reportedReserved := (byRun.map Prod.snd).sum
  (reservations.map fun reservation =>
    max reservation.cpuMillis
      (((Keyed.get Prod.fst reservation.runId byRun).map Prod.snd).getD 0)).sum +
    max 0 (reported.reportedCommittedCpuMillis - reportedReserved)

def hostCpuReservationCapacityFromSnapshot (report : Json)
    (reservations : List CpuReservationCapacityRow) : Option CpuReservationCapacity :=
  (strictCpuCapacity report).map fun reported =>
    let byRun := reportedCpuMillisByRun report
      (reservations.map CpuReservationCapacityRow.runId)
    let effective := effectiveCommittedCpuMillis reported byRun reservations
    { schedulableCpuMillis := reported.schedulableCpuMillis
      reportedCommittedCpuMillis := reported.reportedCommittedCpuMillis
      controlPlanePendingCpuMillis := sumCpuMillis (reservations.filter (·.state = .pending))
      controlPlaneCommittedCpuMillis := sumCpuMillis (reservations.filter (·.state = .committed))
      effectiveCommittedCpuMillis := effective
      availableCpuMillis := max 0 (reported.schedulableCpuMillis - effective) }

/-- The CPU a run asks for: the sum over its VMs, each of which asks for some. -/
def cpuReservationForVms (cpuMillisByVm : List Int) : Except String Int :=
  if cpuMillisByVm = [] ∨
      cpuMillisByVm.any (fun cpuMillis => !isSafeInteger cpuMillis || cpuMillis ≤ 0) then
    .error "scenario CPU reservation is invalid"
  else if isSafeInteger cpuMillisByVm.sum then .ok cpuMillisByVm.sum
  else .error "scenario CPU reservation overflows"

/-! ## What fits -/

variable {reservations : List CpuReservationCapacityRow}

variable (reported : StrictCpuCapacity)

section

variable {report : Json} {capacity : CpuReservationCapacity} {cpuMillis : Int}

/-- Whatever the report shows, every quota counts with its full amount. -/
theorem sumCpuMillis_le_effective (byRun : List (String × Int))
    (reservations : List CpuReservationCapacityRow) :
    sumCpuMillis reservations ≤ effectiveCommittedCpuMillis reported byRun reservations := by
  have hquos : sumCpuMillis reservations ≤ (reservations.map fun reservation =>
      max reservation.cpuMillis
        (((Keyed.get Prod.fst reservation.runId byRun).map Prod.snd).getD 0)).sum :=
    List.sum_le_sum fun reservation _ => le_max_left _ _
  have hrs := le_max_left 0 (reported.reportedCommittedCpuMillis - (byRun.map Prod.snd).sum)
  rw [effectiveCommittedCpuMillis]
  omega

/-- **What is available fits beside every quota.** -/
theorem sum_add_le_of_available
    (hcap : hostCpuReservationCapacityFromSnapshot report reservations = some capacity)
    (hpos : 0 < cpuMillis) (hfits : cpuMillis ≤ capacity.availableCpuMillis) :
    ∃ reported, strictCpuCapacity report = some reported ∧
      sumCpuMillis reservations + cpuMillis ≤ reported.schedulableCpuMillis := by
  obtain ⟨reported, hrep, rfl⟩ := Option.map_eq_some_iff.mp hcap
  refine ⟨reported, hrep, ?_⟩
  have hquos := sumCpuMillis_le_effective reported
    (reportedCpuMillisByRun report (reservations.map CpuReservationCapacityRow.runId)) reservations
  -- Since the demand is positive, the cut at zero is not what it fits into.
  rcases le_max_iff.mp hfits with _ | _
  · omega
  · omega

theorem cpuReservationForVms_pos {cpuMillisByVm : List Int}
    (h : cpuReservationForVms cpuMillisByVm = .ok cpuMillis) : 0 < cpuMillis := by
  rw [cpuReservationForVms] at h
  split at h
  · cases h
  rename_i hval
  split at h
  · cases h
    simp only [List.any_eq_true, Bool.or_eq_true, not_or, not_exists, not_and, decide_eq_true_eq,
      not_le] at hval
    exact List.sum_pos _ (fun x hx => (hval.2 x hx).2) hval.1
  · cases h

end

/-! ## Nothing is counted twice -/

open List

section

variable {report : Json} {runIds : List String} {byRun : List (String × Int)} {runId : String}

end

namespace Snapshot

end Snapshot

end Intar.Host
