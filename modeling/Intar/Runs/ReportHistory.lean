import Intar.Runs.Draft
import Intar.Runs.Lifecycle

/-!
# Histories of reports

The VMs of a run after any sequence of VM reports and host reports, in any order and with any
repetition.

A host report is many reports at once, and the run derives its own fields after each message.  For
the VMs none of that matters (`deliver_vms`): each VM is where the single reports, one after the
other, take it (`observe`).  So what is said here of every list of reports is said of every moment of
every history of messages.

* `reports_respected`: retired generations do not come back, reports that are stale in one of the
  three ways change nothing, and the time and the phase of a VM do not go back.
* `terminal_from_current_generation`: where a shell can be opened, the target is one that a report of
  the current generation proved, under the CPU limit the VM was provisioned with.
-/

namespace Intar.Runs

open Trace

open Host (Millis)
open List

/-! ## Messages -/

/-- A message of a host about a run. -/
inductive Delivery where
  | vm (report : VmReport)
  | host (report : HostStateReport)
deriving DecidableEq

/-- The reports of single VMs in a message. -/
def Delivery.reports : Delivery → List ReportedVm
  | .vm report => [report.reported]
  | .host report => report.vms

def applyDelivery (runId : String) (state : RunStateDocument) : Delivery → RunStateDocument
  | .vm report => applyVmReportToRunState runId state report
  | .host report => applyHostReportToRunState runId state report

/-- The run after a sequence of messages. -/
def deliver (runId : String) (state : RunStateDocument) (deliveries : List Delivery) :
    RunStateDocument :=
  run (applyDelivery runId) state deliveries

/-- A VM after a sequence of reports. -/
def observe (runId : String) (reports : List ReportedVm) (vm : RunVmStateDocument) :
    RunVmStateDocument :=
  run (applyReportedVmState runId) vm reports

/-- The documents a run starts with: the empty one, and the one that is admitted. -/
inductive NewDocument : RunStateDocument → Prop where
  | built (vms : List InitialVm) : NewDocument (buildInitialRunState vms)
  | provisioned (material : Material) (source : LaunchSource) :
      NewDocument (provisionedRunState material source)

/-- A VM nothing has been reported of. -/
structure RunVmStateDocument.Unreported (vm : RunVmStateDocument) : Prop where
  decorated : decorateVmState vm = vm
  terminal : vm.terminalPhase = .pending
  constraints : vm.runtimeConstraints = none
  retired : vm.retiredRuntimeGenerations = []

theorem NewDocument.unreported {state : RunStateDocument} (h : NewDocument state)
    {vm : RunVmStateDocument} (hvm : vm ∈ state.vms) : vm.Unreported := by
  cases h with
  | built =>
    simp only [buildInitialRunState, recomputeRunState_vms, mem_map] at hvm
    obtain ⟨_, ⟨_, -, rfl⟩, rfl⟩ := hvm
    exact ⟨decorateVmState_idem _, rfl, rfl, rfl⟩
  | provisioned =>
    simp only [provisionedRunState, recomputeRunState_vms, mem_map, runVmStates] at hvm
    obtain ⟨_, ⟨_, ⟨_, ⟨_, -, rfl⟩, rfl⟩, rfl⟩, rfl⟩ := hvm
    exact ⟨decorateVmState_idem _, rfl, rfl, rfl⟩

/-! ## Messages and single reports -/

section

variable {runId : String} {state : RunStateDocument} {vm vm' : RunVmStateDocument}
  {reports : List ReportedVm} {report : ReportedVm} {generation : String}

theorem Applied.decorated (ha : Applied runId vm report vm') (h : decorateVmState vm = vm) :
    decorateVmState vm' = vm' := by
  cases ha with
  | ignored => exact h
  | accepted => exact decorateVmState_acceptReport

theorem observe_append (runId : String) (before after : List ReportedVm) (vm : RunVmStateDocument) :
    observe runId (before ++ after) vm = observe runId after (observe runId before vm) :=
  run_append _ vm before after

theorem observe_concat (runId : String) (reports : List ReportedVm) (report : ReportedVm)
    (vm : RunVmStateDocument) :
    observe runId (reports ++ [report]) vm
      = applyReportedVmState runId (observe runId reports vm) report :=
  observe_append runId reports [report] vm

theorem decorateVmState_observe (runId : String) (h : decorateVmState vm = vm)
    (reports : List ReportedVm) :
    decorateVmState (observe runId reports vm) = observe runId reports vm :=
  run_invariant (P := fun vm => decorateVmState vm = vm)
    (fun vm report => (applied runId vm report).decorated) h reports

theorem foldl_applyToVms_vms (reports : List ReportedVm) (state : RunStateDocument) :
    (reports.foldl (applyToVms runId) state).vms = state.vms.map (observe runId reports) := by
  induction reports generalizing state with
  | nil => exact (map_id state.vms).symm
  | cons _ _ ih =>
    rw [foldl_cons, ih]
    exact map_map

theorem applyDelivery_vms (runId : String)
    (hdeco : ∀ vm ∈ state.vms, decorateVmState vm = vm) (delivery : Delivery) :
    (applyDelivery runId state delivery).vms = state.vms.map (observe runId delivery.reports) := by
  have happ : (applyDelivery runId state delivery).vms
      = (state.vms.map (observe runId delivery.reports)).map decorateVmState := by
    cases delivery with
    | vm => exact congrArg (List.map decorateVmState) (foldl_applyToVms_vms [_] state)
    | host => exact congrArg (List.map decorateVmState) (foldl_applyToVms_vms _ state)
  rw [happ, map_map]
  refine map_congr_left fun vm hvm => ?_
  exact decorateVmState_observe runId (hdeco vm hvm) _

/-- **Messages are their reports.**  Each VM of the run is where the reports take it one by one. -/
theorem deliver_vms (hdeco : ∀ vm ∈ state.vms, decorateVmState vm = vm)
    (deliveries : List Delivery) :
    (deliver runId state deliveries).vms
      = state.vms.map (observe runId (deliveries.flatMap Delivery.reports)) := by
  induction deliveries generalizing state with
  | nil => exact (map_id state.vms).symm
  | cons delivery deliveries ih =>
    have hvms := applyDelivery_vms runId hdeco delivery
    show (deliver runId (applyDelivery runId state delivery) deliveries).vms = _
    rw [ih, hvms, map_map]
    · refine map_congr_left fun vm _ => ?_
      exact (observe_append runId _ _ vm).symm
    rw [hvms]
    intro _ hvm'
    obtain ⟨vm, hvm, rfl⟩ := mem_map.mp hvm'
    exact decorateVmState_observe runId (hdeco vm hvm) _

/-! ## Generations, times and phases -/

/-- What a report may do to a VM, and when it may do nothing. -/
structure Respected (runId : String) (report : ReportedVm) (vm vm' : RunVmStateDocument) :
    Prop where
  /-- A retired generation stays retired. -/
  retired : ∀ generation ∈ vm.retiredRuntimeGenerations, generation ∈ vm'.retiredRuntimeGenerations
  /-- A generation that is given up is retired. -/
  replaced : ∀ generation, currentGeneration vm = some generation →
    currentGeneration vm' = some generation ∨ generation ∈ vm'.retiredRuntimeGenerations
  older : ∀ observedAt, vm.runtimeObservedAt = some observedAt →
    report.updatedAtUnixMs < observedAt → vm' = vm
  namesRetired : ∀ generation ∈ vm.retiredRuntimeGenerations,
    report.generation = some generation → vm' = vm
  namesNone : report.generation = none → (currentGeneration vm).isSome → vm' = vm
  observed : ∀ observedAt, vm.runtimeObservedAt = some observedAt →
    ∃ observedAt', vm'.runtimeObservedAt = some observedAt' ∧ observedAt ≤ observedAt'
  advances : currentGeneration vm' = currentGeneration vm → vm.phase.rank ≤ vm'.phase.rank
  otherVm : ¬ (report.runId = runId ∧ report.vmName = vm.runtimeVmName) → vm' = vm

section

variable (ha : Applied runId vm report vm')

include ha

theorem Applied.retired (h : generation ∈ vm.retiredRuntimeGenerations) :
    generation ∈ vm'.retiredRuntimeGenerations := by
  cases ha with
  | ignored => exact h
  | accepted => exact mem_retired_acceptReport h

theorem Applied.replaced (h : currentGeneration vm = some generation) :
    currentGeneration vm' = some generation ∨ generation ∈ vm'.retiredRuntimeGenerations := by
  cases ha with
  | ignored => exact .inl h
  | accepted hacc =>
    have hrej := hacc.notRejected
    cases hchg : generationChanged vm report with
    | true =>
      right
      rw [acceptReport_retired, generationBase_of_changed hchg]
      exact mem_retired_reset.mpr (.inr h)
    | false =>
      left
      rcases currentGeneration_of_not_changed hchg hrej with hkt | ⟨hno, -⟩
      · rw [hkt, h]
      rw [hno] at h
      cases h

theorem Applied.observed {observedAt : Millis} (h : vm.runtimeObservedAt = some observedAt) :
    ∃ observedAt', vm'.runtimeObservedAt = some observedAt' ∧ observedAt ≤ observedAt' := by
  cases ha with
  | ignored => exact ⟨observedAt, h, le_rfl⟩
  | accepted hacc =>
    refine ⟨report.updatedAtUnixMs, rfl, ?_⟩
    simpa [observedLater, h] using hacc.notOlder

theorem Applied.advances (h : currentGeneration vm' = currentGeneration vm) :
    vm.phase.rank ≤ vm'.phase.rank := by
  cases ha with
  | ignored => exact le_rfl
  | accepted hacc =>
    have hrej := hacc.notRejected
    cases hchg : generationChanged vm report with
    | true =>
      -- A change gives the VM another generation than it had.
      obtain ⟨_, hnmd, -, hne⟩ := generation_of_changed hchg hrej
      rw [currentGeneration_of_changed hchg, hnmd] at h
      exact absurd h.symm hne
    | false =>
      have hrank : (generationBase vm report).phase.rank ≤ (acceptReport vm report).phase.rank :=
        rank_le_acceptReport
      rwa [generationBase_of_not_changed hchg] at hrank

end

theorem respected_applied (runId : String) (report : ReportedVm) (vm : RunVmStateDocument) :
    Respected runId report vm (applyReportedVmState runId vm report) where
  retired _ := (applied runId vm report).retired
  replaced _ := (applied runId vm report).replaced
  older observedAt h hlt := applyReportedVmState_of_observedLater (by simpa [observedLater, h])
  namesRetired generation h hnmd :=
    applyReportedVmState_of_generationRejected (by simpa [generationRejected, hnmd])
  namesNone hno hcur :=
    applyReportedVmState_of_generationRejected (by simpa [generationRejected, hno])
  observed _ := (applied runId vm report).observed
  advances := (applied runId vm report).advances
  otherVm h := applyReportedVmState_of_not_named h

/-- The current generation is not one of the retired. -/
def CurrentNotRetired (vm : RunVmStateDocument) : Prop :=
  ∀ generation ∈ vm.retiredRuntimeGenerations, currentGeneration vm ≠ some generation

theorem RunVmStateDocument.Unreported.currentNotRetired (h : vm.Unreported) :
    CurrentNotRetired vm := by
  intro _ hmem
  rw [h.retired] at hmem
  cases hmem

theorem Applied.currentNotRetired (ha : Applied runId vm report vm') (h : CurrentNotRetired vm) :
    CurrentNotRetired vm' := by
  cases ha with
  | ignored => exact h
  | accepted hacc =>
    have hrej := hacc.notRejected
    intro generation hrtd hcur
    rw [acceptReport_retired] at hrtd
    cases hchg : generationChanged vm report with
    | true =>
      obtain ⟨_, hnmd, hnot, hne⟩ := generation_of_changed hchg hrej
      rw [currentGeneration_of_changed hchg, hnmd] at hcur
      cases hcur
      rw [generationBase_of_changed hchg] at hrtd
      exact (mem_retired_reset.mp hrtd).elim hnot hne
    | false =>
      rw [generationBase_of_not_changed hchg] at hrtd
      rcases currentGeneration_of_not_changed hchg hrej with hkt | ⟨-, hnmd⟩
      · exact h generation hrtd (hkt ▸ hcur)
      rw [hnmd] at hcur
      rw [generationRejected, hcur] at hrej
      exact absurd hrtd (by simpa using hrej)

theorem currentNotRetired_observe (h : CurrentNotRetired vm) (reports : List ReportedVm) :
    CurrentNotRetired (observe runId reports vm) :=
  run_invariant (fun vm report => (applied runId vm report).currentNotRetired) h reports

theorem retired_of_observe (h : generation ∈ vm.retiredRuntimeGenerations)
    (reports : List ReportedVm) :
    generation ∈ (observe runId reports vm).retiredRuntimeGenerations :=
  run_invariant (P := fun vm : RunVmStateDocument => generation ∈ vm.retiredRuntimeGenerations)
    (fun vm report => (applied runId vm report).retired) h reports

/-- **Reports are respected.**  Take any messages to a new run, and any moment at which one of their
reports is applied.  The report is respected, and no generation that is retired after it is ever
current again. -/
theorem reports_respected (hnew : NewDocument state) (deliveries : List Delivery) :
    (deliver runId state deliveries).vms
        = state.vms.map (observe runId (deliveries.flatMap Delivery.reports)) ∧
      ∀ vm ∈ state.vms, ∀ before report after,
        deliveries.flatMap Delivery.reports = before ++ report :: after →
          Respected runId report (observe runId before vm) (observe runId (before ++ [report]) vm) ∧
          ∀ generation ∈ (observe runId (before ++ [report]) vm).retiredRuntimeGenerations,
            currentGeneration (observe runId (deliveries.flatMap Delivery.reports) vm)
              ≠ some generation := by
  refine ⟨deliver_vms (fun vm hvm => (hnew.unreported hvm).decorated) deliveries, ?_⟩
  intro _ hvm before report after hsp
  constructor
  · rw [observe_concat]
    exact respected_applied runId report _
  intro generation hrtd
  have hwhole : deliveries.flatMap Delivery.reports = (before ++ [report]) ++ after := by
    rw [hsp, append_assoc, singleton_append]
  refine currentNotRetired_observe (hnew.unreported hvm).currentNotRetired _ generation ?_
  rw [hwhole, observe_append]
  exact retired_of_observe hrtd after

end

namespace Web

def material : Material where
  runId := "run-1"
  createdAt := 0
  guestTools := ⟨"tools", 1, "kino", 2⟩
  vms _ := ⟨"vm-1", "runtime-1", "key-1", "ssh-ed25519 k", ⟨"c", "i"⟩, ⟨"c", "i"⟩⟩

def source : LaunchSource where
  scenarioId := "web"
  organizationId := none
  title := "Web"
  launchSpecs := [
    { scenarioVmId := "web"
      scenarioVmName := "web"
      runtimeVmNamePrefix := "web"
      image := "web"
      imageKey := none
      imageSha256 := none
      imageRef := ⟨"web", none, none, none, none, none, "kernel", "initrd"⟩
      hostname := "web"
      resources := ⟨1000, 512, 10⟩
      leaseDurationSeconds := 3600
      summary := ⟨"web", "web", [⟨"up", "Up", "http", .boot⟩]⟩ }]
  candidateSource := none

/-- A run of one VM with a boot probe. -/
def document : RunStateDocument := provisionedRunState material source

/-- The VM boots as `generation`; so much is reported at `time`. -/
def boot (generation : String) (time : Millis) : ReportedVm where
  runId := "run-1"
  vmName := "web-run-1-1"
  phase := .booting
  guestIp := none
  terminal := some ⟨.pending, none, none, time⟩
  runtimeConstraints := some ⟨generation, 1000, none⟩
  resourceState := none
  sshHostKeysOpenssh := []
  probes := []
  error := none
  updatedAtUnixMs := time

/-- The first generation is replaced, and then reported once more. -/
def reboots : List Delivery := [.host ⟨[boot "a" 1, boot "b" 2]⟩, .host ⟨[boot "a" 3]⟩]

theorem first_generation_gone : ∀ vm ∈ document.vms,
    "a" ∈ (observe "run-1" [boot "a" 1, boot "b" 2] vm).retiredRuntimeGenerations := by
  decide +kernel

theorem reports_respected_reboots :
    (document.vms.all fun vm =>
      currentGeneration (observe "run-1" [boot "a" 1, boot "b" 2, boot "a" 3] vm) ≠ some "a") =
        true := by
  refine all_eq_true.mpr fun vm hvm => decide_eq_true ?_
  exact ((reports_respected (.provisioned material source) reboots).2 vm hvm [boot "a" 1]
    (boot "b" 2) [boot "a" 3] rfl).2 "a" (first_generation_gone vm hvm)

end Web

/-! ## Terminals -/

section

variable {runId : String} {state : RunStateDocument} {vm vm' : RunVmStateDocument}
  {report : ReportedVm} {held : RuntimeConstraintsEvidence}

/-- The constraints that hold once a report is taken in are the report's own, as far as generation
and limit go. -/
theorem report_of_held (hrej : generationRejected vm report = false)
    (hhd : (acceptReport vm report).runtimeConstraints = some held) (hne : held.generation ≠ "") :
    report.generation = some held.generation ∧ ∃ given, report.runtimeConstraints = some given ∧
      given.cpuMillis = held.cpuMillis ∧
      (given.quotaVerifiedAtUnixMs = held.quotaVerifiedAt ∨ vm.runtimeConstraints = some held) := by
  have hbase : ∀ kept, (generationBase vm report).runtimeConstraints = some kept →
      generationChanged vm report = false ∧ vm.runtimeConstraints = some kept := by
    intro _ hkt
    cases hchg : generationChanged vm report with
    | true =>
      rw [generationBase_of_changed hchg] at hkt
      cases hkt
    | false =>
      rw [generationBase_of_not_changed hchg] at hkt
      exact ⟨rfl, hkt⟩
  have hnm : ∀ given, report.runtimeConstraints = some given →
      held.generation = Js.trim given.generation → report.generation = some held.generation := by
    intro _ hgv htrim
    rw [generation_eq_filter hgv, ← htrim]
    simp [Option.filter, hne]
  rw [acceptReport_runtimeConstraints] at hhd
  rcases mergeRuntimeConstraints_cases (generationBase vm report).runtimeConstraints
      report.runtimeConstraints with
    ⟨hno, hsm⟩ | ⟨given, hgv, hfr | ⟨kept, hcur, hkt, hgen, hcpu⟩⟩
  · -- Without constraints a report names no generation, and is taken in only if none is known.
    rw [hsm] at hhd
    obtain ⟨-, hvm⟩ := hbase held hhd
    have hcur : (currentGeneration vm).isSome = false := by
      simpa [generationRejected, ReportedVm.generation, hno, Js.trimOrNone] using hrej
    simp [currentGeneration, hvm, Option.filter, hne] at hcur
  · rw [hfr, Option.some.injEq] at hhd
    subst hhd
    exact ⟨hnm given hgv rfl, given, hgv, rfl, .inl rfl⟩
  · rw [hkt, Option.some.injEq] at hhd
    subst hhd
    have htrim := hgen.resolve_left hne
    exact ⟨hnm given hgv htrim, given, hgv, hcpu.symm, .inr (hbase kept hcur).2⟩

theorem currentGeneration_of_held (hhd : vm.runtimeConstraints = some held)
    (hne : held.generation ≠ "") :
    currentGeneration vm = some held.generation := by
  simp [currentGeneration, hhd, Option.filter, hne]

theorem Applied.identity (ha : Applied runId vm report vm') :
    vm'.runtimeVmName = vm.runtimeVmName ∧ vm'.provisioning = vm.provisioning := by
  cases ha with
  | ignored => exact ⟨rfl, rfl⟩
  | accepted => exact ⟨acceptReport_runtimeVmName, acceptReport_provisioning⟩

/-- Reports change neither the name of a VM nor what it was provisioned with. -/
theorem observe_identity (runId : String) (reports : List ReportedVm) (vm : RunVmStateDocument) :
    (observe runId reports vm).runtimeVmName = vm.runtimeVmName ∧
      (observe runId reports vm).provisioning = vm.provisioning := by
  refine run_invariant (P := fun v : RunVmStateDocument =>
    v.runtimeVmName = vm.runtimeVmName ∧ v.provisioning = vm.provisioning) ?_ ⟨rfl, rfl⟩ reports
  intro v report h
  have hsm := (applied runId v report).identity
  exact ⟨hsm.1.trans h.1, hsm.2.trans h.2⟩

/-- A report of the VM that states its constraints: the generation, the limit and the time at which
the quota was verified. -/
def States (runId : String) (vm : RunVmStateDocument) (held : RuntimeConstraintsEvidence)
    (report : ReportedVm) : Prop :=
  report.runId = runId ∧ report.vmName = vm.runtimeVmName ∧
    report.generation = some held.generation ∧ ∃ given, report.runtimeConstraints = some given ∧
      given.cpuMillis = held.cpuMillis ∧ given.quotaVerifiedAtUnixMs = held.quotaVerifiedAt

theorem Applied.stated (ha : Applied runId vm report vm')
    (hhd : vm'.runtimeConstraints = some held) (hne : held.generation ≠ "") :
    vm.runtimeConstraints = some held ∨ States runId vm held report := by
  cases ha with
  | ignored => exact .inl hhd
  | accepted hacc =>
    obtain ⟨hgen, given, hgv, hcpu, hquo | hkt⟩ := report_of_held hacc.notRejected hhd hne
    · exact .inr ⟨hacc.run, hacc.name, hgen, given, hgv, hcpu, hquo⟩
    · exact .inl hkt

/-- Constraints that name a generation were stated by a report of it. -/
theorem stated_of_observe (hnew : vm.Unreported) (reports : List ReportedVm)
    (hhd : (observe runId reports vm).runtimeConstraints = some held)
    (hne : held.generation ≠ "") : ∃ report ∈ reports, States runId vm held report := by
  induction reports using List.reverseRecOn with
  | nil =>
    have hno : vm.runtimeConstraints = some held := hhd
    rw [hnew.constraints] at hno
    cases hno
  | append_singleton reports report ih =>
    rw [observe_concat] at hhd
    rcases (applied runId _ report).stated hhd hne with hhd | hstates
    · obtain ⟨other, hmem, hstates⟩ := ih hhd
      exact ⟨other, mem_append_left _ hmem, hstates⟩
    · rw [States, (observe_identity runId reports vm).1] at hstates
      exact ⟨report, by simp, hstates⟩

/-- After the reports `before`, the `report` made the terminal ready that `current`, a later
document of `vm`, has. -/
structure ReadyFrom (runId : String) (vm : RunVmStateDocument) (before : List ReportedVm)
    (report : ReportedVm) (held : RuntimeConstraintsEvidence) (current : RunVmStateDocument) :
    Prop where
  named : report.runId = runId ∧ report.vmName = vm.runtimeVmName
  holds : (observe runId (before ++ [report]) vm).runtimeConstraints = some held
  limit : report.runtimeConstraints.map (·.cpuMillis) = some held.cpuMillis
  generation : report.generation = some held.generation
  isCurrent : currentGeneration current = some held.generation
  ready : ReadyBy report held (vm.provisioning.resources.map (·.cpuMillis)) current.terminalTarget

/-- A terminal that is ready was made ready by a report of the current generation. -/
theorem readyFrom_of_observe (hnew : vm.Unreported) (reports : List ReportedVm)
    (hrdy : (observe runId reports vm).terminalPhase = .ready) :
    ∃ before report after held, reports = before ++ report :: after ∧
      ReadyFrom runId vm before report held (observe runId reports vm) := by
  induction reports using List.reverseRecOn with
  | nil =>
    have hpd : vm.terminalPhase = .ready := hrdy
    rw [hnew.terminal] at hpd
    cases hpd
  | append_singleton reports last ih =>
    rw [observe_concat] at hrdy ⊢
    have ha := applied runId (observe runId reports vm) last
    generalize hls : applyReportedVmState runId _ last = vm' at ha hrdy ⊢
    cases ha with
    | ignored =>
      obtain ⟨before, report, after, held, rfl, hfrom⟩ := ih hrdy
      exact ⟨before, report, after ++ [last], held, by simp, hfrom⟩
    | accepted hacc =>
      obtain ⟨hrun, hnm, -, hrej⟩ := hacc
      rcases ready_of_acceptReport hrdy with ⟨held, hhd, hby⟩ | ⟨hchg, hwas, htgt⟩
      · obtain ⟨hgen, _, hgv, hcpu, -⟩ := report_of_held hrej hhd hby.generation
        rw [(observe_identity runId reports vm).1] at hnm
        rw [(observe_identity runId reports vm).2] at hby
        refine ⟨reports, last, [], held, rfl, ?_⟩
        exact {
          named := ⟨hrun, hnm⟩
          holds := by rw [observe_concat, hls, hhd]
          limit := by rw [hgv, Option.map_some, hcpu]
          generation := hgen
          isCurrent := currentGeneration_of_held hhd hby.generation
          ready := hby }
      · -- Readiness that is kept: the generation is the same, so the evidence still stands.
        obtain ⟨before, report, after, held, rfl, hfrom⟩ := ih hwas
        refine ⟨before, report, after ++ [last], held, by simp, ?_⟩
        rcases currentGeneration_of_not_changed hchg hrej with hkt | ⟨hno, -⟩
        · exact { hfrom with
            isCurrent := hkt.trans hfrom.isCurrent
            ready := by rw [htgt]; exact hfrom.ready }
        · rw [hfrom.isCurrent] at hno
          cases hno

/-- What a decorated VM shows while its terminal is not ready. -/
theorem terminalTarget_of_not_ready (hdeco : decorateVmState vm = vm)
    (h : vm.terminalPhase ≠ .ready) :
    vm.terminalTarget.host = none ∧ vm.terminalTarget.hostKeyOpenssh = none ∧
      vm.terminalTarget.checkedAt = none := by
  have hshw : vm.terminalTarget = shownTerminalTarget vm :=
    (congrArg RunVmStateDocument.terminalTarget hdeco).symm
  rw [hshw, shownTerminalTarget]
  split
  · rename_i hrdy
    exact absurd hrdy h
  · exact ⟨rfl, rfl, rfl⟩

theorem ready_of_canOpenTerminal (hdeco : decorateVmState vm = vm)
    (h : vm.canOpenTerminal = true) : vm.terminalPhase = .ready := by
  rw [← hdeco] at h
  simp only [decorateVmState, Bool.and_eq_true, decide_eq_true_eq] at h
  exact h.1

theorem Applied.readyBy (ha : Applied runId vm report vm') (hrdy : vm'.terminalPhase = .ready) :
    vm.terminalPhase = .ready ∨ ∃ held, vm'.runtimeConstraints = some held ∧
      ReadyBy report held (vm.provisioning.resources.map (·.cpuMillis)) vm'.terminalTarget := by
  cases ha with
  | ignored => exact .inl hrdy
  | accepted => exact (ready_of_acceptReport hrdy).elim .inr fun h => .inl h.2.1

/-- The VM failed, or it is absent and its terminal failed; the report says what its terminal does. -/
def ReportedVm.Fails (report : ReportedVm) : Prop :=
  ∃ terminal, report.terminal = some terminal ∧
    (report.phase = .failed ∨ report.phase = .absent ∧ terminal.state = .failed)

theorem ReportedVm.Fails.terminalPhase (h : report.Fails) :
    (acceptReport vm report).terminalPhase = .failed := by
  obtain ⟨_, hterm, hfl⟩ := h
  show (projectTerminalReadiness report.terminal _ _ _ _).phase = .failed
  rw [hterm, projectTerminalReadiness, if_pos (hfl.elim .inr fun h => .inl h.2)]

/-- **A terminal that failed stays closed.**  Take any VM, an accepted report that it failed, or that it
is absent and its terminal failed, and any later reports.  If the terminal can be opened, one of the
later reports proved a target ready. -/
theorem closed_after_failure (haccepted : Accepted runId vm report) (hfails : report.Fails)
    {later : List ReportedVm}
    (hopen : (observe runId (report :: later) vm).canOpenTerminal = true) :
    ∃ before proof after held, later = before ++ proof :: after ∧
      (observe runId (report :: before ++ [proof]) vm).runtimeConstraints = some held ∧
      ReadyBy proof held (vm.provisioning.resources.map (·.cpuMillis))
        (observe runId (report :: before ++ [proof]) vm).terminalTarget := by
  have hdeco : decorateVmState (applyReportedVmState runId vm report)
      = applyReportedVmState runId vm report := by
    rw [applyReportedVmState_of_accepted haccepted]
    exact decorateVmState_acceptReport
  have hrdy : (observe runId (report :: later) vm).terminalPhase = .ready :=
    ready_of_canOpenTerminal (decorateVmState_observe runId hdeco later) hopen
  clear hopen
  induction later using List.reverseRecOn with
  | nil =>
    have hfail : (applyReportedVmState runId vm report).terminalPhase = .failed := by
      rw [applyReportedVmState_of_accepted haccepted]
      exact hfails.terminalPhase
    exact nomatch hfail.symm.trans hrdy
  | append_singleton later last ih =>
    rw [← cons_append, observe_concat] at hrdy
    rcases (applied runId _ last).readyBy hrdy with hrdy | ⟨held, hhd, hby⟩
    · obtain ⟨before, proof, after, held, rfl, hby⟩ := ih hrdy
      exact ⟨before, proof, after ++ [last], held, by simp, hby⟩
    · rw [(observe_identity runId (report :: later) vm).2] at hby
      rw [← observe_concat] at hhd hby
      exact ⟨later, last, [], held, rfl, hhd, hby⟩

/-- **Shells go to the current generation.**  Whatever messages a new run was sent, a VM whose
terminal can be opened has a complete target.  A report of its current generation gave it, stated the
CPU limit the VM was provisioned with, and checked the target no earlier than the quota of that
generation was verified; the verification itself was reported for the same generation and limit.
Without a ready terminal the target is empty. -/
theorem terminal_from_current_generation (hnew : NewDocument state) (deliveries : List Delivery) :
    ∀ current ∈ (deliver runId state deliveries).vms,
      (current.canOpenTerminal = true →
        ∃ vm ∈ state.vms, ∃ before report after held,
          deliveries.flatMap Delivery.reports = before ++ report :: after ∧
          current = observe runId (deliveries.flatMap Delivery.reports) vm ∧
          ReadyFrom runId vm before report held current ∧
          ∃ verified ∈ before ++ [report], States runId vm held verified) ∧
      (current.terminalPhase ≠ .ready →
        current.terminalTarget.host = none ∧ current.terminalTarget.hostKeyOpenssh = none ∧
          current.terminalTarget.checkedAt = none) := by
  intro _ hcur
  rw [deliver_vms fun vm hvm => (hnew.unreported hvm).decorated] at hcur
  obtain ⟨vm, hvm, rfl⟩ := mem_map.mp hcur
  have hunrep := hnew.unreported hvm
  have hdeco := decorateVmState_observe runId hunrep.decorated (deliveries.flatMap Delivery.reports)
  constructor
  · intro hop
    obtain ⟨before, report, after, held, hsp, hfrom⟩ :=
      readyFrom_of_observe hunrep _ (ready_of_canOpenTerminal hdeco hop)
    refine ⟨vm, hvm, before, report, after, held, hsp, rfl, hfrom, ?_⟩
    exact stated_of_observe hunrep _ hfrom.holds hfrom.ready.generation
  · exact terminalTarget_of_not_ready hdeco

end

namespace Web

/-- The terminal of a generation answers. -/
def shell (generation : String) (time : Millis) : ReportedVm :=
  { boot generation time with
    phase := .ready
    terminal := some ⟨.ready, some ⟨"10.0.0.2", 22, "ubuntu", time⟩, none, time⟩
    runtimeConstraints := some ⟨generation, 1000, some time⟩
    sshHostKeysOpenssh := ["ssh-ed25519 h"]
    probes := [⟨"up", .pass, none, none⟩] }

def shells : List Delivery := [.host ⟨[boot "a" 1]⟩, .host ⟨[shell "a" 2]⟩]

theorem shell_opens : ∃ vm ∈ (deliver "run-1" document shells).vms, vm.canOpenTerminal = true := by
  decide +kernel

theorem terminal_from_current_generation_shells :
    ∃ current ∈ (deliver "run-1" document shells).vms, ∃ vm ∈ document.vms,
      ∃ before report after held, shells.flatMap Delivery.reports = before ++ report :: after ∧
        ReadyFrom "run-1" vm before report held current := by
  obtain ⟨current, hcur, hop⟩ := shell_opens
  obtain ⟨vm, hvm, before, report, after, held, hsp, -, hfrom, -⟩ :=
    (terminal_from_current_generation (.provisioned material source) shells current hcur).1 hop
  exact ⟨current, hcur, vm, hvm, before, report, after, held, hsp, hfrom⟩

/-- The VM failed, or is gone and nothing is said of its terminal. -/
def failed : ReportedVm := { boot "a" 3 with phase := .failed }

def gone : ReportedVm := { boot "a" 3 with phase := .absent, terminal := none }

theorem closed_after_failure_shell : ∃ vm ∈ document.vms, ∃ before proof after,
    [shell "a" 4] = before ++ proof :: after ∧
      (observe "run-1" (failed :: before ++ [proof]) (observe "run-1" [shell "a" 2] vm)
        ).terminalTarget.Complete := by
  obtain ⟨vm, hvm, hnm, hlat, hrej, hop⟩ : ∃ vm ∈ document.vms,
      failed.vmName = (observe "run-1" [shell "a" 2] vm).runtimeVmName ∧
      observedLater (observe "run-1" [shell "a" 2] vm) failed = false ∧
      generationRejected (observe "run-1" [shell "a" 2] vm) failed = false ∧
      (observe "run-1" [failed, shell "a" 4] (observe "run-1" [shell "a" 2] vm)
        ).canOpenTerminal = true := by
    decide +kernel
  obtain ⟨before, proof, after, _, hsp, -, hby⟩ :=
    closed_after_failure ⟨rfl, hnm, hlat, hrej⟩ ⟨_, rfl, .inl rfl⟩ hop
  exact ⟨vm, hvm, before, proof, after, hsp, hby.complete⟩

theorem terminal_opens_in_same_generation : ∃ vm ∈ document.vms,
    ((observe "run-1" [shell "a" 2, failed] vm).canOpenTerminal = false ∧
      (observe "run-1" [shell "a" 2, failed, shell "a" 4] vm).canOpenTerminal = true ∧
      currentGeneration (observe "run-1" [shell "a" 2, failed, shell "a" 4] vm) = some "a") ∧
    (observe "run-1" [shell "a" 2, gone] vm).runtimeState = some "absent" ∧
      (observe "run-1" [shell "a" 2, gone] vm).canOpenTerminal = true := by
  decide +kernel

end Web

/-! ## Quotas -/

section

variable {runId : String} {state : RunStateDocument} {vm vm' : RunVmStateDocument}
  {report : ReportedVm} {generation : String}

/-- The quota of the generation has a verification time. -/
def Verified (generation : String) (vm : RunVmStateDocument) : Prop :=
  ∃ held, vm.runtimeConstraints = some held ∧ held.generation = generation ∧
    held.quotaVerifiedAt.isSome = true

/-- A report of the generation of the VM that does not verify the quota states the CPU limit that is
known. -/
def KeepsLimit (vm : RunVmStateDocument) (report : ReportedVm) : Prop :=
  ∀ held given, vm.runtimeConstraints = some held → report.runtimeConstraints = some given →
    Js.trim given.generation = held.generation → given.quotaVerifiedAtUnixMs = none →
      held.cpuMillis = given.cpuMillis

theorem Applied.verified (ha : Applied runId vm report vm') (hlim : KeepsLimit vm report)
    (h : Verified generation vm) (hcur : currentGeneration vm' = some generation) :
    Verified generation vm' := by
  obtain ⟨held, hhd, rfl, hvf⟩ := h
  have hne : held.generation ≠ "" := by simpa using (Option.filter_eq_some_iff.mp hcur).2
  cases ha with
  | ignored => exact ⟨held, hhd, rfl, hvf⟩
  | accepted hacc =>
    have hrej := hacc.notRejected
    have hchg : generationChanged vm report = false := by
      by_contra hchg
      rw [Bool.not_eq_false] at hchg
      obtain ⟨_, hnmd, -, ho⟩ := generation_of_changed hchg hrej
      rw [currentGeneration_of_changed hchg, hnmd] at hcur
      rw [currentGeneration_of_held hhd hne, ← hcur] at ho
      exact ho rfl
    have hmrg : (acceptReport vm report).runtimeConstraints =
        mergeRuntimeConstraints (some held) report.runtimeConstraints := by
      rw [acceptReport_runtimeConstraints, generationBase_of_not_changed hchg, hhd]
    rw [currentGeneration, hmrg] at hcur
    rw [Verified, hmrg]
    cases hgv : report.runtimeConstraints with
    | none => exact ⟨held, rfl, rfl, hvf⟩
    | some given =>
      rw [hgv, mergeRuntimeConstraints] at hcur
      rw [mergeRuntimeConstraints]
      split
      · exact ⟨held, rfl, rfl, hvf⟩
      rename_i hreplaced
      rw [if_neg hreplaced] at hcur
      have hsm : Js.trim given.generation = held.generation := by
        simpa using (Option.filter_eq_some_iff.mp hcur).1
      refine ⟨_, rfl, hsm, ?_⟩
      by_contra hno
      rw [Option.not_isSome_iff_eq_none] at hno
      exact hreplaced ⟨.inr hsm.symm, hvf, hlim held given hhd hgv hsm hno, hno⟩

/-- The quota is verified, or the generation is given up and does not come back. -/
structure VerifiedOrRetired (generation : String) (vm : RunVmStateDocument) : Prop where
  notRetired : CurrentNotRetired vm
  kept : Verified generation vm ∨ generation ∈ vm.retiredRuntimeGenerations

theorem Applied.verifiedOrRetired (ha : Applied runId vm report vm') (hne : generation ≠ "")
    (hlim : KeepsLimit vm report) (h : VerifiedOrRetired generation vm) :
    VerifiedOrRetired generation vm' := by
  refine ⟨ha.currentNotRetired h.notRetired, ?_⟩
  rcases h.kept with hvf | hrtd
  · have hcur : currentGeneration vm = some generation := by
      obtain ⟨_, hhd, rfl, -⟩ := hvf
      exact currentGeneration_of_held hhd hne
    rcases ha.replaced hcur with hcur | hrtd
    · exact .inl (ha.verified hlim hvf hcur)
    · exact .inr hrtd
  · exact .inr (ha.retired hrtd)

/-- **A quota stays verified.**  Take a new run, any reports to one of its VMs after which the quota of
a generation has a verification time, and any later ones.  If every later report of that generation
that does not verify the quota states the known CPU limit, then as long as the generation is current
the time is there. -/
theorem quota_stays_verified (hnew : NewDocument state) (hvm : vm ∈ state.vms)
    {before after : List ReportedVm} (hverified : Verified generation (observe runId before vm))
    (hlimit : Along (applyReportedVmState runId) KeepsLimit (observe runId before vm) after)
    (hcurrent : currentGeneration (observe runId (before ++ after) vm) = some generation) :
    Verified generation (observe runId (before ++ after) vm) := by
  have hne : generation ≠ "" := by simpa using (Option.filter_eq_some_iff.mp hcurrent).2
  have hnew : CurrentNotRetired (observe runId before vm) :=
    currentNotRetired_observe (hnew.unreported hvm).currentNotRetired _
  rw [observe_append] at hcurrent ⊢
  obtain ⟨hnot, hkt⟩ := hlimit.invariant (P := VerifiedOrRetired generation)
    (fun v report hv hl => (applied runId v report).verifiedOrRetired hne hl hv)
    ⟨hnew, .inl hverified⟩
  exact hkt.resolve_right fun hrtd => hnot generation hrtd hcurrent

end

namespace Web

/-- The generation is reported with another limit, which is not verified. -/
def resized : ReportedVm := { boot "a" 3 with runtimeConstraints := some ⟨"a", 500, none⟩ }

theorem quota_stays_verified_boot : ∃ vm ∈ document.vms,
    Verified "a" (observe "run-1" ([shell "a" 2] ++ [boot "a" 3]) vm) := by
  obtain ⟨vm, hvm, hlim, hcur⟩ : ∃ vm ∈ document.vms,
      (observe "run-1" [shell "a" 2] vm).runtimeConstraints = some ⟨"a", 1000, some 2⟩ ∧
      currentGeneration (observe "run-1" ([shell "a" 2] ++ [boot "a" 3]) vm) = some "a" := by
    decide +kernel
  refine ⟨vm, hvm, quota_stays_verified (.provisioned material source) hvm ⟨_, hlim, rfl, rfl⟩
    (along_nil.concat fun held given hhd hgv _ _ => ?_) hcur⟩
  cases hlim.symm.trans hhd
  cases hgv
  rfl

theorem verification_is_lost : ∃ vm ∈ document.vms,
    (observe "run-1" [shell "a" 2] vm).runtimeConstraints = some ⟨"a", 1000, some 2⟩ ∧
      (observe "run-1" [shell "a" 2, resized] vm).runtimeConstraints = some ⟨"a", 500, none⟩ := by
  decide +kernel

end Web

end Intar.Runs
