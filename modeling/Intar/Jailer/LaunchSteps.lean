import Intar.Jailer.Containment

/-!
# The steps of a detached launch

The admission, each call of `execute`, the cleanup after a failure and the commit keep the invariant.
-/

namespace Intar.Jailer

open JailerdCore DetachedLaunchProgress

open SortedTable (get mem_insert_self mem_erase mem_of_get key_of_get)
open Trace (run throughout_nil throughout_cons throughout_singleton)
open List

variable {G : Guards} {s : State} {config : JailerdConfig}

/-! ## Admission -/

variable {request : VmLaunchRequest} {generation : ValidatedId} {launch : LaunchReservation}
  {record : VmRecord}

section

variable {core : JailerdCore} {quota : CpuQuota} {accepted : Bool}

/-- What a reservation is made of. -/
structure ReservedFrom (core : JailerdCore) (config : JailerdConfig) (request : VmLaunchRequest)
    (quota : CpuQuota) (generation : ValidatedId) (launch : LaunchReservation) : Prop where
  generation_eq : launch.generation = generation
  request_eq : launch.request = request
  fingerprint_eq : launch.requestFingerprint = requestFingerprint request
  quota_eq : launch.quota = quota
  network_mem : launch.runNetwork ∈ core.runNetworks
  network_eq : launch.runNetwork.runId = request.runId
  unallocated : launch.uid ∉ core.allocatedIdentities
  capacity : core.committedCpuMillis + quota.cpuMillis ≤ config.schedulable

theorem reservedFrom_of_reservation
    (h : core.reservation config request quota generation = .ok launch) :
    ReservedFrom core config request quota generation launch := by
  rw [reservation] at h
  split at h
  · cases h
  rename_i hnet
  split at h
  · cases h
  rename_i hcap
  split at h
  · cases h
  rename_i uid huid
  cases h
  have hfr : uid ∉ core.allocatedIdentities := by
    simpa using find?_some (show List.find? _ _ = some uid from huid)
  exact ⟨rfl, rfl, rfl, rfl, mem_of_get hnet, key_of_get hnet, hfr, not_lt.mp hcap⟩

theorem findRecord_eq_none (h : core.findRecord request.runId request.vmId = none) :
    ∀ record ∈ core.records, ¬ record.SameVm request.runId request.vmId := by
  intro record hrec
  simpa using find?_eq_none.mp h record hrec

theorem findRecord_eq_some {runId vmId : ValidatedId}
    (h : core.findRecord runId vmId = some record) :
    record ∈ core.records ∧ record.SameVm runId vmId :=
  ⟨mem_of_find?_eq_some h, by simpa using find?_some h⟩

/-- What the admission of a new launch has made sure of. -/
structure AdmittedFrom (core : JailerdCore) (config : JailerdConfig) (request : VmLaunchRequest)
    (generation : ValidatedId) (launch : LaunchReservation) : Prop where
  attested : core.attested = true
  valid : CpuQuota.fromMillis request.cpuMillis = some launch.quota
  unrecorded : ∀ record ∈ core.records, ¬ record.SameVm request.runId request.vmId
  reserved : ReservedFrom core config request launch.quota generation launch

theorem AdmittedFrom.launch_valid (h : AdmittedFrom core config request generation launch) :
    launch.Valid := by
  refine ⟨?_, ?_, ?_⟩
  · rw [h.reserved.request_eq]
    exact h.valid
  · rw [h.reserved.request_eq]
    exact h.reserved.fingerprint_eq
  · rw [h.reserved.request_eq]
    exact h.reserved.network_eq

theorem admittedFrom_of_begin
    (h : core.beginDetachedLaunch config request accepted generation = .ok (.reserved launch)) :
    AdmittedFrom core config request generation launch ∧
      ∀ x ∈ core.inflightLaunches, ¬ x.SameVm request.runId request.vmId := by
  rw [beginDetachedLaunch] at h
  split at h
  · cases h
  rename_i hquo
  split at h
  · cases h
  rename_i hrdy
  split at h
  · split at h <;> cases h
  rename_i hfind
  split at h
  · split at h <;> cases h
  rename_i hfly
  split at h
  · cases h
  rename_i hresv
  cases h
  have hres := reservedFrom_of_reservation hresv
  refine ⟨⟨?_, ?_, findRecord_eq_none hfind, ?_⟩, ?_⟩
  · simpa using (not_or.mp hrdy).2
  · rw [hres.quota_eq]
    exact hquo
  · rw [hres.quota_eq]
    exact hres
  · intro x hx
    simpa using find?_eq_none.mp hfly x hx

theorem existing_of_begin
    (h : core.beginDetachedLaunch config request accepted generation = .ok (.existing record)) :
    core.findRecord request.runId request.vmId = some record := by
  rw [beginDetachedLaunch] at h
  split at h
  · cases h
  split at h
  · cases h
  split at h
  · rename_i hfind
    split at h
    · cases h
      exact hfind
    · cases h
  · split at h
    · split at h <;> cases h
    · split at h <;> cases h

end

/-- What every launch of a generation that was just drawn starts from. -/
structure Begotten (s : State) (launch : LaunchReservation) : Prop where
  fresh : s.Fresh launch.generation
  valid : launch.Valid
  unallocated : launch.uid ∉ s.allocatedIdentities
  network : launch.runNetwork ∈ s.runNetworks

namespace Begotten

/-- Nothing that holds an identity has the one that was just allocated. -/
theorem uid_ne (hb : Begotten s launch) (h : Inv G s) (hup : s.running = true)
    {x : LaunchReservation} (hx : s.Held x) : x.uid ≠ launch.uid := by
  intro heq
  exact hb.unallocated (heq ▸ h.uid_allocated hup x hx)

end Begotten

theorem begotten_of_admittedFrom
    (h : AdmittedFrom s.toJailerdCore config request generation launch)
    (hfr : s.Fresh generation) : Begotten s launch where
  fresh := h.reserved.generation_eq ▸ hfr
  valid := h.launch_valid
  unallocated := h.reserved.unallocated
  network := h.reserved.network_mem

/-- A new launch is of a VM that has no record and is not in flight. -/
theorem AdmittedFrom.not_sameVmAs (h : AdmittedFrom s.toJailerdCore config request generation launch)
    (hfly : ∀ x ∈ s.inflightLaunches, ¬ x.SameVm request.runId request.vmId)
    (x : LaunchReservation) (hx : s.Addressed x) : ¬ x.SameVmAs launch := by
  intro hsm
  rw [LaunchReservation.SameVmAs, h.reserved.request_eq] at hsm
  rcases hx with ⟨r, hr, rfl⟩ | hx
  · exact h.unrecorded r hr hsm
  · exact hfly x hx hsm

/-- No metadata of the VM could be reattached, if the daemon is ready and has nothing left to
contain. -/
theorem no_adoptable (h : Inv G s) (hG : G.launches) (hup : s.running = true)
    (hatt : s.attested = true) (hcalm : s.unresolvedRecoveries = [])
    (hvm : ∀ x, s.Addressed x → ¬ x.SameVmAs launch) :
    ∀ m ∈ s.metadata, m.Adoptable → ¬ m.toLaunchReservation.SameVmAs launch := by
  intro m hm hado
  rcases h.disk_known hG hup hatt m hm hado with had | ⟨u, hu, -⟩
  · exact hvm _ had
  rw [hcalm] at hu
  cases hu

theorem keeps_admission (h : Inv G s) (hup : s.running = true) (hb : Begotten s launch)
    (hvm : G.launches → ∀ x, s.Addressed x → ¬ x.SameVmAs launch)
    (hdk : G.launches → ∀ m ∈ s.metadata, m.Adoptable → ¬ m.toLaunchReservation.SameVmAs launch) :
    Keeps G s (DetachedLaunchAdmission.reserved launch).changes := by
  have h₁ := h.beget hb.fresh hb.valid
  have h₂ := h₁.allocate launch.uid
  have hmem : launch ∈ (s.apply (.beget launch)).births := mem_cons_self
  have h₃ : Inv G (run State.apply s [.beget launch, .allocate launch.uid,
      .charge ⟨launch.generation, launch.quota⟩]) := by
    refine h₂.charge fun x hx heq => ?_
    rw [h₂.launch_eq hx hmem heq]
  have h₄ := h₃.fly hmem hup (fun r hr => hb.fresh _ (h.records_born r hr))
    (fun x hx heq => absurd heq (hb.uid_ne h hup hx)) mem_insert_self hb.network hvm
    hdk
  have h₅ : Inv G (run State.apply s (DetachedLaunchAdmission.reserved launch).changes) := by
    refine h₄.setTask hup mem_insert_self ?_
      (fun c hc => hb.fresh _ (h.checks_born c hc)) ⟨_, mem_insert_self, rfl, le_refl _⟩ ?_
      (fun _ _ hr => nomatch hr)
    · intro u hu
      obtain ⟨x, hx, rfl⟩ := h.unresolved_born u hu
      exact hb.fresh x hx
    exact ⟨fun _ u hu => hb.fresh u (h.units_born u hu),
      fun _ m hm => hb.fresh _ (h.metadata_born m hm), nofun, (fun _ hr => nomatch hr),
      fun _ hr => nomatch hr⟩
  exact throughout_cons h (throughout_cons h₁ (throughout_cons h₂ (throughout_cons h₃
    (throughout_singleton h₄ h₅))))

/-! ## The calls of `execute` -/

section

variable {task : DetachedLaunchTask}

/-- A stage that asks for no more of the host than the one before. -/
theorem StageOk.next {units : List LaunchReservation} {metadata : List VmRecord}
    {reservations : List IdentityReservation} (h : StageOk units metadata reservations task)
    (stage : LaunchStage) (hstd : stage.started = false → task.stage.started = false)
    (hrcd : stage.recorded = false → task.stage.recorded = false)
    (hres : stage.reserved = true → task.stage.reserved = true)
    (hrec : ∀ record, stage.record = some record → record.toLaunchReservation = task.reservation)
    (hint : ∀ record, stage.intent = some record → ¬ record.Adoptable) :
    StageOk units metadata reservations { task with stage } :=
  { unstarted := fun hs => h.unstarted (hstd hs)
    unrecorded := fun hs => h.unrecorded (hrcd hs)
    reserved := fun hs => h.reserved (hres hs)
    record := hrec
    intent := hint }

namespace Inv

variable (h : Inv G s) (ht : task ∈ s.tasks)

include h ht

theorem running_of_task : s.running = true := by
  by_contra hup
  rw [Bool.not_eq_true] at hup
  rw [(h.idle hup).1] at ht
  cases ht

theorem task_born : task.reservation ∈ s.births := h.inflight_born _ (h.tasks_inflight task ht)

theorem task_addressed : s.Addressed task.reservation := .inr (h.tasks_inflight task ht)

theorem task_uid {x : LaunchReservation} (hx : s.Held x) (heq : x.uid = task.reservation.uid) :
    x = task.reservation :=
  h.uid_unique x _ hx (.inl (h.task_addressed ht)) heq

theorem task_allocated : task.reservation.uid ∈ s.allocatedIdentities :=
  h.uid_allocated (h.running_of_task ht) _ (.inl (h.task_addressed ht))

/-- The launch of a generation is one task. -/
theorem task_eq {other : DetachedLaunchTask} (ho : other ∈ s.tasks)
    (heq : other.generation = task.generation) : other = task :=
  h.tasks_unique other ho task ht heq

/-- A launch writes the metadata it has put together. -/
theorem persist_task (hrec : record.toLaunchReservation = task.reservation)
    (hrcd : task.stage.recorded = true) (hres : task.stage.reserved = true) :
    Inv G (s.apply (.persist record)) := by
  have had := h.task_addressed ht
  have hbn := h.task_born ht
  have hok := (h.tasks_stage task ht).reserved hres
  have huid := fun x hx => h.task_uid ht (x := x) hx
  have halc := h.task_allocated ht
  rw [← hrec] at had hbn hok huid halc
  refine h.persist hbn ?_ huid (fun _ => halc) hok ?_ ?_ fun _ _ _ _ => .inl had
  · intro _ ho heq
    rw [h.task_eq ht ho (heq.trans (congrArg (·.generation) hrec))]
    exact hrcd
  · exact fun hG _ => h.disk_addressed hG _ had
  · exact fun hG _ x hx hvm => congrArg (·.generation) (h.vm_unique hG _ x had hx hvm)

/-- A launch starts its unit. -/
theorem start_task (hstd : task.stage.started = true)
    (hsto : G.destroys → s.Stored task.reservation)
    (hres : task.reservation.identity ∈ s.reservations) :
    Inv G (s.apply (.start task.reservation)) := by
  refine h.start (h.task_born ht) ?_ (h.tasks_checks task ht) (.inr (h.tasks_charged task ht)) hsto
    ?_ (fun x hx heq => h.task_uid ht hx heq) (fun _ => h.task_allocated ht) hres
  · intro _ ho heq
    rw [h.task_eq ht ho heq]
    exact hstd
  · exact fun _ => .inr (.inl ⟨_, h.tasks_inflight task ht, rfl⟩)

end Inv

section

variable (h : Inv G s) (ht : task ∈ s.tasks)

include h ht

/-- A stage without a call to the host. -/
theorem keeps_goOn {stage : LaunchStage}
    (hstg : StageOk s.units s.metadata s.reservations { task with stage })
    (hsto : ∀ r, stage ≠ .starting r) : Keeps G s [.setTask { task with stage }] :=
  throughout_singleton h (h.goOn ht hstg fun _ r hr => absurd hr (hsto r))

theorem keeps_reserving (hstg : task.stage = .reserving) (answer : Answer) :
    Keeps G s (answer.took (.reserve task.reservation.identity) ++
      [if answer = .done then .setTask { task with stage := .preparing }
        else .setTask { task with stage := .cleaning .identityReserved }]) := by
  have hok := h.tasks_stage task ht
  have hrsv := h.reserve (h.task_born ht)
  have hcl : ∀ reservations, StageOk s.units s.metadata reservations
      { task with stage := .cleaning .identityReserved } := fun reservations =>
    ⟨fun _ => hok.unstarted (by rw [hstg]; rfl), fun _ => hok.unrecorded (by rw [hstg]; rfl),
      nofun, (fun _ hr => nomatch hr), fun _ hr => nomatch hr⟩
  refine Trace.Throughout.append (keeps_took h hrsv) ?_
  rw [run_took]
  cases answer with
  | failed => exact keeps_goOn h ht (hcl _) fun _ hr => nomatch hr
  | lost => exact keeps_goOn hrsv ht (hcl _) fun _ hr => nomatch hr
  | done =>
    refine keeps_goOn hrsv ht ?_ fun _ hr => nomatch hr
    exact ⟨fun _ => hok.unstarted (by rw [hstg]; rfl), fun _ => hok.unrecorded (by rw [hstg]; rfl),
      fun _ => mem_insert_self, (fun _ hr => nomatch hr), fun _ hr => nomatch hr⟩

variable {next : LaunchStage} {progress : DetachedLaunchProgress}

/-- A stage that writes metadata and goes on to `next`, or to the cleanup. -/
theorem keeps_persisting (hrec : record.toLaunchReservation = task.reservation)
    (hrcd : task.stage.recorded = true) (hres : task.stage.reserved = true)
    (hnx : StageOk s.units (SortedTable.insert (·.generation) record s.metadata) s.reservations
      { task with stage := next })
    (hcleaning : progress.hasUnit = false → task.stage.started = false)
    (hjl : progress.hasJail = true) (answer : Answer) :
    Keeps G s (answer.took (.persist record) ++
      [if answer = .done then .setTask { task with stage := next }
        else .setTask { task with stage := .cleaning progress }]) := by
  have hok := h.tasks_stage task ht
  have hpers := h.persist_task ht hrec hrcd hres
  have hcl : ∀ metadata, StageOk s.units metadata s.reservations
      { task with stage := .cleaning progress } := fun metadata =>
    ⟨fun hs => hok.unstarted (hcleaning hs), fun hs => absurd (hjl.symm.trans hs) (by decide),
      nofun, (fun _ hr => nomatch hr), fun _ hr => nomatch hr⟩
  refine Trace.Throughout.append (keeps_took h hpers) ?_
  rw [run_took]
  cases answer with
  | failed => exact keeps_goOn h ht (hcl _) fun _ hr => nomatch hr
  | lost => exact keeps_goOn hpers ht (hcl _) fun _ hr => nomatch hr
  | done =>
    refine throughout_singleton hpers (hpers.goOn ht hnx fun _ _ _ => ?_)
    exact ⟨record, mem_insert_self, hrec⟩

variable {failure : DetachedLaunchFailure}

theorem keeps_starting (hstg : task.stage = .starting record)
    (hstd : next.started = true) (hrcd : next.recorded = true)
    (hrec : ∀ r, next.record = some r → r.toLaunchReservation = task.reservation)
    (hint : next.intent = none) :
    Keeps G s [.setTask { task with stage := next }, .start task.reservation] := by
  have hok := h.tasks_stage task ht
  have hres := hok.reserved (by rw [hstg]; rfl)
  have h₁ : Inv G (s.apply (.setTask { task with stage := next })) := by
    refine h.goOn ht ?_ ?_
    · exact ⟨fun hs => absurd (hstd.symm.trans hs) (by decide),
        fun hs => absurd (hrcd.symm.trans hs) (by decide), fun _ => hres, hrec,
        fun r hr => by rw [show next.intent = some r from hr] at hint; cases hint⟩
    · intro _ r hr
      rw [hr] at hint
      cases hint
  have ht₁ : { task with stage := next } ∈ (s.apply (.setTask { task with stage := next })).tasks :=
    mem_insert_self
  have h₂ := h₁.start_task ht₁ hstd (fun hG => h.tasks_stored hG task ht record hstg) hres
  exact throughout_cons h (throughout_singleton h₁ h₂)

/-- The launch ends in failure, once the host bears out what it reports. -/
theorem keeps_failed (hlv : failure.cgroupDrainProven = true ∨ failure.identityReleased = true ∨
      failure.cleanupFailures = [] → ¬ s.Live task.generation)
    (hdk : failure.identityReleased = true ∨ failure.cleanupFailures = [] →
      ¬ s.OnDisk task.generation) :
    Keeps G s [.setTask { task with stage := .failed failure }] := by
  refine keeps_goOn h ht ?_ fun _ hr => nomatch hr
  refine ⟨fun hs u hu heq => hlv ?_ ⟨u, hu, heq⟩, fun hs m hm heq => hdk ?_ ⟨m, hm, heq⟩,
    nofun, (fun _ hr => nomatch hr), fun _ hr => nomatch hr⟩
  · simp only [LaunchStage.started] at hs
    by_contra hno
    simp_all
  · simp only [LaunchStage.recorded] at hs
    by_contra hno
    simp_all

/-- The cleanup of a launch that got as far as the jail, but did not start a unit. -/
theorem keeps_quarantine (hstg : task.stage = .cleaning progress)
    (hun : progress.hasUnit = false) (hrel : failure.identityReleased = false)
    {answer : Answer} (hcl : failure.cleanupFailures = [] → answer = .done) :
    Keeps G s (answer.took (.remove task.generation) ++
      [.setTask { task with stage := .failed failure }]) := by
  have hok := h.tasks_stage task ht
  have hlv : ¬ s.Live task.generation := by
    rintro ⟨u, hu, heq⟩
    exact hok.unstarted (by rw [hstg]; exact hun) u hu heq
  have hrem : Inv G (s.apply (.remove task.generation)) := by
    refine h.remove hlv fun _ other ho heq r => ?_
    rw [h.task_eq ht ho heq, hstg]
    simp
  refine Trace.Throughout.append (keeps_took h hrem) ?_
  rw [run_took]
  split
  · rename_i hfail
    refine keeps_failed h ht (fun _ => hlv) ?_
    rintro (hr | hr)
    · rw [hrel] at hr
      cases hr
    · rw [hcl hr] at hfail
      cases hfail
  · refine keeps_failed hrem ht (fun _ => hlv) fun _ => ?_
    rintro ⟨m, hm, heq⟩
    exact (mem_erase.mp hm).2 heq

theorem keeps_cleaning (hstg : task.stage = .cleaning progress) (a : HostAnswers) :
    Keeps G s ((cleanupDetachedLaunch task.reservation progress a).2 ++
      [.setTask { task with
        stage := .failed (cleanupDetachedLaunch task.reservation progress a).1 }]) := by
  have hok := h.tasks_stage task ht
  have hlv : progress.hasUnit = false → ¬ s.Live task.generation := by
    rintro hun ⟨u, hu, heq⟩
    exact hok.unstarted (by rw [hstg]; exact hun) u hu heq
  have hdk : progress.hasJail = false → ¬ s.OnDisk task.generation := by
    rintro hjl ⟨m, hm, heq⟩
    exact hok.unrecorded (by rw [hstg]; exact hjl) m hm heq
  generalize hcln : cleanupDetachedLaunch task.reservation progress a = cleaned
  -- without a unit, a jail is quarantined and its identity stays reserved
  have hjailed : progress.hasUnit = false → progress.hasJail = true → progress.hasIdentity = true →
      cleaned.2 = a.quarantine.took (.remove task.generation) ∧ cleaned.1.identityReleased = false ∧
        (cleaned.1.cleanupFailures = [] → a.quarantine = .done) := by
    intro hun hjl hident
    subst hcln
    refine ⟨?_, ?_, fun hcl => ?_⟩
    · simp [cleanupDetachedLaunch, hun, hjl, DetachedLaunchTask.generation]
    · simp [cleanupDetachedLaunch, hjl, hident]
    by_contra hq
    simp [cleanupDetachedLaunch, hun, hjl, hq] at hcl
  cases progress with
  | nothing =>
    have hno : cleaned.2 = [] := by
      simp [← hcln, cleanupDetachedLaunch, hasUnit, hasJail, hasIdentity]
    rw [hno]
    exact keeps_failed h ht (fun _ => hlv rfl) fun _ => hdk rfl
  | identityReserved =>
    have hrelease : cleaned.2 = a.release.took (.release task.generation) := by
      simp [← hcln, cleanupDetachedLaunch, hasUnit, hasJail, hasIdentity,
        DetachedLaunchTask.generation]
    have hinv : Inv G (s.apply (.release task.generation)) := by
      refine h.release (fun r hr => h.inflight_records _ (h.tasks_inflight task ht) r hr) (hlv rfl)
        (hdk rfl) fun other ho heq => ?_
      rw [h.task_eq ht ho heq, hstg]
      rfl
    rw [hrelease]
    refine Trace.Throughout.append (keeps_took h hinv) ?_
    rw [run_took]
    split
    · exact keeps_failed h ht (fun _ => hlv rfl) fun _ => hdk rfl
    · exact keeps_failed hinv ht (fun _ => hlv rfl) fun _ => hdk rfl
  | jailPrepareAttempted | networkPrepareAttempted =>
    obtain ⟨hrem, hrel, hcl⟩ := hjailed rfl rfl rfl
    rw [hrem]
    exact keeps_quarantine h ht hstg rfl hrel hcl
  | unitStartAttempted =>
    have hend : cleaned.2 = endUnit task.generation a := by
      simp [← hcln, cleanupDetachedLaunch, endUnit, hasUnit, hasJail, DetachedLaunchTask.generation]
    have hprov : cleaned.1.cgroupDrainProven = a.drainProven := by
      simp [← hcln, cleanupDetachedLaunch, hasUnit]
    have hrel : ¬ cleaned.1.identityReleased = true := by
      simp [← hcln, cleanupDetachedLaunch, hasJail, hasIdentity]
    have hcl : cleaned.1.cleanupFailures = [] → a.drainProven = true ∧ a.quarantine = .done := by
      intro hno
      rw [← hcln] at hno
      by_cases hd : a.drainProven = true
      · refine ⟨hd, ?_⟩
        by_contra hq
        simp [cleanupDetachedLaunch, hasUnit, hasJail, hd, hq] at hno
      · simp [cleanupDetachedLaunch, hasUnit, hd] at hno
    have hkp : Keeps G s (endUnit task.generation a) := by
      refine keeps_endUnit h fun _ other ho heq r => ?_
      rw [h.task_eq ht ho heq, hstg]
      simp
    have ht' : task ∈ (run State.apply s (endUnit task.generation a)).tasks := by
      rw [(sameMemory_endUnit s task.generation a).tasks]
      exact ht
    rw [hend]
    refine hkp.append (keeps_failed hkp.last ht' ?_ ?_)
    · rintro (hr | hr | hr)
      · exact not_live_endUnit s _ (hprov.symm.trans hr)
      · exact absurd hr hrel
      · exact not_live_endUnit s _ (hcl hr).1
    · rintro (hr | hr)
      · exact absurd hr hrel
      · exact not_onDisk_endUnit s _ (hcl hr).1 (hcl hr).2

/-- A stage whose call changes nothing on the host: the launch goes on, or to the cleanup. -/
theorem keeps_calling
    (hnx : StageOk s.units s.metadata s.reservations { task with stage := next })
    (hnot : ∀ r, next ≠ .starting r) (hun : progress.hasUnit = false → task.stage.started = false)
    (hjl : progress.hasJail = false → task.stage.recorded = false) (answer : Answer) :
    Keeps G s [if answer = .done then .setTask { task with stage := next }
      else .setTask { task with stage := .cleaning progress }] := by
  have hok := h.tasks_stage task ht
  split
  · exact keeps_goOn h ht hnx hnot
  refine keeps_goOn h ht ?_ fun _ hr => nomatch hr
  exact hok.next _ hun hjl (fun hr => nomatch hr) (fun _ hr => nomatch hr) fun _ hr => nomatch hr

/-- **Every call of a detached launch** keeps the invariant. -/
theorem keeps_advance (a : TaskAnswer) : Keeps G s (task.advance a) := by
  have hok := h.tasks_stage task ht
  obtain ⟨_, stage⟩ := task
  cases stage with
  | validating =>
    refine keeps_calling h ht ?_ ?_ ?_ ?_ a.answer
    · exact hok.next _ id id (fun hr => nomatch hr) (fun _ hr => nomatch hr) fun _ hr => nomatch hr
    · exact fun _ hr => nomatch hr
    · exact fun _ => rfl
    · exact fun _ => rfl
  | reserving =>
    exact keeps_reserving h ht rfl a.answer
  | preparing =>
    refine keeps_calling h ht ?_ ?_ ?_ ?_ a.answer
    · refine hok.next _ id id id ?_ ?_
      · rintro _ ⟨⟩
        rfl
      · rintro _ ⟨⟩ hado
        exact hado rfl
    · exact fun _ hr => nomatch hr
    · exact fun _ => rfl
    · exact fun _ => rfl
  | networking =>
    refine keeps_calling h ht ?_ ?_ ?_ ?_ a.answer
    · refine hok.next _ id (fun hr => nomatch hr) id ?_ ?_
      · exact fun r hr => hok.record r hr
      · exact fun r hr => hok.intent r hr
    · exact fun _ hr => nomatch hr
    · exact fun _ => rfl
    · exact fun _ => rfl
  | recording record =>
    have hrec := hok.record record rfl
    have hint := hok.intent record rfl
    refine keeps_persisting h ht hrec rfl rfl ?_ ?_ rfl a.answer
    · exact
        { unstarted := fun _ => hok.unstarted rfl
          unrecorded := fun hr => nomatch hr
          reserved := fun _ => hok.reserved rfl
          record := by
            rintro _ ⟨⟩
            exact hrec
          intent := by
            rintro _ ⟨⟩
            exact hint }
    · exact fun _ => rfl
  | starting record =>
    simp only [DetachedLaunchTask.advance]
    have hrec := hok.record record rfl
    split
    · refine keeps_starting h ht rfl rfl rfl ?_ rfl
      rintro _ ⟨⟩
      exact hrec
    · exact keeps_starting h ht rfl rfl rfl (fun _ hr => nomatch hr) rfl
  | granting record =>
    have hrec := hok.record record rfl
    refine keeps_calling h ht ?_ ?_ ?_ ?_ a.answer
    · refine hok.next _ (fun hr => nomatch hr) (fun hr => nomatch hr) id ?_
        fun _ hr => nomatch hr
      rintro _ ⟨⟩
      exact hrec
    · exact fun _ hr => nomatch hr
    · exact fun hr => nomatch hr
    · exact fun hr => nomatch hr
  | identifying record =>
    have hrec := hok.record record rfl
    refine keeps_persisting h ht hrec rfl rfl ?_ ?_ rfl a.answer
    · exact
        { unstarted := fun hr => nomatch hr
          unrecorded := fun hr => nomatch hr
          reserved := fun _ => hok.reserved rfl
          record := by
            rintro _ ⟨⟩
            exact hrec
          intent := fun _ hr => nomatch hr }
    · exact fun hr => nomatch hr
  | cleaning =>
    exact keeps_cleaning h ht rfl a.cleanup
  | succeeded | failed =>
    exact throughout_nil h

/-! ## The commit -/

omit h ht in
/-- The task of a launch ends before anything else of it changes. -/
theorem not_mem_endTask (generation : ValidatedId) :
    ∀ other ∈ (s.apply (.endTask generation)).tasks, other.generation ≠ generation :=
  fun _ ho => (mem_erase.mp ho).2

theorem keeps_success (hstg : task.stage = .succeeded record) :
    Keeps G s [.endTask task.generation, .promote record, .discharge task.generation,
      .settle task.generation] := by
  have hok := h.tasks_stage task ht
  have hrec := hok.record record (by rw [hstg]; rfl)
  have hgen : record.generation = task.generation := congrArg (·.generation) hrec
  have h₁ := h.endTask task.generation
  have htk : ∀ other ∈ (s.apply (.endTask task.generation)).tasks,
      other.generation ≠ task.generation := not_mem_endTask task.generation
  have h₂ : Inv G (run State.apply s [.endTask task.generation, .promote record]) := by
    refine h₁.promote ?_ ?_ ?_
    · rw [hrec]
      exact h.tasks_inflight task ht
    · rw [hgen]
      exact htk
    · rw [hrec]
      exact hok.reserved (by rw [hstg]; rfl)
  have hmem : record ∈ (run State.apply s [.endTask task.generation, .promote record]).records :=
    mem_insert_self
  have h₃ := h₂.discharge (fun _ => ⟨record, hmem, hgen⟩) htk
  have h₄ := h₃.settle (fun _ _ => .inl ⟨record, hmem, hgen⟩) (by
    intro _ _ _ m hm heq
    refine .inl ⟨record, hmem, ?_⟩
    rw [hrec]
    exact h.launch_eq (h.task_born ht) (h.metadata_born m hm) heq.symm)
  exact throughout_cons h (throughout_cons h₁ (throughout_cons h₂ (throughout_singleton h₃ h₄)))

omit h ht in
/-- A failed launch lands: its charge goes when its unit is drained, and its identity when the host has
nothing of it. -/
theorem keeps_landing (h : Inv G s)
    (hfly : launch ∈ s.inflightLaunches) (hln : Inv G (s.apply (.land launch.generation)))
    (htk : ∀ other ∈ s.tasks, other.generation ≠ launch.generation)
    (hlv : failure.cgroupDrainProven = true ∨ failure.identityReleased = true →
      ¬ s.Live launch.generation)
    (hdk : failure.identityReleased = true → ¬ s.OnDisk launch.generation) :
    Keeps G s (.land launch.generation ::
      ((if failure.cgroupDrainProven then [.discharge launch.generation] else []) ++
        (if failure.identityReleased then [.free launch.uid] else []))) := by
  have hdisc : Keeps G (s.apply (.land launch.generation))
      (if failure.cgroupDrainProven then [.discharge launch.generation] else []) := by
    split
    · rename_i hprov
      exact throughout_singleton hln (hln.discharge (fun hl => absurd hl (hlv (.inl hprov))) htk)
    · exact throughout_nil hln
  refine throughout_cons h (hdisc.append ?_)
  have hls := hdisc.last
  -- the charge is no part of who holds an identity
  have hhd : ∀ x, (run State.apply (s.apply (.land launch.generation))
      (if failure.cgroupDrainProven then [.discharge launch.generation] else [])).Held x →
      (s.apply (.land launch.generation)).Held x := by
    split <;> exact fun _ hx => hx
  by_cases hrel : failure.identityReleased = true
  · rw [if_pos hrel]
    refine throughout_singleton hls (hls.free fun x hx heq => ?_)
    have hx := hhd x hx
    have hself : x = launch := h.uid_unique x launch
      (hx.imp_left (Or.imp_right fun hx => (mem_erase.mp hx).1)) (.inl (.inr hfly)) heq
    subst hself
    rcases hx with (⟨r, hr, hsm⟩ | hx) | hx | ⟨m, hm, hsm⟩
    · exact h.inflight_records x hfly r hr (congrArg (·.generation) hsm)
    · exact (mem_erase.mp hx).2 rfl
    · exact hlv (.inr hrel) ⟨x, hx, rfl⟩
    · exact hdk hrel ⟨m, hm, congrArg (·.generation) hsm⟩
  · rw [if_neg hrel]
    exact throughout_nil hls

theorem keeps_failure (hstg : task.stage = .failed failure) :
    Keeps G s (.endTask task.generation ::
      ((if failure.cleanupFailures = [] then [.settle task.generation]
        else [.retain task.reservation.recovery, .distrust]) ++
      (.land task.generation ::
        ((if failure.cgroupDrainProven then [.discharge task.generation] else []) ++
          (if failure.identityReleased then [.free task.reservation.uid] else []))))) := by
  have hok := h.tasks_stage task ht
  have hfly := h.tasks_inflight task ht
  have h₁ := h.endTask task.generation
  have htk : ∀ other ∈ (s.apply (.endTask task.generation)).tasks,
      other.generation ≠ task.generation := not_mem_endTask task.generation
  have hlv : failure.cgroupDrainProven = true ∨ failure.identityReleased = true ∨
      failure.cleanupFailures = [] → ¬ s.Live task.generation := by
    rintro hsm ⟨u, hu, heq⟩
    refine hok.unstarted ?_ u hu heq
    rw [hstg, LaunchStage.started]
    rcases hsm with hr | hr | hr <;> simp [hr]
  have hdk : failure.identityReleased = true ∨ failure.cleanupFailures = [] →
      ¬ s.OnDisk task.generation := by
    rintro hsm ⟨m, hm, heq⟩
    refine hok.unrecorded ?_ m hm heq
    rw [hstg, LaunchStage.recorded]
    rcases hsm with hr | hr <;> simp [hr]
  have hlv' : failure.cgroupDrainProven = true ∨ failure.identityReleased = true →
      ¬ s.Live task.generation := fun hr => hlv (hr.imp_right .inl)
  refine throughout_cons h ?_
  split
  · rename_i hcl
    have h₂ : Inv G (run State.apply s [.endTask task.generation, .settle task.generation]) := by
      refine h₁.settle (fun _ _ => .inr ⟨_, hfly, rfl⟩) fun _ _ _ m hm heq => .inr ?_
      rw [h.launch_eq (h.metadata_born m hm) (h.task_born ht) heq]
      exact hfly
    have h₃ := h₂.land htk (fun _ hl => absurd hl (hlv (.inr (.inr hcl))))
      fun _ _ _ => hdk (.inr hcl)
    exact throughout_cons h₁ (keeps_landing h₂ hfly h₃ htk hlv' fun hr => hdk (.inl hr))
  · have h₂ := h₁.retain (h.task_born ht) htk fun hG => h.inflight_network hG _ hfly
    have h₃ := h₂.distrust
    have h₄ := h₃.land htk (fun _ _ => .inr ⟨_, mem_insert_self, rfl⟩)
      fun _ _ ha => absurd ha Bool.false_ne_true
    exact throughout_cons h₁ (throughout_cons h₂
      (keeps_landing h₃ hfly h₄ htk hlv' fun hr => hdk (.inl hr)))

/-- **The commit of a detached launch** keeps the invariant. -/
theorem keeps_complete : Keeps G s (s.completeDetachedLaunch task) := by
  have h₁ := h.endTask task.generation
  have hend := throughout_singleton h h₁
  rw [completeDetachedLaunch]
  split
  · rename_i hstg
    split
    · exact throughout_cons h (throughout_singleton h₁ h₁.distrust)
    split
    · exact hend
    · exact keeps_success h ht hstg
  · rename_i hstg
    split
    · exact throughout_cons h (throughout_singleton h₁ h₁.distrust)
    · exact keeps_failure h ht hstg
  · exact throughout_nil h

end

end

end Intar.Jailer
