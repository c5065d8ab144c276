import Intar.Runs.StartInvariant

/-!
# The step that admits a run

In the system of starts a run comes up in one way only: a start that is about to commit sends its
admission batch, and the batch goes through.  `step_evolves` is that inversion, with everything that
is known then (`AdmissionStep`), and `AdmissionStep.of_new` reads it off a run that was not there
before.

The first use of it is the capacity of a host.  The version of the desired state is read before the
quotas, and every admission on the host is a new version; so the quotas that a start has added up are
those that are held when its compare-and-set lands, or fewer are.
-/

namespace Intar.Runs

open Host (Millis DesiredState DesiredRow DesiredVm)
open List

section

variable (localeCompare : String → String → Ordering) (parseReport : String → Json)
  (parseManifest : String → Option CandidateManifest)

/-- The start goes from `s` to `s'` by admitting its run. -/
structure AdmissionStep (s s' : State) (id : Nat) (start : Start) (input : CommitInput) : Prop where
  starts : s.starts id = some start
  phase : ∃ attempt requestedHostId,
    start.phase = .admitting input.draft (.committing attempt requestedHostId input.desired)
  drafted : Drafted parseManifest start input.draft
  drew : start.drew = some input.run.runId
  fresh : ¬ s.db.Mentions input.run.runId
  planned : Planned localeCompare parseReport s.db input.draft input.desired
  admission : ∃ dbNow vms, Admission parseReport s.db input dbNow vms ∧
    s'.db = s.db.admitRun input vms
  committed : ∃ start', s'.starts id = some start' ∧ start'.input = start.input ∧
    start'.drew = start.drew ∧ start'.committed = true

end

section

variable {localeCompare : String → String → Ordering} {parseReport : String → Json}
  {parseManifest : String → Option CandidateManifest} {s s' : State} {id : Nat} {start : Start}
  {draft : Draft} {answer : Answer}

section

variable (h : Inv localeCompare parseReport parseManifest s)

include h

theorem commit_evolves {attempt : Nat} {requestedHostId : Option String} {allocation : Allocation}
    (hst : s.starts id = some start)
    (hph : start.phase = .admitting draft (.committing attempt requestedHostId allocation))
    (hs' : commit parseReport s id start draft attempt requestedHostId allocation answer = s') :
    s'.db = s.db ∨ AdmissionStep localeCompare parseReport parseManifest s s' id start
      ⟨draft, allocation, answer.now⟩ := by
  obtain ⟨hrcd, hinv⟩ := h.starts id start hst
  rw [hph] at hinv
  obtain ⟨hdrd, hdrew, hcmm, hplanned⟩ := hinv
  have hfr := hrcd.absent hcmm draft.run.runId hdrew
  have hwf : draft.WellFormed := by
    obtain ⟨_, _, _, -, hdr⟩ := hdrd
    exact hdr.wellFormed
  subst hs'
  generalize hresl : commitAdmissionBatch parseReport s.db ⟨draft, allocation, answer.now⟩
    answer.dbNow = result
  obtain ⟨_, _⟩ := result
  simp only [commit, hresl]
  rcases commitAdmissionBatch_spec hwf hfr hresl with
    ⟨rfl, vms, hadm, hdb⟩ | ⟨-, hdb⟩
  · exact .inr ⟨hst, ⟨_, _, hph⟩, hdrd, hdrew, hfr, hplanned, ⟨_, vms, hadm, hdb⟩,
      _, setStart_self, rfl, rfl, by simp⟩
  · exact .inl hdb

theorem advanceAdmission_evolves {phase : AdmitPhase} (hst : s.starts id = some start)
    (hph : start.phase = .admitting draft phase)
    (hs' : advanceAdmission localeCompare parseReport s id start draft phase answer = s') :
    Evolves none s.db s'.db ∨ ∃ input, AdmissionStep localeCompare parseReport parseManifest s s' id
      start input := by
  subst hs'
  cases phase with
  | readingDesired plan hostId =>
    generalize hld : s.db.loadOrCreateDesired hostId answer.agentHost plan.now = result
    obtain ⟨_, result⟩ := result
    have hevo := (loadOrCreateDesired_spec h.sound hld).1
    simp only [advanceAdmission, hld]
    cases result with
    | ok | error => exact .inl hevo
  | cancelLoading _ now hostId error =>
    generalize hld : s.db.loadOrCreateDesired hostId answer.agentHost now = result
    obtain ⟨_, result⟩ := result
    have hevo := (loadOrCreateDesired_spec h.sound hld).1
    simp only [advanceAdmission, hld]
    cases result with
    | ok | error => exact .inl hevo
  | committing =>
    rcases commit_evolves h hst hph rfl with hdb | hadm
    · refine .inl ?_
      simp only [advanceAdmission]
      rw [hdb]
      exact .refl s.db
    · exact .inr ⟨_, hadm⟩
  | cancelWriting =>
    have hinv := (h.starts id start hst).phase
    rw [hph] at hinv
    exact .inl (evolves_cancelWrite h.sound hinv.2.2.2 rfl).1
  | _ => exact .inl (.refl s.db)

/-- **What a step does to the database.** -/
theorem step_evolves {act : Act} (hs' : step localeCompare parseReport parseManifest s act = s') :
    Evolves none s.db s'.db ∨ ∃ id start input,
      AdmissionStep localeCompare parseReport parseManifest s s' id start input := by
  have hrefl : Evolves none s.db s.db := .refl s.db
  subst hs'
  cases act with
  | start =>
    simp only [step]
    split
    · exact .inl hrefl
    · exact .inl hrefl
  | fail =>
    simp only [step]
    split
    · rw [failed]
      split
      · exact .inl hrefl
      · exact .inl hrefl
      · exact .inl hrefl
      · exact .inl hrefl
    · exact .inl hrefl
  | env act => exact .inl (evolves_envStep h.sound.docs h.sound.constraints.cpuPositive act)
  | advance id =>
    simp only [step]
    split
    · rename_i start hst
      rw [advance]
      split
      · rw [build]
        split
        · exact .inl hrefl
        · exact .inl hrefl
      · rename_i hph
        rcases advanceAdmission_evolves h hst hph rfl with hevo | ⟨input, hadm⟩
        · exact .inl hevo
        · exact .inr ⟨id, start, input, hadm⟩
      · exact .inl hrefl
      · exact .inl hrefl
      · exact .inl hrefl
    · exact .inl hrefl

/-- **A run that was not there** has just been admitted. -/
theorem AdmissionStep.of_new {act : Act}
    (hs' : step localeCompare parseReport parseManifest s act = s') {run : RunRow}
    (hrun : run ∈ s'.db.runs) (hnew : ∀ old ∈ s.db.runs, old.runId ≠ run.runId) :
    ∃ id start input, AdmissionStep localeCompare parseReport parseManifest s s' id start input ∧
      input.run = run := by
  rcases step_evolves h hs' with hevo | ⟨id, start, input, hadm⟩
  · -- Without an admission the identities are the old ones.
    rcases hevo.runs with hsm | ⟨_, hno, -⟩
    · have hmem : run.identity ∈ s.db.runs.map RunRow.identity := by
        rw [← hsm]
        exact mem_map_of_mem hrun
      obtain ⟨old, hold, hident⟩ := mem_map.mp hmem
      exact absurd (congrArg Prod.fst hident) (hnew old hold)
    · cases hno
  · refine ⟨id, start, input, hadm, ?_⟩
    obtain ⟨_, _, -, hdb⟩ := hadm.admission
    rw [hdb] at hrun
    rcases mem_append.mp hrun with hrun | hrun
    · exact absurd rfl (hnew run hrun)
    · exact (mem_singleton.mp hrun).symm

/-! ## Capacity -/

end

/-- The report that an admission is anchored on is stored. -/
theorem AdmissionStep.anchored {input : CommitInput}
    (h : AdmissionStep localeCompare parseReport parseManifest s s' id start input) :
    ∃ actual ∈ s.db.actual, actual.hostId = input.run.hostId ∧
      actual.reportText = input.desired.readiness.actualReportText := by
  obtain ⟨_, _, hadm, -⟩ := h.admission
  obtain ⟨_, hho, hads⟩ := hadm.host
  simp only [Db.admits, Db.hostReady, Bool.and_eq_true, decide_eq_true_eq] at hads
  obtain ⟨actual, hactual, hconds⟩ := any_eq_true.mp hads.1.1.1.2.2
  simp only [Bool.and_eq_true, decide_eq_true_eq] at hconds
  have hid := find?_some hho
  rw [decide_eq_true_eq] at hid
  exact ⟨actual, hactual, hconds.1.1.1.1.trans hid, hconds.1.2⟩

theorem heldCpuMillis_admitRun {db : Db} {input : CommitInput}
    {vms : List (RuntimeVmSpec × EncryptedKey)} :
    (db.admitRun input vms).heldCpuMillis input.run.hostId =
      db.heldCpuMillis input.run.hostId + input.draft.cpuMillis := by
  have hho : input.cpuReservation.hostId = input.run.hostId := rfl
  have hcpu : input.cpuReservation.cpuMillis = input.draft.cpuMillis := rfl
  simp [Db.heldCpuMillis, Db.admitRun, Db.setDesired, hho, hcpu]

/-- **No CPU is given away twice.**  Whenever a run is admitted, on a report that is stored for the
host, all quotas that are then held for the host, its own among them, are at most the CPU that the
report says can be scheduled. -/
theorem heldCpuMillis_le_of_admitted {s₀ : State} (hinit : Initial s₀) (acts : List Act) (act : Act)
    (hs : Trace.run (step localeCompare parseReport parseManifest) s₀ acts = s)
    (hs' : step localeCompare parseReport parseManifest s act = s') {run : RunRow}
    (hrun : run ∈ s'.db.runs) (hnew : ∀ old ∈ s.db.runs, old.runId ≠ run.runId) :
    ∃ id start draft attempt requestedHostId allocation,
      s.starts id = some start ∧
      start.phase = .admitting draft (.committing attempt requestedHostId allocation) ∧
      run = { draft.run with hostId := allocation.hostId } ∧
      (∃ actual ∈ s.db.actual, actual.hostId = run.hostId ∧
        actual.reportText = allocation.readiness.actualReportText) ∧
      (∃ quota ∈ s'.db.cpuReservations, quota.runId = run.runId ∧ quota.hostId = run.hostId ∧
        quota.cpuMillis = draft.cpuMillis) ∧
      s'.db.heldCpuMillis run.hostId = s.db.heldCpuMillis run.hostId + draft.cpuMillis ∧
      ∃ reported,
        Host.strictCpuCapacity (parseReport allocation.readiness.actualReportText) = some reported ∧
        s'.db.heldCpuMillis run.hostId ≤ reported.schedulableCpuMillis := by
  have hinv : Inv localeCompare parseReport parseManifest s := hs ▸ inv_run hinit acts
  obtain ⟨id, start, input, hstp, rfl⟩ := AdmissionStep.of_new hinv hs' hrun hnew
  obtain ⟨attempt, requestedHostId, hph⟩ := hstp.phase
  obtain ⟨_, _, hadm, hdb⟩ := hstp.admission
  have hhd : s'.db.heldCpuMillis input.run.hostId =
      s.db.heldCpuMillis input.run.hostId + input.draft.cpuMillis := by
    rw [hdb, heldCpuMillis_admitRun]
  refine ⟨id, start, input.draft, attempt, requestedHostId, input.desired, hstp.starts, hph, rfl,
    hstp.anchored, ?_, hhd, ?_⟩
  · refine ⟨input.cpuReservation, ?_, rfl, rfl, rfl⟩
    rw [hdb]
    exact mem_concat_self
  -- The compare-and-set has found the version that the room was found for.
  obtain ⟨_, _, hrow, -, reported, hrep, hroom⟩ := hstp.planned.stored hadm.version
  refine ⟨reported, hrep, ?_⟩
  rw [hhd]
  exact hroom _ hrow rfl

end

/-! ## A small installation

One user, one host, and a scenario with one VM: what the runs below start from. -/

namespace Small

def digest : String := String.ofList (List.replicate 64 'a')

def report : Json :=
  .obj [("schema_version", .num 7),
    ("capacity", .obj [("schedulable_cpu_millis", .num 4000), ("committed_cpu_millis", .num 0),
      ("total_cpu_millis", .num 8000), ("reserved_cpu_millis", .num 1000)]),
    ("capabilities", .obj ((Host.requiredCapabilities.map fun name => (name, Json.bool true)) ++
      [("cloud_hypervisor_sha256", .str digest)])),
    ("vms", .arr [])]

def host : HostRow where
  scope := some .platform
  ownerUserId := some "ops"
  organizationId := none
  role := "agent"
  id := "h1"
  disabled := false
  scenarioEnabled := true
  connected := true
  activeSessionId := some "s1"
  credentialGeneration := 1
  lastHeartbeatAt := some 0

def catalogVm : CatalogVm where
  scenarioId := "sc"
  id := "v1"
  ordinal := 0
  vmName := "web"
  image := "img"
  imageKey := some ⟨"sc", "web", .aarch64⟩
  imageSha256 := some digest
  imageFormat := "raw_chunks_v1"
  imageVirtualSizeBytes := 1
  chunkManifestSha256 := some digest
  guestBootstrapAbi := some 2
  kernelSha256 := digest
  initrdSha256 := digest
  bootCmdline := "root=/dev/vda"
  cpuMillis := 1000
  memoryMib := 512
  diskMib := 10
  probes := []

def db : Db where
  users := [⟨"ada", none, false, .platform⟩]
  members := []
  organizations := []
  hosts := [host]
  actual := [⟨"h1", "report", 0⟩]
  gates := []
  contentAccess := fun _ => true
  scenarios := [⟨"sc", none, "Shells", true, some 0⟩]
  catalog := [catalogVm]
  candidates := []
  builds := []
  desired := fun _ => none
  executions := []
  runs := []
  sshKeys := []
  cpuReservations := []
  runtimeVms := []
  accessKeys := []
  resourceReservations := []
  activeSlots := []

def initial : State := ⟨db, fun _ => none, []⟩

theorem initial_initial : Initial initial := by
  refine ⟨⟨?_, ⟨List.Pairwise.nil, ?_⟩, ?_⟩, ?_, fun _ => rfl⟩
  · intro _ _ hrow
    cases hrow
  · intro _ hrow
    cases hrow
  · intro _ hrun
    cases hrun
  · rintro runId (hrun | ⟨hostId, row, hrow, -⟩)
    · cases hrun
    · cases hrow

def input : BeginInput := ⟨"sc", "ada", "key-00001", none, none, none, none, false, false⟩

def answer : Answer where
  registryOpen := true
  activeFirst := false
  candidateAgrees := true
  course := .ok ⟨"scope", "course", "lecture", "Unit"⟩
  material := ⟨"run1", 1, ⟨digest, 64 * 1024 * 1024, digest, 2⟩,
    fun _ => ⟨"vm1", "rt1", "key1", "ssh-ed25519 k", ⟨"c", "i"⟩, ⟨"c", "i"⟩⟩⟩
  preparedHostId := .ok none
  hostIds := .ok ["h1"]
  agentHost := some ⟨some .platform, some "ops", none, "agent"⟩
  reportReady := .ok ()
  resourcesFit := true
  now := 1
  dbNow := 1

def step : State → Act → State := Runs.step Js.compareUnits (fun _ => report) (fun _ => none)

def run (acts : List Act) : State := Trace.run step initial acts

theorem run_concat (acts : List Act) (act : Act) : step (run acts) act = run (acts ++ [act]) :=
  (Trace.run_append step initial acts [act]).symm

/-- The start of a run, up to its commit. -/
def planning : List Act := .start 0 input :: List.replicate 14 (.advance 0 answer)

/-- The commit. -/
def committing : Act := .advance 0 answer

/-- The account is closed while its run is being admitted. -/
def revoke : Act := .env (.outside { db.toOutside with users := [] })

/-- The run is admitted, the fence fails, and the cancel has loaded the desired state. -/
def cancelLoaded : List Act :=
  planning ++ [committing, revoke, .advance 0 answer, .advance 0 answer]

/-- The batch of the cancel. -/
def cancelling : Act := .advance 0 answer

set_option maxRecDepth 10000 in
theorem new_committing :
    ∃ admitted ∈ (run (planning ++ [committing])).db.runs,
      ∀ old ∈ (run planning).db.runs, old.runId ≠ admitted.runId := by
  decide +kernel

theorem heldCpuMillis_le_committing :
    ∃ admitted ∈ (run (planning ++ [committing])).db.runs, ∃ reported : Host.StrictCpuCapacity,
      (run (planning ++ [committing])).db.heldCpuMillis admitted.hostId ≤
        reported.schedulableCpuMillis := by
  obtain ⟨admitted, hadmd, hnew⟩ := new_committing
  have hs : Trace.run step initial planning = run planning := rfl
  obtain ⟨_, _, _, _, _, _, -, -, -, -, -, -, reported, -, hhd⟩ :=
    heldCpuMillis_le_of_admitted initial_initial planning committing hs
      (run_concat planning committing) hadmd hnew
  exact ⟨admitted, hadmd, reported, hhd⟩

end Small

end Intar.Runs
