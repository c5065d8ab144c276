import Intar.Runs.Evolution

/-!
# What a start knows

The invariant of the system of starts.  For each start it says what its past statements still tell it
about the database now:

* a desired state that it has read is the stored one, as long as the version has not changed
  (`Db.Read`), and then there is still room for the quota it has found room for (`Db.Room`);
* the run id it drew is its own: no table and no document mentions it before its admission commits,
  and afterwards its run is there (`Recorded`).

Both are stable under every step of the others (`Evolves`).  `inv_step` is the step lemma, and
`inv_run` what it comes to for whole runs.
-/

namespace Intar.Runs

open Host (Millis DesiredState DesiredRow DesiredVm)
open List

/-! ## Knowledge -/

/-- The document was stored for the host, and it still is unless the version has grown. -/
def Db.Read (db : Db) (hostId : String) (current : DesiredState) : Prop :=
  ∃ row, db.desired hostId = some row ∧ current.version ≤ row.version ∧
    (row.version = current.version → row.doc = current)

/-- As long as the version is stored, the quota fits on the host beside those that are held. -/
def Db.Room (db : Db) (parseReport : String → Json) (hostId : String) (version : Nat)
    (readiness : HostReadiness) (cpuMillis : Int) : Prop :=
  ∃ reported, Host.strictCpuCapacity (parseReport readiness.actualReportText) = some reported ∧
    ∀ row, db.desired hostId = some row → row.version = version →
      db.heldCpuMillis hostId + cpuMillis ≤ reported.schedulableCpuMillis

/-- None of the named VMs of the run is to run. -/
def Db.Stopped (db : Db) (hostId runId : String) (names : List String) : Prop :=
  ∀ row, db.desired hostId = some row → ∀ vm ∈ row.doc.vms, vm.runId = runId →
    vm.vmName ∈ names → vm.desiredPhase ≠ .running

section

variable {db db' : Db} {admitted : Option String} {hostId : String} {current : DesiredState}

theorem Db.Read.evolves (h : db.Read hostId current) (he : Evolves admitted db db') :
    db'.Read hostId current := by
  obtain ⟨row, hrow, hver, hdoc⟩ := h
  obtain ⟨row', hrow', hle, heq⟩ := he.desired hostId row hrow
  refine ⟨row', hrow', hver.trans hle, fun hcur => ?_⟩
  -- The version has come back to where it was, so it never left.
  have hsm : row'.version = row.version := by omega
  rw [heq hsm]
  exact hdoc (by omega)

theorem Db.Room.evolves {parseReport : String → Json} {readiness : HostReadiness} {cpuMillis : Int}
    (h : db.Room parseReport hostId current.version readiness cpuMillis)
    (hrd : db.Read hostId current) (he : Evolves admitted db db') :
    db'.Room parseReport hostId current.version readiness cpuMillis := by
  obtain ⟨reported, hrep, hroom⟩ := h
  obtain ⟨row, hrow, _, -⟩ := hrd
  refine ⟨reported, hrep, fun row' hrow' hcur => ?_⟩
  obtain ⟨_, hrow'', _, heq⟩ := he.desired hostId row hrow
  rw [hrow'] at hrow''
  cases hrow''
  have hsm : row'.version = row.version := by omega
  have hquos := he.quotas hostId row hrow (by rw [hrow', heq hsm])
  have hhd := hroom row hrow (by omega)
  omega

theorem Db.Stopped.evolves {runId : String} {names : List String}
    (h : db.Stopped hostId runId names) (ho : admitted ≠ some runId)
    (he : Evolves admitted db db') : db'.Stopped hostId runId names := by
  intro row' hrow' vm hvm hrun hnm hup
  rcases he.vms hostId row' hrow' vm hvm with hadmd | ⟨row, hrow, before, hbef, hkt⟩
  · exact ho (hadmd.trans (congrArg some hrun))
  · exact h row hrow before hbef (hkt.1 ▸ hrun) (hkt.2.1 ▸ hnm) (hkt.2.2 hup)

end

/-! ## The invariant of a start -/

section

variable (localeCompare : String → String → Ordering) (parseReport : String → Json)
  (parseManifest : String → Option CandidateManifest)

/-- The source is of the scenario and the candidate, if any, that the start asks for. -/
structure SourceOf (input : BeginInput) (source : StartSource) : Prop where
  scenarioId : source.scenario.scenarioId = input.scenarioId
  request : candidateRequestFromInput input =
    .ok (source.candidateProof.map CandidateProof.toCandidateRequest)
  live : source.candidateProof = none → ∃ records : List VmRecord,
    source.scenario.launchSpecs = buildScenarioLaunchSpecs input.scenarioId records
  candidate : ∀ proof, source.candidateProof = some proof → ∃ manifest,
    parseManifest proof.manifestText = some manifest ∧ manifest.scenarioId = input.scenarioId ∧
      candidateSourceFromManifest manifest input.organizationId proof.toCandidateRequest =
        some source.scenario

/-- The draft was made by this start, from such a source. -/
def Drafted (start : Start) (draft : Draft) : Prop :=
  ∃ source course material, SourceOf parseManifest start.input source ∧
    DraftOf start.input source.scenario source.candidateProof course start.idempotencyKey material
      draft

/-- The allocation was planned on a document that the start has read, with room for the quota. -/
def Planned (db : Db) (draft : Draft) (allocation : Allocation) : Prop :=
  ∃ current now, db.Read allocation.hostId current ∧
    allocation.expectedVersion = current.version ∧
    Host.mutateDesiredState localeCompare current (admissionMutator draft) now =
      .ok (some allocation.next) ∧
    db.Room parseReport allocation.hostId current.version allocation.readiness draft.cpuMillis

def AdmitInv (db : Db) (draft : Draft) : AdmitPhase → Prop
  | .readingHost _ hostId current => db.Read hostId current
  | .readingReservations _ hostId current _ => db.Read hostId current
  | .readingSnapshot _ hostId current readiness => db.Read hostId current ∧
      db.Room parseReport hostId current.version readiness draft.cpuMillis
  | .gate _ _ allocation => Planned localeCompare parseReport db draft allocation
  | .committing _ _ allocation => Planned localeCompare parseReport db draft allocation
  | .cancelWriting _ now hostId _ current next => db.Read hostId current ∧
      Host.mutateDesiredState localeCompare current (cancelMutator (draft.cancelInput hostId)) now =
        .ok next ∧
      (next = none → db.Stopped hostId draft.run.runId (draft.cancelInput hostId).names)
  | _ => True

/-- The admission has committed. -/
def AdmitPhase.isCommitted : AdmitPhase → Bool
  | .fencing .. => true
  | .cancelLoading .. => true
  | .cancelWriting .. => true
  | _ => false

/-- The start has not drawn an id yet. -/
def Start.Early (start : Start) : Prop := start.drew = none ∧ start.committed = false

def PhaseInv (db : Db) (start : Start) : StartPhase → Prop
  | .opening => start.Early
  | .loading request => start.Early ∧ candidateRequestFromInput start.input = .ok request
  | .loadingActive _ source =>
    start.Early ∧ ∀ source' ∈ source, SourceOf parseManifest start.input source'
  | .loadingSource request _ => start.Early ∧ candidateRequestFromInput start.input = .ok request
  | .courseGate source _ => start.Early ∧ SourceOf parseManifest start.input source
  | .accountCheck source _ _ => start.Early ∧ SourceOf parseManifest start.input source
  | .replayLookup source _ _ => start.Early ∧ SourceOf parseManifest start.input source
  | .building source _ => start.Early ∧ SourceOf parseManifest start.input source
  | .admitting draft phase => Drafted parseManifest start draft ∧
      start.drew = some draft.run.runId ∧ start.committed = phase.isCommitted ∧
      AdmitInv localeCompare parseReport db draft phase
  | .accepted result =>
    (result.runId, start.input.userId, some start.idempotencyKey) ∈ db.runs.map RunRow.identity
  | .refused _ => True

/-- What is on record about a start is true: without a commit its run id is nowhere, and with one its
run is there, under its key. -/
structure Recorded (db : Db) (start : Start) : Prop where
  absent : start.committed = false → ∀ runId, start.drew = some runId → ¬ db.Mentions runId
  present : start.committed = true → ∃ runId, start.drew = some runId ∧
    (runId, start.input.userId, some start.idempotencyKey) ∈ db.runs.map RunRow.identity

structure StartInv (db : Db) (start : Start) : Prop where
  recorded : Recorded db start
  phase : PhaseInv localeCompare parseReport parseManifest db start start.phase

/-- **The invariant.** -/
structure Inv (s : State) : Prop where
  sound : s.db.Sound
  drawn : ∀ runId, s.db.Mentions runId → runId ∈ s.drawn
  drew : ∀ id start runId, s.starts id = some start → start.drew = some runId → runId ∈ s.drawn
  distinct : ∀ id id' start start' runId, s.starts id = some start → s.starts id' = some start' →
    start.drew = some runId → start'.drew = some runId → id = id'
  starts : ∀ id start, s.starts id = some start →
    StartInv localeCompare parseReport parseManifest s.db start

end

variable {localeCompare : String → String → Ordering} {parseReport : String → Json}
  {parseManifest : String → Option CandidateManifest} {start : Start} {draft : Draft}
  {answer : Answer}

/-! ## Stability -/

section

variable {db db' : Db} {admitted : Option String}

theorem Evolves.mem_identity (he : Evolves admitted db db')
    {identity : String × String × Option String} (h : identity ∈ db.runs.map RunRow.identity) :
    identity ∈ db'.runs.map RunRow.identity := by
  rcases he.runs with hsm | ⟨_, -, hruns⟩
  · rwa [hsm]
  rw [hruns, map_append]
  exact mem_append_left _ h

theorem Recorded.evolves (h : Recorded db start)
    (ho : ∀ runId, admitted = some runId → start.drew ≠ some runId)
    (he : Evolves admitted db db') : Recorded db' start := by
  refine ⟨fun hcmm runId hdrew hmen => ?_, fun hcmm => ?_⟩
  · rcases he.mentions hmen with hadmd | hmen
    · exact ho runId hadmd hdrew
    · exact h.absent hcmm runId hdrew hmen
  · obtain ⟨runId, hdrew, hrun⟩ := h.present hcmm
    exact ⟨runId, hdrew, he.mem_identity hrun⟩

theorem Planned.evolves {allocation : Allocation}
    (h : Planned localeCompare parseReport db draft allocation) (he : Evolves admitted db db') :
    Planned localeCompare parseReport db' draft allocation := by
  obtain ⟨current, now, hrd, hver, hnx, hroom⟩ := h
  exact ⟨current, now, hrd.evolves he, hver, hnx, hroom.evolves hrd he⟩

theorem AdmitInv.evolves {phase : AdmitPhase}
    (h : AdmitInv localeCompare parseReport db draft phase)
    (ho : admitted ≠ some draft.run.runId) (he : Evolves admitted db db') :
    AdmitInv localeCompare parseReport db' draft phase := by
  cases phase with
  | readingHost | readingReservations =>
    exact Db.Read.evolves h he
  | readingSnapshot =>
    exact ⟨h.1.evolves he, h.2.evolves h.1 he⟩
  | gate | committing =>
    exact Planned.evolves h he
  | cancelWriting =>
    exact ⟨h.1.evolves he, h.2.1, fun hno => (h.2.2 hno).evolves ho he⟩
  | _ => trivial

variable {phase : StartPhase} {id' : Nat} {start' : Start}

theorem PhaseInv.evolves (h : PhaseInv localeCompare parseReport parseManifest db start phase)
    (ho : ∀ runId, admitted = some runId → start.drew ≠ some runId)
    (he : Evolves admitted db db') :
    PhaseInv localeCompare parseReport parseManifest db' start phase := by
  cases phase with
  | admitting =>
    obtain ⟨hdrd, hdrew, hcmm, hph⟩ := h
    exact ⟨hdrd, hdrew, hcmm, hph.evolves (fun hadmd => ho _ hadmd hdrew) he⟩
  | accepted => exact he.mem_identity h
  | _ => exact h

/-- **A start keeps what it knows** while others move. -/
theorem StartInv.evolves (h : StartInv localeCompare parseReport parseManifest db start)
    (ho : ∀ runId, admitted = some runId → start.drew ≠ some runId)
    (he : Evolves admitted db db') : StartInv localeCompare parseReport parseManifest db' start :=
  ⟨h.recorded.evolves ho he, h.phase.evolves ho he⟩

/-! ## Steps of the system -/

variable {s : State} {id : Nat}

theorem setStart_self : (s.setStart id start).starts id = some start := Function.update_self ..

theorem setStart_of_ne (h : id' ≠ id) : (s.setStart id start).starts id' = s.starts id' :=
  Function.update_of_ne h ..

theorem starts_setStart (h : (s.setStart id start).starts id' = some start') :
    (id' = id ∧ start' = start) ∨ (id' ≠ id ∧ s.starts id' = some start') := by
  by_cases hid : id' = id
  · subst hid
    rw [setStart_self] at h
    cases h
    exact .inl ⟨rfl, rfl⟩
  · rw [setStart_of_ne hid] at h
    exact .inr ⟨hid, h⟩

variable (h : Inv localeCompare parseReport parseManifest s)

include h

/-- A start is put in place of what was there, with an id drawn that is its own. -/
theorem Inv.put {drawn : List String}
    (he : Evolves admitted s.db db') (hsnd : db'.Sound) (hdrawn : ∀ runId ∈ s.drawn, runId ∈ drawn)
    (hadmd : ∀ runId, admitted = some runId → start.drew = some runId)
    (hdrew : ∀ runId, start.drew = some runId → runId ∈ drawn ∧ ∀ id' other, id' ≠ id →
      s.starts id' = some other → other.drew ≠ some runId)
    (hinv : StartInv localeCompare parseReport parseManifest db' start) :
    Inv localeCompare parseReport parseManifest
      ({ s with db := db', drawn }.setStart id start) := by
  refine ⟨hsnd, ?_, ?_, ?_, ?_⟩
  · intro runId hmen
    rcases he.mentions hmen with hrun | hmen
    · exact (hdrew runId (hadmd runId hrun)).1
    · exact hdrawn runId (h.drawn runId hmen)
  · intro id' start' runId hst' hdrew'
    rcases starts_setStart hst' with ⟨-, rfl⟩ | ⟨-, hst'⟩
    · exact (hdrew runId hdrew').1
    · exact hdrawn runId (h.drew id' start' runId hst' hdrew')
  · intro id₁ id₂ start₁ start₂ runId hst₁ hst₂ hdrew₁ hdrew₂
    rcases starts_setStart hst₁ with ⟨rfl, rfl⟩ | ⟨hne₁, hold₁⟩ <;>
      rcases starts_setStart hst₂ with ⟨rfl, rfl⟩ | ⟨hne₂, hold₂⟩
    · rfl
    · exact absurd hdrew₂ ((hdrew runId hdrew₁).2 id₂ start₂ hne₂ hold₂)
    · exact absurd hdrew₁ ((hdrew runId hdrew₂).2 id₁ start₁ hne₁ hold₁)
    · exact h.distinct id₁ id₂ start₁ start₂ runId hold₁ hold₂ hdrew₁ hdrew₂
  · intro id' start' hst'
    rcases starts_setStart hst' with ⟨-, rfl⟩ | ⟨hne, hst'⟩
    · exact hinv
    refine (h.starts id' start' hst').evolves (fun runId hrun => ?_) he
    exact (hdrew runId (hadmd runId hrun)).2 id' start' hne hst'

/-- One start moves, under the id that it has drawn. -/
theorem Inv.move (hst : s.starts id = some start) (he : Evolves admitted s.db db')
    (hsnd : db'.Sound) (hadmd : ∀ runId, admitted = some runId → start.drew = some runId)
    (hdrew : start'.drew = start.drew)
    (hinv : StartInv localeCompare parseReport parseManifest db' start') :
    Inv localeCompare parseReport parseManifest ({ s with db := db' }.setStart id start') := by
  refine h.put he hsnd (fun _ hr => hr) (hdrew ▸ hadmd) ?_ hinv
  rw [hdrew]
  intro runId hrun
  refine ⟨h.drew id start runId hst hrun, fun id' other hne ho hdrew' => hne ?_⟩
  exact h.distinct id' id other start runId ho hst hdrew' hrun

/-- The rest of the program moves. -/
theorem Inv.env (he : Evolves none s.db db')
    (hsnd : db'.Sound) : Inv localeCompare parseReport parseManifest { s with db := db' } := by
  refine ⟨hsnd, ?_, h.drew, h.distinct, ?_⟩
  · intro runId hmen
    rcases he.mentions hmen with hrun | hmen
    · cases hrun
    · exact h.drawn runId hmen
  · intro id start hst
    exact (h.starts id start hst).evolves (fun runId hrun => by cases hrun) he

/-- One start goes on, and what it has written is nobody's admission. -/
theorem Inv.goOn {phase : StartPhase}
    (hst : s.starts id = some start) (he : Evolves none s.db db') (hsnd : db'.Sound)
    (hph : PhaseInv localeCompare parseReport parseManifest db' { start with phase } phase) :
    Inv localeCompare parseReport parseManifest (s.goOn id start db' phase) := by
  have hno : ∀ runId, none = some runId → start.drew = some runId := fun runId hrun => by cases hrun
  have hrcd := (h.starts id start hst).recorded.evolves (fun runId hrun => by cases hrun) he
  exact h.move hst he hsnd hno rfl ⟨⟨hrcd.absent, hrcd.present⟩, hph⟩

/-- One start moves and writes nothing. -/
theorem Inv.stay {phase : StartPhase}
    (hst : s.starts id = some start)
    (hph : PhaseInv localeCompare parseReport parseManifest s.db { start with phase } phase) :
    Inv localeCompare parseReport parseManifest (s.goOn id start s.db phase) :=
  h.goOn hst (.refl s.db) h.sound hph

end

/-! ## Before the admission -/

section

variable {db : Db} {request : Option CandidateRequest}

theorem sourceOf_loadScenarioForStart {agrees : Bool} {source : StartSource}
    (hreq : candidateRequestFromInput start.input = .ok request)
    (h : db.loadScenarioForStart parseManifest start.input request agrees = .ok (some source)) :
    SourceOf parseManifest start.input source := by
  cases request with
  | some =>
    obtain ⟨_, hrd, hsrc⟩ := Option.map_eq_some_iff.mp (Except.ok.inj h)
    subst hsrc
    clear h
    simp only [Db.loadCandidateScenarioRunSource, Option.bind_eq_bind, Option.bind_eq_some_iff]
      at hrd
    obtain ⟨_, -, _, -, manifest, hman, _, hscn, source', hsrc, hpr⟩ := hrd
    cases hpr
    have hscn : manifest.scenarioId = start.input.scenarioId := by
      by_contra hne
      simp [guard, hne] at hscn
    have hid : source'.scenarioId = manifest.scenarioId := by
      obtain ⟨_, -, hsm⟩ := Option.bind_eq_some_iff.mp hsrc
      cases hsm
      rfl
    refine ⟨hid.trans hscn, hreq, ?_, ?_⟩
    · intro hno
      cases hno
    intro _ hprf
    cases hprf
    exact ⟨manifest, hman, hscn, hsrc⟩
  | none =>
    obtain ⟨_, hscn, hsrc⟩ := Fallible.map_eq_ok.mp h
    obtain ⟨_, rfl, rfl⟩ := Option.map_eq_some_iff.mp hsrc
    rw [Db.loadEnabledScenario] at hscn
    simp only at hscn
    split at hscn
    · cases hscn
    rename_i hrow
    have hid := find?_some hrow
    simp only [Bool.and_eq_true, decide_eq_true_eq] at hid
    split at hscn
    · cases hscn
    obtain ⟨records, -, hscn⟩ := Fallible.bind_eq_ok.mp hscn
    split at hscn
    · cases hscn
      exact ⟨hid.1, hreq, fun _ => ⟨records, by rw [hid.1]⟩, fun proof hprf => by cases hprf⟩
    · cases hscn

theorem candidateRequest_of_opened (h : opened db start answer = .ok request) :
    candidateRequestFromInput start.input = .ok request := by
  rw [opened] at h
  split at h
  · cases h
  obtain ⟨-, -, h⟩ := Fallible.bind_eq_ok.mp h
  obtain ⟨_, hreq, h⟩ := Fallible.bind_eq_ok.mp h
  split at h
  · cases h
    exact hreq
  · cases h

/-- The run of the key is the run that a replay answers with. -/
theorem phaseInv_replayed {ifNone : StartPhase}
    (h : PhaseInv localeCompare parseReport parseManifest db start ifNone) :
    PhaseInv localeCompare parseReport parseManifest db start (replayed db start ifNone) := by
  rw [replayed]
  split
  · exact h
  rename_i run hrun
  have hmem := mem_of_find?_eq_some hrun
  have hkey := find?_some hrun
  simp only [Bool.and_eq_true, decide_eq_true_eq] at hkey
  rw [replay]
  split
  · rename_i hresl
    split at hresl
    · cases hresl
      refine mem_map.mpr ⟨run, hmem, ?_⟩
      rw [RunRow.identity, hkey.1, hkey.2]
    · cases hresl
  · trivial

theorem phaseInv_afterReads {source : Option StartSource} {active : Option RunRow}
    (hely : start.Early)
    (hsrc : ∀ source' ∈ source, SourceOf parseManifest start.input source') :
    PhaseInv localeCompare parseReport parseManifest db start (afterReads request source active) := by
  cases source with
  | some source => exact ⟨hely, hsrc source rfl⟩
  | none => trivial

theorem phaseInv_readPhase {phase : StartPhase}
    (h : PhaseInv localeCompare parseReport parseManifest db start phase) :
    PhaseInv localeCompare parseReport parseManifest db start
      (readPhase db parseManifest start answer phase) := by
  cases phase with
  | opening =>
    simp only [readPhase]
    split
    · rename_i hopened
      exact ⟨h, candidateRequest_of_opened hopened⟩
    · trivial
  | loading =>
    simp only [readPhase]
    split
    · exact h
    split
    · rename_i hsrc
      refine ⟨h.1, fun source' hsrc' => ?_⟩
      rw [Option.mem_def.mp hsrc'] at hsrc
      exact sourceOf_loadScenarioForStart h.2 hsrc
    · trivial
  | loadingActive => exact phaseInv_afterReads h.1 h.2
  | loadingSource =>
    simp only [readPhase]
    split
    · rename_i hsrc
      refine phaseInv_afterReads h.1 fun source' hsrc' => ?_
      rw [Option.mem_def.mp hsrc'] at hsrc
      exact sourceOf_loadScenarioForStart h.2 hsrc
    · trivial
  | courseGate | accountCheck =>
    simp only [readPhase]
    split
    · exact h
    · trivial
  | replayLookup =>
    refine phaseInv_replayed ?_
    split
    · trivial
    · exact h
  | _ => exact h

end

/-! ## Up to the commit -/

section

variable {db : Db}

/-- The start is admitting the draft and has not committed it. -/
structure Uncommitted (parseManifest : String → Option CandidateManifest) (start : Start)
    (draft : Draft) : Prop where
  drafted : Drafted parseManifest start draft
  drew : start.drew = some draft.run.runId
  committed : start.committed = false

theorem Uncommitted.phaseInv (h : Uncommitted parseManifest start draft) {phase : AdmitPhase}
    (hph : phase.isCommitted = false) (hinv : AdmitInv localeCompare parseReport db draft phase) :
    PhaseInv localeCompare parseReport parseManifest db start (.admitting draft phase) :=
  ⟨h.drafted, h.drew, h.committed.trans hph.symm, hinv⟩

theorem phaseInv_nextHost (h : Uncommitted parseManifest start draft) (plan : Plan) :
    PhaseInv localeCompare parseReport parseManifest db start (nextHost draft plan) := by
  rw [nextHost]
  split
  · trivial
  · exact h.phaseInv rfl trivial

/-- The sum that a plan computes is what is held. -/
theorem sumCpuMillis_cpuReservationsOf (hostId : String) :
    Host.sumCpuMillis (db.cpuReservationsOf hostId) = db.heldCpuMillis hostId := by
  rw [Host.sumCpuMillis, Db.cpuReservationsOf, map_map]
  rfl

/-- A quota that fits on what is held now has room. -/
theorem room_of_quotaFits {hostId : String} {version : Nat} {readiness : HostReadiness}
    (hpos : 0 < draft.cpuMillis)
    (h : quotaFits parseReport draft readiness (db.cpuReservationsOf hostId) = true) :
    db.Room parseReport hostId version readiness draft.cpuMillis := by
  obtain ⟨_, hcap, hfits⟩ := (Option.any_eq_true _ _).mp h
  obtain ⟨reported, hrep, hsum⟩ := Host.sum_add_le_of_available hcap hpos (of_decide_eq_true hfits)
  rw [sumCpuMillis_cpuReservationsOf] at hsum
  exact ⟨reported, hrep, fun _ _ _ => hsum⟩

theorem phaseInv_planPhase {phase : AdmitPhase} (h : Uncommitted parseManifest start draft)
    (hph : phase.isCommitted = false)
    (hinv : AdmitInv localeCompare parseReport db draft phase) :
    PhaseInv localeCompare parseReport parseManifest db start
      (planPhase localeCompare parseReport db start draft answer phase) := by
  cases phase with
  | readingHost plan =>
    simp only [planPhase]
    split
    · split
      · exact phaseInv_nextHost h plan
      · trivial
    · split
      · exact phaseInv_nextHost h plan
      · exact h.phaseInv rfl hinv
  | readingReservations plan =>
    simp only [planPhase]
    split
    · rename_i hfits
      obtain ⟨_, _, _, -, hdr⟩ := h.drafted
      exact h.phaseInv rfl ⟨hinv, room_of_quotaFits hdr.cpuMillis_pos hfits⟩
    · exact phaseInv_nextHost h plan
  | readingSnapshot plan _ current =>
    simp only [planPhase]
    split
    · split
      · trivial
      · exact phaseInv_nextHost h plan
      rename_i hnx
      exact h.phaseInv rfl ⟨current, plan.now, hinv.1, rfl, hnx, hinv.2⟩
    · exact phaseInv_nextHost h plan
  | gate =>
    simp only [planPhase]
    split
    · trivial
    · exact h.phaseInv rfl hinv
  | _ => exact h.phaseInv hph hinv

theorem phaseInv_decidePhase {phase : AdmitPhase} (h : Uncommitted parseManifest start draft)
    (hph : phase.isCommitted = false)
    (hinv : AdmitInv localeCompare parseReport db draft phase) :
    PhaseInv localeCompare parseReport parseManifest db start
      (decidePhase db start draft answer phase) := by
  cases phase with
  | preparing =>
    simp only [decidePhase]
    split
    · exact h.phaseInv rfl trivial
    split
    · exact h.phaseInv rfl trivial
    · trivial
  | allocating =>
    simp only [decidePhase]
    split
    · trivial
    · exact phaseInv_nextHost h _
  | keyLookup =>
    simp only [decidePhase]
    split
    · exact h.phaseInv rfl trivial
    · trivial
  | replaying => exact phaseInv_replayed trivial
  | checking checks retry =>
    cases checks with
    | nil =>
      simp only [decidePhase]
      cases retry with
      | none => trivial
      | some =>
        simp only [afterChecks]
        split
        · exact h.phaseInv rfl trivial
        · trivial
    | cons =>
      simp only [decidePhase]
      split
      · trivial
      · exact h.phaseInv rfl trivial
  | fencing => cases hph
  | _ => exact h.phaseInv hph hinv

/-! ## The commit -/

theorem findRun_eq_none_of_not_mentions {runId : String} (h : ¬ db.Mentions runId) :
    db.findRun runId = none := by
  rw [findRun_eq_none]
  intro run hrun heq
  refine h (.inl ?_)
  simp only [Db.tableIds, mem_append, mem_map]
  exact .inl (.inl (.inl (.inl (.inl (.inl (.inl ⟨run, hrun, heq⟩))))))

/-- **All or nothing**, for a start that has drawn its own id. -/
theorem commitAdmissionBatch_spec {input : CommitInput} {dbNow : Millis} {db' : Db}
    {outcome : CommitOutcome} (hwf : input.draft.WellFormed)
    (hfr : ¬ db.Mentions input.run.runId)
    (h : commitAdmissionBatch parseReport db input dbNow = (db', outcome)) :
    (outcome = .ok ∧ ∃ vms, Admission parseReport db input dbNow vms ∧
      db' = db.admitRun input vms) ∨ (outcome ≠ .ok ∧ db' = db) := by
  have hrun := findRun_eq_none_of_not_mentions hfr
  have hnew : db.desiresRun input.run.hostId input.run.runId = false := by
    rw [Bool.eq_false_iff]
    intro hdsr
    obtain ⟨row, hrow, hany⟩ := (Option.any_eq_true _ _).mp hdsr
    obtain ⟨vm, hvm, hid⟩ := any_eq_true.mp hany
    exact hfr (.inr ⟨_, row, hrow, vm, hvm, of_decide_eq_true hid⟩)
  rw [commitAdmissionBatch] at h
  split at h
  · cases h
    exact .inr ⟨by simp, rfl⟩
  rename_i hstatements
  split at h
  iterate 5
    · cases h
      exact .inr ⟨by simp, rfl⟩
  · rename_i hexec
    cases h
    rcases exec_admissionStatements hwf hrun hnew hstatements hexec with
      ⟨hzero, rfl⟩ | ⟨hone, hadm⟩
    · exact .inr ⟨by simp [hzero], rfl⟩
    · exact .inl ⟨by simp [hone], hadm⟩

end

section

variable {s : State} {id : Nat}

/-- The document that a commit was planned on is the stored one, if its version is. -/
theorem Planned.stored {db : Db} {allocation : Allocation}
    (h : Planned localeCompare parseReport db draft allocation)
    (hver : (db.desired allocation.hostId).any (·.version = allocation.expectedVersion) = true) :
    ∃ current now, db.desired allocation.hostId = some ⟨current.version, current⟩ ∧
      Host.mutateDesiredState localeCompare current (admissionMutator draft) now =
        .ok (some allocation.next) ∧
      db.Room parseReport allocation.hostId current.version allocation.readiness
        draft.cpuMillis := by
  obtain ⟨current, now, ⟨row, hrow, -, hdoc⟩, hexp, hnx, hroom⟩ := h
  obtain ⟨_, hrow', hver⟩ := (Option.any_eq_true _ _).mp hver
  rw [hrow] at hrow'
  cases hrow'
  have hcur : row.version = current.version := (of_decide_eq_true hver).trans hexp
  have hrow'' : row = ⟨current.version, current⟩ := by
    rw [← hcur, ← hdoc hcur]
  exact ⟨current, now, hrow'' ▸ hrow, hnx, hroom⟩

/-- The draft of a start has its user and key. -/
theorem Drafted.identity (h : Drafted parseManifest start draft) :
    draft.run.identity = (draft.run.runId, start.input.userId, some start.idempotencyKey) := by
  obtain ⟨_, _, _, -, hdr⟩ := h
  rw [RunRow.identity, hdr.run]
  rfl

variable {db : Db} {allocation : Allocation} {attempt : Nat} {requestedHostId : Option String}

theorem phaseInv_afterCommit {hostId : String} {outcome : CommitOutcome}
    (h : Uncommitted parseManifest start draft) (hok : outcome ≠ .ok) :
    PhaseInv localeCompare parseReport parseManifest db start
      (afterCommit draft attempt requestedHostId hostId outcome) := by
  cases outcome with
  | ok => exact absurd rfl hok
  | error => trivial
  | _ => exact h.phaseInv rfl trivial

theorem inv_commit (h : Inv localeCompare parseReport parseManifest s)
    (hst : s.starts id = some start)
    (hph : start.phase = .admitting draft (.committing attempt requestedHostId allocation)) :
    Inv localeCompare parseReport parseManifest
      (commit parseReport s id start draft attempt requestedHostId allocation answer) := by
  obtain ⟨hrcd, hinv⟩ := h.starts id start hst
  rw [hph] at hinv
  obtain ⟨hdrd, hdrew, hcmm, hplanned⟩ := hinv
  have huncm : Uncommitted parseManifest start draft := ⟨hdrd, hdrew, hcmm⟩
  obtain ⟨_, _, _, _, hdr⟩ := hdrd
  have hfr := hrcd.absent hcmm draft.run.runId hdrew
  generalize hresl : commitAdmissionBatch parseReport s.db ⟨draft, allocation, answer.now⟩
    answer.dbNow = result
  obtain ⟨_, outcome⟩ := result
  simp only [commit, hresl]
  rcases commitAdmissionBatch_spec hdr.wellFormed hfr hresl with
    ⟨rfl, vms, hadm, rfl⟩ | ⟨hok, rfl⟩
  · obtain ⟨_, _, hrow, hnx, -⟩ := hplanned.stored hadm.version
    have hevo : Evolves (some draft.run.runId) s.db
        (s.db.admitRun ⟨draft, allocation, answer.now⟩ vms) :=
      evolves_admitRun ⟨draft, allocation, answer.now⟩ hdr.wellFormed
        (fun vm hvm => (hdr.running hvm).1) hrow hnx
    refine h.move hst hevo (sound_admitRun h.sound hdr.wellFormed hadm hnx) ?_ rfl ⟨⟨?_, ?_⟩, ?_⟩
    · intro _ hrun
      cases hrun
      exact hdrew
    · intro hfls
      simp at hfls
    · intro _
      refine ⟨draft.run.runId, hdrew, ?_⟩
      refine mem_map.mpr ⟨_, mem_concat_self, ?_⟩
      exact huncm.drafted.identity
    · refine ⟨huncm.drafted, hdrew, ?_, trivial⟩
      simp [AdmitPhase.isCommitted]
  · have hflag : (start.committed || decide (outcome = CommitOutcome.ok)) = start.committed := by
      simp [hok]
    rw [hflag]
    exact h.move hst (.refl s.db) h.sound (fun runId hrun => by cases hrun) rfl
      ⟨⟨hrcd.absent, hrcd.present⟩, phaseInv_afterCommit
        ⟨huncm.drafted, huncm.drew, huncm.committed⟩ hok⟩

/-! ## Drafting -/

theorem inv_build {source : StartSource} {course : CourseLecture} {material : Material}
    (h : Inv localeCompare parseReport parseManifest s) (hst : s.starts id = some start)
    (hph : start.phase = .building source course) :
    Inv localeCompare parseReport parseManifest (build s id start source course material) := by
  obtain ⟨-, hinv⟩ := h.starts id start hst
  rw [hph] at hinv
  obtain ⟨⟨_, hcmm⟩, hsrc⟩ := hinv
  rw [build]
  split
  · exact h
  rename_i hfr
  have hunmentioned : ¬ s.db.Mentions material.runId := fun hm => hfr (h.drawn _ hm)
  refine h.put (.refl s.db) h.sound (fun _ hr => mem_cons_of_mem _ hr)
    (fun runId hrun => by cases hrun) ?_ ⟨⟨?_, ?_⟩, ?_⟩
  · intro _ hdrew
    cases hdrew
    exact ⟨mem_cons_self, fun id' other _ ho hdrew => hfr (h.drew id' other _ ho hdrew)⟩
  · intro _ _ hdrew
    cases hdrew
    exact hunmentioned
  · intro htrue
    rw [hcmm] at htrue
    cases htrue
  cases hdr : draftNewRun start.input source.scenario source.candidateProof course
      start.idempotencyKey material with
  | error e => trivial
  | ok draft =>
    have hof := draftOf_draftNewRun hdr
    exact ⟨⟨source, course, material, hsrc, hof⟩, by rw [hof.runId], hcmm, trivial⟩

end

/-! ## Cancelling -/

section

variable {s : State} {id : Nat} {now : Millis}

theorem stopVm_eq (runId : String) (names : List String) (vm : DesiredVm) :
    (Host.stopVm runId names vm).runId = vm.runId ∧
      (Host.stopVm runId names vm).vmName = vm.vmName ∧
      (vm.runId = runId → vm.vmName ∈ names →
        (Host.stopVm runId names vm).desiredPhase = .absent) := by
  rw [Host.stopVm]
  split
  · exact ⟨rfl, rfl, fun _ _ => rfl⟩
  rename_i hnot
  exact ⟨rfl, rfl, fun hrun hnm => absurd ⟨hrun, hnm⟩ hnot⟩

/-- What a mutated document has of the VMs to be taken down is stopped. -/
theorem absent_of_mem_stopVm {runId : String} {names : List String} {vms : List DesiredVm}
    {vm : DesiredVm} (h : vm ∈ vms.map (Host.stopVm runId names)) (hrun : vm.runId = runId)
    (hnm : vm.vmName ∈ names) : vm.desiredPhase = .absent := by
  obtain ⟨before, -, rfl⟩ := mem_map.mp h
  obtain ⟨hrunId, hvmName, habsent⟩ := stopVm_eq runId names before
  exact habsent (hrunId ▸ hrun) (hvmName ▸ hnm)

variable {db db' : Db} {current : DesiredState} {attempt : Nat} {hostId : String}
  {error : StartError} {next : Option DesiredState} {phase : StartPhase}

/-- When there is nothing to mark, the VMs are stopped already. -/
theorem stopped_of_unchanged (input : CancelInput)
    (hrow : db.desired input.hostId = some ⟨current.version, current⟩)
    (hnd : (current.vms.map Host.desiredVmIdentity).Nodup)
    (h : Host.mutateDesiredState localeCompare current (cancelMutator input) now = .ok none) :
    db.Stopped input.hostId input.runId input.names := by
  intro _ hrow' vm hvm hrun hnm
  rw [hrow] at hrow'
  cases hrow'
  obtain ⟨_, hdr, hsm⟩ := Host.vms_of_mutateDesiredState_none h
  obtain ⟨_, hdr', hvms⟩ := vms_cancelMutator input hnd
  rw [hdr'] at hdr
  cases hdr
  have hmem : vm ∈ Host.normalizeList localeCompare Host.desiredVmIdentity current.vms :=
    Host.mem_normalizeList hnd hvm
  rw [hsm] at hmem
  have hmem := Host.mem_of_mem_normalizeList (Host.mem_of_mem_normalizeList hmem)
  rw [hvms] at hmem
  rw [absent_of_mem_stopVm hmem hrun hnm]
  exact fun hph => by cases hph

/-- What a cancel writes stops VMs, or only moves the run. -/
theorem evolves_cancelWrite (hsnd : db.Sound)
    (hinv : AdmitInv localeCompare parseReport db draft
      (.cancelWriting attempt now hostId error current next))
    (hwr : cancelWrite db draft attempt now hostId error current next = (db', phase)) :
    Evolves none db db' ∧ db'.Sound := by
  obtain ⟨⟨row', hrow', -, hdoc⟩, hnx, -⟩ := hinv
  rw [cancelWrite] at hwr
  split at hwr
  · rename_i hexec
    cases hwr
    refine evolves_cancelStatements hsnd (fun row hrow hver => ?_) hnx hexec
    have hsm : some row' = some row := hrow'.symm.trans hrow
    cases hsm
    exact hdoc hver
  · cases hwr
    exact ⟨.refl db, hsnd⟩
  · cases hwr
    exact ⟨.refl db, hsnd⟩

variable (h : Inv localeCompare parseReport parseManifest s) (hst : s.starts id = some start)

include h hst

theorem inv_cancelLoading
    (hph : start.phase = .admitting draft (.cancelLoading attempt now hostId error))
    (hevo : Evolves none s.db db') (hsnd : db'.Sound)
    (hrow : db'.desired hostId = some ⟨current.version, current⟩) :
    Inv localeCompare parseReport parseManifest
      (s.goOn id start db' (cancelPlan localeCompare draft attempt now hostId error current)) := by
  have hinv := (h.starts id start hst).phase
  rw [hph] at hinv
  obtain ⟨hdrd, hdrew, hcmm, -⟩ := hinv
  refine h.goOn hst hevo hsnd ?_
  simp only [cancelPlan]
  split
  · trivial
  rename_i hnx
  refine ⟨hdrd, hdrew, hcmm, ⟨_, hrow, le_rfl, fun _ => rfl⟩, hnx, ?_⟩
  rintro rfl
  have hnd := (hsnd.docs hostId _ hrow).2
  exact stopped_of_unchanged (draft.cancelInput hostId) hrow hnd hnx

theorem inv_cancelWriting
    (hph : start.phase = .admitting draft (.cancelWriting attempt now hostId error current next))
    (hwr : cancelWrite s.db draft attempt now hostId error current next = (db', phase)) :
    Inv localeCompare parseReport parseManifest (s.goOn id start db' phase) := by
  have hinv := (h.starts id start hst).phase
  rw [hph] at hinv
  obtain ⟨hdrd, hdrew, hcmm, hadmit⟩ := hinv
  obtain ⟨hevo, hsnd⟩ := evolves_cancelWrite h.sound hadmit hwr
  refine h.goOn hst hevo hsnd ?_
  rw [cancelWrite] at hwr
  split at hwr
  · cases hwr
    trivial
  · cases hwr
    split
    · exact ⟨hdrd, hdrew, hcmm, trivial⟩
    · trivial
  · cases hwr
    trivial

/-! ## Every step -/

theorem inv_advanceAdmission {phase : AdmitPhase} (hph : start.phase = .admitting draft phase) :
    Inv localeCompare parseReport parseManifest
      (advanceAdmission localeCompare parseReport s id start draft phase answer) := by
  have hinv := (h.starts id start hst).phase
  have hrcd := (h.starts id start hst).recorded
  rw [hph] at hinv
  obtain ⟨hdrd, hdrew, hcmm, hadmit⟩ := hinv
  -- What holds of the start holds of it in every other phase, too.
  have huncm : phase.isCommitted = false → ∀ phase',
      Uncommitted parseManifest { start with phase := phase' } draft :=
    fun hfls _ => ⟨hdrd, hdrew, hcmm.trans hfls⟩
  cases phase with
  | readingDesired plan hostId =>
    generalize hld : s.db.loadOrCreateDesired hostId answer.agentHost plan.now = result
    obtain ⟨_, result⟩ := result
    obtain ⟨hevo, hsnd, hrd⟩ := loadOrCreateDesired_spec h.sound hld
    simp only [advanceAdmission, hld]
    cases result with
    | error => exact h.goOn hst hevo hsnd trivial
    | ok current =>
      exact h.goOn hst hevo hsnd ⟨hdrd, hdrew, hcmm, ⟨_, hrd current rfl, le_rfl, fun _ => rfl⟩⟩
  | readingHost | readingReservations | readingSnapshot | gate =>
    exact h.stay hst (phaseInv_planPhase (huncm rfl _) rfl hadmit)
  | committing => exact inv_commit h hst hph
  | fencing =>
    refine h.stay hst ?_
    simp only [decidePhase]
    split
    · obtain ⟨_, hdrew', hrun⟩ := hrcd.present hcmm
      rw [hdrew] at hdrew'
      cases hdrew'
      exact hrun
    · exact ⟨hdrd, hdrew, hcmm, trivial⟩
  | cancelLoading _ now hostId error =>
    generalize hld : s.db.loadOrCreateDesired hostId answer.agentHost now = result
    obtain ⟨_, result⟩ := result
    obtain ⟨hevo, hsnd, hrd⟩ := loadOrCreateDesired_spec h.sound hld
    simp only [advanceAdmission, hld]
    cases result with
    | error => exact h.goOn hst hevo hsnd trivial
    | ok current => exact inv_cancelLoading h hst hph hevo hsnd (hrd current rfl)
  | cancelWriting =>
    exact inv_cancelWriting h hst hph rfl
  | _ => exact h.stay hst (phaseInv_decidePhase (huncm rfl _) rfl hadmit)

theorem inv_advance :
    Inv localeCompare parseReport parseManifest
      (advance localeCompare parseReport parseManifest s id start answer) := by
  have hinv := (h.starts id start hst).phase
  rw [advance]
  split
  · rename_i hph
    exact inv_build h hst hph
  · rename_i hph
    exact inv_advanceAdmission h hst hph
  · exact h
  · exact h
  · exact h.stay hst (phaseInv_readPhase hinv)

theorem inv_failed : Inv localeCompare parseReport parseManifest (failed s id start error now) := by
  have hinv := (h.starts id start hst).phase
  rw [failed]
  split
  · exact h
  · exact h
  · rename_i hph
    rw [hph] at hinv
    exact h.stay hst ⟨hinv.1, hinv.2.1, hinv.2.2.1, trivial⟩
  · exact h.stay hst trivial

omit hst in
/-- **The step lemma.** -/
theorem inv_step (act : Act) :
    Inv localeCompare parseReport parseManifest
      (step localeCompare parseReport parseManifest s act) := by
  cases act with
  | start =>
    simp only [step]
    split
    · refine h.put (.refl s.db) h.sound (fun _ hr => hr) (fun runId hrun => by cases hrun) ?_
        ⟨⟨?_, ?_⟩, rfl, rfl⟩
      · intro _ hdrew
        cases hdrew
      · intro _ _ hdrew
        cases hdrew
      · intro htrue
        cases htrue
    · exact h
  | advance =>
    simp only [step]
    split
    · rename_i hst
      exact inv_advance h hst
    · exact h
  | fail =>
    simp only [step]
    split
    · rename_i hst
      exact inv_failed h hst
    · exact h
  | env act =>
    exact h.env (evolves_envStep h.sound.docs h.sound.constraints.cpuPositive act)
      (sound_envStep h.sound act)

end

/-! ## Every run -/

/-- No start yet, on a database in order; what ids it mentions were drawn before. -/
structure Initial (s : State) : Prop where
  sound : s.db.Sound
  drawn : ∀ runId, s.db.Mentions runId → runId ∈ s.drawn
  starts : ∀ id, s.starts id = none

/-- **The run lemma.** -/
theorem inv_run {s : State} (h : Initial s) (acts : List Act) : Inv localeCompare parseReport parseManifest
      (Trace.run (step localeCompare parseReport parseManifest) s acts) := by
  refine Trace.run_invariant (P := Inv localeCompare parseReport parseManifest)
    (fun s act hs => inv_step hs act) ?_ acts
  refine ⟨h.sound, h.drawn, ?_, ?_, ?_⟩
  · intro id _ _ hst
    rw [h.starts id] at hst
    cases hst
  · intro id _ _ _ _ hst
    rw [h.starts id] at hst
    cases hst
  · intro id _ hst
    rw [h.starts id] at hst
    cases hst

end Intar.Runs
