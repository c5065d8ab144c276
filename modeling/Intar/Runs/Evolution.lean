import Intar.Runs.Begin

/-!
# How the database evolves

A start reads, and decides, and writes, while other starts and the rest of the program write too.
What it may rely on between two of its statements is said once, by `Evolves`: the version of a
desired state only grows and determines the document; no VM is started and no quota added, except
by an admission, which is a new version; rows may change or go, but no other run id comes up.

Every action is shown to be such a step (`evolves_envStep` and the lemmas behind it), and everything a
start knows is shown elsewhere to survive one.
-/

namespace Intar.Runs

open Function

open Host (Millis DesiredState DesiredRow DesiredVm)
open List

/-! ## Run ids -/

/-- The run ids of the tables that a run is spread over. -/
def Db.tableIds (db : Db) : List String :=
  db.runs.map RunRow.runId ++ db.executions.map ExecutionRow.domainId ++
    db.sshKeys.map SshKeyRow.runId ++ db.cpuReservations.map CpuReservationRow.runId ++
    db.runtimeVms.map RuntimeVmRow.executionId ++ db.accessKeys.map AccessKeyRow.executionId ++
    db.resourceReservations.map ResourceReservationRow.executionId ++
    db.activeSlots.map ActiveSlotRow.executionId

/-- The run has a row in some table, or a VM in some desired state. -/
def Db.Mentions (db : Db) (runId : String) : Prop :=
  runId ∈ db.tableIds ∨
    ∃ hostId row, db.desired hostId = some row ∧ ∃ vm ∈ row.doc.vms, vm.runId = runId

/-- No table has a run id that it did not have. -/
structure Db.IdsWithin (db' db : Db) : Prop where
  runs : db'.runs.map RunRow.runId ⊆ db.runs.map RunRow.runId := by exact .refl _
  executions : db'.executions.map ExecutionRow.domainId ⊆
    db.executions.map ExecutionRow.domainId := by exact .refl _
  sshKeys : db'.sshKeys.map SshKeyRow.runId ⊆ db.sshKeys.map SshKeyRow.runId := by exact .refl _
  cpu : db'.cpuReservations.map CpuReservationRow.runId ⊆
    db.cpuReservations.map CpuReservationRow.runId := by exact .refl _
  vms : db'.runtimeVms.map RuntimeVmRow.executionId ⊆
    db.runtimeVms.map RuntimeVmRow.executionId := by exact .refl _
  accessKeys : db'.accessKeys.map AccessKeyRow.executionId ⊆
    db.accessKeys.map AccessKeyRow.executionId := by exact .refl _
  resources : db'.resourceReservations.map ResourceReservationRow.executionId ⊆
    db.resourceReservations.map ResourceReservationRow.executionId := by exact .refl _
  slots : db'.activeSlots.map ActiveSlotRow.executionId ⊆
    db.activeSlots.map ActiveSlotRow.executionId := by exact .refl _

variable {db db' : Db}

theorem Db.IdsWithin.subset (h : db'.IdsWithin db) : db'.tableIds ⊆ db.tableIds := by
  intro _ hid
  simp only [Db.tableIds, mem_append] at hid ⊢
  exact hid.imp (Or.imp (Or.imp (Or.imp (Or.imp (Or.imp (Or.imp (@h.runs _) (@h.executions _))
    (@h.sshKeys _)) (@h.cpu _)) (@h.vms _)) (@h.accessKeys _)) (@h.resources _)) (@h.slots _)

/-- What of a run never changes. -/
def RunRow.identity (run : RunRow) : String × String × Option String :=
  (run.runId, run.userId, run.requestIdempotencyKey)

/-! ## Evolution -/

/-- The VM is the earlier one, and it was not started since. -/
def VmKept (before after : DesiredVm) : Prop :=
  after.runId = before.runId ∧ after.vmName = before.vmName ∧
    (after.desiredPhase = .running → before.desiredPhase = .running)

/-- One step of the database, in which the run `admitted`, if any, was admitted. -/
structure Evolves (admitted : Option String) (db db' : Db) : Prop where
  desired : ∀ hostId row, db.desired hostId = some row → ∃ row', db'.desired hostId = some row' ∧
    row.version ≤ row'.version ∧ (row'.version = row.version → row' = row)
  vms : ∀ hostId row', db'.desired hostId = some row' → ∀ vm ∈ row'.doc.vms,
    admitted = some vm.runId ∨
      ∃ row, db.desired hostId = some row ∧ ∃ before ∈ row.doc.vms, VmKept before vm
  quotas : ∀ hostId row, db.desired hostId = some row → db'.desired hostId = some row →
    db'.heldCpuMillis hostId ≤ db.heldCpuMillis hostId
  ids : ∀ runId ∈ db'.tableIds, admitted = some runId ∨ runId ∈ db.tableIds
  runs : db'.runs.map RunRow.identity = db.runs.map RunRow.identity ∨
    ∃ run, admitted = some run.runId ∧ db'.runs = db.runs ++ [run]

/-- The desired states are in normal form, each under its own version. -/
def Db.NormalDocs (db : Db) : Prop :=
  ∀ hostId row, db.desired hostId = some row →
    row.version = row.doc.version ∧ (row.doc.vms.map Host.desiredVmIdentity).Nodup

variable {hostId : String} {next : DesiredState}

section

variable {admitted : Option String}

theorem VmKept.refl (vm : DesiredVm) : VmKept vm vm := ⟨rfl, rfl, id⟩

theorem Evolves.mentions (h : Evolves admitted db db') {runId : String} (hm : db'.Mentions runId) :
    admitted = some runId ∨ db.Mentions runId := by
  rcases hm with hm | ⟨hostId, row', hrow', vm, hvm, rfl⟩
  · exact (h.ids runId hm).imp_right .inl
  refine (h.vms hostId row' hrow' vm hvm).imp_right ?_
  rintro ⟨row, hrow, before, hbef, hkt⟩
  exact .inr ⟨hostId, row, hrow, before, hbef, hkt.1.symm⟩

/-- Steps that leave the desired states alone. -/
theorem evolves_of_desired_eq (hdes : db'.desired = db.desired)
    (hquos : ∀ hostId, db'.heldCpuMillis hostId ≤ db.heldCpuMillis hostId)
    (hids : db'.tableIds ⊆ db.tableIds)
    (hruns : db'.runs.map RunRow.identity = db.runs.map RunRow.identity) :
    Evolves none db db' := by
  refine ⟨?_, ?_, fun hostId _ _ _ => hquos hostId, fun runId h => .inr (hids h), .inl hruns⟩
  · intro _ row hrow
    exact ⟨row, by rw [hdes, hrow], le_rfl, fun _ => rfl⟩
  · intro _ row hrow vm hvm
    rw [hdes] at hrow
    exact .inr ⟨row, hrow, vm, hvm, .refl vm⟩

theorem Evolves.refl (db : Db) : Evolves none db db :=
  evolves_of_desired_eq rfl (fun _ => le_rfl) (List.Subset.refl _) rfl

/-- A new version of one desired state. -/
theorem evolves_setDesired
    (hver : ∀ row, db.desired hostId = some row → row.version < next.version)
    (hvms : ∀ vm ∈ next.vms, admitted = some vm.runId ∨
      ∃ row, db.desired hostId = some row ∧ ∃ before ∈ row.doc.vms, VmKept before vm)
    (hdes : db'.desired = update db.desired hostId (some ⟨next.version, next⟩))
    (hquos : ∀ host, host ≠ hostId → db'.heldCpuMillis host ≤ db.heldCpuMillis host)
    (hids : ∀ runId ∈ db'.tableIds, admitted = some runId ∨ runId ∈ db.tableIds)
    (hruns : db'.runs.map RunRow.identity = db.runs.map RunRow.identity ∨
      ∃ run, admitted = some run.runId ∧ db'.runs = db.runs ++ [run]) :
    Evolves admitted db db' := by
  refine ⟨?_, ?_, ?_, hids, hruns⟩
  · intro host row hrow
    by_cases hho : host = hostId
    · subst hho
      have hlt := hver row hrow
      refine ⟨⟨next.version, next⟩, by rw [hdes, update_self], hlt.le, ?_⟩
      intro heq
      have heq' : next.version = row.version := heq
      omega
    · exact ⟨row, by rw [hdes, update_of_ne hho, hrow], le_rfl, fun _ => rfl⟩
  · intro host row' hrow' vm hvm
    rw [hdes] at hrow'
    by_cases hho : host = hostId
    · subst hho
      rw [update_self] at hrow'
      cases hrow'
      exact hvms vm hvm
    · rw [update_of_ne hho] at hrow'
      exact .inr ⟨row', hrow', vm, hvm, .refl vm⟩
  · intro host row hrow hrow'
    refine hquos host ?_
    rintro rfl
    -- The version has changed, so the row cannot be the same.
    rw [hdes, update_self] at hrow'
    have hlt := hver row hrow
    cases hrow'
    exact absurd hlt (lt_irrefl _)

end

/-! ## Quotas -/

section

variable {p : CpuReservationRow → Bool}

theorem heldCpuMillis_update {f : CpuReservationRow → CpuReservationRow}
    (h : db'.cpuReservations = Table.update p f db.cpuReservations)
    (hho : ∀ row, (f row).hostId = row.hostId) (hcpu : ∀ row, (f row).cpuMillis = row.cpuMillis) :
    db'.heldCpuMillis hostId = db.heldCpuMillis hostId := by
  -- Both sums run over the pairs of host and amount, which stay.
  have hpairs : ∀ rows : List CpuReservationRow,
      ((rows.filter (·.hostId = hostId)).map CpuReservationRow.cpuMillis) =
        ((rows.map fun row => (row.hostId, row.cpuMillis)).filter (·.1 = hostId)).map Prod.snd := by
    intro _
    rw [filter_map, map_map]
    rfl
  have hmap : (Table.update p f db.cpuReservations).map (fun row => (row.hostId, row.cpuMillis)) =
      db.cpuReservations.map fun row => (row.hostId, row.cpuMillis) :=
    Table.map_update fun row => by rw [hho, hcpu]
  rw [Db.heldCpuMillis, Db.heldCpuMillis, h, hpairs, hmap, ← hpairs]

theorem heldCpuMillis_delete (hpos : ∀ row ∈ db.cpuReservations, 0 < row.cpuMillis)
    (h : db'.cpuReservations = Table.delete p db.cpuReservations) :
    db'.heldCpuMillis hostId ≤ db.heldCpuMillis hostId := by
  rw [Db.heldCpuMillis, Db.heldCpuMillis, h]
  refine List.Sublist.sum_le_sum ((filter_sublist.filter _).map _) ?_
  intro _ hcpu
  obtain ⟨row, hrow, rfl⟩ := mem_map.mp hcpu
  exact (hpos row (mem_of_mem_filter hrow)).le

end

/-! ## The rest of the program -/

section

variable {doc : DesiredState} {vm : DesiredVm}

theorem keepsVm_iff :
    keepsVm doc vm = true ↔ ∃ before ∈ doc.vms, vm = before ∨
      vm = { before with desiredPhase := .absent } := by
  simp [keepsVm]

theorem vmKept_of_keepsVm (h : keepsVm doc vm = true) : ∃ before ∈ doc.vms, VmKept before vm := by
  obtain ⟨before, hbef, hvm⟩ := keepsVm_iff.mp h
  refine ⟨before, hbef, ?_⟩
  rcases hvm with rfl | rfl
  · exact .refl _
  · exact ⟨rfl, rfl, fun hph => by cases hph⟩

theorem writesOver_iff :
    writesOver doc next = true ↔ next.version = doc.version + 1 ∧
      (∀ vm ∈ next.vms, keepsVm doc vm = true) ∧ (next.vms.map Host.desiredVmIdentity).Nodup := by
  simp [writesOver, and_assoc]

theorem tableIds_envStep (db : Db) (act : EnvAct) : (envStep db act).tableIds ⊆ db.tableIds := by
  cases act with
  | outside => exact List.Subset.refl _
  | writeDesired =>
    simp only [envStep]
    split
    · split
      · exact List.Subset.refl _
      · exact List.Subset.refl _
    · exact List.Subset.refl _
  | commitHostCpuReservation =>
    exact Db.IdsWithin.subset { cpu := Table.map_update_subset fun _ => rfl }
  | rollbackPendingHostCpuReservation | releaseHostCpuReservation =>
    exact Db.IdsWithin.subset
      { cpu := Table.map_delete_subset, resources := Table.map_update_subset fun _ => rfl }
  | syncScenarioRuntimeResourceReservation =>
    exact Db.IdsWithin.subset { resources := Table.map_update_subset fun _ => rfl }
  | projectRun =>
    exact Db.IdsWithin.subset { runs := Table.map_update_subset fun _ => rfl }
  | projectExecution =>
    exact Db.IdsWithin.subset { executions := Table.map_update_subset fun _ => rfl }
  | releaseSlot =>
    exact Db.IdsWithin.subset { slots := Table.map_delete_subset }

theorem identity_envStep (db : Db) (act : EnvAct) :
    (envStep db act).runs.map RunRow.identity = db.runs.map RunRow.identity := by
  cases act with
  | writeDesired =>
    simp only [envStep]
    split
    · split
      · rfl
      · rfl
    · rfl
  | projectRun => exact Table.map_update fun _ => rfl
  | _ => rfl

/-- **What the rest of the program does.** -/
theorem evolves_envStep (hdocs : db.NormalDocs)
    (hpos : ∀ row ∈ db.cpuReservations, 0 < row.cpuMillis) (act : EnvAct) :
    Evolves none db (envStep db act) := by
  have hids := tableIds_envStep db act
  have hruns := identity_envStep db act
  cases act with
  | writeDesired hostId =>
    simp only [envStep] at hids hruns ⊢
    split
    · rename_i row hrow
      split
      · rename_i hwrs
        obtain ⟨_, hvms, -⟩ := writesOver_iff.mp hwrs
        refine evolves_setDesired ?_ ?_ rfl (fun _ _ => le_rfl) (fun _ h => .inr h) (.inl rfl)
        · intro _ hrow'
          rw [hrow] at hrow'
          cases hrow'
          have hdoc := (hdocs hostId row hrow).1
          omega
        · intro vm hvm
          exact .inr ⟨row, hrow, vmKept_of_keepsVm (hvms vm hvm)⟩
      · exact .refl db
    · exact .refl db
  | commitHostCpuReservation =>
    refine evolves_of_desired_eq rfl (fun host => ?_) hids hruns
    apply le_of_eq
    apply heldCpuMillis_update
    · exact rfl
    · exact fun _ => rfl
    · exact fun _ => rfl
  | rollbackPendingHostCpuReservation | releaseHostCpuReservation =>
    exact evolves_of_desired_eq rfl (fun _ => heldCpuMillis_delete hpos rfl) hids hruns
  | _ => exact evolves_of_desired_eq rfl (fun _ => le_rfl) hids hruns

end

/-! ## What every state keeps -/

/-- The database is in order: documents in normal form, the constraints of the tables, and no active
key that is not the user's. -/
structure Db.Sound (db : Db) : Prop where
  docs : db.NormalDocs
  constraints : db.Constraints
  active : ∀ run ∈ db.runs, ∀ key, run.activeKey = some key → key = run.userId

section

theorem Db.NormalDocs.setDesired (h : db.NormalDocs) (hostId : String)
    (hnd : (next.vms.map Host.desiredVmIdentity).Nodup) :
    (db.setDesired hostId ⟨next.version, next⟩).NormalDocs := by
  intro host row hrow
  by_cases hho : host = hostId
  · subst hho
    rw [setDesired_self] at hrow
    cases hrow
    exact ⟨rfl, hnd⟩
  · rw [setDesired_of_ne hho] at hrow
    exact h host row hrow

theorem Db.Sound.setDesired (h : db.Sound) (hostId : String)
    (hnd : (next.vms.map Host.desiredVmIdentity).Nodup) :
    (db.setDesired hostId ⟨next.version, next⟩).Sound :=
  ⟨h.docs.setDesired hostId hnd, ⟨h.constraints.runs, h.constraints.cpuPositive⟩, h.active⟩

/-- What an update of a run keeps: its keys, except that it may give up the active key. -/
structure KeepsKeys (run run' : RunRow) : Prop where
  runId : run'.runId = run.runId
  userId : run'.userId = run.userId
  requestIdempotencyKey : run'.requestIdempotencyKey = run.requestIdempotencyKey
  runtimeExecutionId : run'.runtimeExecutionId = run.runtimeExecutionId
  activeKey : run'.activeKey = run.activeKey ∨ run'.activeKey = none

theorem KeepsKeys.project (run new : RunRow) : KeepsKeys run (run.project new) := by
  refine ⟨rfl, rfl, rfl, rfl, ?_⟩
  rw [RunRow.project]
  split
  · exact .inl rfl
  · exact .inr rfl

variable {runs : List RunRow} {p : RunRow → Bool} {f : RunRow → RunRow}

theorem respects_update_runs (h : Table.Respects runIndexes runs)
    (hf : ∀ run, KeepsKeys run (f run)) :
    Table.Respects runIndexes (Table.update p f runs) := by
  refine h.update ?_
  have hkeep : ∀ run : RunRow, KeepsKeys run (if p run then f run else run) := by
    intro run
    split
    · exact hf run
    · exact ⟨rfl, rfl, rfl, rfl, .inl rfl⟩
  intro i hi a b hcol
  have ha := hkeep a
  have hb := hkeep b
  simp only [runIndexes, mem_cons, not_mem_nil, or_false] at hi
  rcases hi with rfl | rfl | rfl | rfl
  · simpa only [ha.runId, hb.runId] using hcol
  · rcases ha.activeKey with hkey | hkey
    · rcases hb.activeKey with hkey' | hkey'
      · simpa only [hkey, hkey'] using hcol
      · simp [hkey', sameValue_none_right]
    · simp [hkey, sameValue]
  · simpa only [ha.userId, hb.userId, ha.requestIdempotencyKey, hb.requestIdempotencyKey] using hcol
  · simpa only [ha.runtimeExecutionId, hb.runtimeExecutionId] using hcol

theorem active_update_runs (h : ∀ run ∈ runs, ∀ key, run.activeKey = some key → key = run.userId)
    (hf : ∀ run, KeepsKeys run (f run)) :
    ∀ run ∈ Table.update p f runs, ∀ key, run.activeKey = some key → key = run.userId := by
  intro _ hrun key hkey
  obtain ⟨old, hold, rfl⟩ := Table.mem_update.mp hrun
  split at hkey
  · rename_i hp
    rw [if_pos hp, (hf old).userId]
    rcases (hf old).activeKey with hsm | hno
    · exact h old hold key (hsm ▸ hkey)
    rw [hno] at hkey
    cases hkey
  · rename_i hp
    rw [if_neg hp]
    exact h old hold key hkey

theorem sound_envStep (h : db.Sound) (act : EnvAct) : (envStep db act).Sound := by
  obtain ⟨hdocs, ⟨hruns, hpos⟩, hact⟩ := h
  have hdelete : ∀ p : CpuReservationRow → Bool, ∀ row ∈ Table.delete p db.cpuReservations,
      0 < row.cpuMillis :=
    fun p row hrow => hpos row (Table.mem_delete.mp hrow).1
  cases act with
  | writeDesired hostId =>
    simp only [envStep]
    split
    · split
      · rename_i hwrs
        exact ⟨hdocs.setDesired hostId (writesOver_iff.mp hwrs).2.2, ⟨hruns, hpos⟩, hact⟩
      · exact ⟨hdocs, ⟨hruns, hpos⟩, hact⟩
    · exact ⟨hdocs, ⟨hruns, hpos⟩, hact⟩
  | commitHostCpuReservation =>
    refine ⟨hdocs, ⟨hruns, fun row hrow => ?_⟩, hact⟩
    obtain ⟨old, hold, rfl⟩ := Table.mem_update.mp hrow
    split
    · exact hpos old hold
    · exact hpos old hold
  | rollbackPendingHostCpuReservation | releaseHostCpuReservation =>
    exact ⟨hdocs, ⟨hruns, hdelete _⟩, hact⟩
  | projectRun _ new =>
    exact ⟨hdocs, ⟨respects_update_runs hruns fun run => .project run new, hpos⟩,
      active_update_runs hact fun run => .project run new⟩
  | _ => exact ⟨hdocs, ⟨hruns, hpos⟩, hact⟩

end

/-! ## What a start writes -/

section

variable {localeCompare : String → String → Ordering} {parseReport : String → Json}
  {current : DesiredState} {now dbNow : Millis}

/-- A load returns the document that is stored then. -/
theorem loadOrCreateDesired_spec {host : Option Host.AgentHost}
    {result : Except String DesiredState} (hsnd : db.Sound)
    (h : db.loadOrCreateDesired hostId host now = (db', result)) :
    Evolves none db db' ∧ db'.Sound ∧
      ∀ current, result = .ok current → db'.desired hostId = some ⟨current.version, current⟩ := by
  rw [Db.loadOrCreateDesired] at h
  split at h
  · cases h
    exact ⟨.refl db, hsnd, fun current hcur => by cases hcur⟩
  rename_i scope owner hown
  split at h
  · rename_i hrow
    cases h
    refine ⟨.refl db, hsnd, fun current hcur => ?_⟩
    rw [hrow, Host.checkLoaded_eq_ok hcur]
  rename_i hno
  cases h
  refine ⟨?_, hsnd.setDesired hostId nodup_nil, ?_⟩
  · refine evolves_setDesired ?_ ?_ rfl (fun _ _ => le_rfl) (fun _ h => .inr h) (.inl rfl)
    · intro _ hrow
      rw [hno] at hrow
      cases hrow
    · intro _ hvm
      cases hvm
  · intro _ hcur
    cases hcur
    exact setDesired_self

/-- The mutator of an admission sets the VMs of the run. -/
theorem vms_admissionMutator (draft : Draft) (doc : DesiredState) :
    ∃ doc', admissionMutator draft doc = .ok doc' ∧
      doc'.vms = Keyed.setAll Host.desiredVmIdentity draft.desiredVms doc.vms := by
  refine ⟨_, rfl, ?_⟩
  -- Only the upsert of a VM touches the VMs.
  have hfold : ∀ (vms : List DesiredVm) (doc : DesiredState),
      (vms.foldl (fun doc vm => Host.upsertDesiredVm vm
        (Host.upsertDesiredCachedImage ⟨vm.imageKey, vm.imageId⟩ doc)) doc).vms =
        Keyed.setAll Host.desiredVmIdentity vms doc.vms := by
    intro vms
    induction vms with
    | nil => exact fun _ => rfl
    | cons _ _ ih =>
      intro _
      rw [foldl_cons, ih]
      rfl
  rw [hfold]
  rfl

section

variable {input : CommitInput} {vms : List (RuntimeVmSpec × EncryptedKey)}

theorem tableIds_admitRun (hwf : input.draft.WellFormed) {runId : String}
    (h : runId ∈ (db.admitRun input vms).tableIds) :
    input.run.runId = runId ∨ runId ∈ db.tableIds := by
  have hkeys : ∀ key ∈ input.draft.sshKeyRows, key.runId = input.run.runId := hwf.sshKeys
  by_cases hrun : input.run.runId = runId
  · exact .inl hrun
  refine .inr ?_
  -- Every new row has the id of the run.
  have hne : ¬ runId = input.run.runId := fun h => hrun h.symm
  have hown : ¬ ∃ key, key ∈ input.draft.sshKeyRows ∧ key.runId = runId := by
    rintro ⟨key, hkey, rfl⟩
    exact hrun (hkeys key hkey).symm
  have hvms : ¬ ∃ vm, (∃ vm', vm' ∈ vms ∧ input.runtimeVmRow vm'.1 = vm) ∧
      vm.executionId = runId := by
    rintro ⟨-, ⟨_, -, rfl⟩, rfl⟩
    exact hrun rfl
  have haccess : ¬ ∃ key, (∃ vm', vm' ∈ vms ∧ input.accessKeyRow vm'.1 vm'.2 = key) ∧
      key.executionId = runId := by
    rintro ⟨-, ⟨_, -, rfl⟩, rfl⟩
    exact hrun rfl
  have hexec : input.execution.domainId = input.run.runId := rfl
  have hcpu : input.cpuReservation.runId = input.run.runId := rfl
  have hrsc : (input.resourceReservation input.run.runId).executionId = input.run.runId := rfl
  simp only [Db.tableIds, Db.admitRun, Db.setDesired, map_append, mem_append,
    map_cons, map_nil, mem_singleton, mem_map, hexec, hcpu, hrsc,
    hne, hown, hvms, haccess, or_false] at h ⊢
  exact h

/-- **An admission** is a new version of the desired state it was planned for, with the VMs of the
run. -/
theorem evolves_admitRun (input : CommitInput) (hwf : input.draft.WellFormed)
    (hdes : ∀ vm ∈ input.draft.desiredVms, vm.runId = input.run.runId)
    (hrow : db.desired input.run.hostId = some ⟨current.version, current⟩)
    (hnx : Host.mutateDesiredState localeCompare current (admissionMutator input.draft) now =
      .ok (some input.desired.next)) :
    Evolves (some input.run.runId) db (db.admitRun input vms) := by
  have hver := (Host.changes_of_mutateDesiredState hnx).version
  refine evolves_setDesired ?_ ?_ rfl ?_ ?_ (.inr ⟨input.run, rfl, rfl⟩)
  · intro _ hrow'
    rw [hrow] at hrow'
    cases hrow'
    have hlt : current.version < input.desired.next.version := by omega
    exact hlt
  · intro vm hvm
    obtain ⟨_, hdoc, hvms⟩ := Host.vms_of_mutateDesiredState hnx
    obtain ⟨_, hdoc', hset⟩ := vms_admissionMutator input.draft current
    rw [hdoc'] at hdoc
    cases hdoc
    rw [hvms, hset] at hvm
    rcases Keyed.mem_of_mem_setAll (Host.mem_of_mem_normalizeList hvm) with hvm | hvm
    · exact .inl (by rw [hdes vm hvm])
    · exact .inr ⟨_, hrow, vm, hvm, .refl vm⟩
  · intro host hho
    have ho : (db.admitRun input vms).heldCpuMillis host = db.heldCpuMillis host := by
      have hne : ¬ input.cpuReservation.hostId = host := fun h => hho h.symm
      simp [Db.heldCpuMillis, Db.admitRun, hne]
    exact ho.le
  · intro _ h
    exact (tableIds_admitRun hwf h).imp_left (congrArg some)

theorem sound_admitRun (hsnd : db.Sound) (hwf : input.draft.WellFormed)
    (hadm : Admission parseReport db input dbNow vms)
    (hnx : Host.mutateDesiredState localeCompare current (admissionMutator input.draft) now =
      .ok (some input.desired.next)) : (db.admitRun input vms).Sound := by
  have hnd : (input.desired.next.vms.map Host.desiredVmIdentity).Nodup := by
    obtain ⟨_, -, hvms⟩ := Host.vms_of_mutateDesiredState hnx
    rw [hvms]
    exact Host.nodup_normalizeList
  have hdocs := hsnd.docs.setDesired input.run.hostId hnd
  refine ⟨hdocs, ⟨hsnd.constraints.runs.insertUnder hadm.unique, ?_⟩, ?_⟩
  · intro row hrow
    rcases mem_append.mp hrow with hrow | hrow
    · exact hsnd.constraints.cpuPositive row hrow
    rw [mem_singleton.mp hrow]
    exact hadm.cpu
  · intro run hrun key hkey
    rcases mem_append.mp hrun with hrun | hrun
    · exact hsnd.active run hrun key hkey
    rw [mem_singleton.mp hrun] at hkey ⊢
    exact Option.some.inj (hkey.symm.trans hwf.active)

end

/-! ## What a cancel writes -/

section

variable {input : CancelInput}

/-- The names of the VMs that a cancel takes down. -/
def CancelInput.names (input : CancelInput) : List String :=
  input.teardownVms.map RunVmStateDocument.runtimeVmName

/-- The mutator of a cancel stops exactly the VMs to be taken down. -/
theorem vms_cancelMutator (input : CancelInput) {doc : DesiredState}
    (hnd : (doc.vms.map Host.desiredVmIdentity).Nodup) :
    ∃ doc', cancelMutator input doc = .ok doc' ∧
      doc'.vms = doc.vms.map (Host.stopVm input.runId input.names) := by
  refine ⟨_, rfl, ?_⟩
  have hfold : ∀ (vms : List RunVmStateDocument) (doc : DesiredState),
      (doc.vms.map Host.desiredVmIdentity).Nodup →
      (vms.foldl (fun draft vm => (Host.markDesiredVmAbsent input.runId vm.runtimeVmName draft).1)
        doc).vms =
        doc.vms.map (Host.stopVm input.runId (vms.map RunVmStateDocument.runtimeVmName)) := by
    intro vms
    induction vms with
    | nil =>
      intro _ _
      rw [map_nil, Host.stopVm_nil, map_id]
      rfl
    | cons vm _ ih =>
      intro _ hnd
      have hmark := Host.vms_markDesiredVmAbsent input.runId vm.runtimeVmName hnd
      rw [foldl_cons, ih _ (by rwa [hmark, Host.map_identity_stopVm]), hmark, map_map,
        Host.stopVm_comp, map_cons]
  exact hfold _ _ hnd

theorem vmKept_stopVm (runId : String) (names : List String) (vm : DesiredVm) :
    VmKept vm (Host.stopVm runId names vm) := by
  rw [Host.stopVm]
  split
  · exact ⟨rfl, rfl, fun h => by cases h⟩
  · exact .refl vm

theorem evolves_cancelRun (input : CancelInput) (now : Millis) :
    Evolves none db (db.cancelRun input now) :=
  evolves_of_desired_eq rfl (fun _ => le_rfl)
    (Db.IdsWithin.subset { runs := Table.map_update_subset fun _ => rfl })
    (Table.map_update fun _ => rfl)

theorem sound_cancelRun (h : db.Sound) (input : CancelInput) (now : Millis) :
    (db.cancelRun input now).Sound :=
  have hkp : ∀ run : RunRow, KeepsKeys run (run.cancelled now) :=
    fun _ => ⟨rfl, rfl, rfl, rfl, .inl rfl⟩
  ⟨h.docs, ⟨respects_update_runs h.constraints.runs hkp, h.constraints.cpuPositive⟩,
    active_update_runs h.active hkp⟩

/-- A cancel that goes through stops VMs, or only moves the run. -/
theorem evolves_cancelStatements {next : Option DesiredState} {ns : List Nat} {time : Millis}
    (hsnd : db.Sound)
    (hrd : ∀ row, db.desired input.hostId = some row → row.version = current.version →
      row.doc = current)
    (hnx : Host.mutateDesiredState localeCompare current (cancelMutator input) now = .ok next)
    (h : Batch.exec (cancelStatements input current next time) db = .ok (db', ns)) :
    Evolves none db db' ∧ db'.Sound := by
  cases next with
  | none =>
    rw [exec_cancelStatements_none h]
    exact ⟨evolves_cancelRun input time, sound_cancelRun hsnd input time⟩
  | some next =>
    rcases exec_cancelStatements_some h with ⟨hlands, rfl⟩ | ⟨-, rfl, -⟩
    · obtain ⟨row, hrow, hver⟩ := (Option.any_eq_true _ _).mp hlands.1
      have hver := of_decide_eq_true hver
      have hdoc := hrd row hrow hver
      have hnd := (hsnd.docs input.hostId row hrow).2
      rw [hdoc] at hnd
      obtain ⟨_, hdoc', hvms⟩ := Host.vms_of_mutateDesiredState hnx
      obtain ⟨_, hdoc'', hstp⟩ := vms_cancelMutator input hnd
      rw [hdoc''] at hdoc'
      cases hdoc'
      have hchge := (Host.changes_of_mutateDesiredState hnx).version
      have hsnd' : (db.setDesired input.hostId ⟨next.version, next⟩).Sound := by
        refine hsnd.setDesired input.hostId ?_
        rw [hvms]
        exact Host.nodup_normalizeList
      refine ⟨?_, sound_cancelRun hsnd' input time⟩
      refine evolves_setDesired ?_ ?_ rfl (fun _ _ => le_rfl)
        (fun runId h => (evolves_cancelRun input time).ids runId h) (evolves_cancelRun input time).runs
      · intro _ hrow'
        rw [hrow] at hrow'
        cases hrow'
        omega
      · intro _ hvm
        rw [hvms, hstp] at hvm
        obtain ⟨before, hbef, rfl⟩ := mem_map.mp (Host.mem_of_mem_normalizeList hvm)
        exact .inr ⟨row, hrow, before, hdoc ▸ hbef, vmKept_stopVm _ _ before⟩
    · exact ⟨evolves_cancelRun input time, sound_cancelRun hsnd input time⟩

end

end

end Intar.Runs
