import Intar.Runs.AdmissionStep

/-!
# What a cancel leaves running

A cancel is to move its run to teardown and to stop the VMs of the run in one transaction.  The batch
makes sure of it with a compare-and-set on the version of the desired state and a sentinel that asks
whether the stored version is the one that the batch publishes.

That is not whether the compare-and-set landed.  When another writer has published exactly one
version since the cancel has loaded the document, the version is there, although it is the other
writer's document that is stored under it; the batch goes through, and the VMs stay
(`exec_cancelStatements_of_overtaken`).  This is the only way to fail: `stopped_iff_of_moves` is the
exact condition for one step, and `cancels_stop_iff` for whole runs.
-/

namespace Intar.Runs

open Batch

open Host (Millis DesiredState DesiredRow DesiredVm)
open List Option

/-! ## Cancels in the system -/

/-- The action sends the batch of a cancel that has loaded the document. -/
def Cancelling (s : State) (act : Act) (input : CancelInput) (current : DesiredState) : Prop :=
  ∃ id answer start draft attempt now hostId error next, act = .advance id answer ∧
    s.starts id = some start ∧
    start.phase = .admitting draft (.cancelWriting attempt now hostId error current next) ∧
    input = draft.cancelInput hostId

/-- The run goes from provisioning to teardown. -/
def Moves (db db' : Db) (runId : String) : Prop :=
  (∃ run ∈ db.runs, run.runId = runId ∧ run.state = .provisioning) ∧
    ∃ run ∈ db'.runs, run.runId = runId ∧ run.state = .teardownRequested

/-- Since the document was loaded, exactly one version was published, and it still has a VM running
that the cancel is to take down. -/
def Db.Overtaken (db : Db) (input : CancelInput) (current : DesiredState) : Prop :=
  ∃ row, db.desired input.hostId = some row ∧ row.version = current.version + 1 ∧
    ∃ vm ∈ row.doc.vms, vm.runId = input.runId ∧ vm.vmName ∈ input.names ∧
      vm.desiredPhase = .running

variable {input : CancelInput} {current : DesiredState}

section

variable {localeCompare : String → String → Ordering} {db db' : Db} {next : DesiredState}
  {now time : Millis}

theorem not_overtaken_of_stopped (h : db.Stopped input.hostId input.runId input.names) :
    ¬ db.Overtaken input current := by
  rintro ⟨row, hrow, -, vm, hvm, hrun, hnm, hup⟩
  exact h row hrow vm hvm hrun hnm hup

/-- What a cancel publishes has stopped the VMs. -/
theorem stopped_of_published (hnd : (current.vms.map Host.desiredVmIdentity).Nodup)
    (hnx : Host.mutateDesiredState localeCompare current (cancelMutator input) now =
      .ok (some next)) {vm : DesiredVm} (hvm : vm ∈ next.vms) (hrun : vm.runId = input.runId)
    (hnm : vm.vmName ∈ input.names) : vm.desiredPhase = .absent := by
  obtain ⟨_, hdr, hvms⟩ := Host.vms_of_mutateDesiredState hnx
  obtain ⟨_, hdr', hstp⟩ := vms_cancelMutator input hnd
  rw [hdr'] at hdr
  cases hdr
  rw [hvms, hstp] at hvm
  exact absent_of_mem_stopVm (Host.mem_of_mem_normalizeList hvm) hrun hnm

/-- Only a row that the cancel is for can move. -/
theorem Moves.exists_cancels (hcs : db.Constraints)
    (hruns : db'.runs = Table.update input.cancels (·.cancelled time) db.runs)
    (h : Moves db db' input.runId) : ∃ run ∈ db.runs, input.cancels run = true := by
  obtain ⟨⟨_, hrun, hid, hsta⟩, _, hrun', hid', hsta'⟩ := h
  rw [hruns] at hrun'
  obtain ⟨old, hold, rfl⟩ := Table.mem_update.mp hrun'
  split at hid'
  · rename_i hcans
    exact ⟨old, hold, hcans⟩
  rename_i hcans
  rw [if_neg hcans] at hsta'
  rw [hcs.eq_of_runId hrun hold (hid.trans hid'.symm), hsta'] at hsta
  cases hsta

theorem not_moves_self (hcs : db.Constraints) {runId : String} : ¬ Moves db db runId := by
  rintro ⟨⟨_, hrun, hid, hsta⟩, _, hrun', hid', hsta'⟩
  rw [hcs.eq_of_runId hrun hrun' (hid.trans hid'.symm), hsta'] at hsta
  cases hsta

/-- **The sentinel does not fire** on the version of another writer. -/
theorem exec_cancelStatements_of_overtaken (hver : next.version = current.version + 1)
    (h : db.Overtaken input current) :
    ∃ ns, exec (cancelStatements input current (some next) time) db =
      .ok (db.cancelRun input time, ns) := by
  obtain ⟨_, hrow, hrowVersion, -⟩ := h
  have hmissed : cancelDesiredStateStatement input current.version next db = .ok (db, 0) := by
    rw [cancelDesiredStateStatement, if_neg]
    rw [hrow, any_some, hrowVersion]
    simp
  have hsto : (db.desired input.hostId).any (·.version = next.version) = true := by
    rw [hrow, any_some, hrowVersion, hver]
    simp
  have hsil : cancelSentinelStatement input next.version (db.cancelRun input time) =
      .ok (db.cancelRun input time, 0) := by
    have hdes : (db.cancelRun input time).desired = db.desired := rfl
    rw [cancelSentinelStatement, insertForRun]
    simp only [hdes, hsto, Bool.not_true]
    cases (db.cancelRun input time).findRun input.runId with
    | none | some => rfl
  exact ⟨_, exec_cons_eq_ok.mpr ⟨db, 0, _, hmissed, exec_cons_eq_ok.mpr
    ⟨db.cancelRun input time, _, _, rfl, exec_cons_eq_ok.mpr
      ⟨db.cancelRun input time, 0, [], hsil, rfl, rfl⟩, rfl⟩, rfl⟩⟩

/-! ## One step -/

/-- A batch that moves the run stops its VMs, unless it was overtaken. -/
theorem stopped_iff_of_exec {next : Option DesiredState} {ns : List Nat} (hsnd : db.Sound)
    (hrd : db.Read input.hostId current)
    (hnx : Host.mutateDesiredState localeCompare current (cancelMutator input) now = .ok next)
    (hstp : next = none → db.Stopped input.hostId input.runId input.names)
    (hrun : ∃ run ∈ db.runs, input.cancels run = true)
    (h : exec (cancelStatements input current next time) db = .ok (db', ns)) :
    db'.Stopped input.hostId input.runId input.names ↔ ¬ db.Overtaken input current := by
  cases next with
  | none =>
    rw [exec_cancelStatements_none h]
    have hstp := hstp rfl
    exact ⟨fun _ => not_overtaken_of_stopped hstp, fun _ => hstp⟩
  | some next =>
    have hver := (Host.changes_of_mutateDesiredState hnx).version
    obtain ⟨row, hrow, -, hdoc⟩ := hrd
    rcases exec_cancelStatements_some h with ⟨hlands, rfl⟩ | ⟨-, rfl, hno | hsto⟩
    · -- The document that was loaded is the stored one, and the new one is stored now.
      have hcur : row.version = current.version := by
        have hany := hlands.1
        rw [hrow, any_some] at hany
        exact of_decide_eq_true hany
      have hnd := (hsnd.docs input.hostId row hrow).2
      rw [hdoc hcur] at hnd
      refine ⟨fun _ => ?_, fun _ => ?_⟩
      · rintro ⟨_, hrow', _, -⟩
        rw [hrow] at hrow'
        cases hrow'
        omega
      intro row' hrow' _ hvm hvmRun hvmName hup
      have hpublished : row' = ⟨next.version, next⟩ := by
        have hset : some row' = some ⟨next.version, next⟩ := hrow'.symm.trans setDesired_self
        exact Option.some.inj hset
      rw [hpublished] at hvm
      rw [stopped_of_published hnd hnx hvm hvmRun hvmName] at hup
      cases hup
    · obtain ⟨run, hrun, hcans⟩ := hrun
      rw [findRun_eq_none] at hno
      simp only [CancelInput.cancels, Bool.and_eq_true, decide_eq_true_eq] at hcans
      exact absurd hcans.1.1.1 (hno run hrun)
    -- Another writer's document is stored, and it stays.
    have hnextVersion : row.version = current.version + 1 := by
      rw [hrow, any_some] at hsto
      rw [of_decide_eq_true hsto, hver]
    refine ⟨not_overtaken_of_stopped, fun hnot row' hrow' vm hvm hvmRun hvmName hup => ?_⟩
    have hsm : some row = some row' := hrow.symm.trans hrow'
    cases hsm
    exact hnot ⟨row, hrow, hnextVersion, vm, hvm, hvmRun, hvmName, hup⟩

end

section

variable {localeCompare : String → String → Ordering} {parseReport : String → Json}
  {parseManifest : String → Option CandidateManifest} {s : State} {act : Act}

variable (h : Inv localeCompare parseReport parseManifest s)

include h

variable (hcanc : Cancelling s act input current)

include hcanc

/-- What the invariant says about a cancel, and what its step does to the database. -/
theorem Cancelling.spec :
    ∃ now next, s.db.Read input.hostId current ∧
      Host.mutateDesiredState localeCompare current (cancelMutator input) now = .ok next ∧
      (next = none → s.db.Stopped input.hostId input.runId input.names) ∧
      ((∃ ns, exec (cancelStatements input current next now) s.db =
          .ok ((step localeCompare parseReport parseManifest s act).db, ns)) ∨
        (∃ e, exec (cancelStatements input current next now) s.db = .error e) ∧
          (step localeCompare parseReport parseManifest s act).db = s.db) := by
  obtain ⟨id, answer, start, draft, attempt, now, hostId, error, next, rfl, hst, hph, rfl⟩ := hcanc
  have hinv := (h.starts id start hst).phase
  rw [hph] at hinv
  obtain ⟨hrd, hnx, hstp⟩ := hinv.2.2.2
  have hdb : (step localeCompare parseReport parseManifest s (.advance id answer)).db =
      (cancelWrite s.db draft attempt now hostId error current next).1 := by
    simp only [step, hst, advance, hph, advanceAdmission]
    rfl
  refine ⟨now, next, hrd, hnx, hstp, ?_⟩
  rw [hdb, cancelWrite]
  split
  · rename_i ns hexec
    exact .inl ⟨ns, hexec⟩
  · rename_i hexec
    exact .inr ⟨⟨_, hexec⟩, rfl⟩
  · rename_i e _ hexec
    exact .inr ⟨⟨e, hexec⟩, rfl⟩

/-- **The exact condition**, for one step. -/
theorem stopped_iff_of_moves
    (hmv : Moves s.db (step localeCompare parseReport parseManifest s act).db input.runId) :
    (step localeCompare parseReport parseManifest s act).db.Stopped input.hostId input.runId
      input.names ↔ ¬ s.db.Overtaken input current := by
  obtain ⟨_, _, hrd, hnx, hstp, ⟨_, hexec⟩ | ⟨-, hdb⟩⟩ := hcanc.spec h
  · have hrun := Moves.exists_cancels h.sound.constraints (runs_of_exec_cancelStatements hexec) hmv
    exact stopped_iff_of_exec h.sound hrd hnx hstp hrun hexec
  · rw [hdb] at hmv
    exact absurd hmv (not_moves_self h.sound.constraints)

/-- A cancel that was overtaken moves the run. -/
theorem moves_of_overtaken {run : RunRow} (hrun : run ∈ s.db.runs)
    (hcans : input.cancels run = true) (hovt : s.db.Overtaken input current) :
    Moves s.db (step localeCompare parseReport parseManifest s act).db input.runId := by
  obtain ⟨now, next, _, hnx, hstop, hstp⟩ := hcanc.spec h
  cases next with
  | none => exact absurd hovt (not_overtaken_of_stopped (hstop rfl))
  | some =>
    have hver := (Host.changes_of_mutateDesiredState hnx).version
    obtain ⟨_, hexec⟩ := exec_cancelStatements_of_overtaken hver hovt
    rcases hstp with ⟨_, hexec'⟩ | ⟨⟨_, hexec'⟩, _⟩
    · rw [hexec, Except.ok.injEq, Prod.mk.injEq] at hexec'
      have hkeys := hcans
      simp only [CancelInput.cancels, Bool.and_eq_true, decide_eq_true_eq] at hkeys
      rw [← hexec'.1]
      refine ⟨⟨run, hrun, hkeys.1.1.1, hkeys.2⟩, run.cancelled now, ?_, hkeys.1.1.1, rfl⟩
      exact Table.mem_update.mpr ⟨run, hrun, if_pos hcans⟩
    · rw [hexec] at hexec'
      cases hexec'

end

/-! ## Whole runs -/

section

variable (localeCompare : String → String → Ordering) (parseReport : String → Json)
  (parseManifest : String → Option CandidateManifest)

/-- If the action is a cancel that moves its run, no VM of the run is to run afterwards. -/
def CancelStops (s : State) (act : Act) : Prop :=
  ∀ input current, Cancelling s act input current →
    Moves s.db (step localeCompare parseReport parseManifest s act).db input.runId →
    (step localeCompare parseReport parseManifest s act).db.Stopped input.hostId input.runId
      input.names

end

/-- A cancel of a run that is being provisioned was not overtaken. -/
def NotOvertaken (s : State) (act : Act) : Prop :=
  ∀ input current, Cancelling s act input current →
    (∃ run ∈ s.db.runs, input.cancels run = true) → ¬ s.db.Overtaken input current

/-- **Cancels stop what they take down** exactly in the runs in which none of them is overtaken. -/
theorem cancels_stop_iff {localeCompare : String → String → Ordering} {parseReport : String → Json}
    {parseManifest : String → Option CandidateManifest} {s₀ : State} (hinit : Initial s₀)
    (acts : List Act) :
    Trace.Along (step localeCompare parseReport parseManifest)
        (CancelStops localeCompare parseReport parseManifest) s₀ acts ↔
      Trace.Along (step localeCompare parseReport parseManifest) NotOvertaken s₀ acts := by
  constructor
  · intro h before act after hsp input current hcanc hrun hovt
    have hinv : Inv localeCompare parseReport parseManifest _ := inv_run hinit before
    obtain ⟨_, hrun, hcans⟩ := hrun
    have hmv := moves_of_overtaken hinv hcanc hrun hcans hovt
    have hstp := h before act after hsp input current hcanc hmv
    exact (stopped_iff_of_moves hinv hcanc hmv).mp hstp hovt
  · intro h before act after hsp input current hcanc hmv
    have hinv : Inv localeCompare parseReport parseManifest _ := inv_run hinit before
    refine (stopped_iff_of_moves hinv hcanc hmv).mpr ?_
    refine h before act after hsp input current hcanc ?_
    obtain ⟨_, _, -, -, -, ⟨_, hexec⟩ | ⟨-, hdb⟩⟩ := hcanc.spec hinv
    · exact hmv.exists_cancels hinv.sound.constraints (runs_of_exec_cancelStatements hexec)
    rw [hdb] at hmv
    exact absurd hmv (not_moves_self hinv.sound.constraints)

instance (db db' : Db) (runId : String) : Decidable (Moves db db' runId) :=
  inferInstanceAs (Decidable (_ ∧ _))

instance (db : Db) (hostId runId : String) (names : List String) :
    Decidable (db.Stopped hostId runId names) :=
  decidable_of_iff (∀ row ∈ db.desired hostId, ∀ vm ∈ row.doc.vms, vm.runId = runId →
    vm.vmName ∈ names → vm.desiredPhase ≠ .running) Iff.rfl

/-! ## A cancel that is overtaken -/

namespace Small

/-- Another writer publishes the next version, with the same VMs. -/
def overtake : Act :=
  .env (.writeDesired "h1" (match (run (planning ++ [committing])).db.desired "h1" with
    | some row => { row.doc with version := row.doc.version + 1 }
    | none => Host.createEmptyHostDesiredState "h1" .platform "ops" 0))

/-- The cancel that the start is about to write. -/
def cancelOf (s : State) : Option (CancelInput × DesiredState) :=
  match s.starts 0 with
  | some ⟨_, .admitting draft (.cancelWriting _ _ hostId _ current _), _, _⟩ =>
    some (draft.cancelInput hostId, current)
  | _ => none

set_option maxRecDepth 10000 in
theorem run_overtaken :
    (cancelOf (run (cancelLoaded ++ [overtake]))).any (fun cancel =>
      Moves (run (cancelLoaded ++ [overtake])).db (run (cancelLoaded ++ [overtake, cancelling])).db
        cancel.1.runId ∧
      ¬ (run (cancelLoaded ++ [overtake, cancelling])).db.Stopped cancel.1.hostId cancel.1.runId
        cancel.1.names) = true := by
  decide +kernel

theorem cancelling_of_cancelOf {s : State} {cancel : CancelInput × DesiredState}
    (h : cancelOf s = some cancel) : Cancelling s cancelling cancel.1 cancel.2 := by
  rw [cancelOf] at h
  split at h
  · rename_i draft attempt now hostId error _ next _ _ hst
    cases h
    exact ⟨0, answer, _, draft, attempt, now, hostId, error, next, rfl, hst, rfl, rfl⟩
  · cases h

theorem not_cancelStops : ¬ CancelStops Js.compareUnits (fun _ => report) (fun _ => none)
    (run (cancelLoaded ++ [overtake])) cancelling := by
  intro hstp
  obtain ⟨cancel, hcanc, hfct⟩ := (any_eq_true _ _).mp run_overtaken
  obtain ⟨hmv, hnot⟩ := of_decide_eq_true hfct
  have hstep : step (run (cancelLoaded ++ [overtake])) cancelling =
      run (cancelLoaded ++ [overtake, cancelling]) := by
    rw [run_concat, append_assoc, singleton_append]
  rw [← hstep] at hmv hnot
  exact hnot (hstp cancel.1 cancel.2 (cancelling_of_cancelOf hcanc) hmv)

/-- In this run a cancel moves its run to teardown and leaves its VM to run. -/
theorem not_along_cancelStops :
    ¬ Trace.Along step (CancelStops Js.compareUnits (fun _ => report) (fun _ => none)) initial
      (cancelLoaded ++ [overtake, cancelling]) := by
  intro h
  refine not_cancelStops (h (cancelLoaded ++ [overtake]) cancelling [] ?_)
  rw [append_assoc, singleton_append]

theorem not_along_notOvertaken :
    ¬ Trace.Along step NotOvertaken initial (cancelLoaded ++ [overtake, cancelling]) := by
  intro h
  have hstp := (cancels_stop_iff initial_initial _).mpr h
  refine not_cancelStops (hstp (cancelLoaded ++ [overtake]) cancelling [] ?_)
  rw [append_assoc, singleton_append]

end Small

end Intar.Runs
