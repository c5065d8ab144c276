import Intar.Runs.AdmissionBatch

/-!
# Cancelling an admitted run

`cancelAdmittedRun` in `lib/scenario-runs/begin.ts` takes back a run whose account was revoked while
it was admitted.  One batch marks its VMs absent in the desired state, under a compare-and-set on the
version, and moves the run to teardown; a sentinel is to abort the batch when the compare-and-set
did not land.
-/

namespace Intar.Runs

open Batch

open Host (Millis DesiredState DesiredRow HostScope)

/-! ## Reading the desired state -/

/-- `loadOrCreateHostDesiredState`, for the host row it has read.  It creates the row of a host that
has none; when it loses the race to create it, it reads again, so that what decides is one statement.
-/
def Db.loadOrCreateDesired (db : Db) (hostId : String) (host : Option Host.AgentHost)
    (now : Millis) : Db × Except String DesiredState :=
  match Host.enrolledOwner host with
  | .error e => (db, .error e)
  | .ok (scope, owner) =>
    match db.desired hostId with
    | some row => (db, Host.checkLoaded hostId row scope owner)
    | none =>
      let doc := Host.createEmptyHostDesiredState hostId scope owner now
      (db.setDesired hostId ⟨doc.version, doc⟩, .ok doc)

/-! ## The batch -/

structure CancelInput where
  (runId userId hostId : String)
  vms : RunStateDocument
deriving DecidableEq

section

variable (input : CancelInput)

/-- The VMs to be taken down. -/
def CancelInput.teardownVms : List RunVmStateDocument := input.vms.vms.filter (·.phase ≠ .completed)

def cancelMutator : Host.Mutator := fun draft =>
  .ok (input.teardownVms.foldl
    (fun draft vm => (Host.markDesiredVmAbsent input.runId vm.runtimeVmName draft).1) draft)

/-- The row after `UPDATE scenario_runs SET state = 'teardown_requested', …`. -/
def RunRow.cancelled (run : RunRow) (now : Millis) : RunRow :=
  { run with
    state := .teardownRequested
    stateRank := RunPhase.teardownRequested.rank
    deleteRequestedAt := run.deleteRequestedAt.or (some now)
    updatedAt := now }

/-- The run is still being provisioned where it was admitted. -/
def CancelInput.cancels (run : RunRow) : Bool :=
  run.runId = input.runId && run.userId = input.userId && run.hostId = input.hostId &&
    run.state = .provisioning

def cancelRunStatement (now : Millis) : Query := fun db =>
  .ok ({ db with runs := Table.update input.cancels (·.cancelled now) db.runs },
    (db.runs.filter input.cancels).length)

def cancelDesiredStateStatement (expectedVersion : Nat) (next : DesiredState) : Query := fun db =>
  if (db.desired input.hostId).any (·.version = expectedVersion) ∧
      (db.findRun input.runId).any (·.hostId = input.hostId) then
    .ok (db.setDesired input.hostId ⟨next.version, next⟩, 1)
  else .ok (db, 0)

/-- Aborts the batch when the stored version is not the one that it publishes. -/
def cancelSentinelStatement (nextVersion : Nat) : Query :=
  insertForRun input.runId
    (fun db _ => !(db.desired input.hostId).any (·.version = nextVersion))
    (fun run => Db.insertExecution
      (sentinelExecution ("__admission_cancel_cas__:" ++ input.runId) run run.createdAt
        run.updatedAt))

/-- The batch of one attempt; there is nothing to publish when no VM had to be marked. -/
def cancelStatements (current : DesiredState) (next : Option DesiredState) (now : Millis) :
    List Query :=
  match next with
  | none => [cancelRunStatement input now]
  | some next => [cancelDesiredStateStatement input current.version next,
      cancelRunStatement input now, cancelSentinelStatement input next.version]

end

/-! ## What a batch does -/

section

variable {input : CancelInput} {current next : DesiredState} {now : Millis} {db db' : Db}
  {ns : List Nat}

/-- The database with the run moved to teardown, if it is still being provisioned. -/
def Db.cancelRun (db : Db) (input : CancelInput) (now : Millis) : Db :=
  { db with runs := Table.update input.cancels (·.cancelled now) db.runs }

/-- The compare-and-set finds the version that was read. -/
def Db.cancelLands (db : Db) (input : CancelInput) (current : DesiredState) : Prop :=
  (db.desired input.hostId).any (·.version = current.version) = true ∧
    (db.findRun input.runId).any (·.hostId = input.hostId) = true

theorem findRun_cancelRun_eq_none {runId : String} :
    (db.cancelRun input now).findRun runId = none ↔ db.findRun runId = none := by
  have hno : ∀ db : Db, db.findRun runId = none ↔ runId ∉ db.runs.map RunRow.runId := by
    intro _
    rw [findRun_eq_none, List.mem_map]
    simp [not_exists, not_and]
  have hids : (db.cancelRun input now).runs.map RunRow.runId = db.runs.map RunRow.runId :=
    Table.map_update fun _ => rfl
  rw [hno, hno, hids]

/-- Where nothing had to be marked, the run is moved and nothing is checked. -/
theorem exec_cancelStatements_none
    (h : exec (cancelStatements input current none now) db = .ok (db', ns)) :
    db' = db.cancelRun input now := by
  obtain ⟨_, _, _, hrun, hnil, -⟩ := exec_cons_eq_ok.mp h
  cases hnil
  cases hrun
  rfl

/-- **When a cancel goes through.**  Its compare-and-set landed; or it missed, and the sentinel did
not see that, because the stored version is the very one that it was about to publish. -/
theorem exec_cancelStatements_some
    (h : exec (cancelStatements input current (some next) now) db = .ok (db', ns)) :
    (db.cancelLands input current ∧
      db' = (db.setDesired input.hostId ⟨next.version, next⟩).cancelRun input now) ∨
    (¬ db.cancelLands input current ∧ db' = db.cancelRun input now ∧
      (db.findRun input.runId = none ∨
        (db.desired input.hostId).any (·.version = next.version) = true)) := by
  obtain ⟨db₁, _, _, hcas, h, -⟩ := exec_cons_eq_ok.mp h
  obtain ⟨_, _, _, hrun, h, -⟩ := exec_cons_eq_ok.mp h
  obtain ⟨_, _, _, hsen, hnil, -⟩ := exec_cons_eq_ok.mp h
  cases hnil
  cases hrun
  -- A sentinel that did not abort inserted nothing.
  have hsil : db' = db₁.cancelRun input now ∧ (db₁.findRun input.runId = none ∨
      (db₁.desired input.hostId).any (·.version = next.version) = true) := by
    cases hfind : (db₁.cancelRun input now).findRun input.runId with
    | none =>
      rw [cancelSentinelStatement] at hsen
      have hidle := hsen.symm.trans (insertForRun_of_none hfind)
      cases hidle
      exact ⟨rfl, .inl (findRun_cancelRun_eq_none.mp hfind)⟩
    | some =>
      rcases insertForRun_of_some hfind hsen with ⟨-, hab⟩ | ⟨hcd, rfl⟩
      · exact absurd hab insertExecution_sentinel
      rw [Bool.not_eq_false'] at hcd
      exact ⟨rfl, .inr hcd⟩
  rw [cancelDesiredStateStatement] at hcas
  split at hcas
  · rename_i hlands
    cases hcas
    exact .inl ⟨hlands, hsil.1⟩
  · rename_i hlands
    cases hcas
    exact .inr ⟨hlands, hsil⟩

theorem runs_of_exec_cancelStatements {next : Option DesiredState}
    (h : exec (cancelStatements input current next now) db = .ok (db', ns)) :
    db'.runs = Table.update input.cancels (·.cancelled now) db.runs := by
  cases next with
  | none =>
    rw [exec_cancelStatements_none h]
    rfl
  | some =>
    rcases exec_cancelStatements_some h with ⟨-, rfl⟩ | ⟨-, rfl, -⟩
    · rfl
    · rfl

end

end Intar.Runs
