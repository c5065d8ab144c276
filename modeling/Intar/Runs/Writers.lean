import Intar.Runs.Cancel
import Intar.Runs.ReportHistory

/-!
# The writers of a run

The row of a run is written by four functions: the admission that inserts it, `cancelAdmittedRun`,
`updateRunState` and `persistRunState`.  The row has the phase of the run twice, in the column `state`
and in the document `state_json`, and its `updated_at` is also what the writers compare and set.

`updateRunState` and `persistRunState` read the row, work out the next document, and write under the
condition that `updated_at` is still what they read; between the read and the write anything may
happen.  The cancel is one statement.  It moves the column to `teardown_requested` and leaves the
document as it is, and it neither looks at `updated_at` nor makes sure that it grows.

`writers_agree_iff` says what that comes to.  In every run without an effective cancel the two
phases agree, `updated_at` grows with every write and no write is lost.  An effective cancel breaks
the agreement at once, and the next report of a VM brings the run back (`Web.cancel_undone`).
-/

namespace Intar.Runs

open Trace

open Host (Millis)

/-! ## Writing a document -/

def nextSolvedAt (currentPhase nextPhase : RunPhase) (existingSolvedAt : Option Millis)
    (now : Millis) : Option Millis :=
  match existingSolvedAt with
  | some solvedAt => some solvedAt
  | none => if currentPhase = .solved ∨ nextPhase = .solved then some now else none

/-- `recomputeRunState(row.state)`, where `row.state` is what `parseRunState` makes of the
document. -/
def RunRow.current (row : RunRow) : RunStateDocument :=
  recomputeRunState (recomputeRunState row.stateJson)

/-- The clock of a writer that goes past what it read. -/
def RunRow.nextUpdatedAt (row : RunRow) (clock : Millis) : Millis := max clock (row.updatedAt + 1)

/-- The `set` that `updateRunState` and `persistRunState` share: `row` was read, `stored` is there
now. -/
def RunRow.write (row stored : RunRow) (next : RunStateDocument)
    (activeKey : Option String) (deleteRequestedAt : Option Millis) (clock : Millis) : RunRow :=
  let now := row.nextUpdatedAt clock
  { stored with
    state := next.phase
    stateRank := next.phase.rank
    stateJson := next
    activeKey
    deleteRequestedAt
    solvedAt := nextSolvedAt row.current.phase next.phase row.solvedAt now
    completedAt := if next.phase = .completed then row.completedAt.or (some now) else none
    failedAt := if next.phase = .failed then row.failedAt.or (some now) else none
    archiveEnteredAt :=
      if next.phase = .archiving ∨ next.phase = .completed ∨ next.phase = .failed then
        stored.archiveEnteredAt.or (some now)
      else stored.archiveEnteredAt
    updatedAt := now }

/-- The input of `updateRunState`; no `deleteRequestedAt` is `undefined`, and keeps the row's. -/
structure UpdateInput where
  mutate : RunStateDocument → RunStateDocument
  deleteRequestedAt : Option (Option Millis)
  releaseActiveSlot : Bool

/-- The row an attempt of `updateRunState` writes. -/
def UpdateInput.written (input : UpdateInput) (row stored : RunRow) (clock : Millis) : RunRow :=
  let next := recomputeRunState (input.mutate row.current)
  let terminal := next.phase = .completed ∨ next.phase = .failed
  let deleteRequestedAt := input.deleteRequestedAt.getD row.deleteRequestedAt
  row.write stored next
    (if input.releaseActiveSlot = true ∨ (terminal ∧ deleteRequestedAt = none) then none
      else row.activeKey)
    deleteRequestedAt clock

/-- The input of `persistRunState`, apart from its guards. -/
structure PersistInput where
  deriveNextState : RunStateDocument → RunStateDocument
  deleteRequestedAt : Option Millis
  keepDeleteRequestedAt : Bool

/-- `merged`: the derived document, with the phase held where it would go back. -/
def PersistInput.merged (input : PersistInput) (row : RunRow) : RunStateDocument :=
  let current := row.current
  let recomputed := recomputeRunState (input.deriveNextState current)
  if canAdvanceRunPhase current.phase recomputed.phase then recomputed
  else { recomputed with phase := current.phase }

/-- The row an attempt of `persistRunState` writes. -/
def PersistInput.written (input : PersistInput) (row stored : RunRow) (clock : Millis) : RunRow :=
  let merged := input.merged row
  let deleteRequestedAt :=
    if input.keepDeleteRequestedAt then row.deleteRequestedAt
    else input.deleteRequestedAt.or row.deleteRequestedAt
  row.write stored merged
    (if (merged.phase = .completed ∨ merged.phase = .failed) ∧ deleteRequestedAt = none then none
      else row.activeKey)
    deleteRequestedAt clock

/-- `persistRunState` has nothing to write: neither the document nor a column of it would change. -/
def PersistInput.unchanged (input : PersistInput) (row : RunRow) (clock : Millis) : Bool :=
  let written := input.written row row clock
  row.current = input.merged row && row.activeKey = written.activeKey &&
    row.deleteRequestedAt = written.deleteRequestedAt && row.solvedAt = written.solvedAt &&
    row.completedAt = written.completedAt && row.failedAt = written.failedAt

section

variable {row stored : RunRow} {clock : Millis}

theorem lt_nextUpdatedAt (row : RunRow) (clock : Millis) :
    row.updatedAt < row.nextUpdatedAt clock :=
  lt_of_lt_of_le (Int.lt_add_one_iff.mpr le_rfl) (le_max_right clock _)

end

/-! ## The system -/

/-- What a start inserts: the draft of the run, on the host it was given. -/
structure AdmittedRun where
  input : BeginInput
  source : LaunchSource
  course : CourseLecture
  idempotencyKey : String
  material : Material
  hostId : String

def AdmittedRun.row (run : AdmittedRun) : RunRow :=
  { draftRun run.input run.source run.course run.idempotencyKey run.material with
    hostId := run.hostId }

/-- A writer between its read and its write; `readAt` counts the writes before the read. -/
structure Writer where
  row : RunRow
  readAt : Nat

/-- The row, the writers that have read it, the number of writes to it, and whether a cancel took
effect.  The code has neither of the last two. -/
structure RowState where
  row : Option RunRow
  writers : Nat → Option Writer
  writes : Nat
  cancelled : Bool

inductive RowAct where
  | insert (run : AdmittedRun)
  | cancel (input : CancelInput) (now : Millis)
  | read (writer : Nat)
  | update (writer : Nat) (input : UpdateInput) (clock : Millis)
  /-- The host session and the execution that the write expects may be gone by then. -/
  | persist (writer : Nat) (input : PersistInput) (clock : Millis) (expected : Bool)

def RowState.initial : RowState := ⟨none, fun _ => none, 0, false⟩

/-- The writer is through with its attempt. -/
def RowState.finish (s : RowState) (writer : Nat) : RowState :=
  { s with writers := Function.update s.writers writer none }

/-- A committed write. -/
def RowState.commit (s : RowState) (row : RunRow) : RowState :=
  { s with row := some row, writes := s.writes + 1 }

/-- The conditional `UPDATE` of a writer that has read `row`. -/
def RowState.compareAndSet (s : RowState) (writer : Nat) (holds : Bool)
    (written : RunRow → RunRow → RunRow) : RowState :=
  match s.writers writer, s.row with
  | some reader, some stored =>
    if stored.updatedAt = reader.row.updatedAt ∧ holds then
      (s.finish writer).commit (written reader.row stored)
    else s.finish writer
  | _, _ => s

def RowState.step (s : RowState) : RowAct → RowState
  | .insert run =>
    match s.row with
    | none => s.commit run.row
    | some _ => s
  | .cancel input now =>
    match s.row with
    | some row => if input.cancels row then { s.commit (row.cancelled now) with cancelled := true }
      else s
    | none => s
  | .read writer =>
    { s with writers := Function.update s.writers writer (s.row.map fun row => ⟨row, s.writes⟩) }
  | .update writer input clock =>
    s.compareAndSet writer true fun row stored => input.written row stored clock
  | .persist writer input clock expected =>
    if (s.writers writer).any fun reader => input.unchanged reader.row clock then s.finish writer
    else s.compareAndSet writer expected fun row stored => input.written row stored clock

/-! ## What is asked of a step -/

/-- The phases a run that is cancelled must not come back to. -/
def RunPhase.isLive (phase : RunPhase) : Prop :=
  phase = .provisioning ∨ phase = .activePartial ∨ phase = .activeFull

def RowAct.writer : RowAct → Option Nat
  | .update writer _ _ => some writer
  | .persist writer _ _ _ => some writer
  | _ => none

/-- The column is the phase of the document. -/
def RowState.Agrees (s : RowState) : Prop :=
  ∀ row, s.row = some row → row.state = row.stateJson.phase

/-- What a step has to keep. -/
structure StepKeeps (s : RowState) (act : RowAct) (s' : RowState) : Prop where
  agrees : s'.Agrees
  /-- A write goes up in `updated_at`. -/
  increases : s.writes < s'.writes → ∀ old new, s.row = some old → s'.row = some new →
    old.updatedAt < new.updatedAt
  /-- A writer that writes has read the last write. -/
  current : s.writes < s'.writes → ∀ writer reader, act.writer = some writer →
    s.writers writer = some reader → reader.readAt = s.writes
  /-- A run that was cancelled is not live. -/
  cancelled : s'.cancelled = true → ∀ row, s'.row = some row → ¬ row.state.isLive

/-- The step is not a cancel that finds the run still provisioned. -/
def NotCancelling (s : RowState) (act : RowAct) : Prop :=
  ∀ input now row, act = .cancel input now → s.row = some row → input.cancels row = false

/-! ## Runs without an effective cancel -/

/-- What holds of the row and of those who have read it. -/
structure RowState.Inv (s : RowState) : Prop where
  agrees : s.Agrees
  notCancelled : s.cancelled = false
  /-- Nobody has read a row that is not there. -/
  noReaders : s.row = none → ∀ writer, s.writers writer = none
  /-- What was read is not ahead of the row, and it is the row unless there was a write. -/
  readers : ∀ writer reader row, s.writers writer = some reader → s.row = some row →
    reader.row.updatedAt ≤ row.updatedAt ∧
      (reader.row.updatedAt = row.updatedAt → reader.row = row ∧ reader.readAt = s.writes)

section

variable {s : RowState}

theorem inv_initial : RowState.initial.Inv where
  agrees _ h := by cases h
  notCancelled := rfl
  noReaders _ _ := rfl
  readers _ _ _ h := by cases h

theorem writers_finish {writer other : Nat} {reader : Writer}
    (h : (s.finish writer).writers other = some reader) : s.writers other = some reader := by
  by_cases ho : other = writer
  · subst ho
    simp [RowState.finish] at h
  · simpa [RowState.finish, ho] using h

theorem RowState.Inv.finish (h : s.Inv) (writer : Nat) : (s.finish writer).Inv where
  agrees := h.agrees
  notCancelled := h.notCancelled
  noReaders hno other := by
    by_cases ho : other = writer
    · simp [RowState.finish, ho]
    · simpa [RowState.finish, ho] using h.noReaders hno other
  readers other reader row hrdr hrow := h.readers other reader row (writers_finish hrdr) hrow

/-- A write that agrees with itself and goes up in `updated_at`. -/
theorem RowState.Inv.commit (h : s.Inv) {new : RunRow} (hagr : new.state = new.stateJson.phase)
    (hlt : ∀ old, s.row = some old → old.updatedAt < new.updatedAt) : (s.commit new).Inv where
  agrees row hrow := by
    obtain rfl := Option.some.inj hrow
    exact hagr
  notCancelled := h.notCancelled
  noReaders hno := by cases hno
  readers writer reader row hrdr hrow := by
    obtain rfl := Option.some.inj hrow
    cases hold : s.row with
    | none =>
      have hnot := h.noReaders hold writer
      rw [show s.writers writer = some reader from hrdr] at hnot
      cases hnot
    | some old =>
      have hle := (h.readers writer reader old hrdr hold).1
      have hup := hlt old hold
      exact ⟨(hle.trans_lt hup).le, fun heq => absurd heq (hle.trans_lt hup).ne⟩

/-- How a conditional write ends. -/
theorem compareAndSet_cases (s : RowState) (writer : Nat) (holds : Bool)
    (written : RunRow → RunRow → RunRow) :
    s.compareAndSet writer holds written = s ∨
      s.compareAndSet writer holds written = s.finish writer ∨
      ∃ reader stored, s.writers writer = some reader ∧ s.row = some stored ∧
        stored.updatedAt = reader.row.updatedAt ∧
        s.compareAndSet writer holds written
          = (s.finish writer).commit (written reader.row stored) := by
  rw [RowState.compareAndSet]
  split
  · rename_i reader stored hrdr hsto
    split
    · rename_i hhld
      exact .inr (.inr ⟨reader, stored, hrdr, hsto, hhld.1, rfl⟩)
    · exact .inr (.inl rfl)
  · exact .inl rfl

/-- A step that does not write, or that writes what goes with the rest. -/
def Orderly (s : RowState) (act : RowAct) (s' : RowState) : Prop :=
  (s'.Inv ∧ s'.writes = s.writes) ∨
    ∃ (base : RowState) (new : RunRow), s' = base.commit new ∧ base.Inv ∧
      base.row = s.row ∧ base.writes = s.writes ∧ new.state = new.stateJson.phase ∧
      (∀ old, s.row = some old → old.updatedAt < new.updatedAt) ∧
      ∀ writer reader, act.writer = some writer → s.writers writer = some reader →
        reader.readAt = s.writes

variable {act : RowAct} {s' : RowState} {acts : List RowAct}

theorem orderly_compareAndSet (h : s.Inv) {writer : Nat} (hact : act.writer = some writer)
    (holds : Bool) {written : RunRow → RunRow → RunRow}
    (hagr : ∀ row stored, (written row stored).state = (written row stored).stateJson.phase)
    (hlt : ∀ row stored, row.updatedAt < (written row stored).updatedAt) :
    Orderly s act (s.compareAndSet writer holds written) := by
  rcases compareAndSet_cases s writer holds written with
    hsm | hfin | ⟨reader, stored, hrdr, hsto, hupd, hcom⟩
  · rw [hsm]
    exact .inl ⟨h, rfl⟩
  · rw [hfin]
    exact .inl ⟨h.finish writer, rfl⟩
  refine .inr ⟨s.finish writer, written reader.row stored, hcom, h.finish writer, rfl, rfl,
    hagr _ _, ?_, ?_⟩
  · intro _ hold
    rw [hsto, Option.some.injEq] at hold
    rw [← hold, hupd]
    exact hlt reader.row stored
  -- The compare-and-set found the `updated_at` that was read, so there was no write since.
  intro _ _ ho hrdr'
  rw [hact, Option.some.injEq] at ho
  subst ho
  rw [hrdr, Option.some.injEq] at hrdr'
  rw [← hrdr']
  exact ((h.readers _ reader stored hrdr hsto).2 hupd.symm).2

theorem orderly_step (h : s.Inv) (hnot : NotCancelling s act) : Orderly s act (s.step act) := by
  cases act with
  | insert run =>
    rw [RowState.step]
    split
    · rename_i hno
      refine .inr ⟨s, run.row, rfl, h, rfl, rfl, rfl, ?_, ?_⟩
      · intro _ hold
        rw [hno] at hold
        cases hold
      · intro _ _ hwriter
        cases hwriter
    · exact .inl ⟨h, rfl⟩
  | cancel input now =>
    rw [RowState.step]
    split
    · rename_i row hrow
      rw [if_neg (by simp [hnot input now row rfl hrow])]
      exact .inl ⟨h, rfl⟩
    · exact .inl ⟨h, rfl⟩
  | read writer =>
    refine .inl ⟨?_, rfl⟩
    exact {
      agrees := h.agrees
      notCancelled := h.notCancelled
      noReaders := by
        intro hno other
        have hrow : s.row = none := hno
        by_cases ho : other = writer
        · simp [RowState.step, ho, hrow]
        · simpa [RowState.step, ho] using h.noReaders hrow other
      readers := by
        intro other reader row hrdr hrow
        have hsto : s.row = some row := hrow
        by_cases ho : other = writer
        · simp only [RowState.step, ho, Function.update_self, hsto, Option.map_some,
            Option.some.injEq] at hrdr
          rw [← hrdr]
          exact ⟨le_rfl, fun _ => ⟨rfl, rfl⟩⟩
        · refine h.readers other reader row ?_ hsto
          simpa [RowState.step, ho] using hrdr }
  | update _ _ clock =>
    rw [RowState.step]
    exact orderly_compareAndSet h rfl true (fun _ _ => rfl) fun row _ => lt_nextUpdatedAt row clock
  | persist writer _ clock expected =>
    rw [RowState.step]
    split
    · exact .inl ⟨h.finish writer, rfl⟩
    exact orderly_compareAndSet h rfl expected (fun _ _ => rfl)
      fun row _ => lt_nextUpdatedAt row clock

theorem Orderly.inv (h : Orderly s act s') : s'.Inv := by
  rcases h with ⟨hinv, -⟩ | ⟨_, _, rfl, hinv, hrow, -, hagr, hlt, -⟩
  · exact hinv
  · exact hinv.commit hagr (hrow ▸ hlt)

theorem Orderly.keeps (h : Orderly s act s') : StepKeeps s act s' := by
  have hinv := h.inv
  have hnot : s'.cancelled = true → ∀ row, s'.row = some row → ¬ row.state.isLive := by
    intro hcan
    rw [hinv.notCancelled] at hcan
    cases hcan
  rcases h with ⟨-, _⟩ | ⟨_, _, rfl, -, -, _, -, hlt, hcur⟩
  · exact ⟨hinv.agrees, fun hlt => absurd hlt (by omega), fun hlt => absurd hlt (by omega), hnot⟩
  refine ⟨hinv.agrees, ?_, fun _ => hcur, hnot⟩
  intro _ old _ hold hnew
  obtain rfl := Option.some.inj hnew
  exact hlt old hold

/-! ## Runs with one -/

/-- A cancel that takes effect parts the column from the document. -/
theorem not_agrees_of_cancels {input : CancelInput} {now : Millis} {row : RunRow}
    (hagr : s.Agrees) (hrow : s.row = some row) (hcans : input.cancels row = true) :
    ¬ (s.step (.cancel input now)).Agrees := by
  intro haft
  have hsta : row.state = .provisioning := by
    simp only [CancelInput.cancels, Bool.and_eq_true, decide_eq_true_eq] at hcans
    exact hcans.2
  have hstp : (s.step (.cancel input now)).row = some (row.cancelled now) := by
    rw [RowState.step, hrow]
    dsimp only
    rw [if_pos hcans]
    rfl
  have hph : RunPhase.teardownRequested = row.stateJson.phase := haft _ hstp
  rw [← hagr row hrow, hsta] at hph
  cases hph

theorem agrees_of_along
    (h : Along RowState.step (fun s act => StepKeeps s act (s.step act)) .initial acts) :
    (run RowState.step .initial acts).Agrees := by
  rcases List.eq_nil_or_concat acts with rfl | ⟨_, _, rfl⟩
  · exact inv_initial.agrees
  rw [List.concat_eq_append] at h ⊢
  rw [run_append]
  exact h.last.agrees

theorem inv_of_along (hinv : s.Inv) (h : Along RowState.step NotCancelling s acts) :
    (run RowState.step s acts).Inv :=
  h.invariant (fun _ _ hs hact => (orderly_step hs hact).inv) hinv

/-- **The writers agree unless a run is cancelled.**  Every step of a run keeps the column equal to
the phase of the document, goes up in `updated_at` when it writes, overwrites nothing its writer has
not read, and leaves a cancelled run cancelled, if and only if no cancel finds the run still
provisioned. -/
theorem writers_agree_iff (acts : List RowAct) :
    Along RowState.step (fun s act => StepKeeps s act (s.step act)) .initial acts ↔
      Along RowState.step NotCancelling .initial acts := by
  constructor
  · intro h before act after hsp _ _ _ hact hrow
    by_contra hcans
    rw [Bool.not_eq_false] at hcans
    have hbef := agrees_of_along (h.of_prefix ⟨act :: after, hsp.symm⟩)
    have hstp := (h before act after hsp).agrees
    rw [hact] at hstp
    exact not_agrees_of_cancels hbef hrow hcans hstp
  · intro h before act after hsp
    have hinv := inv_of_along inv_initial (h.of_prefix ⟨act :: after, hsp.symm⟩)
    exact (orderly_step hinv (h before act after hsp)).keeps

end

namespace Web

/-- The run as it is admitted. -/
def admitted : AdmittedRun where
  input := ⟨"web", "ada", "key-00001", none, none, none, none, false, false⟩
  source
  course := ⟨"scope", "course", "lecture", "Web"⟩
  idempotencyKey := "key-00001"
  material
  hostId := "h1"

/-- What `persistRunState` is asked to write for a report of the host. -/
def persistReports (reports : List ReportedVm) : PersistInput where
  deriveNextState current := applyHostReportToRunState "run-1" current ⟨reports⟩
  deleteRequestedAt := none
  keepDeleteRequestedAt := true

def cancelled : List RowAct := [.insert admitted, .cancel ⟨"run-1", "ada", "h1", document⟩ 1]

/-- Once the run is cancelled, the host reports that its VM has come up. -/
def cancelUndone : List RowAct :=
  cancelled ++ [.read 0, .persist 0 (persistReports [shell "a" 2]) 3 true]

/-- The cancel takes the run to teardown in the column and leaves it provisioned in the document.
The report that follows makes it active again. -/
theorem cancel_undone :
    ((run RowState.step .initial cancelled).row.map fun row =>
        (row.state, row.stateJson.phase)) = some (.teardownRequested, .provisioning) ∧
      (run RowState.step .initial cancelUndone).cancelled = true ∧
      (run RowState.step .initial cancelUndone).row.map (·.state) = some .activeFull := by
  decide +kernel

end Web

end Intar.Runs
