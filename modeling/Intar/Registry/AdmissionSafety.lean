import Intar.Lib.SharedExclusive
import Intar.Lib.Trace
import Intar.Registry.Admission

/-!
# The registry gate is a shared/exclusive lock

The tables of `Intar.Registry.Admission` stand for a `SharedExclusive` lock (`Tables.lock`): its
shared holders are the writer rows that hold off a sweep and the open upload sessions, and it is
exclusive while the gate row is sweeping.

* Every statement of every operation is a run of that lock (`Op.steps_of_mem_batch`): most of them
  only let holders go, and the three guarded inserts are its `enter` and `acquire`.
* So no interleaving of the operations overlaps a sweep with a hold or an open session, whatever
  the clocks of the operations say; an expired lease releases nothing.
* A writer row is only ever inserted under an open gate (`gateOpen_of_newWriter`).
-/

namespace Intar.Registry

open Trace

open SharedExclusive (Steps)
open List

/-! ## The lock the tables stand for -/

/-- What can hold off a sweep: a writer row or an upload session, by its id. -/
inductive Holder where
  | writer (id : String)
  | session (id : String)

def Tables.isSweeping (s : Tables) : Bool := s.gate.any (·.state = .sweeping)

def Tables.isGateOpen (s : Tables) : Bool := s.gate.any (·.state = .opened)

/-- The row keeps the registry from being swept. -/
def Tables.Holds (s : Tables) : Holder → Prop
  | .writer id => ∃ w ∈ s.writers, w.isHold = true ∧ w.id = id
  | .session id => ∃ x ∈ s.sessions, x.isOpen = true ∧ x.id = id

/-- The lock the tables stand for. -/
def Tables.lock (s : Tables) : SharedExclusive Holder := ⟨{h | s.Holds h}, s.isSweeping⟩

/-- `s'` has no writer row that `s` has not, keeps off sweeps no more than `s` does, and sweeps
only if `s` does. -/
structure Tables.Shrinks (s s' : Tables) : Prop where
  rows : ∀ w' ∈ s'.writers, ∃ w ∈ s.writers, w.id = w'.id
  writers : ∀ w' ∈ s'.writers, w'.isHold = true → ∃ w ∈ s.writers, w.isHold = true ∧ w.id = w'.id
  sessions : ∀ x' ∈ s'.sessions, x'.isOpen = true → ∃ x ∈ s.sessions, x.isOpen = true ∧ x.id = x'.id
  sweeping : s'.isSweeping = true → s.isSweeping = true

variable {s s' : Tables} {p : Gate → Bool} {f : Gate → Gate} {q : Query} {row : Gate → Writer}
  {n : Nat} {g : Gate} {now : Millis} {op : Op}

theorem Tables.Shrinks.steps (h : s.Shrinks s') : Steps s.lock s'.lock := by
  refine SharedExclusive.steps_of_le ?_ h.sweeping
  rintro (id | id) hid
  · obtain ⟨w', hw', hold, rfl⟩ := hid
    exact h.writers w' hw' hold
  · obtain ⟨x', hx', hop, rfl⟩ := hid
    exact h.sessions x' hx' hop

theorem Tables.Shrinks.refl (s : Tables) : s.Shrinks s where
  rows w hw := ⟨w, hw, rfl⟩
  writers w hw hold := ⟨w, hw, hold, rfl⟩
  sessions x hx hop := ⟨x, hx, hop, rfl⟩
  sweeping := id

/-! ## Statements that only let holders go -/

/-- A query all of whose successes shrink. -/
def Query.Shrinking (q : Query) : Prop := ∀ s s' n, q s = .ok (s', n) → s.Shrinks s'

/-- Replacing the gate row by one that sweeps no more than the old one did. -/
theorem shrinks_setGate {g' : Gate} (h : g'.state = .sweeping → s.isSweeping = true) :
    s.Shrinks { s with gate := some g' } where
  rows := (Tables.Shrinks.refl s).rows
  writers := (Tables.Shrinks.refl s).writers
  sessions := (Tables.Shrinks.refl s).sessions
  sweeping hs := h (by simpa [Tables.isSweeping] using hs)

theorem shrinking_updateGate (h : ∀ g, p g = true → (f g).state = .sweeping → g.state = .sweeping) :
    Query.Shrinking (updateGate p f) := by
  intro s _ _ hq
  rw [updateGate] at hq
  split at hq
  · cases hq
    exact .refl s
  rename_i g hg
  split at hq
  · rename_i hp
    cases hq
    exact shrinks_setGate fun hst => by simp [Tables.isSweeping, hg, h g hp hst]
  · cases hq
    exact .refl s

theorem shrinking_upsertGate {g₀ : Gate} (h₀ : g₀.state = .opened)
    (h : ∀ g, p g = true → (f g).state = .sweeping → g.state = .sweeping) :
    Query.Shrinking (upsertGate g₀ p f) := by
  intro s _ _ hq
  rw [upsertGate] at hq
  split at hq
  · cases hq
    exact shrinks_setGate fun hst => by simp [h₀] at hst
  rename_i g hg
  split at hq
  · rename_i hp
    cases hq
    exact shrinks_setGate fun hst => by simp [Tables.isSweeping, hg, h g hp hst]
  · cases hq
    exact .refl s

theorem shrinking_ensureRow (now : Millis) : Query.Shrinking (ensureRegistryAdmissionRow now) :=
  shrinking_upsertGate rfl fun _ hp => nomatch hp

theorem shrinking_updateSessions {p : Tables → Session → Bool} {f : Session → Session}
    (h : ∀ x, (f x).id = x.id) (hop : ∀ x, (f x).isOpen = true → x.isOpen = true) :
    Query.Shrinking (updateSessions p f) := by
  intro s _ _ hq
  cases hq
  refine ⟨(Tables.Shrinks.refl s).rows, (Tables.Shrinks.refl s).writers, ?_, id⟩
  intro _ hx' ho
  obtain ⟨x, hx, rfl⟩ := Table.mem_update.mp hx'
  refine ⟨x, hx, ?_⟩
  split at ho
  · rename_i hp
    exact ⟨hop x ho, by rw [if_pos hp, h]⟩
  · rename_i hp
    exact ⟨ho, by rw [if_neg hp]⟩

theorem shrinking_updateWriters {p : Writer → Bool} {f : Writer → Writer} (h : ∀ w, (f w).id = w.id)
    (hhold : ∀ w, p w = true → (f w).isHold = true → w.isHold = true) :
    Query.Shrinking (updateWriters p f) := by
  intro s _ _ hq
  cases hq
  refine ⟨?_, ?_, (Tables.Shrinks.refl s).sessions, id⟩
  · intro _ hw'
    obtain ⟨w, hw, rfl⟩ := Table.mem_update.mp hw'
    exact ⟨w, hw, by split <;> simp [h]⟩
  intro _ hw' ho
  obtain ⟨w, hw, rfl⟩ := Table.mem_update.mp hw'
  refine ⟨w, hw, ?_⟩
  split at ho
  · rename_i hp
    exact ⟨hhold w hp ho, by rw [if_pos hp, h]⟩
  · rename_i hp
    exact ⟨ho, by rw [if_neg hp]⟩

theorem shrinking_deleteWriters (p : Tables → Writer → Bool) :
    Query.Shrinking (deleteWriters p) := by
  intro s _ _ hq
  cases hq
  refine ⟨?_, ?_, (Tables.Shrinks.refl s).sessions, id⟩
  · exact fun w hw => ⟨w, (Table.mem_delete.mp hw).1, rfl⟩
  · exact fun w hw hold => ⟨w, (Table.mem_delete.mp hw).1, hold, rfl⟩

theorem shrinking_deleteSessions (p : Tables → Session → Bool) :
    Query.Shrinking (deleteSessions p) := by
  intro _ _ _ hq
  cases hq
  refine ⟨?_, ?_, ?_, id⟩
  · intro _ hw'
    obtain ⟨w, hw, rfl⟩ := Table.mem_update.mp hw'
    exact ⟨w, hw, by split <;> rfl⟩
  · intro _ hw' hold
    obtain ⟨w, hw, rfl⟩ := Table.mem_update.mp hw'
    refine ⟨w, hw, ?_⟩
    -- losing its session changes neither the id of a writer nor whether it holds
    split at hold <;> exact ⟨hold, by split <;> rfl⟩
  · intro x hx hop
    exact ⟨x, (Table.mem_delete.mp hx).1, hop, rfl⟩

theorem shrinking_updateGcRuns (p : GcRun → Bool) (f : GcRun → GcRun) :
    Query.Shrinking (updateGcRuns p f) := by
  intro s _ _ hq
  cases hq
  exact ⟨(Tables.Shrinks.refl s).rows, (Tables.Shrinks.refl s).writers,
    (Tables.Shrinks.refl s).sessions, id⟩

theorem shrinking_insertGcRun (guard : Tables → Bool) (row : GcRun) :
    Query.Shrinking (insertGcRun guard row) := by
  intro s _ _ hq
  rw [insertGcRun] at hq
  split at hq
  · split at hq
    · cases hq
    · cases hq
    cases hq
    exact ⟨(Tables.Shrinks.refl s).rows, (Tables.Shrinks.refl s).writers,
      (Tables.Shrinks.refl s).sessions, id⟩
  · cases hq
    exact .refl s

/-! ## The three guarded inserts -/

/-- A query all of whose successes are runs of the lock. -/
def Query.Locking (q : Query) : Prop := ∀ s s' n, q s = .ok (s', n) → Steps s.lock s'.lock

theorem Query.Shrinking.locking (h : Query.Shrinking q) : Query.Locking q :=
  fun s s' n hq => (h s s' n hq).steps

/-- What a writer insert that was not refused did. -/
theorem insertWriter_eq_ok {guard : Tables → Gate → Bool}
    (h : insertWriter guard row s = .ok (s', n)) :
    s' = s ∨ ∃ g, s.gate = some g ∧ guard s g = true ∧
      s' = { s with writers := s.writers ++ [row g] } := by
  rw [insertWriter] at h
  split at h
  · cases h
    exact .inl rfl
  rename_i g hg
  split at h
  · rename_i hgd
    split at h
    · cases h
    rename_i hws
    cases h
    obtain ⟨-, rfl⟩ := Table.insert_eq_some.mp hws
    exact .inr ⟨g, hg, hgd, rfl⟩
  · cases h
    exact .inl rfl

theorem isSweeping_eq_false (hg : s.gate = some g) (h : g.state = .opened) :
    s.isSweeping = false := by
  simp [Tables.isSweeping, hg, h]

theorem locking_insertWriter {guard : Tables → Gate → Bool}
    (hop : ∀ s g, guard s g = true → g.state = .opened) :
    Query.Locking (insertWriter guard row) := by
  intro s _ _ hq
  obtain rfl | ⟨g, hg, hgd, rfl⟩ := insertWriter_eq_ok hq
  · exact .refl
  -- the new row enters the lock, and then may leave it again if it is no hold
  have henter : SharedExclusive.Step s.lock
      { s.lock with holders := insert (Holder.writer (row g).id) s.lock.holders } :=
    .enter _ (isSweeping_eq_false hg (hop s g hgd))
  refine (Relation.ReflTransGen.single henter).trans (SharedExclusive.steps_of_le ?_ id)
  rintro (id | id) hid
  · obtain ⟨w, hw, hold, rfl⟩ := hid
    rcases mem_append.mp hw with hw | hw
    · exact .inr ⟨w, hw, hold, rfl⟩
    rw [mem_singleton.mp hw]
    exact .inl rfl
  · exact .inr hid

theorem insertSession_eq_ok {guard : Gate → Bool} {row : Gate → Session}
    (h : insertSession guard row s = .ok (s', n)) :
    s' = s ∨ ∃ g, s.gate = some g ∧ guard g = true ∧
      s' = { s with sessions := s.sessions ++ [row g] } := by
  rw [insertSession] at h
  split at h
  · cases h
    exact .inl rfl
  rename_i g hg
  split at h
  · rename_i hgd
    split at h
    · cases h
    rename_i hxs
    cases h
    obtain ⟨-, rfl⟩ := Table.insert_eq_some.mp hxs
    exact .inr ⟨g, hg, hgd, rfl⟩
  · cases h
    exact .inl rfl

theorem locking_insertSession {guard : Gate → Bool} {row : Gate → Session}
    (hop : ∀ g, guard g = true → g.state = .opened) :
    Query.Locking (insertSession guard row) := by
  intro s _ _ hq
  obtain rfl | ⟨g, hg, hgd, rfl⟩ := insertSession_eq_ok hq
  · exact .refl
  have henter : SharedExclusive.Step s.lock
      { s.lock with holders := insert (Holder.session (row g).id) s.lock.holders } :=
    .enter _ (isSweeping_eq_false hg (hop g hgd))
  refine (Relation.ReflTransGen.single henter).trans (SharedExclusive.steps_of_le ?_ id)
  rintro (id | id) hid
  · exact .inr hid
  obtain ⟨x, hx, ho, rfl⟩ := hid
  rcases mem_append.mp hx with hx | hx
  · exact .inr ⟨x, hx, ho, rfl⟩
  rw [mem_singleton.mp hx]
  exact .inl rfl

/-- The guard of the acquiring statement says that the lock has no holder. -/
theorem holders_eq_empty (hw : s.writers.any Writer.isHold = false)
    (hx : s.sessions.any Session.isOpen = false) : s.lock.holders = ∅ := by
  rw [any_eq_false] at hw hx
  refine Set.eq_empty_of_forall_notMem ?_
  rintro (id | id) hid
  · obtain ⟨w, hmem, hold, -⟩ := hid
    exact hw w hmem hold
  · obtain ⟨x, hmem, ho, -⟩ := hid
    exact hx x hmem ho

theorem takeSweep_eq_ok {input : SweepInput} (h : takeSweep input now s = .ok (s', n)) :
    s' = s ∨ s.lock.holders = ∅ ∧ ∃ g, g.state = .sweeping ∧ s' = { s with gate := some g } := by
  rw [takeSweep] at h
  split at h
  · cases h
    exact .inl rfl
  rename_i hfr
  simp only [Bool.or_eq_true, not_or, Bool.not_eq_true] at hfr
  have hemp := holders_eq_empty hfr.1.1 hfr.1.2
  rw [upsertGate] at h
  split at h
  · cases h
    exact .inr ⟨hemp, _, rfl, rfl⟩
  split at h
  · cases h
    exact .inr ⟨hemp, _, rfl, rfl⟩
  · cases h
    exact .inl rfl

theorem locking_takeSweep (input : SweepInput) (now : Millis) :
    Query.Locking (takeSweep input now) := by
  intro s _ _ hq
  obtain rfl | ⟨hemp, g, hg, rfl⟩ := takeSweep_eq_ok hq
  · exact .refl
  have hlock : ({ s with gate := some g } : Tables).lock = { s.lock with exclusive := true } :=
    SharedExclusive.ext rfl (by simp [Tables.lock, Tables.isSweeping, hg])
  rw [hlock]
  exact .single (.acquire hemp)

/-! ## Every operation is a run of the lock -/

theorem shrinking_touch (sessionId : String) (owner : Owner) (now : Millis) :
    Query.Shrinking (touchRegistryUploadSession sessionId owner now) :=
  shrinking_updateSessions (fun _ => rfl) fun _ h => h

theorem Gate.admitsWriter_opened (h : g.admitsWriter now = true) : g.state = .opened := by
  simp only [Gate.admitsWriter, Bool.and_eq_true, decide_eq_true_eq] at h
  exact h.1.1

theorem locking_insertRequestWriter (req : AdmitRequest) (operationId : String) (now : Millis) :
    Query.Locking (insertRequestWriter req operationId now) := by
  refine locking_insertWriter fun s g h => ?_
  rw [Bool.and_eq_true] at h
  exact Gate.admitsWriter_opened h.1

/-- A closed session is not open: no end of a session reopens it. -/
theorem CloseOutcome.sessionState_ne_opened (o : CloseOutcome) : o.sessionState ≠ .opened := by
  cases o <;> simp [CloseOutcome.sessionState]

/-- The operations that can take a side of the lock. -/
def Op.takes : Op → Bool
  | .admitOperation .. => true
  | .admitInternal .. => true
  | .createSession .. => true
  | .acquireSweep .. => true
  | _ => false

variable {P : Query → Prop} {b : Query}

theorem forall_mem_pair {a : Query} (ha : P a) (hb : P b) : ∀ q ∈ [a, b], P q :=
  forall_mem_cons.mpr ⟨ha, forall_mem_singleton.mpr hb⟩

theorem forall_mem_triple {a c : Query} (ha : P a) (hb : P b) (hc : P c) : ∀ q ∈ [a, b, c], P q :=
  forall_mem_cons.mpr ⟨ha, forall_mem_pair hb hc⟩

/-- Every statement of the other operations only lets holders go. -/
theorem Op.shrinking_of_mem_batch (hop : op.takes = false) : ∀ q ∈ op.batch, Query.Shrinking q := by
  cases op with
  | admitOperation | admitInternal | createSession | acquireSweep => cases hop
  | touch sessionId owner now =>
    exact forall_mem_singleton.mpr (shrinking_touch sessionId owner now)
  | release =>
    simp only [Op.batch, releaseRegistryOperation]
    split
    · refine forall_mem_singleton.mpr (shrinking_updateWriters (fun _ => rfl) fun w hw _ => ?_)
      -- only an unreleased row becomes an inconclusive one, and it was a hold already
      rw [Bool.and_eq_true] at hw
      simp [Writer.isHold, hw.2]
    · exact forall_mem_singleton.mpr (shrinking_deleteWriters _)
  | completeSession _ _ outcome =>
    refine forall_mem_pair (shrinking_updateSessions (fun _ => rfl) fun x hx => ?_)
      (shrinking_deleteWriters _)
    exact absurd (of_decide_eq_true hx) outcome.sessionState_ne_opened
  | reap =>
    simp only [Op.batch, reapRegistryAdmission]
    refine forall_mem_append.mpr ⟨forall_mem_triple ?_ ?_ ?_, ?_⟩
    · exact shrinking_updateSessions (fun _ => rfl) fun x hx => by simp [Session.isOpen] at hx
    · exact shrinking_deleteWriters _
    · exact shrinking_deleteWriters _
    split
    · refine forall_mem_triple (shrinking_updateGcRuns _ _) (fun s => ?_)
        (shrinking_updateGate fun g _ hg => hg)
      refine shrinking_updateGate (fun g _ hg => ?_) s
      cases hg
    · exact nofun
  | compact =>
    exact forall_mem_pair (shrinking_deleteWriters _) (shrinking_deleteSessions _)
  | setPause =>
    simp only [Op.batch, setRegistryPause]
    split
    · exact forall_mem_singleton.mpr (shrinking_upsertGate rfl fun g _ hg => hg)
    · exact forall_mem_singleton.mpr (shrinking_updateGate fun g _ hg => hg)
  | setEnforcement =>
    exact forall_mem_singleton.mpr (shrinking_upsertGate rfl fun g _ hg => hg)
  | heartbeatSweep =>
    exact forall_mem_pair (shrinking_updateGate fun g _ hg => hg) (shrinking_updateGcRuns _ _)
  | recordProgress =>
    exact forall_mem_singleton.mpr (shrinking_updateGcRuns _ _)
  | finishSweep =>
    exact forall_mem_pair (shrinking_updateGate fun g _ hg => nomatch hg) (shrinking_updateGcRuns _ _)

/-- An admission ensures the gate, touches sessions and inserts the writer. -/
theorem forall_mem_admitRegistryOperation {req : AdmitRequest}
    (seen : EnforcementMode) {id : String} (hensure : P (ensureRegistryAdmissionRow now))
    (htouch : ∀ x, P (touchRegistryUploadSession x req.owner now))
    (hins : P (insertRequestWriter req id now)) :
    ∀ q ∈ admitRegistryOperation req seen id now, P q := by
  rw [admitRegistryOperation]
  split
  · exact nofun
  refine forall_mem_cons.mpr ⟨hensure, forall_mem_append.mpr ⟨?_, ?_⟩⟩
  · exact forall_mem_map.mpr fun x _ => htouch x
  · exact forall_mem_singleton.mpr hins

/-- **Each statement of each operation is a run of the lock.** -/
theorem Op.locking_of_mem_batch : ∀ q ∈ op.batch, Query.Locking q := by
  cases hop : op.takes with
  | false => exact fun q hq => (Op.shrinking_of_mem_batch hop q hq).locking
  | true =>
    cases op with
    | admitOperation req seen id now =>
      exact forall_mem_admitRegistryOperation seen (shrinking_ensureRow now).locking
        (fun x => (shrinking_touch x req.owner now).locking) (locking_insertRequestWriter req id now)
    | admitInternal _ _ _ now =>
      exact forall_mem_pair (shrinking_ensureRow now).locking
        (locking_insertWriter fun _ _ h => Gate.admitsWriter_opened h)
    | createSession _ _ _ now =>
      refine forall_mem_pair (shrinking_ensureRow now).locking (locking_insertSession fun g h => ?_)
      rw [Bool.and_eq_true] at h
      exact of_decide_eq_true h.1
    | acquireSweep input now =>
      exact forall_mem_triple (shrinking_ensureRow now).locking (locking_takeSweep input now)
        (shrinking_insertGcRun _ _).locking
    | _ => cases hop

/-- The admission tables refine the lock: an operation is a run of it. -/
theorem steps_lock_step (s : Tables) (op : Op) : Steps s.lock (step s op).lock :=
  Batch.commit_rel (R := fun a b : Tables => Steps a.lock b.lock) (fun _ => .refl)
    (fun h h' => h.trans h') Op.locking_of_mem_batch s

theorem safe_lock_run (ops : List Op) : (run step Tables.empty ops).lock.Safe := by
  refine run_invariant (fun s op h => (steps_lock_step s op).safe h) ?_ ops
  intro h
  simp [Tables.lock, Tables.isSweeping, Tables.empty] at h

/-! ## Writers are inserted under an open gate only -/

/-- A batch that may insert writers: it leaves the gate alone, up to creating it open, and a writer
row is new only under an open gate. -/
structure Tables.AdmitsUnderOpenGate (s s' : Tables) : Prop where
  gate : s'.gate = s.gate ∨ s.gate = none ∧ s'.isGateOpen = true
  rows : ∀ w' ∈ s'.writers, (∃ w ∈ s.writers, w.id = w'.id) ∨ s'.isGateOpen = true

theorem Tables.AdmitsUnderOpenGate.refl (s : Tables) : s.AdmitsUnderOpenGate s where
  gate := .inl rfl
  rows w hw := .inl ⟨w, hw, rfl⟩

theorem Tables.AdmitsUnderOpenGate.trans {a b c : Tables} (hab : a.AdmitsUnderOpenGate b)
    (hbc : b.AdmitsUnderOpenGate c) : a.AdmitsUnderOpenGate c := by
  -- an open gate is a row, so the second half cannot replace it
  have hop : b.isGateOpen = true → c.isGateOpen = true := by
    intro hb
    rcases hbc.gate with h | ⟨-, h⟩
    · rw [Tables.isGateOpen, h]
      exact hb
    · exact h
  constructor
  · rcases hab.gate with h | ⟨h, hb⟩
    · rw [← h]
      exact hbc.gate
    · exact .inr ⟨h, hop hb⟩
  intro w'' hw''
  rcases hbc.rows w'' hw'' with ⟨w', hw', hid⟩ | h
  · rcases hab.rows w' hw' with ⟨w, hw, hid'⟩ | h
    · exact .inl ⟨w, hw, hid'.trans hid⟩
    · exact .inr (hop h)
  · exact .inr h

/-- A query all of whose successes are such. -/
def Query.Admits (q : Query) : Prop := ∀ s s' n, q s = .ok (s', n) → s.AdmitsUnderOpenGate s'

theorem admitsUnderOpenGate_ensureRow (now : Millis) :
    Query.Admits (ensureRegistryAdmissionRow now) := by
  intro s _ _ h
  rw [ensureRegistryAdmissionRow, upsertGate] at h
  split at h
  · rename_i hg
    cases h
    exact ⟨.inr ⟨hg, rfl⟩, fun w hw => .inl ⟨w, hw, rfl⟩⟩
  · cases h
    exact .refl s

theorem admitsUnderOpenGate_insertWriter {guard : Tables → Gate → Bool}
    (hop : ∀ s g, guard s g = true → g.state = .opened) :
    Query.Admits (insertWriter guard row) := by
  intro s s' n h
  obtain rfl | ⟨g, hg, hgd, rfl⟩ := insertWriter_eq_ok h
  · exact .refl s'
  · exact ⟨.inl rfl, fun _ _ => .inr (by simp [Tables.isGateOpen, hg, hop s g hgd])⟩

/-- The two operations that insert a writer row. -/
def Op.admits : Op → Bool
  | .admitOperation .. => true
  | .admitInternal .. => true
  | _ => false

theorem admitsUnderOpenGate_of_mem_batch (hop : op.admits = true) :
    ∀ q ∈ op.batch, Query.Admits q := by
  cases op with
  | admitOperation _ seen _ now =>
    refine forall_mem_admitRegistryOperation seen (admitsUnderOpenGate_ensureRow now) ?_ ?_
    · rintro _ _ _ _ ⟨⟩
      exact ⟨.inl rfl, fun w hw => .inl ⟨w, hw, rfl⟩⟩
    · refine admitsUnderOpenGate_insertWriter fun s g hg => ?_
      rw [Bool.and_eq_true] at hg
      exact Gate.admitsWriter_opened hg.1
  | admitInternal _ _ _ now =>
    exact forall_mem_pair (admitsUnderOpenGate_ensureRow now)
      (admitsUnderOpenGate_insertWriter fun _ _ hg => Gate.admitsWriter_opened hg)
  | _ => cases hop

/-- A query none of whose successes inserts a writer row. -/
def Query.Rows (q : Query) : Prop :=
  ∀ s s' n, q s = .ok (s', n) → ∀ w' ∈ s'.writers, ∃ w ∈ s.writers, w.id = w'.id

theorem Query.Shrinking.rows (h : Query.Shrinking q) : Query.Rows q :=
  fun s s' n hq => (h s s' n hq).rows

/-- A statement of any other operation inserts no writer row. -/
theorem writer_mem_of_mem_batch (hop : op.admits = false) : ∀ q ∈ op.batch, Query.Rows q := by
  cases htks : op.takes with
  | false => exact fun q hq => (Op.shrinking_of_mem_batch htks q hq).rows
  | true =>
    cases op with
    | createSession _ _ _ now =>
      refine forall_mem_pair (shrinking_ensureRow now).rows fun s s' n h => ?_
      obtain rfl | ⟨g, -, -, rfl⟩ := insertSession_eq_ok h <;> exact fun w hw => ⟨w, hw, rfl⟩
    | acquireSweep _ now =>
      refine forall_mem_triple (shrinking_ensureRow now).rows (fun s s' n h => ?_)
        (shrinking_insertGcRun _ _).rows
      obtain rfl | ⟨-, g, -, rfl⟩ := takeSweep_eq_ok h <;> exact fun w hw => ⟨w, hw, rfl⟩
    | admitOperation | admitInternal => cases hop
    | _ => cases htks

/-- A writer row that an operation adds was inserted under an open gate: the gate was open, or was
created open by the operation itself, and it is open afterwards. -/
theorem gateOpen_of_newWriter {w : Writer} (hw : w ∈ (step s op).writers)
    (hnew : ∀ v ∈ s.writers, v.id ≠ w.id) :
    (s.gate = none ∨ s.isGateOpen = true) ∧ (step s op).isGateOpen = true := by
  cases hop : op.admits with
  | true =>
    have h : s.AdmitsUnderOpenGate (step s op) :=
      Batch.commit_rel Tables.AdmitsUnderOpenGate.refl Tables.AdmitsUnderOpenGate.trans
        (admitsUnderOpenGate_of_mem_batch hop) s
    have hopn : (step s op).isGateOpen = true := by
      rcases h.rows w hw with ⟨v, hv, hid⟩ | h
      · exact absurd hid (hnew v hv)
      · exact h
    refine ⟨?_, hopn⟩
    rcases h.gate with hg | ⟨hg, -⟩
    · exact .inr (by rw [Tables.isGateOpen, ← hg]; exact hopn)
    · exact .inl hg
  | false =>
    have h := Batch.commit_rel
      (R := fun a b : Tables => ∀ w' ∈ b.writers, ∃ w ∈ a.writers, w.id = w'.id)
      (fun _ w hw => ⟨w, hw, rfl⟩)
      (fun hab hbc w hw => by
        obtain ⟨v, hv, hvw⟩ := hbc w hw
        obtain ⟨u, hu, huv⟩ := hab v hv
        exact ⟨u, hu, huv.trans hvw⟩)
      (writer_mem_of_mem_batch hop) s
    obtain ⟨v, hv, hid⟩ := h w hw
    exact absurd hid (hnew v hv)

/-- **A sweep and a write never overlap.**  After any interleaving of the admission operations from
the empty tables, whatever clocks they read: while the gate is sweeping, every writer row is
released with a known outcome and no upload session is open; and a writer row that the next
operation adds is added under an open gate. -/
theorem sweep_excludes_writers (ops : List Op) :
    ((run step Tables.empty ops).isSweeping = true →
      (∀ w ∈ (run step Tables.empty ops).writers, w.releasedAt ≠ none ∧ w.outcome ≠ .unknown) ∧
      ∀ x ∈ (run step Tables.empty ops).sessions, x.state ≠ .opened) ∧
    ∀ op, ∀ w ∈ (step (run step Tables.empty ops) op).writers,
      (∀ v ∈ (run step Tables.empty ops).writers, v.id ≠ w.id) →
      ((run step Tables.empty ops).gate = none ∨ (run step Tables.empty ops).isGateOpen = true) ∧
      (step (run step Tables.empty ops) op).isGateOpen = true := by
  refine ⟨fun hsw => ?_, fun op w hw hnew => gateOpen_of_newWriter hw hnew⟩
  have hemp := safe_lock_run ops hsw
  constructor
  · intro w hw
    have hhold : w.isHold = false := by
      by_contra hne
      have hmem : Holder.writer w.id ∈ (run step Tables.empty ops).lock.holders :=
        ⟨w, hw, by simpa using hne, rfl⟩
      rw [hemp] at hmem
      exact hmem
    simpa [Writer.isHold, Option.isSome_iff_ne_none] using hhold
  · intro x hx hop
    have hmem : Holder.session x.id ∈ (run step Tables.empty ops).lock.holders :=
      ⟨x, hx, by simp [Session.isOpen, hop], rfl⟩
    rw [hemp] at hmem
    exact hmem

-- A sweep takes the fresh gate and turns the next writer away; once it ends, the writer enters.
example :
    let sweep : Op := .acquireSweep ⟨"collector", none, "token", "run"⟩ 0
    let write : Op := .admitInternal .runStart "learner" "writer" 1
    let finish : Op := .finishSweep "token" .completed none ⟨none, none, none, none⟩ 2
    (run step Tables.empty [sweep]).isSweeping = true ∧
    (run step Tables.empty [sweep, write]).writers = [] ∧
    (run step Tables.empty [sweep, finish, write]).writers.length = 1 := by
  decide

end Intar.Registry
