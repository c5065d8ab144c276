import Intar.Lib.Lease
import Intar.Registry.AdmissionSafety

/-!
# The sweep is a lease with a ledger

The exclusive sweep lives in two tables: the gate row says who sweeps and when they last signed, and
`image_registry_gc_runs` has a row for every sweep that was ever granted.  The two have separate
heartbeats, and they are written by different statements.  Together they stand for a `Lease`
(`Tables.lease`): an acquisition grants it, a heartbeat renews it, a progress record signs the
ledger alone, `finishRegistrySweep` ends it and an operator's reap resolves what has not signed
since its cutoff.

* `lease_step`: every operation of every caller is one move of the lease, and most of them are idle.
* A reap aborts the run and opens the gate in two statements with two conditions.  They agree as
  long as the run never signed earlier than the gate.
* The unique index on the token of a run is what keeps a token from being granted twice, whoever
  chooses it.
-/

namespace Intar.Registry

open Batch List Bool

/-! ## The lease the tables stand for -/

/-- Who sweeps, and when they last signed the gate. -/
def Gate.holder (g : Gate) : Option (String × Millis) :=
  if g.state = .sweeping then
    g.sweepToken.bind fun token => g.sweepHeartbeatAt.map fun beat => (token, beat)
  else none

def GcRun.entry (r : GcRun) : Lease.Entry String Millis GcRunState :=
  ⟨r.sweepToken, r.heartbeatAt, if r.isRunning then none else some r.state⟩

/-- The epoch of the gate; a gate that is not there yet has made no grant. -/
def Tables.epoch (s : Tables) : ℕ := (s.gate.map Gate.epoch).getD 0

def Tables.lease (s : Tables) : Lease.State String Millis GcRunState :=
  ⟨s.gate.bind Gate.holder, s.epoch, s.gcRuns.map GcRun.entry⟩

/-- A gate that sweeps says for whom and since when, and the run is in the ledger. -/
def Tables.SweepsOnRecord (s : Tables) : Prop :=
  ∀ g, s.gate = some g → g.state = .sweeping →
    ∃ token beat, g.sweepToken = some token ∧ g.sweepHeartbeatAt = some beat ∧
      token ∈ s.gcRuns.map GcRun.sweepToken

@[simp] theorem GcRun.isRunning_entry (r : GcRun) : r.entry.isRunning = r.isRunning := by
  cases h : r.isRunning <;> simp [GcRun.entry, Lease.Entry.isRunning, h]

theorem tokens_lease (s : Tables) :
    s.lease.ledger.map Lease.Entry.token = s.gcRuns.map GcRun.sweepToken := map_map

variable {g : Gate} {s s' : Tables} {f : Gate → Gate}

variable {token : String} {p : Gate → Bool} {op : Op} {input : ReapInput}

theorem Gate.holder_of_opened (h : g.state = .opened) : g.holder = none := by
  simp [Gate.holder, h]

theorem Gate.holder_eq_some {beat : Millis} :
    g.holder = some (token, beat) ↔
      g.state = .sweeping ∧ g.sweepToken = some token ∧ g.sweepHeartbeatAt = some beat := by
  cases hs : g.state with
  | opened => simp [Gate.holder, hs]
  | sweeping => simp [Gate.holder, hs, Option.bind_eq_some_iff]

/-! ## Statements that leave the lease alone -/

structure Tables.SameSweep (s s' : Tables) : Prop where
  lease : s'.lease = s.lease
  gcRuns : s'.gcRuns = s.gcRuns
  record : s.SweepsOnRecord → s'.SweepsOnRecord

theorem Tables.SameSweep.refl (s : Tables) : s.SameSweep s := ⟨rfl, rfl, id⟩

theorem Tables.SameSweep.trans {a b c : Tables} (hab : a.SameSweep b) (hbc : b.SameSweep c) :
    a.SameSweep c :=
  ⟨hbc.lease.trans hab.lease, hbc.gcRuns.trans hab.gcRuns, hbc.record ∘ hab.record⟩

/-- A query all of whose successes leave the lease alone. -/
def Query.Quiet (q : Query) : Prop := ∀ s s' n, q s = .ok (s', n) → s.SameSweep s'

/-- The two gate rows sweep for the same holder, in the same epoch. -/
def Gate.SameSweep (g g' : Gate) : Prop :=
  g'.state = g.state ∧ g'.sweepToken = g.sweepToken ∧ g'.sweepHeartbeatAt = g.sweepHeartbeatAt ∧
    g'.epoch = g.epoch

theorem sameSweep_setGate {g' : Gate} (hg : s.gate = some g) (h : g.SameSweep g') :
    s.SameSweep { s with gate := some g' } := by
  obtain ⟨hsta, htok, hbeat, hep⟩ := h
  refine ⟨?_, rfl, ?_⟩
  · simp [Tables.lease, Tables.epoch, Gate.holder, hg, hsta, htok, hbeat, hep]
  intro hrec g₁ hg₁ hswp
  obtain rfl : g' = g₁ := Option.some.inj hg₁
  rw [htok, hbeat]
  exact hrec g hg (hsta ▸ hswp)

/-- A first gate row that is open, and has granted nothing yet. -/
theorem sameSweep_newGate (hg : s.gate = none) (hsta : g.state = .opened) (hep : g.epoch = 0) :
    s.SameSweep { s with gate := some g } := by
  refine ⟨?_, rfl, ?_⟩
  · simp [Tables.lease, Tables.epoch, hg, Gate.holder_of_opened hsta, hep]
  intro _ g₁ hg₁ hswp
  obtain rfl : g = g₁ := Option.some.inj hg₁
  rw [hsta] at hswp
  cases hswp

theorem quiet_updateGate (hf : ∀ g : Gate, g.SameSweep (f g)) : Query.Quiet (updateGate p f) := by
  intro s _ _ hq
  rw [updateGate] at hq
  split at hq
  · cases hq
    exact .refl s
  rename_i g hg
  split at hq
  · cases hq
    exact sameSweep_setGate hg (hf g)
  · cases hq
    exact .refl s

theorem quiet_upsertGate {g₀ : Gate} (hsta : g₀.state = .opened) (hep : g₀.epoch = 0)
    (hf : ∀ g : Gate, p g = true → g.SameSweep (f g)) : Query.Quiet (upsertGate g₀ p f) := by
  intro s _ _ hq
  rw [upsertGate] at hq
  split at hq
  · rename_i hg
    cases hq
    exact sameSweep_newGate hg hsta hep
  rename_i g hg
  split at hq
  · rename_i hp
    cases hq
    exact sameSweep_setGate hg (hf g hp)
  · cases hq
    exact .refl s

theorem quiet_ensureRow (now : Millis) : Query.Quiet (ensureRegistryAdmissionRow now) :=
  quiet_upsertGate rfl rfl fun _ hp => nomatch hp

/-- Sessions and writers are no part of the lease. -/
theorem sameSweep_rows (s : Tables) (sessions : List Session) (writers : List Writer) :
    s.SameSweep { s with sessions, writers } := ⟨rfl, rfl, id⟩

variable (p : Tables → Session → Bool)

theorem quiet_updateSessions (f : Session → Session) : Query.Quiet (updateSessions p f) := by
  rintro s _ _ ⟨⟩
  exact sameSweep_rows s _ _

theorem quiet_deleteSessions : Query.Quiet (deleteSessions p) := by
  rintro s _ _ ⟨⟩
  exact sameSweep_rows s _ _

theorem quiet_updateWriters (p : Writer → Bool) (f : Writer → Writer) :
    Query.Quiet (updateWriters p f) := by
  rintro s _ _ ⟨⟩
  exact sameSweep_rows s _ _

theorem quiet_deleteWriters (p : Tables → Writer → Bool) : Query.Quiet (deleteWriters p) := by
  rintro s _ _ ⟨⟩
  exact sameSweep_rows s _ _

theorem quiet_insertWriter (guard : Tables → Gate → Bool) (row : Gate → Writer) :
    Query.Quiet (insertWriter guard row) := by
  intro s s' n hq
  obtain rfl | ⟨g, -, -, rfl⟩ := insertWriter_eq_ok hq
  · exact .refl s'
  · exact sameSweep_rows s _ _

theorem quiet_insertSession (guard : Gate → Bool) (row : Gate → Session) :
    Query.Quiet (insertSession guard row) := by
  intro s s' n hq
  obtain rfl | ⟨g, -, -, rfl⟩ := insertSession_eq_ok hq
  · exact .refl s'
  · exact sameSweep_rows s _ _

/-- The operations that work on the lease. -/
def Op.sweeps : Op → Bool
  | .reap input _ => input.resolveStalledSweeps
  | .acquireSweep .. => true
  | .heartbeatSweep .. => true
  | .recordProgress .. => true
  | .finishSweep .. => true
  | _ => false

theorem Op.quiet_of_mem_batch (hop : op.sweeps = false) : ∀ q ∈ op.batch, Query.Quiet q := by
  cases op with
  | acquireSweep | heartbeatSweep | recordProgress | finishSweep => cases hop
  | admitOperation _ seen _ now =>
    exact forall_mem_admitRegistryOperation seen (quiet_ensureRow now)
      (fun x => quiet_updateSessions _ _) (quiet_insertWriter _ _)
  | admitInternal _ _ _ now =>
    exact forall_mem_pair (quiet_ensureRow now) (quiet_insertWriter _ _)
  | touch => exact forall_mem_singleton.mpr (quiet_updateSessions _ _)
  | release =>
    simp only [Op.batch, releaseRegistryOperation]
    split
    · exact forall_mem_singleton.mpr (quiet_updateWriters _ _)
    · exact forall_mem_singleton.mpr (quiet_deleteWriters _)
  | createSession _ _ _ now =>
    exact forall_mem_pair (quiet_ensureRow now) (quiet_insertSession _ _)
  | completeSession =>
    exact forall_mem_pair (quiet_updateSessions _ _) (quiet_deleteWriters _)
  | reap =>
    rw [Op.sweeps] at hop
    simp only [Op.batch, reapRegistryAdmission, hop, false_eq_true, if_false, append_nil]
    exact forall_mem_triple (quiet_updateSessions _ _) (quiet_deleteWriters _) (quiet_deleteWriters _)
  | compact => exact forall_mem_pair (quiet_deleteWriters _) (quiet_deleteSessions _)
  | setPause =>
    simp only [Op.batch, setRegistryPause]
    split
    · exact forall_mem_singleton.mpr (quiet_upsertGate rfl rfl fun _ _ => ⟨rfl, rfl, rfl, rfl⟩)
    · exact forall_mem_singleton.mpr (quiet_updateGate fun _ => ⟨rfl, rfl, rfl, rfl⟩)
  | setEnforcement =>
    exact forall_mem_singleton.mpr (quiet_upsertGate rfl rfl fun _ _ => ⟨rfl, rfl, rfl, rfl⟩)

theorem sameSweep_step (hop : op.sweeps = false) (s : Tables) : s.SameSweep (step s op) :=
  commit_rel Tables.SameSweep.refl Tables.SameSweep.trans (Op.quiet_of_mem_batch hop) s

/-! ## The operations of a sweep -/

/-- The row of a sweep that was just granted. -/
def SweepInput.newRun (input : SweepInput) (now : Millis) : GcRun where
  id := input.runId
  owner := input.owner
  sweepToken := input.sweepToken
  state := .running
  startedAt := now
  heartbeatAt := now
  finishedAt := none
  counters := ⟨0, 0, 0, 0⟩
  error := none
  detailJson := none
  createdAt := now
  updatedAt := now

/-- Changing running rows only changes the running entries. -/
theorem entries_update {p : GcRun → Bool} {f : GcRun → GcRun}
    {q : Lease.Entry String Millis GcRunState → Bool}
    {g : Lease.Entry String Millis GcRunState → Lease.Entry String Millis GcRunState}
    (hp : ∀ r, p r = (q r.entry && r.isRunning))
    (hf : ∀ r, r.isRunning = true → (f r).entry = g r.entry) (rows : List GcRun) :
    (Table.update p f rows).map GcRun.entry = Lease.updateRunning q g (rows.map GcRun.entry) := by
  rw [Table.update, Lease.updateRunning, map_map, map_map]
  refine map_congr_left fun r _ => ?_
  dsimp only [Function.comp]
  rw [GcRun.isRunning_entry, ← hp r]
  split_ifs with hpick
  · rw [hp, and_eq_true] at hpick
    exact hf r hpick.2
  · rfl

theorem updateGate_eq (p : Gate → Bool) (f : Gate → Gate) (s : Tables) :
    ∃ n, updateGate p f s =
      .ok ({ s with gate := s.gate.map fun g => if p g then f g else g }, n) := by
  obtain ⟨gate, _, _, _⟩ := s
  cases gate with
  | none => exact ⟨0, rfl⟩
  | some g =>
    by_cases hp : p g = true
    · exact ⟨1, by simp [updateGate, hp]⟩
    · exact ⟨0, by simp [updateGate, hp]⟩

/-- A batch that writes the gate and then the ledger. -/
theorem commit_gate_runs (p : Gate → Bool) (f : Gate → Gate) (q : GcRun → Bool)
    (f' : GcRun → GcRun) (s : Tables) :
    commit [updateGate p f, updateGcRuns q f'] s =
      { s with
        gate := s.gate.map fun g => if p g then f g else g
        gcRuns := Table.update q f' s.gcRuns } := by
  obtain ⟨n, hgate⟩ := updateGate_eq p f s
  simp [commit, exec, hgate, updateGcRuns]

/-- Two gates whose holders correspond, and whose epochs are the same. -/
theorem lease_of_mapGate {l : Lease.State String Millis GcRunState} (hgate : s'.gate = s.gate.map f)
    (hep : ∀ g, (f g).epoch = g.epoch) (hl : l.epoch = s.epoch)
    (hhold : (s.gate.map f).bind Gate.holder = l.holder)
    (hrws : s'.gcRuns.map GcRun.entry = l.ledger) : s'.lease = l := by
  obtain ⟨_, epoch, _⟩ := l
  rw [Tables.lease, hgate, Lease.State.mk.injEq]
  refine ⟨hhold, ?_, hrws⟩
  rw [show epoch = s.epoch from hl, Tables.epoch, hgate, Tables.epoch, Option.map_map]
  cases s.gate with
  | none => rfl
  | some g => exact hep g

theorem Gate.sweepsAs_iff :
    g.sweepsAs token = true ↔ g.state = .sweeping ∧ g.sweepToken = some token := by
  simp [Gate.sweepsAs]

/-- What a statement guarded by the caller's own token does to the holder. -/
theorem holder_mapGate (hrec : s.SweepsOnRecord) (holder : Option (String × Millis))
    (hf : ∀ g, g.sweepsAs token = true → (f g).holder = holder) :
    (s.gate.map fun g => if g.sweepsAs token then f g else g).bind Gate.holder =
      (s.gate.bind Gate.holder).bind fun h => if h.1 = token then holder else some h := by
  cases hg : s.gate with
  | none => rfl
  | some g =>
    simp only [Option.map_some, Option.bind_some]
    cases hsta : g.state with
    | opened =>
      rw [if_neg (by simp [Gate.sweepsAs, hsta]), Gate.holder_of_opened hsta]
      rfl
    | sweeping =>
      obtain ⟨token', _, htok, hbeat, -⟩ := hrec g hg hsta
      have hhold := Gate.holder_eq_some.mpr ⟨hsta, htok, hbeat⟩
      rw [hhold, Option.bind_some]
      by_cases heq : token' = token
      · have hsweeps : g.sweepsAs token = true := Gate.sweepsAs_iff.mpr ⟨hsta, heq ▸ htok⟩
        rw [if_pos hsweeps, if_pos heq, hf g hsweeps]
      · rw [if_neg (by simp [Gate.sweepsAs, htok, heq]), if_neg heq, hhold]

theorem lease_heartbeatSweep (hrec : s.SweepsOnRecord) (token : String) (leaseMs : Option Millis)
    (now : Millis) :
    (step s (.heartbeatSweep token leaseMs now)).lease = s.lease.apply (.renew token now) := by
  rw [step, Op.batch, heartbeatRegistrySweep, commit_gate_runs]
  refine lease_of_mapGate rfl (fun g => ?_) rfl ?_ ?_
  · split_ifs <;> rfl
  · refine (holder_mapGate hrec (some (token, now)) fun g hsweeps => ?_).trans ?_
    · obtain ⟨hsta, htok⟩ := Gate.sweepsAs_iff.mp hsweeps
      exact Gate.holder_eq_some.mpr ⟨hsta, htok, rfl⟩
    change _ = (s.gate.bind Gate.holder).map _
    cases s.gate.bind Gate.holder with
    | none => rfl
    | some =>
      rw [Option.bind_some, Option.map_some]
      split_ifs <;> rfl
  · refine entries_update (fun r => ?_) (fun r hrun => ?_) _
    · rfl
    simp only [GcRun.isRunning] at hrun
    simp [GcRun.entry, GcRun.isRunning, hrun]

theorem lease_recordProgress (s : Tables) (token : String) (counters : CounterInput)
    (detail : Option String) (now : Millis) :
    (step s (.recordProgress token counters detail now)).lease =
      s.lease.apply (.note token now) := by
  refine congrArg (Lease.State.mk _ _) (entries_update (fun r => ?_) (fun r hrun => ?_) _)
  · rfl
  simp only [GcRun.isRunning] at hrun
  simp [GcRun.entry, GcRun.isRunning, hrun]

theorem SweepOutcome.runState_ne_running (o : SweepOutcome) : o.runState ≠ .running := by
  cases o <;> simp [SweepOutcome.runState]

theorem lease_finishSweep (hrec : s.SweepsOnRecord) (token : String) (outcome : SweepOutcome)
    (error : Option String) (counters : CounterInput) (now : Millis) :
    (step s (.finishSweep token outcome error counters now)).lease =
      s.lease.apply (.finish token now outcome.runState) := by
  rw [step, Op.batch, finishRegistrySweep, commit_gate_runs]
  refine lease_of_mapGate rfl (fun g => ?_) rfl ?_ ?_
  · split_ifs <;> rfl
  · refine (holder_mapGate hrec none fun g _ => Gate.holder_of_opened rfl).trans ?_
    change _ = (s.gate.bind Gate.holder).filter _
    cases s.gate.bind Gate.holder with
    | none => rfl
    | some h => by_cases htok : h.1 = token <;> simp [Option.filter, htok]
  · refine entries_update (fun r => ?_) (fun r _ => ?_) _
    · rfl
    · simp [GcRun.entry, GcRun.isRunning, outcome.runState_ne_running]

/-- The gate as the two last statements of a resolving reap leave it; `busy` says whether a run is
still running. -/
def Gate.resolve (cutoff now : Millis) (busy : Bool) (g : Gate) : Gate :=
  let g :=
    if g.state = .sweeping && g.sweepHeartbeatAt.any (· ≤ cutoff) && !busy then
      { g with
        state := .opened
        sweepOwner := none
        sweepStartedAt := none
        sweepHeartbeatAt := none
        sweepExpiresAt := none
        updatedAt := now }
    else g
  if g.state = .opened && g.sweepExpiresAt.isNone then
    { g with sweepToken := none, updatedAt := now }
  else g

section

variable {cutoff now beat : Millis} {busy : Bool}

theorem Gate.resolve_opened (h : g.state = .opened) :
    (g.resolve cutoff now busy).state = .opened := by
  simp only [Gate.resolve, h, reduceCtorEq, decide_false, Bool.false_and, false_eq_true,
    if_false, decide_true, Bool.true_and]
  split_ifs
  · rfl
  · exact h

theorem Gate.resolve_of_sweeping (h : (g.resolve cutoff now busy).state = .sweeping) :
    g.resolve cutoff now busy = g := by
  unfold Gate.resolve at h ⊢
  dsimp only at h ⊢
  split_ifs at h ⊢ with hstl hno hop
  all_goals simp_all

theorem Gate.resolve_of_stays (h : g.state = .sweeping) (hbeat : g.sweepHeartbeatAt = some beat)
    (hsty : beat ≤ cutoff → busy = true) : g.resolve cutoff now busy = g := by
  have hcd : ¬ (beat ≤ cutoff ∧ busy = false) := fun hc => by simp [hsty hc.1] at hc
  simp [Gate.resolve, h, hbeat, hcd]

theorem Gate.resolve_of_stale (h : g.state = .sweeping) (hbeat : g.sweepHeartbeatAt = some beat)
    (hstl : ¬ (beat ≤ cutoff → busy = true)) : (g.resolve cutoff now busy).state = .opened := by
  rw [Classical.not_imp, not_eq_true] at hstl
  simp [Gate.resolve, h, hbeat, hstl]

end

/-- The row as a resolving reap leaves it. -/
def GcRun.abort (now : Millis) (r : GcRun) : GcRun :=
  { r with
    state := .aborted
    error := some (r.error.getD "sweep stalled and was resolved by an operator")
    finishedAt := some now
    updatedAt := now }

theorem step_reap (s : Tables) (hrslv : input.resolveStalledSweeps = true) (now : Millis) :
    let cutoff := now - input.graceMs.getD reapGraceMs
    let rows := Table.update (fun r => r.isRunning && r.heartbeatAt ≤ cutoff) (GcRun.abort now)
      s.gcRuns
    (step s (.reap input now)).gate =
        s.gate.map (Gate.resolve cutoff now (rows.any GcRun.isRunning)) ∧
      (step s (.reap input now)).gcRuns = rows := by
  intro _ _
  simp only [step, Op.batch, reapRegistryAdmission, hrslv, if_true, cons_append,
    nil_append, commit, exec, updateSessions, deleteWriters, updateGcRuns]
  rw [(updateGate_eq _ _ _).choose_spec]
  dsimp only
  rw [(updateGate_eq _ _ _).choose_spec]
  dsimp only
  rw [Option.map_map]
  exact ⟨rfl, rfl⟩

theorem lease_reap (hrec : s.SweepsOnRecord) (hrslv : input.resolveStalledSweeps = true)
    (now : Millis) :
    (step s (.reap input now)).lease =
      s.lease.apply (.resolve (now - input.graceMs.getD reapGraceMs) .aborted) := by
  obtain ⟨hgate, hgcRuns⟩ := step_reap s hrslv now
  have hrws : ∀ cutoff, (Table.update (fun r => r.isRunning && r.heartbeatAt ≤ cutoff)
      (GcRun.abort now) s.gcRuns).map GcRun.entry = Lease.updateRunning (·.beat ≤ cutoff)
        (fun e => { e with ended := some .aborted }) (s.gcRuns.map GcRun.entry) := by
    intro _
    refine entries_update (fun r => ?_) (fun r _ => ?_) _
    · exact and_comm _ _
    · rfl
  have hbusy : ∀ rows : List GcRun, (rows.map GcRun.entry).any Lease.Entry.isRunning =
      rows.any GcRun.isRunning := by
    intro rows
    rw [any_map]
    exact congrArg rows.any (funext GcRun.isRunning_entry)
  refine lease_of_mapGate hgate (fun g => ?_) rfl ?_ (hgcRuns ▸ hrws _)
  · simp only [Gate.resolve]
    split_ifs <;> rfl
  change _ = (s.gate.bind Gate.holder).filter _
  dsimp only [Tables.lease]
  rw [← hrws, hbusy]
  generalize now - input.graceMs.getD reapGraceMs = cutoff
  generalize (Table.update _ (GcRun.abort now) s.gcRuns).any GcRun.isRunning = busy
  cases hg : s.gate with
  | none => rfl
  | some g =>
    simp only [Option.map_some, Option.bind_some]
    cases hsta : g.state with
    | opened =>
      rw [Gate.holder_of_opened hsta, Gate.holder_of_opened (Gate.resolve_opened hsta)]
      rfl
    | sweeping =>
      obtain ⟨_, beat, htok, hbeat, -⟩ := hrec g hg hsta
      rw [Gate.holder_eq_some.mpr ⟨hsta, htok, hbeat⟩]
      by_cases hsty : beat ≤ cutoff → busy = true
      · rw [Gate.resolve_of_stays hsta hbeat hsty, Gate.holder_eq_some.mpr ⟨hsta, htok, hbeat⟩]
        simpa [Option.filter] using hsty
      · rw [Gate.holder_of_opened (Gate.resolve_of_stale hsta hbeat hsty)]
        simpa [Option.filter] using hsty

/-- The gate an acquisition finds, or makes. -/
theorem ensureRow_eq (s : Tables) (now : Millis) :
    ∃ g n, ensureRegistryAdmissionRow now s = .ok ({ s with gate := some g }, n) ∧
      (s.gate = some g ∨ s.gate = none ∧ g = freshGate now) := by
  obtain ⟨gate, _, _, _⟩ := s
  cases gate with
  | none => exact ⟨freshGate now, 1, rfl, .inr ⟨rfl, rfl⟩⟩
  | some g => exact ⟨g, 0, rfl, .inl rfl⟩

theorem insertGcRun_eq {guard : Tables → Bool} (row : GcRun) (hgd : guard s = true) :
    (row.id ∉ s.gcRuns.map GcRun.id ∧ row.sweepToken ∉ s.gcRuns.map GcRun.sweepToken ∧
        insertGcRun guard row s = .ok ({ s with gcRuns := s.gcRuns ++ [row] }, 1)) ∨
      ((row.id ∈ s.gcRuns.map GcRun.id ∨ row.sweepToken ∈ s.gcRuns.map GcRun.sweepToken) ∧
        ∃ e, insertGcRun guard row s = .error e) := by
  rw [insertGcRun, if_pos hgd]
  by_cases hid : row.id ∈ s.gcRuns.map GcRun.id
  · exact .inr ⟨.inl hid, .gcRunId, by simp only [Table.insert_eq_ite, hid, if_true]⟩
  by_cases htok : row.sweepToken ∈ s.gcRuns.map GcRun.sweepToken
  · refine .inr ⟨.inr htok, .gcRunSweepToken, ?_⟩
    simp [Table.insert_eq_ite, hid, htok]
  · exact .inl ⟨hid, htok, by simp only [Table.insert_eq_ite, hid, htok, if_false]⟩

/-- **What an acquisition does.**  It takes an open gate while no run is running and records the run
under an id and a token that no run had; or it is refused and the sweep is as before. -/
theorem acquireSweep_cases (hrec : s.SweepsOnRecord) (input : SweepInput) (now : Millis) :
    (acquires s input now = true ∧ ∃ g : Gate,
      (s.gate = some g ∨ s.gate = none ∧ g = freshGate now) ∧ g.state = .opened ∧
      (∀ r ∈ s.gcRuns, r.isRunning = false) ∧
      input.runId ∉ s.gcRuns.map GcRun.id ∧ input.sweepToken ∉ s.gcRuns.map GcRun.sweepToken ∧
      step s (.acquireSweep input now) =
        { s with
          gate := some (g.startSweep input now)
          gcRuns := s.gcRuns ++ [input.newRun now] }) ∨
    acquires s input now = false ∧ s.SameSweep (step s (.acquireSweep input now)) := by
  obtain ⟨g, n, hensure, hgate⟩ := ensureRow_eq s now
  have hsm : s.SameSweep { s with gate := some g } := quiet_ensureRow now s _ _ hensure
  let guard : Tables → Bool := fun s => s.gate.any fun g =>
    g.state = .sweeping && g.sweepToken = some input.sweepToken
  have hexec : ∀ {s₂ s₃ n₂ n₃}, takeSweep input now { s with gate := some g } = .ok (s₂, n₂) →
      insertGcRun guard (input.newRun now) s₂ = .ok (s₃, n₃) →
      exec (acquireRegistrySweep input now) s = .ok (s₃, [n, n₂, n₃]) := fun htake hinsert =>
    exec_cons_eq_ok.mpr ⟨_, _, _, hensure, exec_cons_eq_ok.mpr ⟨_, _, _, htake,
      exec_cons_eq_ok.mpr ⟨_, _, _, hinsert, rfl, rfl⟩, rfl⟩, rfl⟩
  have hfailed : ∀ {s₂ n₂ e}, takeSweep input now { s with gate := some g } = .ok (s₂, n₂) →
      insertGcRun guard (input.newRun now) s₂ = .error e →
      acquires s input now = false ∧ s.SameSweep (step s (.acquireSweep input now)) := by
    intro _ _ e htake hinsert
    have hfail : exec (acquireRegistrySweep input now) s = .error e :=
      exec_cons_eq_error.mpr (.inr ⟨_, _, hensure, exec_cons_eq_error.mpr
        (.inr ⟨_, _, htake, exec_cons_eq_error.mpr (.inl hinsert)⟩)⟩)
    refine ⟨by rw [acquires, hfail], ?_⟩
    rw [step, Op.batch, commit_of_error hfail]
    exact .refl s
  by_cases hfr : (s.writers.any Writer.isHold || s.sessions.any Session.isOpen ||
      s.gcRuns.any GcRun.isRunning) = false ∧ (g.state = .opened && g.pausedAt.isNone) = true
  · obtain ⟨hqt, hop⟩ := hfr
    have htake : takeSweep input now { s with gate := some g } =
        .ok ({ s with gate := some (g.startSweep input now) }, 1) := by
      simp [takeSweep, upsertGate, hqt, hop]
    have hgd : guard { s with gate := some (g.startSweep input now) } = true := by
      simp [guard, Gate.startSweep]
    rcases insertGcRun_eq (input.newRun now) hgd with ⟨hid, htok, hins⟩ | ⟨-, e, hins⟩
    · have hok := hexec htake hins
      rw [or_eq_false_iff, any_eq_false] at hqt
      refine .inl ⟨by rw [acquires, hok]; rfl, g, hgate, ?_, ?_, hid, htok, ?_⟩
      · rw [and_eq_true, decide_eq_true_eq] at hop
        exact hop.1
      · exact fun r hr => by simpa using hqt.2 r hr
      · rw [step, Op.batch, commit_of_ok hok]
    · exact .inr (hfailed htake hins)
  · have htake : takeSweep input now { s with gate := some g } =
        .ok ({ s with gate := some g }, 0) := by
      rw [takeSweep]
      split_ifs with hbusy
      · rfl
      have hcls : ¬ (g.state = .opened && g.pausedAt.isNone) = true := fun hop =>
        hfr ⟨by simpa using hbusy, hop⟩
      simp [upsertGate, hcls]
    cases hgd : guard { s with gate := some g } with
    | false =>
      have hok := hexec htake (if_neg (by rw [hgd]; exact false_ne_true))
      refine .inr ⟨by rw [acquires, hok]; rfl, ?_⟩
      rw [step, Op.batch, commit_of_ok hok]
      exact hsm
    | true =>
      -- the gate sweeps under the very token that is asked for, so its run is in the ledger
      obtain ⟨hswp, hask⟩ : g.state = .sweeping ∧ g.sweepToken = some input.sweepToken := by
        simpa [guard] using hgd
      obtain ⟨_, _, htok, -, hmem⟩ := hsm.record hrec g rfl hswp
      rcases insertGcRun_eq (input.newRun now) hgd with ⟨-, hnew, -⟩ | ⟨-, e, hins⟩
      · rw [hask, Option.some.injEq] at htok
        subst htok
        exact absurd hmem hnew
      · exact .inr (hfailed htake hins)

/-! ## Every operation is a move of the lease -/

/-- The move an operation makes on the tables it finds. -/
def Op.move (s : Tables) : Op → Lease.Move String Millis GcRunState
  | .acquireSweep input now =>
    if acquires s input now then .acquire input.sweepToken now else .idle
  | .heartbeatSweep sweepToken _ now => .renew sweepToken now
  | .recordProgress sweepToken _ _ now => .note sweepToken now
  | .finishSweep sweepToken outcome _ _ now => .finish sweepToken now outcome.runState
  | .reap input now =>
    if input.resolveStalledSweeps then
      .resolve (now - input.graceMs.getD reapGraceMs) .aborted
    else .idle
  | _ => .idle

theorem Op.move_of_not_sweeps (s : Tables) (hop : op.sweeps = false) : op.move s = .idle := by
  cases op with
  | acquireSweep | heartbeatSweep | recordProgress | finishSweep => cases hop
  | reap =>
    rw [Op.sweeps] at hop
    rw [Op.move, hop]
    rfl
  | _ => rfl

/-- A gate that is mapped keeps its record, if what still sweeps sweeps for the same run. -/
theorem record_of_mapGate (hrec : s.SweepsOnRecord) (hgate : s'.gate = s.gate.map f)
    (htokens : s'.gcRuns.map GcRun.sweepToken = s.gcRuns.map GcRun.sweepToken)
    (hf : ∀ g, (f g).state = .sweeping → g.state = .sweeping ∧ (f g).sweepToken = g.sweepToken ∧
      (g.sweepHeartbeatAt.isSome = true → (f g).sweepHeartbeatAt.isSome = true)) :
    s'.SweepsOnRecord := by
  intro _ hg' hswp
  rw [hgate, Option.map_eq_some_iff] at hg'
  obtain ⟨g, hg, rfl⟩ := hg'
  obtain ⟨hsta, htok, hbeat⟩ := hf g hswp
  obtain ⟨token, _, htok', hbeat', hmem⟩ := hrec g hg hsta
  obtain ⟨beat', hbeat''⟩ := Option.isSome_iff_exists.mp (hbeat (by rw [hbeat']; rfl))
  exact ⟨token, beat', htok.trans htok', hbeat'', htokens ▸ hmem⟩

/-- What an operation does to the sweep: a move that the lease allows. -/
structure Tables.Moves (s s' : Tables) (move : Lease.Move String Millis GcRunState) : Prop where
  lease : s'.lease = s.lease.apply move
  allows : s.lease.Allows move
  record : s'.SweepsOnRecord

theorem moves_acquireSweep (hrec : s.SweepsOnRecord) (input : SweepInput) (now : Millis) :
    s.Moves (step s (.acquireSweep input now)) ((Op.acquireSweep input now).move s) := by
  obtain ⟨hacq, g, hgate, hop, hqt, -, htok, hstp⟩ | ⟨hacq, hsm⟩ :=
    acquireSweep_cases hrec input now
  · rw [Op.move, if_pos hacq, hstp]
    refine ⟨?_, ⟨?_, ?_, ?_⟩, ?_⟩
    · refine congrArg₂ (Lease.State.mk _) ?_ map_append
      rcases hgate with hg | ⟨hg, rfl⟩ <;> simp [Tables.lease, Tables.epoch, hg, Gate.startSweep,
        freshGate]
    · rcases hgate with hg | ⟨hg, -⟩ <;> simp [Tables.lease, hg, Gate.holder_of_opened hop]
    · simpa [Tables.lease] using hqt
    · rw [tokens_lease]
      exact htok
    · intro _ hg' _
      obtain rfl := Option.some.inj hg'
      exact ⟨input.sweepToken, now, rfl, rfl, by simp [SweepInput.newRun]⟩
  · rw [Op.move, if_neg (by simp [hacq])]
    exact ⟨hsm.lease, trivial, hsm.record hrec⟩

/-- **Every operation is a move of the lease.** -/
theorem moves_step (hrec : s.SweepsOnRecord) (op : Op) : s.Moves (step s op) (op.move s) := by
  cases hop : op.sweeps with
  | false =>
    have hsm := sameSweep_step hop s
    rw [Op.move_of_not_sweeps s hop]
    exact ⟨hsm.lease, trivial, hsm.record hrec⟩
  | true =>
    cases op with
    | acquireSweep input now => exact moves_acquireSweep hrec input now
    | heartbeatSweep token leaseMs now =>
      refine ⟨lease_heartbeatSweep hrec token leaseMs now, trivial, ?_⟩
      rw [step, Op.batch, heartbeatRegistrySweep, commit_gate_runs]
      refine record_of_mapGate hrec rfl (Table.map_update fun _ => rfl) fun g hg => ?_
      split_ifs at hg ⊢
      · exact ⟨hg, rfl, fun _ => rfl⟩
      · exact ⟨hg, rfl, id⟩
    | recordProgress token counters detail now =>
      refine ⟨lease_recordProgress s token counters detail now, trivial, ?_⟩
      intro g hg hswp
      rw [show (step s (.recordProgress token counters detail now)).gcRuns.map GcRun.sweepToken =
        s.gcRuns.map GcRun.sweepToken from Table.map_update fun _ => rfl]
      exact hrec g hg hswp
    | finishSweep token outcome error counters now =>
      refine ⟨lease_finishSweep hrec token outcome error counters now, trivial, ?_⟩
      rw [step, Op.batch, finishRegistrySweep, commit_gate_runs]
      refine record_of_mapGate hrec rfl (Table.map_update fun _ => rfl) fun g hg => ?_
      split_ifs at hg ⊢
      exact ⟨hg, rfl, id⟩
    | reap _ now =>
      rw [Op.sweeps] at hop
      obtain ⟨hgate, hgcRuns⟩ := step_reap s hop now
      rw [Op.move, if_pos hop]
      refine ⟨lease_reap hrec hop now, trivial, record_of_mapGate hrec hgate ?_ fun g hg => ?_⟩
      · rw [hgcRuns]
        exact Table.map_update fun _ => rfl
      · have hkt := Gate.resolve_of_sweeping hg
        rw [hkt] at hg ⊢
        exact ⟨hg, rfl, id⟩
    | _ => cases hop

end Intar.Registry
