import Intar.Builds.OneHash

/-!
# No ghost builds

A build row and the desired state of a host are written separately.  A task that puts a build into a
desired state looks at the row again afterwards and takes the build out if the row has gone; a task
that takes a row from a host takes the build out of its desired state behind that.  In between, a
desired state may name a build that is not the host's.  The invariant is that some task then *owes*
its removal (`Task.Owes`), and when no task runs, nothing is owed.

A bundle is the exception.  It cleans the desired states in the same batch, but the rows it cleans
up are not all the rows it takes: it supersedes failed builds of other hashes too, and it requeues
retired builds and builds of other scopes.  Where one of these is still in the desired state of its
host it stays there, and nobody owes its removal.  So there are no ghosts in every run in which a
bundle meets no such row (`no_ghosts_of_run`), and there may be one otherwise
(`Demo.failed_build_becomes_ghost`).
-/

namespace Intar.Builds

open Function Trace

open Registry (Architecture BuildStatus)
open Host (Millis DesiredBuild)
open Bool
open List

/-! ## What a desired state may name -/

/-- The row is on the host, or ended there. -/
def BuildRow.isPlaced (hostId : String) (row : BuildRow) : Bool :=
  row.hostId = some hostId &&
    (isOnBuilder row.status || row.status = .succeeded || row.status = .failed)

def Tables.Placed (t : Tables) (hostId buildId : String) : Prop :=
  ∃ row ∈ t.builds, row.id = buildId ∧ row.isPlaced hostId = true

/-- The task will take the build out of the desired state of the host, unless it finds it in its
place. -/
def Task.Owes (hostId buildId : String) : Task → Prop
  | .publishing _ host build => host = hostId ∧ build.id = buildId
  | .rechecking _ host build => host = hostId ∧ build.id = buildId
  | .withdrawing _ host build => host = hostId ∧ build.id = buildId
  | .republishing host assignments => host = hostId ∧ buildId ∈ assignments.map QueuedBuild.id
  | .reviewing host assignments => host = hostId ∧ buildId ∈ assignments.map QueuedBuild.id
  | .removing host buildIds => host = hostId ∧ buildId ∈ buildIds
  | _ => False

def State.Owed (s : State) (hostId buildId : String) : Prop :=
  ∃ task, (s.tasks task).Owes hostId buildId

/-! ## The conditions on a run -/

/-- A row that a bundle takes from the host whose desired state names it, and does not clean up. -/
def Statement.leavesGhost (t : Tables) : Statement → BuildRow → Bool
  | .queueBatch input, row =>
    (input.supersedes row || input.requeues row) && !input.cleansUp row &&
      row.hostId.any fun hostId => row.id ∈ (t.desired hostId).ids
  | _, _ => false

def Statement.Cleans (t : Tables) (statement : Statement) : Prop :=
  ∀ row ∈ t.builds, statement.leavesGhost t row = false

instance (t : Tables) (statement : Statement) : Decidable (statement.Cleans t) :=
  inferInstanceAs (Decidable (∀ row ∈ t.builds, _))

/-- The program points at which a desired state is written. -/
def Task.writesDesired : Task → Bool
  | .unpublishing .. => true
  | .removing .. => true
  | .publishing .. => true
  | .withdrawing .. => true
  | .republishing .. => true
  | _ => false

/-- Writes of desired states succeed. -/
def Op.delivers (s : State) : Op → Bool
  | .advance task ok => ok || !(s.tasks task).writesDesired
  | _ => true

variable {t' : Tables} {hostId buildId : String} {input : QueueInput} {statement : Statement}
  {now : Millis} {guard : BuildRow → Bool} {set : BuildRow → BuildRow}

section

variable {t : Tables}

/-! ## Statements -/

theorem mem_foldl_upsert {builds : List DesiredBuild} {d : DesiredBuilds} {id : String} :
    id ∈ (builds.foldl (fun d build => d.upsert build) d).ids ↔
      id ∈ builds.map DesiredBuild.buildId ∨ id ∈ d.ids := by
  induction builds generalizing d with
  | nil => simp
  | cons _ _ ih =>
    rw [foldl_cons, ih, DesiredBuilds.mem_ids_upsert, map_cons, mem_cons]
    tauto

variable {ids : List String} {row : BuildRow}

theorem desired_insertOrRequeue (h : t.insertOrRequeue input = .ok (t', ids)) :
    t'.desired = t.desired :=
  (otherBuilds_insertOrRequeue h).2

theorem mem_desired_queueBatch (h : queueBatch input t = .ok (t', ids)) :
    buildId ∈ (t'.desired hostId).ids ↔
      buildId ∈ (t.desired hostId).ids ∧ buildId ∉ t.cleanupIds input := by
  rw [desired_insertOrRequeue h]
  exact DesiredBuilds.mem_ids_remove

/-- A desired state only gains what is published to it. -/
theorem mem_desired_of_exec (h : buildId ∈ ((t.exec statement).desired hostId).ids) :
    buildId ∈ (t.desired hostId).ids ∨
      ∃ builds, statement = .publish hostId builds ∧ buildId ∈ builds.map DesiredBuild.buildId := by
  cases statement with
  | none | clearRetired | claim | update | revoke | retire => exact .inl h
  | upsertBundle =>
    simp only [Tables.exec] at h
    split at h
    · rename_i hups
      rw [(upsertBundle_eq_ok hups).2] at h
      exact .inl h
    · exact .inl h
  | queueBatch =>
    simp only [Tables.exec] at h
    split at h
    · rename_i hbat
      exact .inl ((mem_desired_queueBatch hbat).mp h).1
    · exact .inl h
  | publish host builds =>
    by_cases hho : hostId = host
    · subst hho
      simp only [Tables.exec, Tables.mutateDesired, update_self] at h
      rcases mem_foldl_upsert.mp h with h | h
      · exact .inr ⟨builds, rfl, h⟩
      · exact .inl h
    · simp only [Tables.exec, Tables.mutateDesired, update_of_ne hho] at h
      exact .inl h
  | remove host =>
    by_cases hho : hostId = host
    · subst hho
      simp only [Tables.exec, Tables.mutateDesired, update_self] at h
      exact .inl (DesiredBuilds.mem_ids_remove.mp h).1
    · simp only [Tables.exec, Tables.mutateDesired, update_of_ne hho] at h
      exact .inl h

theorem not_mem_desired_remove {buildIds : List String} (h : buildId ∈ buildIds) :
    buildId ∉ ((t.exec (.remove hostId buildIds)).desired hostId).ids := by
  simp only [Tables.exec, Tables.mutateDesired, update_self, DesiredBuilds.mem_ids_remove]
  exact fun hmem => hmem.2 h

/-- An update leaves a build in its place if it leaves its row so. -/
theorem placed_update (hid : ∀ row, (set row).id = row.id)
    (hset : ∀ row ∈ t.builds, row.id = buildId → row.isPlaced hostId = true → guard row = true →
      (set row).isPlaced hostId = true)
    (h : t.Placed hostId buildId) : (t.update now guard set).Placed hostId buildId := by
  obtain ⟨row, hrow, rfl, hplc⟩ := h
  by_cases hgd : guard row = true
  · exact ⟨row.write now set, mem_builds_update.mpr (.inr ⟨row, hrow, hgd, rfl⟩), hid row,
      hset row hrow rfl hplc hgd⟩
  · exact ⟨row, mem_builds_update.mpr (.inl ⟨hrow, eq_false_iff.mpr hgd⟩), rfl, hplc⟩

/-- The rows a bundle neither supersedes nor requeues stay. -/
theorem mem_builds_queueBatch (h : queueBatch input t = .ok (t', ids)) (hrow : row ∈ t.builds)
    (hsupersedes : input.supersedes row = false) (hreq : input.requeues row = false) :
    row ∈ t'.builds := by
  have hkt : row ∈ ((t.cleanDesired input).supersede input).builds :=
    mem_builds_update.mpr (.inl ⟨hrow, hsupersedes⟩)
  rw [queueBatch, Tables.insertOrRequeue] at h
  split at h
  · cases h
    exact mem_builds_update.mpr (.inl ⟨hkt, hreq⟩)
  split at h
  · cases h
  cases h
  exact mem_append_left _ hkt

theorem placed_queueBatch (hbat : queueBatch input t = .ok (t', ids))
    (hcl : (Statement.queueBatch input).Cleans t) (h : t.Placed hostId buildId)
    (hmem : buildId ∈ (t'.desired hostId).ids) :
    t'.Placed hostId buildId := by
  obtain ⟨row, hrow, rfl, hplc⟩ := h
  obtain ⟨hmem, hkt⟩ := (mem_desired_queueBatch hbat).mp hmem
  have hnot : input.cleansUp row = false := by
    refine eq_false_iff.mpr fun hcleans => hkt ?_
    exact mem_map.mpr ⟨row, mem_filter.mpr ⟨hrow, hcleans⟩, rfl⟩
  have hho : row.hostId = some hostId := by
    rw [BuildRow.isPlaced, and_eq_true, decide_eq_true_iff] at hplc
    exact hplc.1
  have htk := hcl row hrow
  rw [Statement.leavesGhost, hnot, hho, Option.any_some, decide_eq_true hmem, Bool.not_false,
    Bool.and_true, Bool.and_true, or_eq_false_iff] at htk
  exact ⟨row, mem_builds_queueBatch hbat hrow htk.1 htk.2, rfl, hplc⟩

/-- The updates that take a row from its host. -/
def Update.takes : Update → Bool
  | .report .. => false
  | _ => true

theorem placed_report {host : String} {message : BuildReport} {read : BuildRow}
    (hplc : row.isPlaced hostId = true)
    (hgd : (Update.report host message read now).guard row = true) :
    ((Update.report host message read now).set row).isPlaced hostId = true := by
  simp only [BuildRow.isPlaced, and_eq_true, decide_eq_true_iff] at hplc
  simp only [Update.guard, and_eq_true, decide_eq_true_iff] at hgd
  have hho : host = hostId := Option.some.inj (hgd.1.1.1.2.symm.trans hplc.1)
  simp only [BuildRow.isPlaced, Update.set, hho, decide_true, Bool.true_and]
  cases message.phase <;> rfl

/-- **A build in its place.**  It stays there, or an update takes its row from the host. -/
theorem placed_exec (hcl : statement.Cleans t) (h : t.Placed hostId buildId)
    (hmem : buildId ∈ ((t.exec statement).desired hostId).ids) :
    (t.exec statement).Placed hostId buildId ∨
      ∃ update, statement = .update update ∧ update.takes = true ∧
        ∃ row ∈ t.builds, row.id = buildId ∧ row.hostId = some hostId ∧
          update.guard row = true := by
  cases statement with
  | none | publish | remove => exact .inl h
  | upsertBundle =>
    left
    simp only [Tables.exec]
    split
    · rename_i hups
      rwa [Tables.Placed, (upsertBundle_eq_ok hups).1]
    · exact h
  | queueBatch =>
    left
    simp only [Tables.exec] at hmem ⊢
    split at hmem
    · rename_i hbat
      exact placed_queueBatch hbat hcl h hmem
    · exact h
  | clearRetired | retire =>
    exact .inl (placed_update (fun _ => rfl) (fun _ _ _ hplc _ => hplc) h)
  | claim _ host =>
    refine .inl (placed_update (fun _ => rfl) (fun row _ _ hplc hgd => ?_) h)
    -- a row that is claimed is on no host
    simp only [Tables.claimable, and_eq_true, decide_eq_true_iff] at hgd
    simp [BuildRow.isPlaced, hgd.1.2] at hplc
  | update update =>
    by_cases htks : update.takes = true
    · obtain ⟨row, hrow, rfl, hplc⟩ := h
      by_cases hgd : update.guard row = true
      · have hho := hplc
        rw [BuildRow.isPlaced, and_eq_true, decide_eq_true_iff] at hho
        exact .inr ⟨update, rfl, htks, row, hrow, rfl, hho.1, hgd⟩
      · exact .inl ⟨row, mem_builds_update.mpr (.inl ⟨hrow, eq_false_iff.mpr hgd⟩), rfl, hplc⟩
    · cases update with
      | report =>
        exact .inl (placed_update (fun _ => rfl) (fun _ _ _ => placed_report) h)
      | _ =>
        exact absurd rfl htks
  | revoke =>
    refine .inl (placed_update (fun _ => rfl) (fun row _ _ hplc _ => ?_) h)
    simp only [BuildRow.isPlaced, and_eq_true, decide_eq_true_iff] at hplc
    simp [BuildRow.isPlaced, hplc.1]

end

/-! ## Rows that are written count up -/

/-- How the rows go on: each stays under its id and counts its writes, and a row that was not there
has an id of its own. -/
structure Evolves (t t' : Tables) : Prop where
  stays : ∀ row ∈ t.builds, ∃ later ∈ t'.builds, later.id = row.id ∧ row.revision ≤ later.revision
  comes : ∀ row ∈ t'.builds, row ∈ t.builds ∨
    (∃ before ∈ t.builds, before.id = row.id ∧ before.revision < row.revision) ∨
      ∀ other ∈ t.builds, other.id ≠ row.id

section

variable {t t'' : Tables}

theorem Evolves.of_builds (h : t'.builds = t.builds) : Evolves t t' where
  stays row hrow := ⟨row, h ▸ hrow, rfl, le_rfl⟩
  comes _ hrow := .inl (h ▸ hrow)

theorem Evolves.trans (h : Evolves t t') (h' : Evolves t' t'') : Evolves t t'' where
  stays row hrow := by
    obtain ⟨later, hlat, hid, hle⟩ := h.stays row hrow
    obtain ⟨last, hls, hid', hle'⟩ := h'.stays later hlat
    exact ⟨last, hls, hid'.trans hid, hle.trans hle'⟩
  comes row hrow := by
    rcases h'.comes row hrow with hrow | ⟨before, hbef, hid, hlt⟩ | hnew
    · exact h.comes row hrow
    · rcases h.comes before hbef with hbef | ⟨first, hfst, hid', hlt'⟩ | hnew
      · exact .inr (.inl ⟨before, hbef, hid, hlt⟩)
      · exact .inr (.inl ⟨first, hfst, hid'.trans hid, hlt'.trans hlt⟩)
      · exact .inr (.inr fun other ho => hid ▸ hnew other ho)
    · refine .inr (.inr fun other ho hid => ?_)
      obtain ⟨later, hlat, hid', -⟩ := h.stays other ho
      exact hnew later hlat (hid'.trans hid)

theorem evolves_update
    (hid : ∀ row, (set row).id = row.id) : Evolves t (t.update now guard set) where
  stays row hrow := by
    by_cases hgd : guard row = true
    · exact ⟨row.write now set, mem_builds_update.mpr (.inr ⟨row, hrow, hgd, rfl⟩), hid row,
        Nat.le_succ _⟩
    · exact ⟨row, mem_builds_update.mpr (.inl ⟨hrow, eq_false_iff.mpr hgd⟩), rfl, le_rfl⟩
  comes row hrow := by
    rcases mem_builds_update.mp hrow with ⟨hrow, -⟩ | ⟨before, hbef, -, rfl⟩
    · exact .inl hrow
    · exact .inr (.inl ⟨before, hbef, (hid before).symm, Nat.lt_succ_self _⟩)

theorem evolves_queueBatch {ids : List String}
    (h : queueBatch input t = .ok (t', ids)) : Evolves t t' := by
  have hcl : Evolves t (t.cleanDesired input) := .of_builds rfl
  have hsup : Evolves (t.cleanDesired input) ((t.cleanDesired input).supersede input) := by
    rw [Tables.supersede]
    exact evolves_update fun _ => rfl
  refine (hcl.trans hsup).trans ?_
  rw [queueBatch, Tables.insertOrRequeue] at h
  split at h
  · cases h
    exact evolves_update fun _ => rfl
  split at h
  · cases h
  rename_i hfr
  cases h
  refine ⟨fun row hrow => ⟨row, mem_append_left _ hrow, rfl, le_rfl⟩, fun row hrow => ?_⟩
  rcases mem_append.mp hrow with hrow | hrow
  · exact .inl hrow
  refine .inr (.inr fun other ho hid => hfr (any_eq_true.mpr ⟨other, ho, ?_⟩))
  rw [mem_singleton.mp hrow] at hid
  exact decide_eq_true hid

theorem evolves_exec (statement : Statement) : Evolves t (t.exec statement) := by
  cases statement with
  | none | publish | remove => exact .of_builds rfl
  | upsertBundle =>
    simp only [Tables.exec]
    split
    · rename_i hups
      exact .of_builds (upsertBundle_eq_ok hups).1
    · exact .of_builds rfl
  | queueBatch =>
    simp only [Tables.exec]
    split
    · rename_i hbat
      exact evolves_queueBatch hbat
    · exact .of_builds rfl
  | clearRetired | claim | revoke | retire => exact evolves_update fun _ => rfl
  | update update => exact evolves_update fun _ => by cases update <;> rfl

/-- A row that was read and may have been written since. -/
def Tables.Seen (t : Tables) (read : BuildRow) : Prop :=
  ∃ row ∈ t.builds, row.id = read.id ∧ read.revision ≤ row.revision

theorem Evolves.seen {read : BuildRow} (h : Evolves t t') (hseen : t.Seen read) : t'.Seen read := by
  obtain ⟨row, hrow, hid, hle⟩ := hseen
  obtain ⟨later, hlat, hid', hle'⟩ := h.stays row hrow
  exact ⟨later, hlat, hid'.trans hid, hle.trans hle'⟩

/-- What was read and is found now was there all along. -/
theorem Evolves.mem_of_seen {read : BuildRow} (h : Evolves t t') (hids : t.UniqueIds)
    (hseen : t.Seen read) (hrd : read ∈ t'.builds) : read ∈ t.builds := by
  obtain ⟨row, hrow, hid, _⟩ := hseen
  rcases h.comes read hrd with hrd | ⟨before, hbef, hid', hlt⟩ | hnew
  · exact hrd
  · have hsm : before = row := inj_on_of_nodup_map hids hbef hrow (hid'.trans hid.symm)
    rw [hsm] at hlt
    exact absurd hlt (by omega)
  · exact absurd hid (hnew row hrow)

end

/-! ## What a task owes -/

variable {keys : List Key} {ok : Bool} {update : Update}

section

variable {t : Tables} {locks : LockView}

/-- **What is owed** stays owed until the build is removed or found in its place. -/
theorem Task.owes_move (localeCompare : String → String → Ordering) {task : Task}
    (hok : (ok || !task.writesDesired) = true) (h : task.Owes hostId buildId) :
    (task.move localeCompare t locks ok).next.Owes hostId buildId ∨
      (∃ buildIds, (task.move localeCompare t locks ok).statement = .remove hostId buildIds ∧
        buildId ∈ buildIds) ∨
      (t.isAssigned hostId buildId = true ∧
        (task.move localeCompare t locks ok).statement = .none) := by
  cases task with
  | publishing => exact .inl h
  | rechecking _ host build =>
    obtain ⟨rfl, rfl⟩ := h
    by_cases hasg : t.isAssigned host build.id = true
    · exact .inr (.inr ⟨hasg, by simp [Task.move, hasg]⟩)
    left
    simp only [Task.move, hasg]
    exact ⟨rfl, rfl⟩
  | withdrawing _ _ build =>
    obtain ⟨rfl, rfl⟩ := h
    rw [Task.writesDesired, Bool.not_true, Bool.or_false] at hok
    exact .inr (.inl ⟨[build.id], by simp [Task.move, hok], mem_singleton_self _⟩)
  | republishing =>
    rw [Task.writesDesired, Bool.not_true, Bool.or_false] at hok
    left
    simp only [Task.move, hok]
    exact h
  | reviewing host assignments =>
    obtain ⟨rfl, hmem⟩ := h
    by_cases hasg : t.isAssigned host buildId = true
    · refine .inr (.inr ⟨hasg, ?_⟩)
      simp only [Task.move]
      split <;> rfl
    left
    have hlost : buildId ∈ (assignments.map QueuedBuild.id).filter
        fun id => !t.isAssigned host id :=
      mem_filter.mpr ⟨hmem, by simpa using hasg⟩
    simp only [Task.move]
    split
    · rename_i hnil
      rw [hnil] at hlost
      exact absurd hlost not_mem_nil
    · exact ⟨rfl, hlost⟩
  | removing _ buildIds =>
    obtain ⟨rfl, hmem⟩ := h
    rw [Task.writesDesired, Bool.not_true, Bool.or_false] at hok
    exact .inr (.inl ⟨buildIds, by simp [Task.move, hok], hmem⟩)
  | _ => exact h.elim

/-- An update that takes rows from a host owes their removal, unless it is a retry's. -/
theorem Update.owes_move {row : BuildRow} (hrow : row ∈ t.builds)
    (hho : row.hostId = some hostId) (hgd : update.guard row = true)
    (htks : update.takes = true) (hrty : ∀ read now, update ≠ .retry read now) :
    (Update.move t ok update).next.Owes hostId row.id := by
  have hupd : row.id ∈ t.updated update := mem_map.mpr ⟨row, mem_filter.mpr ⟨hrow, hgd⟩, rfl⟩
  have hsm : t.updated update ≠ [] := ne_nil_of_mem hupd
  cases update with
  | retry read now => exact absurd rfl (hrty read now)
  | report => cases htks
  | requeue | markStale =>
    simp only [Update.guard, and_eq_true, decide_eq_true_iff] at hgd
    rw [Update.move, if_neg hsm]
    exact ⟨Option.some.inj (hgd.1.1.symm.trans hho), hupd⟩

end

/-! ## The invariant -/

/-- As long as nobody has written the row that a retry read, what a desired state has of it is owed
by another task. -/
def State.Cleared (s : State) (read : BuildRow) : Prop :=
  read ∈ s.tables.builds → ∀ hostId, read.id ∈ (s.tables.desired hostId).ids → s.Owed hostId read.id

def Task.Tracks (s : State) : Task → Prop
  | .unpublishing _ hostId read _ => read.hostId = some hostId ∧ s.tables.Seen read
  | .asserting _ (.retry read _) => s.tables.Seen read ∧ s.Cleared read
  | .updating _ (.retry read _) => s.tables.Seen read ∧ s.Cleared read
  | _ => True

structure State.NoGhosts (s : State) : Prop where
  ids : s.tables.UniqueIds
  sound : ∀ task, (s.tasks task).Sound
  named : ∀ hostId buildId, buildId ∈ (s.tables.desired hostId).ids →
    s.tables.Placed hostId buildId ∨ s.Owed hostId buildId
  tracks : ∀ task, (s.tasks task).Tracks s

/-- What every step does: rows count up, and what a desired state names is owed when it comes and
until it is removed or found in its place. -/
structure Follows (s s' : State) : Prop where
  evolves : Evolves s.tables s'.tables
  gains : ∀ hostId buildId, buildId ∈ (s'.tables.desired hostId).ids →
    buildId ∈ (s.tables.desired hostId).ids ∨ s'.Owed hostId buildId
  owed : ∀ hostId buildId, s.Owed hostId buildId → buildId ∈ (s'.tables.desired hostId).ids →
    s'.Owed hostId buildId ∨ (s.tables.isAssigned hostId buildId = true ∧ s'.tables = s.tables)

section

variable {s s' : State} {read : BuildRow}

theorem tracks_of_retryRow {task : Task} (h : task.retryRow = none) : task.Tracks s := by
  cases task with
  | unpublishing => cases h
  | asserting _ update | updating _ update =>
    cases update with
    | retry => cases h
    | _ => trivial
  | _ => trivial

/-- A build is in its place only if its row is. -/
theorem hostId_of_placed (hids : s.tables.UniqueIds) (hrd : read ∈ s.tables.builds)
    (h : s.tables.Placed hostId read.id) : read.hostId = some hostId := by
  obtain ⟨row, hrow, hid, hplc⟩ := h
  have hsm : row = read := inj_on_of_nodup_map hids hrow hrd hid
  rw [hsm, BuildRow.isPlaced, and_eq_true, decide_eq_true_iff] at hplc
  exact hplc.1

theorem placed_of_isAssigned (h : s.tables.isAssigned hostId buildId = true) :
    s.tables.Placed hostId buildId := by
  obtain ⟨row, hrow, hasg⟩ := any_eq_true.mp h
  simp only [and_eq_true, decide_eq_true_iff] at hasg
  exact ⟨row, hrow, hasg.1.1, by simp [BuildRow.isPlaced, hasg.1.2, hasg.2]⟩

/-- A build that may be retried is on no builder. -/
theorem not_isAssigned_of_canRetry (hids : s.tables.UniqueIds) (hrd : read ∈ s.tables.builds)
    (hrty : canRetryImageBuild read.status read.error = true) :
    s.tables.isAssigned hostId read.id = false := by
  refine eq_false_iff.mpr fun h => ?_
  obtain ⟨row, hrow, hasg⟩ := any_eq_true.mp h
  simp only [and_eq_true, decide_eq_true_iff] at hasg
  have hsm : row = read := inj_on_of_nodup_map hids hrow hrd hasg.1.1
  have hon := hasg.2
  rw [hsm] at hon
  simp only [isOnBuilder, or_eq_true, decide_eq_true_iff] at hon
  rcases hon with hon | hon <;> simp [canRetryImageBuild, hon] at hrty

theorem Follows.cleared (h : Follows s s') (hids : s.tables.UniqueIds)
    (hrty : canRetryImageBuild read.status read.error = true) (hseen : s.tables.Seen read)
    (hclr : s.Cleared read) : s'.Cleared read := by
  intro hrd host hmem
  have hbef : read ∈ s.tables.builds := h.evolves.mem_of_seen hids hseen hrd
  rcases h.gains host read.id hmem with hin | howed
  · rcases h.owed host read.id (hclr hbef host hin) hmem with howed | ⟨hasg, -⟩
    · exact howed
    rw [not_isAssigned_of_canRetry hids hbef hrty] at hasg
    cases hasg
  · exact howed

/-- A task that does not move keeps track. -/
theorem Follows.tracks {task : Task} (h : Follows s s') (hids : s.tables.UniqueIds)
    (hsnd : task.Sound) (htrk : task.Tracks s) : task.Tracks s' := by
  cases task with
  | unpublishing => exact ⟨htrk.1, h.evolves.seen htrk.2⟩
  | asserting _ update | updating _ update =>
    cases update with
    | retry read =>
      exact ⟨h.evolves.seen htrk.1, h.cleared hids (hsnd read rfl) htrk.1 htrk.2⟩
    | _ => trivial
  | _ => trivial

theorem Follows.named (h : Follows s s')
    (hnmd : ∀ hostId buildId, buildId ∈ (s.tables.desired hostId).ids →
      s.tables.Placed hostId buildId ∨ s.Owed hostId buildId)
    (hplc : ∀ hostId buildId, s.tables.Placed hostId buildId →
      buildId ∈ (s'.tables.desired hostId).ids →
        s'.tables.Placed hostId buildId ∨ s'.Owed hostId buildId)
    (hmem : buildId ∈ (s'.tables.desired hostId).ids) :
    s'.tables.Placed hostId buildId ∨ s'.Owed hostId buildId := by
  rcases h.gains hostId buildId hmem with hin | howed
  · rcases hnmd hostId buildId hin with hp | howed
    · exact hplc hostId buildId hp hmem
    rcases h.owed hostId buildId howed hmem with howed | ⟨hasg, htables⟩
    · exact .inr howed
    rw [htables]
    exact .inl (placed_of_isAssigned hasg)
  · exact .inr howed

/-! ## Steps -/

variable {move : Move}

theorem owed_make_self {task : Nat} (h : move.next.Owes hostId buildId) :
    (s.make task move).Owed hostId buildId :=
  ⟨task, by simpa only [State.make, update_self] using h⟩

theorem follows_make {task : Nat} (hkind : Move.Kind s.tables (s.tasks task) move)
    (howes : ∀ hostId buildId, (s.tasks task).Owes hostId buildId →
      move.next.Owes hostId buildId ∨
        (∃ buildIds, move.statement = .remove hostId buildIds ∧ buildId ∈ buildIds) ∨
        (s.tables.isAssigned hostId buildId = true ∧ move.statement = .none)) :
    Follows s (s.make task move) where
  evolves := evolves_exec move.statement
  gains host id hmem := by
    rcases mem_desired_of_exec hmem with hin | ⟨_, hpub, hid⟩
    · exact .inl hin
    right
    refine owed_make_self ?_
    obtain ⟨_, hbld, rfl⟩ := mem_map.mp hid
    cases hkind with
    | plain hstm =>
      rw [hpub] at hstm
      cases hstm
    | reads _ _ _ _ _ hstm | updates _ _ _ hstm =>
      cases hpub.symm.trans hstm
    | unpublishes | asserts => cases hpub
    | publishes =>
      cases hpub
      rw [mem_singleton.mp hbld]
      exact ⟨rfl, rfl⟩
    | republishes =>
      cases hpub
      obtain ⟨source, hsrc, rfl⟩ := mem_map.mp hbld
      exact ⟨rfl, mem_map.mpr ⟨source, hsrc, rfl⟩⟩
  owed host id howed hmem := by
    obtain ⟨other, ho⟩ := howed
    by_cases hself : other = task
    · rw [hself] at ho
      rcases howes host id ho with hnx | ⟨_, hrem, hid⟩ | ⟨hasg, hno⟩
      · exact .inl (owed_make_self hnx)
      · rw [State.make, hrem] at hmem
        exact absurd hmem (not_mem_desired_remove hid)
      · exact .inr ⟨hasg, by rw [State.make, hno]; rfl⟩
    · refine .inl ⟨other, ?_⟩
      simpa only [State.make, update_of_ne hself] using ho

/-- The row that a retry now has is one it has just read, or the one it had. -/
theorem tracks_next {task : Nat} (hinv : s.NoGhosts)
    (hkind : Move.Kind s.tables (s.tasks task) move) (hfol : Follows s (s.make task move))
    (hids : (s.make task move).tables.UniqueIds)
    (hnmd : ∀ hostId buildId, buildId ∈ ((s.make task move).tables.desired hostId).ids →
      (s.make task move).tables.Placed hostId buildId ∨ (s.make task move).Owed hostId buildId) :
    move.next.Tracks (s.make task move) := by
  have hown := hinv.tracks task
  cases hkind with
  | plain _ hnx | updates _ _ _ _ hnx => exact tracks_of_retryRow hnx
  | publishes | republishes => exact tracks_of_retryRow rfl
  | asserts _ update htk =>
    have hsm := hfol.tracks hinv.ids (hinv.sound task) hown
    rw [htk] at hsm
    cases update with
    | retry => exact hsm
    | _ => trivial
  | reads _ read _ hrd _ hstm hnx =>
    have htables : (s.make task move).tables = s.tables := by
      rw [State.make, hstm]
      rfl
    have hseen : (s.make task move).tables.Seen read := ⟨read, htables ▸ hrd, rfl, le_rfl⟩
    rcases hnx with ⟨hno, hnx⟩ | ⟨host, hho, hnx⟩
    · rw [hnx]
      refine ⟨hseen, fun hmem host hdes => (hnmd host read.id hdes).resolve_left ?_⟩
      intro hplc
      rw [hostId_of_placed hids hmem hplc] at hno
      cases hno
    · rw [hnx]
      exact ⟨hho, hseen⟩
  | unpublishes _ host read _ htk =>
    rw [htk] at hown
    obtain ⟨hho, hseen⟩ := hown
    refine ⟨hfol.evolves.seen hseen, fun hmem other hdes => ?_⟩
    refine (hnmd other read.id hdes).resolve_left fun hplc => ?_
    -- in its place it would be on the host that it was just taken from
    have ho : other = host := Option.some.inj ((hostId_of_placed hids hmem hplc).symm.trans hho)
    rw [ho] at hdes
    exact not_mem_desired_remove (mem_singleton_self _) hdes

theorem noGhosts_make {task : Nat} (hinv : s.NoGhosts)
    (hkind : Move.Kind s.tables (s.tasks task) move) (hfol : Follows s (s.make task move))
    (hplc : ∀ hostId buildId, s.tables.Placed hostId buildId →
      buildId ∈ ((s.make task move).tables.desired hostId).ids →
        (s.make task move).tables.Placed hostId buildId ∨
          (s.make task move).Owed hostId buildId) : (s.make task move).NoGhosts := by
  have hids : (s.make task move).tables.UniqueIds := uniqueIds_exec hinv.ids move.statement
  have hnmd : ∀ hostId buildId, buildId ∈ ((s.make task move).tables.desired hostId).ids →
      (s.make task move).tables.Placed hostId buildId ∨ (s.make task move).Owed hostId buildId :=
    fun _ _ => hfol.named hinv.named hplc
  refine ⟨hids, sound_make hinv.sound (hkind.sound (hinv.sound task)).2, hnmd, fun other => ?_⟩
  by_cases hself : other = task
  · rw [hself, show (s.make task move).tasks task = move.next from update_self ..]
    exact tracks_next hinv hkind hfol hids hnmd
  · rw [show (s.make task move).tasks other = s.tasks other from update_of_ne hself ..]
    exact hfol.tracks hinv.ids (hinv.sound other) (hinv.tracks other)

/-- The writes of others that leave the desired states alone and no update ends. -/
theorem noGhosts_exec (hinv : s.NoGhosts) (hcl : statement.Cleans s.tables)
    (hupdate : ∀ update, statement ≠ .update update)
    (hpub : ∀ host builds, statement ≠ .publish host builds) :
    State.NoGhosts { s with tables := s.tables.exec statement } := by
  have hfol : Follows s { s with tables := s.tables.exec statement } := by
    refine ⟨evolves_exec statement, fun host id hmem => ?_, fun host id howed _ => .inl howed⟩
    rcases mem_desired_of_exec hmem with hin | ⟨builds, heq, -⟩
    · exact .inl hin
    · exact absurd heq (hpub host builds)
  refine ⟨uniqueIds_exec hinv.ids statement, hinv.sound, fun host id => ?_, fun task => ?_⟩
  · refine hfol.named hinv.named fun host id hp hmem => ?_
    rcases placed_exec hcl hp hmem with hp | ⟨update, heq, -⟩
    · exact .inl hp
    · exact absurd heq (hupdate update)
  · exact hfol.tracks hinv.ids (hinv.sound task) (hinv.tracks task)

/-- Only a task that is at an update does one. -/
theorem Move.Kind.eq_updating {t : Tables} {task : Task}
    (hkind : Move.Kind t task move) (h : move.statement = .update update) :
    ∃ keys, task = .updating keys update := by
  cases hkind with
  | plain hstm =>
    rw [h] at hstm
    cases hstm
  | reads _ _ _ _ _ hstm => cases h.symm.trans hstm
  | unpublishes | asserts | publishes | republishes => cases h
  | updates keys _ htk hstm =>
    cases h.symm.trans hstm
    exact ⟨keys, htk⟩

/-- A row that an update takes from its host: a retry has taken it from the desired state before,
and the others do so next. -/
theorem owed_of_update {localeCompare : String → String → Ordering} {task : Nat}
    {row : BuildRow} (hinv : s.NoGhosts) (htk : s.tasks task = .updating keys update)
    (hrd : (Statement.update update).FindsRead s.tables)
    {s' : State} (hnx : s' = s.make task ((s.tasks task).move localeCompare s.tables (s.view task) ok))
    (hfol : Follows s s') (htks : update.takes = true) (hrow : row ∈ s.tables.builds)
    (hho : row.hostId = some hostId) (hgd : update.guard row = true)
    (hmem : row.id ∈ (s'.tables.desired hostId).ids) : s'.Owed hostId row.id := by
  by_cases hrty : ∃ read now, update = .retry read now
  · obtain ⟨read, _, rfl⟩ := hrty
    have hsm : row = read := hrd.eq hrow hgd
    have htrk := hinv.tracks task
    rw [htk] at htrk
    rw [hsm] at hmem hrow ⊢
    have hcanRetry := hinv.sound task read (by rw [htk]; rfl)
    rcases hfol.gains hostId read.id hmem with hin | howed
    · rcases hfol.owed hostId read.id (htrk.2 hrow hostId hin) hmem with
        howed | ⟨hasg, -⟩
      · exact howed
      rw [not_isAssigned_of_canRetry hinv.ids hrow hcanRetry] at hasg
      cases hasg
    · exact howed
  · subst hnx
    refine owed_make_self ?_
    rw [htk]
    exact Update.owes_move hrow hho hgd htks fun read now heq => hrty ⟨read, now, heq⟩

/-- **One step.** -/
theorem noGhosts_step (localeCompare : String → String → Ordering) (hinv : s.NoGhosts) {op : Op}
    (hrd : (s.statement localeCompare op).FindsRead s.tables)
    (hcl : (s.statement localeCompare op).Cleans s.tables) (hok : op.delivers s = true) :
    (step localeCompare s op).NoGhosts := by
  cases op with
  | lapse => exact ⟨hinv.ids, hinv.sound, hinv.named, hinv.tracks⟩
  | revoke => exact noGhosts_exec hinv hcl (fun _ h => by cases h) fun _ _ h => by cases h
  | retire =>
    exact noGhosts_exec hinv hcl (fun _ h => by cases h) fun _ _ h => by cases h
  | start task job =>
    simp only [step]
    simp only [State.statement] at hcl
    split
    · rename_i hidle
      rw [hidle] at hcl
      have hkind : Move.Kind s.tables (s.tasks task) (job.move s.tables) := job.kind_move
      have hfol : Follows s (s.make task (job.move s.tables)) :=
        follows_make hkind fun host id howes => by
          rw [hidle] at howes
          exact howes.elim
      refine noGhosts_make hinv hkind hfol fun host id hp hmem => ?_
      rcases placed_exec hcl hp hmem with hp | ⟨_, heq, -⟩
      · exact .inl hp
      obtain ⟨_, htk⟩ := hkind.eq_updating heq
      cases hidle.symm.trans htk
    · exact hinv
  | advance task ok =>
    have hkind := State.kind_advance localeCompare s task ok
    have hfol := follows_make hkind fun host id howes => Task.owes_move localeCompare hok howes
    refine noGhosts_make hinv hkind hfol fun host id hp hmem => ?_
    rcases placed_exec hcl hp hmem with
      hp | ⟨update, heq, htks, row, hrow, rfl, hho, hgd⟩
    · exact .inl hp
    obtain ⟨_, htk⟩ := hkind.eq_updating heq
    rw [heq] at hrd
    exact .inr (owed_of_update hinv htk hrd rfl hfol htks hrow hho hgd hmem)

end

/-! ## Runs -/

section

variable (localeCompare : String → String → Ordering)

/-- The conditions on a step: the update of a retry finds the row it read, a bundle cleans up what
it takes, and desired states are written. -/
structure CleanStep (s : State) (op : Op) : Prop where
  read : (s.statement localeCompare op).FindsRead s.tables
  cleans : (s.statement localeCompare op).Cleans s.tables
  delivers : op.delivers s = true

instance (s : State) (op : Op) : Decidable (CleanStep localeCompare s op) :=
  decidable_of_iff (_ ∧ _ ∧ _) ⟨fun h => ⟨h.1, h.2.1, h.2.2⟩, fun h => ⟨h.1, h.2, h.3⟩⟩

/-- **No ghost builds.**  After every run of clean steps, when no task runs, each build in the
desired state of a host names the one row with its id; that row is assigned to the host, and it is
assigned, building or has ended. -/
theorem no_ghosts_of_run (t : Tables) (hids : t.UniqueIds)
    (hplaced : ∀ hostId buildId, buildId ∈ (t.desired hostId).ids → t.Placed hostId buildId)
    (ops : List Op)
    (hclean : Along (step localeCompare) (CleanStep localeCompare) (State.rest t) ops)
    (hquiet : (run (step localeCompare) (State.rest t) ops).Quiet) (hostId buildId : String)
    (hmem : buildId ∈ ((run (step localeCompare) (State.rest t) ops).tables.desired hostId).ids) :
    ∃ row ∈ (run (step localeCompare) (State.rest t) ops).tables.builds, row.id = buildId ∧
      (∀ other ∈ (run (step localeCompare) (State.rest t) ops).tables.builds,
        other.id = buildId → other = row) ∧
      row.hostId = some hostId ∧
      row.status ∈ [BuildStatus.assigned, .building, .succeeded, .failed] := by
  have hrs : (State.rest t).NoGhosts :=
    ⟨hids, fun _ => Task.sound_of_retryRow rfl, fun host id h => .inl (hplaced host id h),
      fun _ => tracks_of_retryRow rfl⟩
  have hrun := hclean.invariant
    (fun s op hinv hstp => noGhosts_step localeCompare hinv hstp.read hstp.cleans hstp.delivers)
    hrs
  rcases hrun.named hostId buildId hmem with ⟨row, hrow, hid, hp⟩ | ⟨task, howes⟩
  · refine ⟨row, hrow, hid, fun other ho hsm => ?_, ?_⟩
    · exact inj_on_of_nodup_map hrun.ids ho hrow (hsm.trans hid.symm)
    simp only [BuildRow.isPlaced, isOnBuilder, and_eq_true, or_eq_true, decide_eq_true_iff] at hp
    refine ⟨hp.1, ?_⟩
    rcases hp.2 with ((h | h) | h) | h <;> simp [h]
  · rw [hquiet task] at howes
    exact howes.elim

end

namespace Demo

/-- The old build is on its builder when the bundle comes; a pass then assigns the new build. -/
def replaced : List Op :=
  call 0 (assignment 10) 4 ++ call 0 (report oldBuild .building 20) 5 ++
    call 1 (.queueImageBuildsFromBundle newBundle) 6 ++ call 0 (assignment 1800030) 4

theorem replaced_names_new_build :
    (((run (step compare) (State.rest (tables [oldBuild])) replaced).tables.desired
      "builder").ids = ["b2"]) ∧
    ∃ row ∈ (run (step compare) (State.rest (tables [oldBuild])) replaced).tables.builds,
      row.id = "b2" ∧
      (∀ other ∈ (run (step compare) (State.rest (tables [oldBuild])) replaced).tables.builds,
        other.id = "b2" → other = row) ∧
      row.hostId = some "builder" ∧
      row.status ∈ [BuildStatus.assigned, .building, .succeeded, .failed] :=
  ⟨by decide +kernel,
    no_ghosts_of_run compare (tables [oldBuild]) (by decide)
      (fun _ _ h => absurd h not_mem_nil) replaced (by decide +kernel)
      (quiet_of_isIdle (by decide +kernel)) "builder" "b2" (by decide +kernel)⟩

/-- The builder is revoked, which fails the build that it has; then the bundle comes. -/
def revoked : List Op :=
  call 0 (assignment 10) 4 ++ .revoke "builder" 20 ::
    call 1 (.queueImageBuildsFromBundle newBundle) 6

/-- No task runs, every desired state was written, and the desired state of the builder names a row
that was superseded. -/
theorem failed_build_becomes_ghost :
    (run (step compare) (State.rest (tables [oldBuild])) revoked).Quiet ∧
    Along (step compare) (fun s op => op.delivers s = true) (State.rest (tables [oldBuild]))
      revoked ∧
    ((run (step compare) (State.rest (tables [oldBuild])) revoked).tables.desired
      "builder").ids = ["b1"] ∧
    ((run (step compare) (State.rest (tables [oldBuild])) revoked).tables.builds.map
      fun row => (row.id, row.status, row.error)) =
        [("b1", .stale, some "superseded by bundle rev-new"), ("b2", .queued, none)] := by
  refine ⟨quiet_of_isIdle ?_, ?_, ?_, ?_⟩
  · decide +kernel
  · decide +kernel
  · decide +kernel
  · decide +kernel

end Demo

end Intar.Builds
