import Intar.Builds.Scheduler

/-!
# One content hash at a time

For a scope, a scenario and an architecture at most one content hash is being built.  The rows that
are queued, assigned or building do not carry this through a run by themselves: a failed build, or
one that has gone silent, can be retried, so it must have the same hash as they.  These are the
*unsettled* rows.  A bundle settles every other hash of its family by superseding it, and nothing
unsettles a row again but a bundle with its hash.

Except for one: the conditional update of a retry asks for the status and `updated_at` that it read,
not for the error.  A silent build that is superseded is stale as before, and if the bundle carries
the millisecond in which it was marked, the update still finds it.  The retry and the bundle exclude
each other by a lease, so this takes a lease that lapsed under the retry.  The hash is unique in
every run in which a retry's update finds no other row than the one it read (`one_hash_of_run`).
-/

namespace Intar.Builds

open Trace

open Registry (Architecture BuildStatus)
open Host (Millis DesiredBuild)

/-- The rows that are built or may be retried. -/
def BuildRow.isUnsettled (row : BuildRow) : Bool :=
  isActiveImageBuild row.status || canRetryImageBuild row.status row.error

/-- The same scope, scenario and architecture. -/
def BuildRow.SameFamily (row other : BuildRow) : Prop :=
  row.organizationId = other.organizationId ∧ row.scenarioId = other.scenarioId ∧
    row.arch = other.arch

instance (row other : BuildRow) : Decidable (row.SameFamily other) :=
  inferInstanceAs (Decidable (_ ∧ _))

/-- The unsettled rows of a family have one content hash. -/
def Tables.OneHash (t : Tables) : Prop :=
  ∀ row ∈ t.builds, ∀ other ∈ t.builds, row.SameFamily other → row.isUnsettled = true →
    other.isUnsettled = true → row.contentHash = other.contentHash

instance (t : Tables) : Decidable t.OneHash := inferInstanceAs (Decidable (∀ row ∈ t.builds, _))

/-- The update of a retry finds a row that is not the one the retry read. -/
def Statement.findsOther : Statement → BuildRow → Bool
  | .update (.retry read now), row => (Update.retry read now).guard row && row ≠ read
  | _, _ => false

def Statement.FindsRead (t : Tables) (statement : Statement) : Prop :=
  ∀ row ∈ t.builds, statement.findsOther row = false

instance (t : Tables) (statement : Statement) : Decidable (statement.FindsRead t) :=
  inferInstanceAs (Decidable (∀ row ∈ t.builds, _))

variable {t : Tables} {task : Task}

theorem Statement.FindsRead.eq {read row : BuildRow} {now : Millis}
    (h : (Statement.update (.retry read now)).FindsRead t) (hrow : row ∈ t.builds)
    (hgd : (Update.retry read now).guard row = true) : row = read := by
  have hsm := h row hrow
  rwa [Statement.findsOther, hgd, Bool.true_and, decide_eq_false_iff_not, not_not] at hsm

section

variable {t t' : Tables}

/-! ## Statements -/

/-- An update that leaves the build of a row as it is and unsettles none. -/
theorem oneHash_update {now : Millis} {guard : BuildRow → Bool} {set : BuildRow → BuildRow}
    (h : t.OneHash)
    (hset : ∀ row ∈ t.builds, guard row = true →
      (set row).SameFamily row ∧ (set row).contentHash = row.contentHash ∧
        ((set row).isUnsettled = true → row.isUnsettled = true)) :
    (t.update now guard set).OneHash := by
  -- every row comes from one of the same family and hash, unsettled if it is
  have hfrom : ∀ row ∈ (t.update now guard set).builds, ∃ before ∈ t.builds,
      row.SameFamily before ∧ row.contentHash = before.contentHash ∧
        (row.isUnsettled = true → before.isUnsettled = true) := by
    intro row hrow
    rcases mem_builds_update.mp hrow with ⟨hrow, -⟩ | ⟨before, hbef, hgd, rfl⟩
    · exact ⟨row, hrow, ⟨rfl, rfl, rfl⟩, rfl, id⟩
    · exact ⟨before, hbef, hset before hbef hgd⟩
  intro row hrow other hoth hfam hrowOpen hotherOpen
  obtain ⟨r, hr, hrf, hrh, hro⟩ := hfrom row hrow
  obtain ⟨o, ho, hof, hoh, hoo⟩ := hfrom other hoth
  have hsm : r.SameFamily o :=
    ⟨hrf.1.symm.trans (hfam.1.trans hof.1), hrf.2.1.symm.trans (hfam.2.1.trans hof.2.1),
      hrf.2.2.symm.trans (hfam.2.2.trans hof.2.2)⟩
  rw [hrh, hoh]
  exact h r hr o ho hsm (hro hrowOpen) (hoo hotherOpen)

theorem oneHash_of_builds (h : t.OneHash) (hblds : t'.builds = t.builds) : t'.OneHash := by
  rwa [Tables.OneHash, hblds]

variable {input : QueueInput} {row : BuildRow}

theorem inFamily_congr {other : BuildRow} (h : row.SameFamily other) :
    input.inFamily row = input.inFamily other := by
  rw [QueueInput.inFamily, QueueInput.inFamily, h.1, h.2.1, h.2.2]

/-- Rows that join the family with the one hash that is unsettled in it. -/
theorem oneHash_of_joins {input : QueueInput} (h : t.OneHash)
    (hfam : ∀ row ∈ t.builds, input.inFamily row = true → row.isUnsettled = true →
      row.contentHash = input.scenario.contentHash)
    (hjoin : ∀ row ∈ t'.builds, row ∈ t.builds ∨
      (input.inFamily row = true ∧ row.contentHash = input.scenario.contentHash)) :
    t'.OneHash := by
  intro row hrow other ho hsm hrowOpen hotherOpen
  rcases hjoin row hrow with hrow | ⟨hrowIn, hrowHash⟩
  · rcases hjoin other ho with ho | ⟨hotherIn, hotherHash⟩
    · exact h row hrow other ho hsm hrowOpen hotherOpen
    rw [hotherHash]
    exact hfam row hrow (inFamily_congr hsm ▸ hotherIn) hrowOpen
  · rcases hjoin other ho with ho | ⟨-, hotherHash⟩
    · rw [hrowHash]
      exact (hfam other ho (inFamily_congr hsm ▸ hrowIn) hotherOpen).symm
    · rw [hrowHash, hotherHash]

theorem isSuperseded_supersededBy (rev : String) :
    isSuperseded (some (supersededBuildErrorPrefix ++ rev)) = true := by
  simp [isSuperseded, Js.startsWith, String.toList_append, List.isPrefixOf_iff_prefix]

/-- A superseded row is settled. -/
theorem isUnsettled_superseded {rev : String} (hstat : row.status = .stale)
    (herror : row.error = some (supersededBuildErrorPrefix ++ rev)) : row.isUnsettled = false := by
  simp [BuildRow.isUnsettled, isActiveImageBuild, canRetryImageBuild, hstat, herror,
    isSuperseded_supersededBy]

theorem oneHash_supersede (input : QueueInput) (h : t.OneHash) : (t.supersede input).OneHash := by
  refine oneHash_update h fun row _ _ => ⟨⟨rfl, rfl, rfl⟩, rfl, fun hop => ?_⟩
  rw [isUnsettled_superseded rfl rfl] at hop
  cases hop

/-- All that is left unsettled in the family has the new hash. -/
theorem contentHash_of_supersede (hrow : row ∈ (t.supersede input).builds)
    (hfam : input.inFamily row = true) (hop : row.isUnsettled = true) :
    row.contentHash = input.scenario.contentHash := by
  rcases mem_builds_update.mp hrow with ⟨-, hkt⟩ | ⟨_, -, -, rfl⟩
  · by_contra hhash
    -- a row of another hash is superseded unless it has succeeded
    have hstat : row.status = .succeeded := by
      rw [QueueInput.supersedes, hfam] at hkt
      cases hs : row.status <;> simp [hs, hhash] at hkt ⊢
    simp [BuildRow.isUnsettled, isActiveImageBuild, canRetryImageBuild, hstat] at hop
  · rw [isUnsettled_superseded rfl rfl] at hop
    cases hop

theorem isOf_iff {scenario : ScenarioBuild} :
    scenario.isOf row = true ↔ row.scenarioId = scenario.scenarioId ∧ row.arch = scenario.arch ∧
      row.contentHash = scenario.contentHash := by
  simp [ScenarioBuild.isOf, and_assoc]

/-- **A bundle** leaves one hash unsettled in the family of the scenario. -/
theorem oneHash_queueBatch {ids : List String} (h : t.OneHash)
    (hbat : queueBatch input t = .ok (t', ids)) : t'.OneHash := by
  have hcl : (t.cleanDesired input).OneHash := oneHash_of_builds h rfl
  refine oneHash_of_joins (oneHash_supersede input hcl)
    (fun row hrow => contentHash_of_supersede hrow) fun row hrow => ?_
  rw [queueBatch, Tables.insertOrRequeue] at hbat
  split at hbat
  · cases hbat
    rcases mem_builds_update.mp hrow with ⟨hrow, -⟩ | ⟨_, -, hgd, rfl⟩
    · exact .inl hrow
    rw [QueueInput.requeues, Bool.and_eq_true, isOf_iff] at hgd
    obtain ⟨⟨hscn, harch, hhash⟩, -⟩ := hgd
    refine .inr ⟨?_, hhash⟩
    simp [QueueInput.inFamily, BuildRow.write, QueueInput.requeued, hscn, harch]
  · split at hbat
    · cases hbat
    cases hbat
    rcases List.mem_append.mp hrow with hrow | hrow
    · exact .inl hrow
    rw [List.mem_singleton.mp hrow]
    exact .inr ⟨by simp [QueueInput.inFamily, QueueInput.newRow], rfl⟩

/-- What a retry goes on with may be retried. -/
def Update.Sound : Update → Prop
  | .retry read _ => canRetryImageBuild read.status read.error = true
  | _ => True

theorem isUnsettled_of_isOnBuilder (h : isOnBuilder row.status = true) :
    row.isUnsettled = true := by
  simp only [isOnBuilder, Bool.or_eq_true, decide_eq_true_iff] at h
  rcases h with h | h <;> simp [BuildRow.isUnsettled, isActiveImageBuild, h]

/-- The updates of the locked sections only find unsettled rows. -/
theorem isUnsettled_of_guard {update : Update} (hsnd : update.Sound)
    (hrd : (Statement.update update).FindsRead t) (hrow : row ∈ t.builds)
    (hgd : update.guard row = true) : row.isUnsettled = true := by
  cases update with
  | retry =>
    rw [hrd.eq hrow hgd, BuildRow.isUnsettled, Bool.or_eq_true]
    exact .inr hsnd
  | report =>
    simp only [Update.guard, Bool.and_eq_true] at hgd
    exact isUnsettled_of_isOnBuilder hgd.2
  | requeue | markStale =>
    simp only [Update.guard, Bool.and_eq_true, decide_eq_true_iff] at hgd
    exact isUnsettled_of_isOnBuilder (by simp [isOnBuilder, hgd.1.2])

def Statement.Sound : Statement → Prop
  | .update write => write.Sound
  | _ => True

/-- **One statement.** -/
theorem oneHash_exec {statement : Statement} (h : t.OneHash) (hsnd : statement.Sound)
    (hrd : statement.FindsRead t) : (t.exec statement).OneHash := by
  cases statement with
  | none => exact h
  | upsertBundle =>
    simp only [Tables.exec]
    split
    · rename_i hups
      exact oneHash_of_builds h (upsertBundle_eq_ok hups).1
    · exact h
  | queueBatch =>
    simp only [Tables.exec]
    split
    · rename_i hbat
      exact oneHash_queueBatch h hbat
    · exact h
  | clearRetired => exact oneHash_update h fun _ _ _ => ⟨⟨rfl, rfl, rfl⟩, rfl, id⟩
  | claim =>
    refine oneHash_update h fun row _ hgd => ⟨⟨rfl, rfl, rfl⟩, rfl, fun _ => ?_⟩
    simp only [Tables.claimable, Bool.and_eq_true, decide_eq_true_iff] at hgd
    simp [BuildRow.isUnsettled, isActiveImageBuild, hgd.1.1.2]
  | update update =>
    refine oneHash_update h fun row hrow hgd => ⟨?_, ?_, fun _ => ?_⟩
    · cases update <;> exact ⟨rfl, rfl, rfl⟩
    · cases update <;> rfl
    · exact isUnsettled_of_guard hsnd hrd hrow hgd
  | revoke =>
    refine oneHash_update h fun row _ hgd => ⟨⟨rfl, rfl, rfl⟩, rfl, fun _ => ?_⟩
    rw [Bool.and_eq_true] at hgd
    exact isUnsettled_of_isOnBuilder hgd.2
  | retire =>
    exact oneHash_update h fun _ _ _ => ⟨⟨rfl, rfl, rfl⟩, rfl, id⟩
  | publish | remove => exact oneHash_of_builds h rfl

end

/-! ## Runs -/

/-- Between its read and its update a retry has a row that may be retried. -/
def Task.Sound (task : Task) : Prop :=
  ∀ read, task.retryRow = some read → canRetryImageBuild read.status read.error = true

theorem Task.sound_of_retryRow (h : task.retryRow = none) : task.Sound := by
  intro _ hrd
  rw [h] at hrd
  cases hrd

theorem Statement.Plain.sound {statement : Statement} (h : statement.Plain) : statement.Sound := by
  cases h <;> trivial

/-- **One move** of a sound task. -/
theorem Move.Kind.sound {move : Move} (hkind : Move.Kind t task move) (h : task.Sound) :
    move.statement.Sound ∧ move.next.Sound := by
  cases hkind with
  | plain hstm hnx =>
    exact ⟨hstm.sound, Task.sound_of_retryRow hnx⟩
  | reads _ _ _ _ hrty hstm hnx =>
    refine ⟨hstm ▸ trivial, fun row hrow => ?_⟩
    rcases hnx with ⟨-, hnx⟩ | ⟨_, -, hnx⟩
    · rw [hnx] at hrow
      exact Option.some.inj hrow ▸ hrty
    · rw [hnx] at hrow
      exact Option.some.inj hrow ▸ hrty
  | unpublishes _ _ _ _ htk => exact ⟨trivial, fun row hrow => h row (htk ▸ hrow)⟩
  | asserts _ update htk =>
    refine ⟨trivial, fun row hrow => h row ?_⟩
    rw [htk]
    cases update <;> exact hrow
  | updates _ update htk hstm hnx =>
    refine ⟨hstm ▸ ?_, Task.sound_of_retryRow hnx⟩
    cases update with
    | retry read => exact h read (by rw [htk]; rfl)
    | _ => trivial
  | publishes | republishes =>
    exact ⟨trivial, Task.sound_of_retryRow rfl⟩

section

variable (localeCompare : String → String → Ordering)

theorem sound_make {s : State} (h : ∀ task, (s.tasks task).Sound) {task : Nat} {move : Move}
    (hmv : move.next.Sound) (other : Nat) : ((s.make task move).tasks other).Sound := by
  simp only [State.make, Function.update_apply]
  split
  · exact hmv
  · exact h other

theorem sound_step {s : State} (h : ∀ task, (s.tasks task).Sound) (op : Op) :
    (s.statement localeCompare op).Sound ∧
      ∀ task, ((step localeCompare s op).tasks task).Sound := by
  cases op with
  | start task job =>
    simp only [step, State.statement]
    split
    · have hmv := (job.kind_move (t := s.tables)).sound (h task)
      exact ⟨hmv.1, sound_make h hmv.2⟩
    · exact ⟨trivial, h⟩
  | advance task ok =>
    have hmv := (State.kind_advance localeCompare s task ok).sound (h task)
    exact ⟨hmv.1, sound_make h hmv.2⟩
  | _ => exact ⟨trivial, h⟩

/-- **One content hash.**  In every run in which the update of a retry finds no other row than the
one it read, the queued, assigned and building rows of a scope, a scenario and an architecture have
one content hash. -/
theorem one_hash_of_run (t : Tables) (ht : t.OneHash) (ops : List Op)
    (hread : Along (step localeCompare)
      (fun s op => (s.statement localeCompare op).FindsRead s.tables) (State.rest t) ops)
    (row other : BuildRow)
    (hrow : row ∈ (run (step localeCompare) (State.rest t) ops).tables.builds)
    (hother : other ∈ (run (step localeCompare) (State.rest t) ops).tables.builds)
    (hfamily : row.SameFamily other) (hactive : isActiveImageBuild row.status = true)
    (hactive' : isActiveImageBuild other.status = true) : row.contentHash = other.contentHash := by
  have hrun := hread.invariant (P := fun s => s.tables.OneHash ∧ ∀ task, (s.tasks task).Sound)
    (fun s op ⟨hone, hsnd⟩ hcd => by
      have hstp := sound_step localeCompare hsnd op
      rw [step_tables]
      exact ⟨oneHash_exec hone hstp.1 hcd, hstp.2⟩)
    ⟨ht, fun _ => Task.sound_of_retryRow rfl⟩
  refine hrun.1 row hrow other hother hfamily ?_ ?_
  · rw [BuildRow.isUnsettled, hactive, Bool.true_or]
  · rw [BuildRow.isUnsettled, hactive', Bool.true_or]

end

namespace Demo

def oldBuild : BuildRow := build "b1" "one" "old"

/-- Half an hour after the last report. -/
def silentAt : Millis := 1800020

/-- The old build is claimed and started, and then nothing more is heard of it. -/
def goneSilent : List Op :=
  call 0 (assignment 10) 4 ++ call 0 (report oldBuild .building 20) 5 ++
    call 0 (.markSilentBuildingBuildsStale "builder" silentAt) 6

/-- A bundle with other content, received in the millisecond in which the build is marked. -/
def newBundle : BundleInput where
  rev := "rev-new"
  r2Key := "bundles/rev-new"
  scenarios := [(⟨"one", .x86_64, "new"⟩, "b2")]
  catalogChannel := none
  organizationId := none
  nowUnixMs := silentAt

/-- The bundle is queued, and an operator retries the old build. -/
def superseded : List Op :=
  goneSilent ++ call 1 (.queueImageBuildsFromBundle newBundle) 5 ++
    call 2 (.retryImageBuild "b1" 1800090) 3

theorem superseded_build_not_retried :
    ((run (step compare) (State.rest (tables [oldBuild])) superseded).tables.builds.map
      fun row => (row.contentHash, row.status)) = [("old", .stale), ("new", .queued)] ∧
    ∀ row ∈ (run (step compare) (State.rest (tables [oldBuild])) superseded).tables.builds,
      ∀ other ∈ (run (step compare) (State.rest (tables [oldBuild])) superseded).tables.builds,
        row.SameFamily other → isActiveImageBuild row.status = true →
          isActiveImageBuild other.status = true → row.contentHash = other.contentHash :=
  ⟨by decide +kernel, fun row hrow other ho =>
    one_hash_of_run compare (tables [oldBuild]) (by decide) superseded (by decide +kernel) row other
      hrow ho⟩

/-- The retry has made sure of its lease; it lapses, the bundle supersedes the build, and the update
of the retry finds the status and the time it read. -/
def lapsed : List Op :=
  goneSilent ++ .start 1 (.queueImageBuildsFromBundle newBundle) :: .advance 1 true ::
    call 2 (.retryImageBuild "b1" 1800090) 5 ++ .lapse ⟨"one", .x86_64⟩ ::
    List.replicate 4 (.advance 1 true) ++ [.advance 2 true]

theorem lapsed_lease_leaves_two_hashes :
    ((run (step compare) (State.rest (tables [oldBuild])) lapsed).tables.builds.map
      fun row => (row.id, row.scenarioId, row.contentHash, row.status)) =
        [("b1", "one", "old", .queued), ("b2", "one", "new", .queued)] ∧
    ∃ row ∈ (run (step compare) (State.rest (tables [oldBuild])) lapsed).tables.builds,
      ∃ other ∈ (run (step compare) (State.rest (tables [oldBuild])) lapsed).tables.builds,
        row.SameFamily other ∧ isActiveImageBuild row.status = true ∧
          isActiveImageBuild other.status = true ∧ row.contentHash ≠ other.contentHash := by
  constructor
  · decide +kernel
  · decide +kernel

end Demo

end Intar.Builds
