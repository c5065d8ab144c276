import Intar.Builds.Tables

/-!
# Queueing the builds of a bundle

`queueImageBuildsFromBundle` of `lib/build-scheduler.ts`.  For each scenario of the bundle one batch
takes the builds that the new one replaces out of the desired states, marks them superseded, and
inserts the new build; a row that has the scenario, the architecture and the content hash already is
queued again if it had failed, was stale or had lost its artifacts.

The first two statements ask for the scope of the bundle.  The third does not: the conflict it turns
into an update is on the unique index, and that has no scope.  So a bundle leaves the builds of the
other scopes alone exactly when none of them has such a row for it to take over
(`queue_keeps_other_scopes_iff`).
-/

namespace Intar.Builds

open Registry (Architecture BuildStatus)
open Host (Millis DesiredBuild)
open List

/-! ## The statements -/

/-- `AppError`. -/
structure AppError where
  status : Nat
  (code message : String)
deriving DecidableEq

inductive QueueError where
  | app (error : AppError)
  /-- A constraint of a table. -/
  | constraint (name : String)
deriving DecidableEq

def revScopeConflict : QueueError :=
  .app ⟨409, "rev_scope_conflict", "bundle revision belongs to another scope"⟩

/-- The input of `queueImageBuildScenario`, with the id that `createAppId` draws. -/
structure QueueInput where
  scenario : ScenarioBuild
  rev : String
  organizationId : Scope
  catalogChannel : CatalogChannel
  nowUnixMs : Millis
  newId : String

section

variable (input : QueueInput)

/-- The scenario, the architecture and the scope of the new build. -/
def QueueInput.inFamily (row : BuildRow) : Bool :=
  row.scenarioId = input.scenario.scenarioId && row.organizationId = input.organizationId &&
    row.arch = input.scenario.arch

/-- `supersessionCleanupBuildIds`. -/
def QueueInput.cleansUp (row : BuildRow) : Bool :=
  input.inFamily row &&
    ((row.contentHash ≠ input.scenario.contentHash &&
        (row.status = .queued || row.status = .assigned || row.status = .building ||
          row.status = .stale)) ||
      (row.contentHash = input.scenario.contentHash &&
        (row.status = .queued || row.status = .failed || row.status = .stale)))

def Tables.cleanupIds (t : Tables) : List String := (t.builds.filter input.cleansUp).map BuildRow.id

/-- The first statement: no desired state keeps a build that is cleaned up. -/
def Tables.cleanDesired (t : Tables) : Tables :=
  { t with desired := fun hostId => (t.desired hostId).remove (t.cleanupIds input) }

/-- The rows of the second statement. -/
def QueueInput.supersedes (row : BuildRow) : Bool :=
  input.inFamily row && row.contentHash ≠ input.scenario.contentHash &&
    (row.status = .queued || row.status = .assigned || row.status = .building ||
      row.status = .failed || row.status = .stale)

/-- The second statement. -/
def Tables.supersede (t : Tables) : Tables :=
  t.update input.nowUnixMs input.supersedes fun row =>
    { row with status := .stale, error := some (supersededBuildErrorPrefix ++ input.rev) }

/-- The unique index `image_builds_scenario_arch_hash_uidx`. -/
def ScenarioBuild.isOf (scenario : ScenarioBuild) (row : BuildRow) : Bool :=
  row.scenarioId = scenario.scenarioId && row.arch = scenario.arch &&
    row.contentHash = scenario.contentHash

/-- A row that a bundle with its content hash builds again. -/
def BuildRow.isSpent (row : BuildRow) : Bool :=
  row.status = .failed || row.status = .stale || row.artifactsRetiredAt.isSome

def QueueInput.timings : BuildTimings := ⟨some input.nowUnixMs, none, none, none⟩

/-- What the insert writes to a row it finds. -/
def QueueInput.requeued (row : BuildRow) : BuildRow :=
  { row with
    rev := input.rev
    organizationId := input.organizationId
    catalogChannel := input.catalogChannel
    hostId := none
    status := .queued
    phase := .queued
    attempt := 0
    error := none
    logR2Key := none
    timings := input.timings }

def QueueInput.newRow : BuildRow where
  id := input.newId
  organizationId := input.organizationId
  scenarioId := input.scenario.scenarioId
  arch := input.scenario.arch
  rev := input.rev
  contentHash := input.scenario.contentHash
  catalogChannel := input.catalogChannel
  hostId := none
  status := .queued
  phase := .queued
  attempt := 0
  error := none
  logR2Key := none
  timings := input.timings
  artifactsRetiredAt := none
  createdAt := input.nowUnixMs
  updatedAt := input.nowUnixMs
  revision := 0

/-- The rows the insert finds and writes. -/
def QueueInput.requeues (row : BuildRow) : Bool := input.scenario.isOf row && row.isSpent

/-- The third statement; it returns the ids it wrote. -/
def Tables.insertOrRequeue (t : Tables) : Except QueueError (Tables × List String) :=
  if t.builds.any input.scenario.isOf then
    .ok (t.update input.nowUnixMs input.requeues input.requeued,
      (t.builds.filter input.requeues).map BuildRow.id)
  else if t.builds.any (·.id = input.newId) then .error (.constraint "image_builds.id")
  else .ok ({ t with builds := t.builds ++ [input.newRow] }, [input.newId])

/-- The batch of `queueImageBuildScenario`. -/
def queueBatch (t : Tables) : Except QueueError (Tables × List String) :=
  ((t.cleanDesired input).supersede input).insertOrRequeue input

/-- The statement behind the batch: what is queued again has its artifacts to make. -/
def Tables.clearRetired (t : Tables) (now : Millis) (queuedIds : List String) : Tables :=
  t.update now (fun row => row.id ∈ queuedIds && row.artifactsRetiredAt.isSome) fun row =>
    { row with artifactsRetiredAt := none }

def queueImageBuildScenario (t : Tables) : Except QueueError Tables := do
  let (queued, queuedIds) ← queueBatch input t
  return queued.clearRetired input.nowUnixMs queuedIds

end

/-- The input of `queueImageBuildsFromBundle`; each scenario comes with the id drawn for it. -/
structure BundleInput where
  (rev r2Key : String)
  scenarios : List (ScenarioBuild × String)
  catalogChannel : Option CatalogChannel
  organizationId : Scope
  nowUnixMs : Millis

def BundleInput.content (input : BundleInput) : BundleMeta :=
  ⟨input.scenarios.map Prod.fst, input.catalogChannel⟩

def BundleInput.queueInput (input : BundleInput) (scenario : ScenarioBuild × String) : QueueInput where
  scenario := scenario.1
  rev := input.rev
  organizationId := input.organizationId
  catalogChannel := input.catalogChannel.getD .live
  nowUnixMs := input.nowUnixMs
  newId := scenario.2

/-- Insert the bundle row, or update the one with the revision; a revision never changes its
scope. -/
def Tables.upsertBundle (t : Tables) (input : BundleInput) : Except QueueError Tables :=
  match t.bundles.find? (·.rev = input.rev) with
  | none => .ok { t with bundles := t.bundles ++ [⟨input.rev, input.organizationId, input.r2Key,
      input.content, input.nowUnixMs, input.nowUnixMs⟩] }
  | some row =>
    if row.organizationId = input.organizationId then
      .ok { t with bundles := t.bundles.map fun row =>
        if row.rev = input.rev then
          { row with r2Key := input.r2Key, content := input.content, updatedAt := input.nowUnixMs }
        else row }
    else .error revScopeConflict

/-- Queue scenario by scenario. -/
def queueScenarios (input : BundleInput) : List (ScenarioBuild × String) → Tables →
    Except QueueError Tables
  | [], t => .ok t
  | scenario :: rest, t => do
    let queued ← queueImageBuildScenario (input.queueInput scenario) t
    queueScenarios input rest queued

def queueImageBuildsFromBundle (input : BundleInput) (t : Tables) : Except QueueError Tables := do
  let t ← t.upsertBundle input
  queueScenarios input input.scenarios t

/-- A row of `vm_scenarios`, as far as a course catalog is checked against it. -/
structure ScenarioOwner where
  scenarioId : String
  organizationId : Scope
  enabled : Bool

/-- `validateCourseCatalogReferences`, with the scenarios that the catalog links to.  A bundle is
refused if it links to a scenario of its own that another scope has published, or to one of others
that it cannot see; a scenario that no course links to is not looked up. -/
def validateCourseCatalogReferences (rows : List ScenarioOwner) (referencedIds : List String)
    (bundledIds : List String) (organizationId : Scope) : List String :=
  referencedIds.filter fun scenarioId =>
    match rows.find? (·.scenarioId = scenarioId) with
    | none => scenarioId ∉ bundledIds
    | some existing =>
      if scenarioId ∈ bundledIds then existing.organizationId ≠ organizationId
      else !(existing.enabled &&
        (existing.organizationId = none || existing.organizationId = organizationId))

/-! ## The builds of the other scopes -/

/-- The rows of the other scopes. -/
def Tables.otherBuilds (t : Tables) (scope : Scope) : List BuildRow :=
  t.builds.filter fun row => row.organizationId ≠ scope

/-- The desired builds of a host that are the other scopes'. -/
def Tables.otherDesired (t : Tables) (scope : Scope) (d : DesiredBuilds) : List DesiredBuild :=
  d.entries.filter fun build => (t.otherBuilds scope).any (·.id = build.buildId)

/-- Nothing of the other scopes has changed. -/
structure KeepsOthers (scope : Scope) (t t' : Tables) : Prop where
  builds : t'.otherBuilds scope = t.otherBuilds scope
  desired : ∀ hostId, t.otherDesired scope (t'.desired hostId) =
    t.otherDesired scope (t.desired hostId)

/-- The primary key of `image_builds`. -/
def Tables.UniqueIds (t : Tables) : Prop := (t.builds.map BuildRow.id).Nodup

instance (t : Tables) : Decidable t.UniqueIds := inferInstanceAs (Decidable (List.Nodup _))

/-- Another scope has a row that the bundle would take over. -/
def Tables.TakesOver (t : Tables) (scope : Scope) (scenario : ScenarioBuild) : Prop :=
  ∃ row ∈ t.builds, row.organizationId ≠ scope ∧ scenario.isOf row = true ∧ row.isSpent = true

instance (t : Tables) (scope : Scope) (scenario : ScenarioBuild) :
    Decidable (t.TakesOver scope scenario) :=
  inferInstanceAs (Decidable (∃ row ∈ t.builds, _))

section

variable {scope : Scope} {t t' t'' : Tables} {scenario : ScenarioBuild} {input : QueueInput}

theorem KeepsOthers.refl (scope : Scope) (t : Tables) : KeepsOthers scope t t := ⟨rfl, fun _ => rfl⟩

theorem otherDesired_congr (h : t'.otherBuilds scope = t.otherBuilds scope) (d : DesiredBuilds) :
    t'.otherDesired scope d = t.otherDesired scope d := by
  rw [Tables.otherDesired, Tables.otherDesired, h]

theorem KeepsOthers.trans (h : KeepsOthers scope t t') (h' : KeepsOthers scope t' t'') :
    KeepsOthers scope t t'' where
  builds := h'.builds.trans h.builds
  desired hostId := by
    rw [← h.desired hostId, ← otherDesired_congr h.builds, ← otherDesired_congr h.builds]
    exact h'.desired hostId

theorem takesOver_iff :
    t.TakesOver scope scenario ↔
      ∃ row ∈ t.otherBuilds scope, scenario.isOf row = true ∧ row.isSpent = true := by
  simp [Tables.TakesOver, Tables.otherBuilds, and_assoc]

/-- A map that either leaves a row alone or moves it into the scope only takes rows away from the
others. -/
theorem filter_map_of_moves {f : BuildRow → BuildRow} {rows : List BuildRow}
    (hf : ∀ row ∈ rows, (f row).organizationId ≠ scope → f row = row) :
    (rows.map f).filter (fun row => row.organizationId ≠ scope) =
      rows.filter fun row => (f row).organizationId ≠ scope := by
  induction rows with
  | nil => rfl
  | cons row _ ih =>
    have hrs := ih fun row hrow => hf row (mem_cons_of_mem _ hrow)
    rw [map_cons, filter_cons, filter_cons, hrs]
    by_cases h : (f row).organizationId ≠ scope
    · rw [if_pos (by simpa using h), if_pos (by simpa using h), hf row mem_cons_self h]
    · rw [if_neg (by simpa using h), if_neg (by simpa using h)]

variable {now : Millis} {row : BuildRow} {ids : List String}

variable {guard : BuildRow → Bool} {set : BuildRow → BuildRow}

/-- The statements that ask for the scope change no row of another one. -/
theorem otherBuilds_update
    (hgd : ∀ row ∈ t.builds, guard row = true → row.organizationId = scope)
    (hset : ∀ row, (set row).organizationId = row.organizationId) :
    (t.update now guard set).otherBuilds scope = t.otherBuilds scope := by
  have hmap : ∀ row ∈ t.builds,
      (if guard row then row.write now set else row).organizationId = row.organizationId := by
    intro row _
    split
    · exact hset row
    · rfl
  rw [Tables.otherBuilds, Tables.update, filter_map_of_moves]
  · exact filter_congr fun row hrow => by rw [hmap row hrow]
  intro row hrow ho
  rw [hmap row hrow] at ho
  rw [if_neg]
  exact fun h => ho (hgd row hrow h)

theorem inFamily_scope (h : input.inFamily row = true) :
    row.organizationId = input.organizationId := by
  simp only [QueueInput.inFamily, Bool.and_eq_true, decide_eq_true_iff] at h
  exact h.1.2

theorem supersedes_scope (h : input.supersedes row = true) :
    row.organizationId = input.organizationId := by
  simp only [QueueInput.supersedes, Bool.and_eq_true] at h
  exact inFamily_scope h.1.1

theorem otherBuilds_supersede :
    (t.supersede input).otherBuilds input.organizationId = t.otherBuilds input.organizationId :=
  otherBuilds_update (fun _ _ h => supersedes_scope h) fun _ => rfl

@[simp] theorem otherBuilds_cleanDesired :
    (t.cleanDesired input).otherBuilds scope = t.otherBuilds scope := rfl

/-- A build that is cleaned up is not another scope's, since ids are unique. -/
theorem otherDesired_cleanDesired (huq : t.UniqueIds) (hostId : String) :
    t.otherDesired input.organizationId ((t.cleanDesired input).desired hostId) =
      t.otherDesired input.organizationId (t.desired hostId) := by
  dsimp only [Tables.otherDesired, Tables.cleanDesired, DesiredBuilds.remove]
  rw [filter_filter]
  refine filter_congr fun build _ => ?_
  by_cases ho : (t.otherBuilds input.organizationId).any (·.id = build.buildId) = true
  · rw [ho, Bool.true_and, decide_eq_true_iff]
    intro hcl
    obtain ⟨row, hrow, hid⟩ := mem_map.mp hcl
    obtain ⟨hrow, hcleans⟩ := mem_filter.mp hrow
    obtain ⟨other, hmem, ho⟩ := any_eq_true.mp ho
    obtain ⟨hmem, hsc⟩ := mem_filter.mp hmem
    have heq : row = other := by
      refine inj_on_of_nodup_map huq hrow hmem ?_
      rw [hid, of_decide_eq_true ho]
    simp only [QueueInput.cleansUp, Bool.and_eq_true] at hcleans
    exact of_decide_eq_true hsc (heq ▸ inFamily_scope hcleans.1)
  · rw [Bool.eq_false_iff.mpr ho, Bool.false_and]

/-- What the insert does to the rows of the other scopes: it takes over those it requeues. -/
theorem otherBuilds_insertOrRequeue (h : t.insertOrRequeue input = .ok (t', ids)) :
    t'.otherBuilds input.organizationId =
        (t.otherBuilds input.organizationId).filter (fun row => !input.requeues row) ∧
      t'.desired = t.desired := by
  rw [Tables.insertOrRequeue] at h
  split at h
  · cases h
    refine ⟨?_, rfl⟩
    rw [Tables.otherBuilds, Tables.update, filter_map_of_moves, Tables.otherBuilds, filter_filter]
    · refine filter_congr fun row _ => ?_
      by_cases hrow : input.requeues row = true
      · simp [hrow, BuildRow.write, QueueInput.requeued]
      · simp [hrow]
    · intro row _ ho
      by_cases hrow : input.requeues row = true
      · simp [hrow, BuildRow.write, QueueInput.requeued] at ho
      · rw [if_neg hrow]
  · rename_i hno
    split at h
    · cases h
    cases h
    refine ⟨?_, rfl⟩
    have hkeep : ∀ row ∈ t.otherBuilds input.organizationId, (!input.requeues row) = true := by
      intro row hrow
      have hrow := (mem_filter.mp hrow).1
      simp only [any_eq_true, not_exists, not_and, Bool.not_eq_true] at hno
      simp [QueueInput.requeues, hno row hrow]
    rw [filter_eq_self.mpr hkeep, Tables.otherBuilds, filter_append]
    simp [Tables.otherBuilds, QueueInput.newRow]

theorem uniqueIds_update (hset : ∀ row, (set row).id = row.id) (h : t.UniqueIds) :
    (t.update now guard set).UniqueIds := by
  have hids : (t.update now guard set).builds.map BuildRow.id = t.builds.map BuildRow.id := by
    rw [Tables.update, map_map]
    refine map_congr_left fun row _ => ?_
    simp only [Function.comp_apply]
    split
    · exact hset row
    · rfl
  rw [Tables.UniqueIds, hids]
  exact h

theorem uniqueIds_insertOrRequeue (h : t.UniqueIds)
    (hins : t.insertOrRequeue input = .ok (t', ids)) : t'.UniqueIds := by
  rw [Tables.insertOrRequeue] at hins
  split at hins
  · cases hins
    exact uniqueIds_update (fun _ => rfl) h
  split at hins
  · cases hins
  rename_i hfr
  cases hins
  rw [Tables.UniqueIds, map_append, map_singleton]
  refine List.Nodup.append h (nodup_singleton _) ?_
  rw [disjoint_singleton]
  intro hmem
  obtain ⟨row, hrow, hid⟩ := mem_map.mp hmem
  exact hfr (any_eq_true.mpr ⟨row, hrow, by simpa [QueueInput.newRow] using hid⟩)

/-- What the insert reports is the scope's own. -/
theorem insertOrRequeue_scope (h : t.UniqueIds) (hins : t.insertOrRequeue input = .ok (t', ids))
    (hrow : row ∈ t'.builds) (hid : row.id ∈ ids) : row.organizationId = input.organizationId := by
  rw [Tables.insertOrRequeue] at hins
  split at hins
  · cases hins
    obtain ⟨spent, hspt, hsm⟩ := mem_map.mp hid
    obtain ⟨hspt, hreq⟩ := mem_filter.mp hspt
    rcases mem_builds_update.mp hrow with ⟨hrow, hkt⟩ | ⟨_, -, -, rfl⟩
    · -- a row that was left alone has another id than those that were written
      have heq : spent = row := inj_on_of_nodup_map h hspt hrow hsm
      rw [← heq, hreq] at hkt
      cases hkt
    · rfl
  · split at hins
    · cases hins
    rename_i hfr
    cases hins
    rcases mem_append.mp hrow with hrow | hrow
    · refine absurd (any_eq_true.mpr ⟨row, hrow, ?_⟩) hfr
      simpa using hid
    · rw [mem_singleton.mp hrow]
      rfl

/-- **One scenario of a bundle.**  Of the other scopes' rows it takes those it requeues, and nothing
else happens to them. -/
theorem queueImageBuildScenario_others (h : t.UniqueIds)
    (hqu : queueImageBuildScenario input t = .ok t') :
    t'.UniqueIds ∧
      t'.otherBuilds input.organizationId =
        (t.otherBuilds input.organizationId).filter (fun row => !input.requeues row) ∧
      ∀ hostId, t.otherDesired input.organizationId (t'.desired hostId) =
        t.otherDesired input.organizationId (t.desired hostId) := by
  obtain ⟨⟨queued, ids⟩, hbat, hdn⟩ := Fallible.bind_eq_ok.mp hqu
  cases hdn
  have hcl : (t.cleanDesired input).UniqueIds := h
  have hsup : ((t.cleanDesired input).supersede input).UniqueIds :=
    uniqueIds_update (fun _ => rfl) hcl
  obtain ⟨hoths, hdes⟩ := otherBuilds_insertOrRequeue hbat
  rw [otherBuilds_supersede, otherBuilds_cleanDesired] at hoths
  have huq := uniqueIds_insertOrRequeue hsup hbat
  refine ⟨uniqueIds_update (fun _ => rfl) huq, ?_, fun hostId => ?_⟩
  · rw [← hoths]
    refine otherBuilds_update (fun row hrow hgd => ?_) fun _ => rfl
    rw [Bool.and_eq_true, decide_eq_true_iff] at hgd
    exact insertOrRequeue_scope hsup hbat hrow hgd.1
  · rw [show (queued.clearRetired input.nowUnixMs ids).desired = queued.desired from rfl, hdes]
    exact otherDesired_cleanDesired h hostId

/-- A scenario takes nothing over if and only if the rows of the other scopes stay. -/
theorem filter_requeues_eq_self_iff :
    (t.otherBuilds scope).filter (fun row => !input.requeues row) = t.otherBuilds scope ↔
      ¬ t.TakesOver scope input.scenario := by
  rw [filter_eq_self, takesOver_iff]
  simp only [QueueInput.requeues, Bool.not_eq_true', Bool.and_eq_false_iff, not_exists, not_and,
    Bool.not_eq_true]
  exact forall₂_congr fun row _ => by grind

theorem queueImageBuildScenario_keepsOthers_iff (h : t.UniqueIds)
    (hqu : queueImageBuildScenario input t = .ok t') :
    KeepsOthers input.organizationId t t' ↔ ¬ t.TakesOver input.organizationId input.scenario := by
  obtain ⟨-, hblds, hdes⟩ := queueImageBuildScenario_others h hqu
  rw [← filter_requeues_eq_self_iff, ← hblds]
  exact ⟨KeepsOthers.builds, fun h => ⟨h, hdes⟩⟩

end

section

variable {t t' : Tables} {input : BundleInput} {scenarios : List (ScenarioBuild × String)}

/-- Scenario by scenario, the rows of the other scopes only become fewer. -/
theorem queueScenarios_sublist (h : t.UniqueIds)
    (hqu : queueScenarios input scenarios t = .ok t') :
    (t'.otherBuilds input.organizationId).Sublist (t.otherBuilds input.organizationId) := by
  induction scenarios generalizing t with
  | nil =>
    cases hqu
    exact List.Sublist.refl _
  | cons scenario _ ih =>
    obtain ⟨_, hfst, hrs⟩ := Fallible.bind_eq_ok.mp hqu
    obtain ⟨huq, hoths, -⟩ := queueImageBuildScenario_others h hfst
    refine (ih huq hrs).trans ?_
    rw [show input.organizationId = (input.queueInput scenario).organizationId from rfl, hoths]
    exact filter_sublist

theorem queueScenarios_keepsOthers_iff (h : t.UniqueIds)
    (hqu : queueScenarios input scenarios t = .ok t') :
    KeepsOthers input.organizationId t t' ↔
      ∀ scenario ∈ scenarios, ¬ t.TakesOver input.organizationId scenario.1 := by
  induction scenarios generalizing t with
  | nil =>
    cases hqu
    exact ⟨fun _ _ hmem => (not_mem_nil hmem).elim, fun _ => .refl _ _⟩
  | cons scenario rest ih =>
    obtain ⟨queued, hfst, hrs⟩ := Fallible.bind_eq_ok.mp hqu
    have hstp := queueImageBuildScenario_keepsOthers_iff h hfst
    obtain ⟨huq, hoths, hdes⟩ := queueImageBuildScenario_others h hfst
    have hih := ih huq hrs
    simp only [forall_mem_cons]
    -- as long as the first scenario keeps the rows, the rest take over the same ones
    have hsm (hkp : KeepsOthers input.organizationId t queued) (s : ScenarioBuild) :
        queued.TakesOver input.organizationId s ↔ t.TakesOver input.organizationId s := by
      rw [takesOver_iff, takesOver_iff, hkp.builds]
    constructor
    · intro hkp
      have hfewer := queueScenarios_sublist huq hrs
      rw [hkp.builds] at hfewer
      have hback : queued.otherBuilds input.organizationId = t.otherBuilds input.organizationId :=
        List.Sublist.antisymm (hoths ▸ filter_sublist) hfewer
      have hque : KeepsOthers input.organizationId t queued := ⟨hback, hdes⟩
      refine ⟨hstp.mp hque, fun s hs htks => ?_⟩
      have hls : KeepsOthers input.organizationId queued t' := by
        refine ⟨hkp.builds.trans hback.symm, fun hostId => ?_⟩
        rw [otherDesired_congr hback, otherDesired_congr hback, hkp.desired]
        exact (hque.desired hostId).symm
      exact hih.mp hls s hs ((hsm hque s.1).mpr htks)
    · rintro ⟨hhe, htail⟩
      have hque := hstp.mpr hhe
      exact hque.trans (hih.mpr fun s hs htks => htail s hs ((hsm hque _).mp htks))

theorem upsertBundle_eq_ok {upserted : Tables} (h : t.upsertBundle input = .ok upserted) :
    upserted.builds = t.builds ∧ upserted.desired = t.desired := by
  rw [Tables.upsertBundle] at h
  split at h
  · cases h
    exact ⟨rfl, rfl⟩
  split at h
  · cases h
    exact ⟨rfl, rfl⟩
  · cases h

/-- **A bundle and the other scopes.**  The bundle that a scope queues leaves the build rows and the
desired builds of the other scopes as they are if and only if none of them has a failed, stale or
retired row for a scenario, architecture and content hash that the bundle names. -/
theorem queue_keeps_other_scopes_iff (input : BundleInput) (t t' : Tables) (hids : t.UniqueIds)
    (hqueue : queueImageBuildsFromBundle input t = .ok t') :
    KeepsOthers input.organizationId t t' ↔
      ∀ scenario ∈ input.content.scenarios, ¬ t.TakesOver input.organizationId scenario := by
  obtain ⟨upserted, hbundle, hrs⟩ := Fallible.bind_eq_ok.mp hqueue
  obtain ⟨hblds, hdes⟩ := upsertBundle_eq_ok hbundle
  have hoths : upserted.otherBuilds input.organizationId = t.otherBuilds input.organizationId := by
    rw [Tables.otherBuilds, Tables.otherBuilds, hblds]
  have hupserted : upserted.UniqueIds := by rwa [Tables.UniqueIds, hblds]
  have hkp : KeepsOthers input.organizationId t t' ↔
      KeepsOthers input.organizationId upserted t' := by
    constructor
    · rintro ⟨hb, hd⟩
      exact ⟨hb.trans hoths.symm, fun hostId => by
        rw [otherDesired_congr hoths, otherDesired_congr hoths, hd, hdes]⟩
    · rintro ⟨hb, hd⟩
      refine ⟨hb.trans hoths, fun hostId => ?_⟩
      have := hd hostId
      rwa [otherDesired_congr hoths, otherDesired_congr hoths, hdes] at this
  rw [hkp, queueScenarios_keepsOthers_iff hupserted hrs]
  simp [BundleInput.content, forall_mem_map, takesOver_iff, hoths]

end

namespace Demo

def acme : OrganizationId := ⟨"acme", by decide⟩

def globex : OrganizationId := ⟨"globex", by decide⟩

/-- A build of acme's. -/
def acmeBuild (status : BuildStatus) : BuildRow where
  id := "build-1"
  organizationId := some acme
  scenarioId := "web-basics"
  arch := .x86_64
  rev := "rev-a"
  contentHash := "hash"
  catalogChannel := .live
  hostId := some "builder"
  status
  phase := .failed
  attempt := 1
  error := none
  logR2Key := none
  timings := ⟨some 1, some 2, some 3, some 3⟩
  artifactsRetiredAt := none
  createdAt := 1
  updatedAt := 3
  revision := 2

def acmeTables (status : BuildStatus) : Tables where
  builds := [acmeBuild status]
  bundles := []
  desired := fun _ => .empty

/-- Globex uploads the same content. -/
def globexBundle : BundleInput where
  rev := "rev-g"
  r2Key := "bundles/rev-g"
  scenarios := [(⟨"web-basics", .x86_64, "hash"⟩, "build-2")]
  catalogChannel := none
  organizationId := some globex
  nowUnixMs := 10

theorem succeeded_build_is_kept :
    ∃ t', queueImageBuildsFromBundle globexBundle (acmeTables .succeeded) = .ok t' ∧
      KeepsOthers (some globex) (acmeTables .succeeded) t' :=
  ⟨_, rfl, (queue_keeps_other_scopes_iff globexBundle (acmeTables .succeeded) _ (by decide) rfl).mpr
    (by decide)⟩

/-- Acme's failed build becomes a queued build of globex'; no course links to the scenario, so the
catalog is in order. -/
theorem failed_build_is_taken_over :
    (acmeTables .failed).UniqueIds ∧
      validateCourseCatalogReferences [] [] ["web-basics"] (some globex) = [] ∧
      ∃ t', queueImageBuildsFromBundle globexBundle (acmeTables .failed) = .ok t' ∧
        t'.builds.map (fun row => (row.id, row.organizationId, row.status)) =
          [("build-1", some globex, .queued)] ∧
        ¬ KeepsOthers (some globex) (acmeTables .failed) t' := by
  refine ⟨by decide, rfl, _, rfl, rfl, fun h => ?_⟩
  exact absurd h.builds (by decide)

end Demo

end Intar.Builds
