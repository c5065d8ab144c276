import Intar.Host.DesiredState
import Intar.Registry.Retention

/-!
# Image builds

The rows of `image_builds` and the builds in the hosts' desired states, and the rules of
`lib/build-scheduler-core.ts` that decide about them one by one.

A build is identified by its scenario, its architecture and the hash of its content; the unique
index of the table says no more than that, so two scopes that publish the same content share one
row.  A row has the columns that a statement of the scheduler reads or writes.  `revision` is not
one of them: it counts the writes to the row, so that a proof can say that a row was left alone.
-/

namespace Intar.Builds

open Registry (Architecture BuildStatus)
open Host (Millis DesiredBuild)
open List

/-! ## Rows -/

/-- The id of an organization is never empty. -/
structure OrganizationId where
  text : String
  nonempty : text ≠ ""
deriving DecidableEq

/-- Who publishes: an organization, or the public catalog. -/
abbrev Scope := Option OrganizationId

inductive BuildPhase where
  | queued
  | fetchingSources
  | buildingBase
  | building
  | publishing
  | uploadingLogs
  | succeeded
  | failed
deriving DecidableEq

inductive CatalogChannel where
  | candidate
  | live
deriving DecidableEq

/-- `ImageBuildTimings`. -/
structure BuildTimings where
  (queuedAt startedAt finishedAt lastReportAt : Option Millis)
deriving DecidableEq

structure BuildRow where
  id : String
  organizationId : Scope
  scenarioId : String
  arch : Architecture
  (rev contentHash : String)
  catalogChannel : CatalogChannel
  hostId : Option String
  status : BuildStatus
  phase : BuildPhase
  attempt : Int
  (error logR2Key : Option String)
  timings : BuildTimings
  artifactsRetiredAt : Option Millis
  (createdAt updatedAt : Millis)
  /-- How often the row was written. -/
  revision : Nat
deriving DecidableEq

/-- Write a row. -/
def BuildRow.write (row : BuildRow) (now : Millis) (set : BuildRow → BuildRow) : BuildRow :=
  { set row with updatedAt := now, revision := row.revision + 1 }

/-! ## Desired builds -/

/-- The builds of a desired state, no build twice. -/
structure DesiredBuilds where
  entries : List DesiredBuild
  nodup : (entries.map DesiredBuild.buildId).Nodup
deriving DecidableEq

namespace DesiredBuilds

def empty : DesiredBuilds := ⟨[], nodup_nil⟩

def ids (d : DesiredBuilds) : List String := d.entries.map DesiredBuild.buildId

/-- `upsertDesiredBuild`. -/
def upsert (build : DesiredBuild) (d : DesiredBuilds) : DesiredBuilds :=
  ⟨Keyed.set DesiredBuild.buildId build d.entries, Keyed.nodup_set d.nodup⟩

/-- `removeDesiredBuild`, for each of the ids. -/
def remove (buildIds : List String) (d : DesiredBuilds) : DesiredBuilds :=
  ⟨d.entries.filter fun build => build.buildId ∉ buildIds, d.nodup.sublist (filter_sublist.map _)⟩

variable {d : DesiredBuilds} {id : String}

theorem mem_ids_upsert {build : DesiredBuild} :
    id ∈ (d.upsert build).ids ↔ id = build.buildId ∨ id ∈ d.ids := by
  simp only [ids, upsert, mem_map]
  constructor
  · rintro ⟨entry, hent, rfl⟩
    rcases Keyed.mem_of_mem_set hent with rfl | hent
    · exact .inl rfl
    · exact .inr ⟨entry, hent, rfl⟩
  · rintro (rfl | ⟨entry, hent, rfl⟩)
    · exact ⟨build, Keyed.mem_set_self, rfl⟩
    by_cases hkey : entry.buildId = build.buildId
    · exact ⟨build, Keyed.mem_set_self, hkey.symm⟩
    · exact ⟨entry, Keyed.mem_set_of_ne hent hkey, rfl⟩

@[simp] theorem mem_ids_remove {buildIds : List String} :
    id ∈ (d.remove buildIds).ids ↔ id ∈ d.ids ∧ id ∉ buildIds := by
  simp only [ids, remove, mem_map, mem_filter, decide_eq_true_iff]
  constructor
  · rintro ⟨build, ⟨hbld, hnot⟩, rfl⟩
    exact ⟨⟨build, hbld, rfl⟩, hnot⟩
  · rintro ⟨⟨build, hbld, rfl⟩, hnot⟩
    exact ⟨build, ⟨hbld, hnot⟩, rfl⟩

end DesiredBuilds

/-- One entry of a bundle: a scenario for one architecture. -/
structure ScenarioBuild where
  scenarioId : String
  arch : Architecture
  contentHash : String
deriving DecidableEq

/-- `ImageBuildBundleMeta`, without the course catalog. -/
structure BundleMeta where
  scenarios : List ScenarioBuild
  catalogChannel : Option CatalogChannel
deriving DecidableEq

/-- A row of `image_build_bundles`. -/
structure BundleRow where
  rev : String
  organizationId : Scope
  r2Key : String
  content : BundleMeta
  (createdAt updatedAt : Millis)

/-- The tables of the scheduler; a host without a desired state has no builds in it. -/
structure Tables where
  builds : List BuildRow
  bundles : List BundleRow
  desired : String → DesiredBuilds

/-- `UPDATE image_builds SET … WHERE …`. -/
def Tables.update (t : Tables) (now : Millis) (guard : BuildRow → Bool)
    (set : BuildRow → BuildRow) : Tables :=
  { t with builds := t.builds.map fun row => if guard row then row.write now set else row }

/-- One mutation of a host's desired builds. -/
def Tables.mutateDesired (t : Tables) (hostId : String) (f : DesiredBuilds → DesiredBuilds) :
    Tables :=
  { t with desired := Function.update t.desired hostId (f (t.desired hostId)) }

/-! ## Phases and statuses -/

def builderBuildSlots : Nat := 2

/-- `PRE_PUBLICATION_BUILD_PHASES`: the phases that hold a build worker. -/
def isPrePublication : BuildPhase → Bool
  | .queued => true
  | .fetchingSources => true
  | .buildingBase => true
  | .building => true
  | _ => false

def buildStatusFromPhase : BuildPhase → BuildStatus
  | .queued => .assigned
  | .fetchingSources => .building
  | .buildingBase => .building
  | .building => .building
  | .publishing => .building
  | .uploadingLogs => .building
  | .succeeded => .succeeded
  | .failed => .failed

def isTerminalBuildPhase (phase : BuildPhase) : Bool := phase = .succeeded || phase = .failed

def isActiveImageBuild (status : BuildStatus) : Bool :=
  status = .queued || status = .assigned || status = .building

/-- On a builder: `inArray(status, ["assigned", "building"])`. -/
def isOnBuilder (status : BuildStatus) : Bool := status = .assigned || status = .building

def supersededBuildErrorPrefix : String := "superseded by bundle "

/-- The error says that another bundle took the place of this build. -/
def isSuperseded (error : Option String) : Bool :=
  error.any fun text => Js.startsWith text supersededBuildErrorPrefix

def canRetryImageBuild (status : BuildStatus) (error : Option String) : Bool :=
  status = .failed || (status = .stale && !isSuperseded error)

def buildReportStaleAfterMs : Millis := 30 * 60 * 1000

/-- A building build of which nothing was heard for half an hour. -/
def isSilentBuildingBuild (row : BuildRow) (nowUnixMs : Millis) : Bool :=
  row.status = .building &&
    row.timings.lastReportAt.getD row.updatedAt ≤ nowUnixMs - buildReportStaleAfterMs

/-! ## Reports -/

/-- `BuildReportV1`, as far as it is read. -/
structure BuildReport where
  (buildId hostId scenarioId contentHash : String)
  phase : BuildPhase
  attempt : Int
  error : Option String
  (startedAt finishedAt : Option Millis)
  observedAt : Millis

def buildReportIdentityMatches (row : BuildRow) (hostId : String) (report : BuildReport) : Bool :=
  row.hostId = some hostId && report.hostId = hostId && row.scenarioId = report.scenarioId &&
    row.contentHash = report.contentHash

def shouldAcceptBuildReport (row : BuildRow) (hostId : String) (report : BuildReport) : Bool :=
  isOnBuilder row.status && buildReportIdentityMatches row hostId report

def shouldAcknowledgeTerminalBuildReport (row : BuildRow) (hostId : String)
    (report : BuildReport) : Bool :=
  buildReportIdentityMatches row hostId report &&
    ((row.status = .succeeded && report.phase = .succeeded) ||
      (row.status = .failed && report.phase = .failed))

def mergeBuildTimings (current : BuildTimings) (report : BuildReport) : BuildTimings :=
  { current with
    startedAt := report.startedAt.or current.startedAt
    finishedAt := report.finishedAt.or current.finishedAt
    lastReportAt := some report.observedAt }

/-! ## Builders -/

/-- The part of `HostCapacityV2` that builders are compared by. -/
structure BuilderCapacity where
  (schedulableCpuMillis memoryAvailableMib diskAvailableMib : Int)
deriving DecidableEq

structure BuilderCandidate where
  hostId : String
  isBuilder : Bool
  arch : Option Architecture
  (connected disabled : Bool)
  (activeBuildCount prePublicationBuildCount : Nat)
  sourceCompilePlatform : Option String
  capacity : Option BuilderCapacity

/-- A queued build as an assignment pass reads it, with the archive of its bundle. -/
structure QueuedBuild where
  (id scenarioId : String)
  arch : Architecture
  (rev contentHash bundleRef : String)

/-- More capacity comes first: CPU, then memory, then disk. -/
def compareBuilderCapacity (left right : BuilderCandidate) : Ordering :=
  let metric (f : BuilderCapacity → Int) : Ordering :=
    compare ((right.capacity.map f).getD 0) ((left.capacity.map f).getD 0)
  ((metric BuilderCapacity.schedulableCpuMillis).then
    (metric BuilderCapacity.memoryAvailableMib)).then (metric BuilderCapacity.diskAvailableMib)

section

variable (localeCompare : String → String → Ordering)

/-- The builder with the fewest builds that can take this one; a `git-` build only goes to a builder
on the current compile digest. -/
def chooseLeastLoadedBuilder (candidates : List BuilderCandidate) (build : QueuedBuild)
    (compileDigest : Option String) : Option BuilderCandidate :=
  let needsDigest := Js.startsWith build.rev "git-"
  let fit := candidates.filter fun candidate =>
    candidate.isBuilder && candidate.connected && !candidate.disabled &&
      candidate.arch = some build.arch && candidate.prePublicationBuildCount < builderBuildSlots &&
      (!needsDigest || (compileDigest.isSome && candidate.sourceCompilePlatform = compileDigest))
  (fit.insertionSort fun left right =>
    (((compare left.activeBuildCount right.activeBuildCount).then
      (compareBuilderCapacity left right)).then (localeCompare left.hostId right.hostId)) ≠ .gt).head?

end

def desiredBuildFromSource (build : QueuedBuild) : DesiredBuild where
  buildId := build.id
  scenarioId := build.scenarioId
  arch := build.arch
  rev := build.rev
  contentHash := build.contentHash
  bundleRef := build.bundleRef

/-! ## What an update does to a row -/

section

variable {t : Tables} {now : Millis} {guard : BuildRow → Bool} {set : BuildRow → BuildRow}
  {row : BuildRow}

theorem mem_builds_update :
    row ∈ (t.update now guard set).builds ↔
      (row ∈ t.builds ∧ guard row = false) ∨
        ∃ before ∈ t.builds, guard before = true ∧ row = before.write now set := by
  simp only [Tables.update, mem_map]
  constructor
  · rintro ⟨before, hbef, rfl⟩
    by_cases h : guard before = true
    · exact .inr ⟨before, hbef, h, by rw [if_pos h]⟩
    · exact .inl (by rw [if_neg h]; exact ⟨hbef, Bool.eq_false_iff.mpr h⟩)
  · rintro (⟨hrow, h⟩ | ⟨before, hbef, h, rfl⟩)
    · exact ⟨row, hrow, by rw [h]; rfl⟩
    · exact ⟨before, hbef, by rw [if_pos h]⟩

end

end Intar.Builds
