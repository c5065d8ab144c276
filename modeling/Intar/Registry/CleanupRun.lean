import Intar.Registry.Admission
import Intar.Registry.Cleanup

/-!
# The cleanup run

`applyDeletes` and `run` of `lib/image-registry-cleanup.ts`: acquire the exclusive sweep, build a
plan under it, and delete its worklist batch by batch.

The run talks to the admission tables, the database and the bucket.  What they answer is in
`RunAnswers`, where any call may throw; what the run asks of them, in order, is the list of `Effect`s
that `run` returns next to its result.
-/

namespace Intar.Registry

/-! ## Delete selection -/

/-- `CleanupDeleteSelection`. -/
structure DeleteSelection where
  batches : List (List PlanObject)
  selectedKeyCount : Nat
  resumeRequired : Bool
deriving DecidableEq

/-- The slices of `size` elements that a loop with that step takes. -/
def slices {α : Type*} (size : Nat) (xs : List α) : List (List α) :=
  (List.range ((xs.length + size - 1) / size)).map fun i => (xs.drop (i * size)).take size

/-- The batches one run attempts: the only place that decides it. -/
def planCleanupDeleteSelection (candidates : List PlanObject) (batchSize maxDeletes : Nat)
    (candidateSampleCapped faultsPresent : Bool) : DeleteSelection :=
  let ordered := candidates.insertionSort fun left right =>
    deleteBefore Js.compareUnits (left.category, left.key) (right.category, right.key)
  let all := slices batchSize ordered
  let batches := all.take (max 1 (maxDeletes / batchSize))
  ⟨batches, (batches.map List.length).sum,
    batches.length < all.length || candidateSampleCapped || faultsPresent⟩

/-! ## What a run asks and hears -/

/-- What a call threw: the message of an `Error`; anything else has none. -/
abbrev Thrown := Option String

/-- The detail of a failed progress record. -/
inductive ProgressDetail where
  | blockedSample (keys : List String)
  | failedKeys (keys : List String)
deriving DecidableEq

inductive Effect where
  | acquireSweep
  | applyRetention
  | heartbeat
  | assertDeletable (keys : List String)
  | deleteObjects (keys : List String)
  | recordProgress (counters : GcCounters) (detail : Option ProgressDetail)
  | finishSweep (outcome : SweepOutcome) (error : Option String) (counters : Option GcCounters)
deriving DecidableEq

/-- The answers of one turn of the delete loop. -/
structure BatchAnswers where
  heartbeat : Except Thrown Heartbeat
  assertion : Except Thrown Assertion
  (delete progress : Except Thrown Unit)

structure RunAnswers where
  acquisition : Except Thrown Acquisition
  enforcement : Except Thrown EnforcementMode
  plan : Except Thrown CleanupEnv
  retention : Except Thrown Unit
  /-- By the number of the batch. -/
  batch : Nat → BatchAnswers
  post : Except Thrown (List ListPage)
  finish : Except Thrown Unit
  /-- The `finishRegistrySweep` of the handler. -/
  finishFailed : Except Thrown Unit

/-! ## Results -/

structure PostState where
  (scanned expected : KeysetSummary)
  (unchanged truncated : Bool)
  unrecognizedObjects : Nat
deriving DecidableEq

/-- `ImageRegistryCleanupRunResult`.  The plan summary is the plan without its key list. -/
structure RunResult where
  (deletedObjects deletedBytes failedObjects skippedObjects : Nat)
  (wouldDeleteObjects wouldDeleteBytes : Nat)
  blockedObjects : Nat
  completed : Bool
  planSummary : Option CleanupPlan
  postState : Option PostState
  (verifiedDeletedObjects verifiedDeletedBytes unverifiedObjects : Nat)
  (unverifiedKeys deletedKeys : List String)
  deletedKeysTruncated : Bool
  deletedKeysDigest : String
  resumeRequired : Bool
  /-- A record from a name to a count. -/
  phases : List (String × Nat)
  error : Option String
deriving DecidableEq

def emptyResult (error : Option String) : RunResult where
  deletedObjects := 0
  deletedBytes := 0
  failedObjects := 0
  skippedObjects := 0
  wouldDeleteObjects := 0
  wouldDeleteBytes := 0
  blockedObjects := 0
  completed := false
  planSummary := none
  postState := none
  verifiedDeletedObjects := 0
  verifiedDeletedBytes := 0
  unverifiedObjects := 0
  unverifiedKeys := []
  deletedKeys := []
  deletedKeysTruncated := false
  deletedKeysDigest := ""
  resumeRequired := false
  phases := []
  error

def countersOf (plan : CleanupPlan) (result : RunResult) : GcCounters :=
  ⟨plan.objectsScanned, result.deletedObjects, result.blockedObjects, result.deletedBytes⟩

def summarizeCleanupPlan (plan : CleanupPlan) : CleanupPlan := { plan with candidateObjects := [] }

def describeFaults (plan : CleanupPlan) : Option String :=
  if plan.details.faults = [] then none
  else some (" | ".intercalate
    ((plan.details.faults.map fun fault => fault.code ++ ": " ++ fault.detail).take 5))

/-! ## The delete loop -/

/-- What the loop carries from batch to batch. -/
structure DeletePass where
  result : RunResult
  processed : Nat
  /-- The keys whose delete call returned, with their sizes: a `Map`. -/
  claimedKeys : List (String × Nat)
  effects : List Effect
deriving DecidableEq

/-- How one turn ends. -/
inductive TurnEnd where
  | next
  | stop
  | threw (error : Thrown)
deriving DecidableEq

namespace DeletePass

def log (pass : DeletePass) (effect : Effect) : DeletePass :=
  { pass with effects := pass.effects ++ [effect] }

/-- The gate holds the rest of the selection. -/
def block (pass : DeletePass) (selectedKeyCount : Nat) (error : String) : DeletePass :=
  { pass with result := { pass.result with
      blockedObjects := pass.result.blockedObjects + (selectedKeyCount - pass.processed)
      resumeRequired := true
      error := some error } }

def fail (pass : DeletePass) (claimed : List PlanObject) (error : Thrown) : DeletePass :=
  { pass with result := { pass.result with
      failedObjects := pass.result.failedObjects + claimed.length
      error := some ("bulk delete failed: " ++ error.getD "unknown error") } }

/-- One object whose delete call returned. -/
def claim (pass : DeletePass) (object : PlanObject) : DeletePass :=
  { pass with
    claimedKeys := Keyed.set Prod.fst (object.key, object.bytes) pass.claimedKeys
    result := { pass.result with
      deletedObjects := pass.result.deletedObjects + 1
      deletedBytes := pass.result.deletedBytes + object.bytes
      phases := Keyed.set Prod.fst
        (object.category.text,
          ((Keyed.get Prod.fst object.category.text pass.result.phases).map Prod.snd).getD 0 + 1)
        pass.result.phases } }

/-- Write the progress row; if that throws, so does the turn. -/
def record (pass : DeletePass) (plan : CleanupPlan) (detail : Option ProgressDetail)
    (answer : Except Thrown Unit) (ending : TurnEnd) : DeletePass × TurnEnd :=
  (pass.log (.recordProgress (countersOf plan pass.result) detail),
    match answer with
    | .ok () => ending
    | .error e => .threw e)

end DeletePass

/-- One bulk delete of the keys the gate granted. -/
def deleteClaimed (plan : CleanupPlan) (answers : BatchAnswers) (batch : List PlanObject)
    (deletable : List String) (pass : DeletePass) : DeletePass × TurnEnd :=
  let claimed := batch.filter fun object => object.key ∈ deletable
  let proceed (pass : DeletePass) : DeletePass × TurnEnd :=
    { pass with processed := pass.processed + batch.length }.record plan none answers.progress .next
  if claimed = [] then proceed pass
  else
    let asked := pass.log (.deleteObjects (claimed.map PlanObject.key))
    match answers.delete with
    | .ok () => proceed (claimed.foldl DeletePass.claim asked)
    -- no chunk may go after a manifest whose delete failed, so the loop stops here
    | .error e =>
      (asked.fail claimed e).record plan
        (some (.failedKeys ((claimed.map PlanObject.key).take 20))) answers.progress .stop

/-- One turn: the heartbeat, the gate, the bulk delete. -/
def deleteBatch (plan : CleanupPlan) (selectedKeyCount : Nat) (answers : BatchAnswers)
    (batch : List PlanObject) (pass : DeletePass) : DeletePass × TurnEnd :=
  let beaten := pass.log .heartbeat
  match answers.heartbeat with
  | .error e => (beaten, .threw e)
  | .ok .superseded => (beaten.block selectedKeyCount "registry_sweep_superseded", .stop)
  | .ok (.current false reason) =>
    (beaten.block selectedKeyCount (reason.getD "registry_admission_blocked"), .stop)
  | .ok (.current true _) =>
    let asserted := beaten.log (.assertDeletable (batch.map PlanObject.key))
    match answers.assertion with
    | .error e => (asserted, .threw e)
    | .ok (.refused code) => (asserted.block selectedKeyCount code, .stop)
    | .ok (.granted deletable []) => deleteClaimed plan answers batch deletable asserted
    | .ok (.granted _ blocked) =>
      (asserted.block selectedKeyCount
        ("registry admission blocked " ++ toString blocked.length ++ " key(s)")).record plan
          (some (.blockedSample (blocked.take 20))) answers.progress .stop

/-- The batches from number `i` on, until one stops the loop or throws. -/
def deleteBatches (plan : CleanupPlan) (selectedKeyCount : Nat) (answers : Nat → BatchAnswers) :
    Nat → List (List PlanObject) → DeletePass → DeletePass × Option Thrown
  | _, [], pass => (pass, none)
  | i, batch :: batches, pass =>
    match deleteBatch plan selectedKeyCount (answers i) batch pass with
    | (pass, .next) => deleteBatches plan selectedKeyCount answers (i + 1) batches pass
    | (pass, .stop) => (pass, none)
    | (pass, .threw e) => (pass, some e)

/-! ## The end state -/

/-- `MAX_REPORTED_DELETED_KEYS`. -/
def maxReportedDeletedKeys : Nat := 5000

def setErrorIf (condition : Bool) (message : String) (result : RunResult) : RunResult :=
  if condition && result.error.isNone then { result with error := some message } else result

/-- The result of a delete pass after the second listing: only an absent key is proof. -/
def proveEndState (sha256Hex : Bytes → String) (baseline : List SweptObject) (post : BucketScan)
    (pass : DeletePass) : RunResult :=
  let survived := pass.claimedKeys.filter fun claim => Keyed.has SweptObject.key claim.1 post.objects
  let gone := pass.claimedKeys.filter fun claim => !Keyed.has SweptObject.key claim.1 post.objects
  let scanned := summarizeKeyset sha256Hex post.objects
  let expected := summarizeKeyset sha256Hex
    (baseline.filter fun object => object.key ∉ gone.map Prod.fst)
  let postState : PostState :=
    { scanned
      expected
      unchanged := !post.truncated && scanned.digest == expected.digest &&
        scanned.objects == expected.objects && scanned.bytes == expected.bytes
      truncated := post.truncated
      unrecognizedObjects := post.unrecognized }
  let deletedKeys := Js.sort (gone.map Prod.fst)
  let result := setErrorIf (!postState.unchanged)
    ("the bucket changed during the sweep: the post-scan keyset does not match the scanned keyset " ++
      "minus the verified deletes")
    { pass.result with
      skippedObjects := pass.result.wouldDeleteObjects - pass.result.deletedObjects -
        pass.result.failedObjects
      unverifiedObjects := survived.length
      verifiedDeletedObjects := gone.length
      verifiedDeletedBytes := (gone.map Prod.snd).sum
      postState := some postState
      deletedKeys := deletedKeys.take maxReportedDeletedKeys
      deletedKeysTruncated := (deletedKeys.take maxReportedDeletedKeys).length < deletedKeys.length
      deletedKeysDigest := digestKeyLines sha256Hex
        (Js.sort (gone.map fun claim => claim.1 ++ "\t" ++ toString claim.2))
      unverifiedKeys := (survived.map Prod.fst).take maxReportedDeletedKeys }
  let result := setErrorIf (0 < survived.length)
    (toString survived.length ++ " key(s) survived their delete call") result
  let result := { result with
    completed := result.error.isNone && result.failedObjects == 0 && result.unverifiedObjects == 0 &&
      result.blockedObjects == 0 && postState.unchanged && !result.resumeRequired }
  setErrorIf (0 < result.failedObjects) (toString result.failedObjects ++ " object delete(s) failed")
    result

/-- How a call ends: with a result, by a throw, or not yet (a listing that has not ended). -/
inductive CallEnd (α : Type) where
  | returned (value : α)
  | threw (error : Thrown)
  | pending

structure RunOptions where
  (batchSize maxDeletes candidateListLimit : Nat)
deriving DecidableEq

/-- The options a core is created with: the clamps of `createImageRegistryCleanupCore`. -/
def RunOptions.ofCore (batchSize maxDeletesPerRun candidateListLimit : Option Nat) : RunOptions :=
  let size := min (min (max 1 (batchSize.getD 200)) 512) 1000
  ⟨size, max size (maxDeletesPerRun.getD 5000), max 1 (candidateListLimit.getD 5000)⟩

/-- Delete the worklist of a plan, and prove what is left. -/
def applyDeletes (sha256Hex : Bytes → String) (options : RunOptions) (answers : RunAnswers)
    (built : BuiltPlan) : List Effect × CallEnd RunResult :=
  let plan := built.plan
  let selection := planCleanupDeleteSelection plan.candidateObjects options.batchSize
    options.maxDeletes plan.details.candidateSampleCapped (!plan.details.deleteAllowedByReferences)
  let start := { emptyResult none with
    wouldDeleteObjects := plan.details.candidateTotal
    wouldDeleteBytes := plan.candidateBytes
    resumeRequired := selection.resumeRequired }
  match deleteBatches plan selection.selectedKeyCount answers.batch 0 selection.batches
      ⟨start, 0, [], []⟩ with
  | (pass, some e) => (pass.effects, .threw e)
  | (pass, none) =>
    match answers.post with
    | .error e => (pass.effects, .threw e)
    | .ok pages =>
      match scanBucket pages with
      | none => (pass.effects, .pending)
      | some post => (pass.effects, .returned (proveEndState sha256Hex built.baseline post pass))

/-! ## The run -/

def EnforcementMode.text : EnforcementMode → String
  | .reportOnly => "report_only"
  | .enforce => "enforce"

/-- A refusal under the lease: nothing was deleted, try again later. -/
def refusedResult (error : String) (blockedObjects : Nat) : RunResult :=
  { emptyResult (some error) with resumeRequired := true, blockedObjects }

/-- What `applyRegistryRetention` reports of a projection. -/
def retentionPhases (projection : Projection) : List (String × Nat) :=
  [("retired_builds", projection.retireBuildIds.length),
    ("trimmed_snapshots", projection.snapshots.trims.length),
    ("deleted_snapshots", projection.snapshots.deleteIds.length),
    ("deleted_candidates", projection.candidates.retireIds.length),
    ("trimmed_host_cache_intents",
      (projection.hostCacheTrims.flatMap HostCacheIntentTrim.imageIds).dedup.length)]

/-- `{ ...left, ...right }`. -/
def mergePhases (left right : List (String × Nat)) : List (String × Nat) :=
  right.foldl (fun merged entry => Keyed.set Prod.fst entry merged) left

/-- How the guarded part of a run ends; a throw leaves the result so far to the handler. -/
inductive GuardedEnd where
  | returned (result : RunResult)
  | threw (error : Thrown) (result : RunResult)
  | pending

section

variable (sha256Hex : Bytes → String) (decode : Bytes → Option Json)
  (localeCompare : String → String → Ordering)

/-- `applyDeletes`, and the end of the sweep after it. -/
def deleteAndFinish (options : RunOptions) (answers : RunAnswers) (built : BuiltPlan)
    (phases : List (String × Nat)) : List Effect × GuardedEnd :=
  match applyDeletes sha256Hex options answers built with
  | (effects, .pending) => (effects, .pending)
  | (effects, .threw e) => (effects, .threw e { emptyResult none with phases })
  | (effects, .returned deleted) =>
    let result := { deleted with
      phases := mergePhases deleted.phases phases
      planSummary := some (summarizeCleanupPlan built.plan) }
    let finish := Effect.finishSweep (if result.error.isSome then .failed else .completed) result.error
      (some (countersOf built.plan result))
    (effects ++ [finish],
      match answers.finish with
      | .ok () => .returned result
      | .error e => .threw e result)

/-- The plan under the lease: a fault stops here, before the first write. -/
def sweepWithPlan (options : RunOptions) (answers : RunAnswers) (built : BuiltPlan) :
    List Effect × GuardedEnd :=
  if built.plan.details.deleteAllowedByReferences then
    match built.projection with
    | none => deleteAndFinish sha256Hex options answers built []
    | some projection =>
      match answers.retention with
      | .error e => ([.applyRetention], .threw e (emptyResult none))
      | .ok () =>
        let (effects, ending) := deleteAndFinish sha256Hex options answers built
          (retentionPhases projection)
        (.applyRetention :: effects, ending)
  else
    ([], .returned (refusedResult
      ("reference verification stopped the sweep: " ++
        ",".intercalate (built.plan.details.faults.map CleanupFault.code))
      built.plan.details.faults.length))

/-- The guarded part of a delete run. -/
def sweepUnderLease (options : RunOptions) (nowMs : Int) (answers : RunAnswers) (deleteAllowed : Bool)
    (blockedReason : Option String) : List Effect × GuardedEnd :=
  match answers.enforcement with
  | .error e => ([], .threw e (emptyResult none))
  | .ok .reportOnly =>
    ([], .returned (refusedResult
      ("registry admission enforcement is " ++ EnforcementMode.reportOnly.text) 1))
  | .ok .enforce =>
    if deleteAllowed then
      match answers.plan with
      | .error e => ([], .threw e (emptyResult none))
      | .ok env =>
        match buildPlan sha256Hex decode localeCompare env .delete nowMs options.candidateListLimit with
        | none => ([], .pending)
        | some built => sweepWithPlan sha256Hex options answers built
    else
      ([], .returned (refusedResult
        (blockedReason.getD "registry admission did not allow deletion") 1))

/-- A run in delete mode.  The handler finishes the sweep after a throw; the early returns of the
guarded part do not. -/
def runDelete (options : RunOptions) (nowMs : Int) (answers : RunAnswers) :
    List Effect × CallEnd RunResult :=
  match answers.acquisition with
  | .error e => ([.acquireSweep], .threw e)
  | .ok (.busy openSessions pendingWriters) =>
    ([.acquireSweep], .returned
      (refusedResult "registry admission is busy" (openSessions + pendingWriters)))
  | .ok (.lease deleteAllowed blockedReason) =>
    match sweepUnderLease sha256Hex decode localeCompare options nowMs answers deleteAllowed
        blockedReason with
    | (effects, .pending) => (.acquireSweep :: effects, .pending)
    | (effects, .returned result) => (.acquireSweep :: effects, .returned result)
    | (effects, .threw e result) =>
      let message := e.getD "cleanup run failed"
      (.acquireSweep :: effects ++ [.finishSweep .failed (some message) none],
        match answers.finishFailed with
        | .error e => .threw e
        | .ok () => .returned { emptyResult (some message) with
            deletedObjects := result.deletedObjects
            deletedBytes := result.deletedBytes
            failedObjects := result.failedObjects
            blockedObjects := result.blockedObjects })

/-- A preview: the plan, and nothing asked of anyone. -/
def runReportOnly (options : RunOptions) (nowMs : Int) (answers : RunAnswers) :
    List Effect × CallEnd RunResult :=
  match answers.plan with
  | .error e => ([], .threw e)
  | .ok env =>
    match buildPlan sha256Hex decode localeCompare env .reportOnly nowMs options.candidateListLimit with
    | none => ([], .pending)
    | some built =>
      let details := built.plan.details
      ([], .returned { emptyResult (describeFaults built.plan) with
        wouldDeleteObjects := details.candidateTotal
        wouldDeleteBytes := built.plan.candidateBytes
        skippedObjects := details.candidateTotal
        blockedObjects := details.faults.length
        resumeRequired := 0 < details.faults.length
        planSummary := some (summarizeCleanupPlan built.plan)
        completed := details.faults.isEmpty && details.candidateTotal == 0 })

def run (options : RunOptions) (mode : CleanupMode) (nowMs : Int) (answers : RunAnswers) :
    List Effect × CallEnd RunResult :=
  match mode with
  | .delete => runDelete sha256Hex decode localeCompare options nowMs answers
  | .reportOnly => runReportOnly sha256Hex decode localeCompare options nowMs answers

end

end Intar.Registry
