import Intar.Registry.CleanupSafety
import Intar.Registry.SweepSafety

/-!
# Does a cleanup run finish its sweep?

A run in delete mode takes the exclusive sweep, works under it and finishes it.  Here the effects
that `run` lists are played against the admission tables: before each of them anything else may
happen to the tables, and a call that threw may or may not have reached the database (`Weave`).

`run` finishes its sweep at the end of a delete pass and in the handler of its `try`.  Three early
returns inside the `try` do neither, and an acquisition that throws after its batch was committed
never gets there.  `run_finishes_sweep_iff` says that these, and a handler whose own call fails, are
the only runs that leave the sweep behind.
-/

namespace Intar.Registry

open List

/-! ## A run against the tables -/

/-- What happens around a run: the history of the tables, the ids the run draws and the clock it
reads, what others do before its `i`-th effect, and whether that effect reached the database. -/
structure Weave where
  before : List Op
  input : SweepInput
  clock : ℕ → Millis
  between : ℕ → List Op
  landed : ℕ → Bool
  /-- `JSON.stringify` of a progress detail. -/
  describe : ProgressDetail → String

def GcCounters.input (c : GcCounters) : CounterInput :=
  ⟨some c.scannedObjects, some c.deletedObjects, some c.blockedObjects, some c.bytesReclaimed⟩

/-- The operation on the tables that an effect is; the others are reads, or about the bucket and the
catalog. -/
def Effect.op (w : Weave) (now : Millis) : Effect → Option Op
  | .acquireSweep => some (.acquireSweep w.input now)
  | .heartbeat => some (.heartbeatSweep w.input.sweepToken w.input.leaseMs now)
  | .recordProgress counters detail =>
    some (.recordProgress w.input.sweepToken counters.input (detail.map w.describe) now)
  | .finishSweep outcome error counters =>
    some (.finishSweep w.input.sweepToken outcome error
      ((counters.map GcCounters.input).getD ⟨none, none, none, none⟩) now)
  | .applyRetention => none
  | .assertDeletable _ => none
  | .deleteObjects _ => none

namespace Weave

variable (w : Weave)

/-- What the `i`-th effect adds to the history of the tables. -/
def turn (i : ℕ) (effect : Effect) : List Op :=
  w.between i ++ if w.landed i then (effect.op w (w.clock i)).toList else []

/-- The history that the effects from number `i` on make. -/
def history : ℕ → List Effect → List Op
  | _, [] => []
  | i, effect :: effects => w.turn i effect ++ history (i + 1) effects

/-- The tables the acquisition finds. -/
def found : Tables := Trace.run step Tables.empty (w.before ++ w.between 0)

/-- The tables when the run returns or throws. -/
def after (effects : List Effect) : Tables :=
  Trace.run step Tables.empty (w.before ++ w.history 0 effects)

/-- The run took the sweep. -/
def Acquired : Prop := w.landed 0 = true ∧ acquires w.found w.input (w.clock 0) = true

/-- The run heard what the database did: an acquisition that returned says whether the sweep was
granted, and a finish that returned took effect. -/
structure Hears (answers : RunAnswers) (effects : List Effect) : Prop where
  lease : ∀ deleteAllowed reason, answers.acquisition = .ok (.lease deleteAllowed reason) →
    w.Acquired
  busy : ∀ sessions writers, answers.acquisition = .ok (.busy sessions writers) → ¬ w.Acquired
  finish : answers.finish = .ok () → ∀ i outcome error counters,
    effects[i]? = some (.finishSweep outcome error (some counters)) → w.landed i = true
  finishFailed : answers.finishFailed = .ok () → ∀ i outcome error,
    effects[i]? = some (.finishSweep outcome error none) → w.landed i = true

end Weave

/-- The sweep is over: the gate is open, or another sweep has it, and the run is settled. -/
structure Released (s : Tables) (token : String) : Prop where
  gate : ∀ g, s.gate = some g → g.state = .opened ∨ ∃ other, other ≠ token ∧ g.sweepsAs other = true
  run : ∀ r ∈ s.gcRuns, r.sweepToken = token → r.state ≠ .running

/-- What a finish leaves. -/
theorem released_finishSweep {s : Tables} (hrec : s.SweepsOnRecord) (token : String)
    (outcome : SweepOutcome) (error : Option String) (counters : CounterInput) (now : Millis) :
    Released (step s (.finishSweep token outcome error counters now)) token := by
  have hmv := moves_step hrec (.finishSweep token outcome error counters now)
  obtain ⟨hhold, hup⟩ := Lease.finish_settles (l := s.lease) token now outcome.runState
  rw [← lease_finishSweep hrec token outcome error counters now] at hhold hup
  refine ⟨fun g hg => ?_, fun r hr htok hrun => ?_⟩
  · cases hsta : g.state with
    | opened => exact .inl rfl
    | sweeping =>
      obtain ⟨other, beat, ho, hbeat, -⟩ := hmv.record g hg hsta
      refine .inr ⟨other, ?_, Gate.sweepsAs_iff.mpr ⟨hsta, ho⟩⟩
      rintro rfl
      exact hhold beat (lease_holder_eq_some.mpr ⟨g, hg, hsta, ho, hbeat⟩)
  · have hend := hup r.entry (mem_map_of_mem hr) htok
    simp [GcRun.isRunning, hrun] at hend

theorem Weave.history_append (w : Weave) (i : ℕ) (effects rest : List Effect) :
    w.history i (effects ++ rest) = w.history i effects ++ w.history (i + effects.length) rest := by
  induction effects generalizing i with
  | nil => rfl
  | cons _ _ ih =>
    rw [cons_append, history, history, ih, append_assoc, length_cons,
      Nat.add_right_comm, Nat.add_assoc]

/-- A run whose last effect is a finish that took effect has released the sweep. -/
theorem Weave.released_of_landed (w : Weave) {effects : List Effect} {outcome : SweepOutcome}
    {error : Option String} {counters : Option GcCounters}
    (hln : w.landed effects.length = true) :
    Released (w.after (effects ++ [.finishSweep outcome error counters])) w.input.sweepToken := by
  rw [after, history_append, Nat.zero_add, history, history, append_nil, turn, if_pos hln,
    ← append_assoc, ← append_assoc]
  change Released (Trace.run step Tables.empty (_ ++ [_])) _
  rw [Trace.run_concat]
  exact released_finishSweep (record_run _) _ _ _ _ _

/-! ## Where a run finishes -/

def Effect.isFinish : Effect → Bool
  | .finishSweep .. => true
  | _ => false

/-- A turn of the delete loop finishes nothing. -/
theorem unfinished_deleteBatch (plan : CleanupPlan) (count : Nat) (answers : BatchAnswers)
    (batch : List PlanObject) {pass : DeletePass} (h : pass.effects.any Effect.isFinish = false) :
    (deleteBatch plan count answers batch pass).1.effects.any Effect.isFinish = false := by
  rw [deleteBatch]
  split
  · simp [h, Effect.isFinish]
  · simp [h, Effect.isFinish]
  · simp [h, Effect.isFinish]
  split
  · simp [h, Effect.isFinish]
  · simp [h, Effect.isFinish]
  · rw [deleteClaimed]
    split
    · simp [h, Effect.isFinish, DeletePass.record]
    split
    · simp [h, Effect.isFinish, DeletePass.record]
    · simp [h, Effect.isFinish, DeletePass.record]
  · simp [h, Effect.isFinish, DeletePass.record]

theorem unfinished_deleteBatches (plan : CleanupPlan) (count : Nat) (answers : Nat → BatchAnswers)
    (batches : List (List PlanObject)) (i : Nat) {pass : DeletePass}
    (h : pass.effects.any Effect.isFinish = false) :
    (deleteBatches plan count answers i batches pass).1.effects.any Effect.isFinish = false := by
  induction batches generalizing i pass with
  | nil => exact h
  | cons batch _ ih =>
    have hturn := unfinished_deleteBatch plan count (answers i) batch h
    rw [deleteBatches]
    split <;> rename_i heq <;> rw [heq] at hturn
    · exact ih _ hturn
    · exact hturn
    · exact hturn

section

variable (sha256Hex : Bytes → String) (options : RunOptions) (answers : RunAnswers)
  (built : BuiltPlan)

theorem unfinished_applyDeletes :
    (applyDeletes sha256Hex options answers built).1.any Effect.isFinish = false := by
  have hloop : ∀ {count batches start pass thrown},
      deleteBatches built.plan count answers.batch 0 batches ⟨start, 0, [], []⟩ = (pass, thrown) →
      pass.effects.any Effect.isFinish = false := by
    intro count batches start _ _ heq
    have h : (deleteBatches built.plan count answers.batch 0 batches
        ⟨start, 0, [], []⟩).1.effects.any Effect.isFinish = false :=
      unfinished_deleteBatches built.plan count answers.batch batches 0 rfl
    rw [heq] at h
    exact h
  rw [applyDeletes]
  split
  · rename_i heq
    exact hloop heq
  rename_i heq
  split
  · exact hloop heq
  split
  · exact hloop heq
  · exact hloop heq

/-- How the guarded part of a run can end: it finishes the sweep and returns, or it throws, and then
no finish of its own has succeeded. -/
inductive Guarded (answers : RunAnswers) : List Effect → GuardedEnd → Prop
  | finished {effects outcome error counters result} (finish : answers.finish = .ok ()) :
    Guarded answers (effects ++ [.finishSweep outcome error (some counters)]) (.returned result)
  | threw {effects e result}
    (unfinished : answers.finish = .ok () → effects.any Effect.isFinish = false) :
    Guarded answers effects (.threw e result)
  | pending {effects} : Guarded answers effects .pending

variable {answers} in
theorem Guarded.cons {effects : List Effect} {ending : GuardedEnd}
    (h : Guarded answers effects ending) {effect : Effect} (heff : effect.isFinish = false) :
    Guarded answers (effect :: effects) ending := by
  cases h with
  | finished finish =>
    rw [← cons_append]
    exact .finished finish
  | threw unfinished =>
    refine .threw fun hfin => ?_
    rw [any_cons, heff, unfinished hfin]
    rfl
  | pending => exact .pending

theorem guarded_deleteAndFinish (phases : List (String × Nat)) :
    Guarded answers (deleteAndFinish sha256Hex options answers built phases).1
      (deleteAndFinish sha256Hex options answers built phases).2 := by
  have hunf := unfinished_applyDeletes sha256Hex options answers built
  rw [deleteAndFinish]
  split
  · exact .pending
  · rename_i heq
    rw [heq] at hunf
    exact .threw fun _ => hunf
  · cases hfin : answers.finish with
    | ok => exact .finished hfin
    | error => exact .threw fun hok => by simp [hfin] at hok

variable {built} in
theorem guarded_sweepWithPlan (hall : built.plan.details.deleteAllowedByReferences = true) :
    Guarded answers (sweepWithPlan sha256Hex options answers built).1
      (sweepWithPlan sha256Hex options answers built).2 := by
  rw [sweepWithPlan, if_pos hall]
  split
  · exact guarded_deleteAndFinish sha256Hex options answers built []
  split
  · exact .threw fun _ => rfl
  · exact (guarded_deleteAndFinish sha256Hex options answers built _).cons rfl

end

section

variable (sha256Hex : Bytes → String) (decode : Bytes → Option Json)
  (localeCompare : String → String → Ordering) (options : RunOptions) (nowMs : Int)
  (answers : RunAnswers)

/-- The three early returns under the lease: enforcement is off, the lease does not allow deletion,
or the plan has a fault. -/
def StopsEarly (deleteAllowed : Bool) : Prop :=
  answers.enforcement = .ok .reportOnly ∨
    answers.enforcement = .ok .enforce ∧ (deleteAllowed = false ∨
      ∃ env built, answers.plan = .ok env ∧
        buildPlan sha256Hex decode localeCompare env .delete nowMs options.candidateListLimit =
          some built ∧ built.plan.details.deleteAllowedByReferences = false)

/-- **The guarded part of a run**: it stops early, having done nothing, or ends as `Guarded` says.
-/
theorem sweepUnderLease_cases (deleteAllowed : Bool) (reason : Option String) :
    (StopsEarly sha256Hex decode localeCompare options nowMs answers deleteAllowed ∧
      ∃ result, sweepUnderLease sha256Hex decode localeCompare options nowMs answers deleteAllowed
        reason = ([], .returned result)) ∨
    (¬ StopsEarly sha256Hex decode localeCompare options nowMs answers deleteAllowed ∧
      ∃ effects ending, sweepUnderLease sha256Hex decode localeCompare options nowMs answers
        deleteAllowed reason = (effects, ending) ∧ Guarded answers effects ending) := by
  rw [sweepUnderLease]
  cases henf : answers.enforcement with
  | error =>
    refine .inr ⟨?_, [], _, rfl, .threw fun _ => rfl⟩
    rintro (h | ⟨h, -⟩) <;> simp [henf] at h
  | ok mode =>
    cases mode with
    | reportOnly => exact .inl ⟨.inl henf, _, rfl⟩
    | enforce =>
      cases deleteAllowed with
      | false => exact .inl ⟨.inr ⟨henf, .inl rfl⟩, _, rfl⟩
      | true =>
        -- the early return that is left is the one of the plan
        have hstp : StopsEarly sha256Hex decode localeCompare options nowMs answers true →
            ∃ env built, answers.plan = .ok env ∧
              buildPlan sha256Hex decode localeCompare env .delete nowMs
                options.candidateListLimit = some built ∧
              built.plan.details.deleteAllowedByReferences = false := by
          rintro (h | ⟨-, h | h⟩)
          · simp [henf] at h
          · cases h
          · exact h
        rw [if_pos rfl]
        cases hpl : answers.plan with
        | error =>
          refine .inr ⟨fun h => ?_, [], _, rfl, .threw fun _ => rfl⟩
          obtain ⟨_, _, henv, -⟩ := hstp h
          simp [hpl] at henv
        | ok env =>
          dsimp only
          cases hblt : buildPlan sha256Hex decode localeCompare env .delete nowMs
              options.candidateListLimit with
          | none =>
            refine .inr ⟨fun h => ?_, [], _, rfl, .pending⟩
            obtain ⟨_, _, henv, hblt', -⟩ := hstp h
            cases hpl.symm.trans henv
            cases hblt.symm.trans hblt'
          | some built =>
            cases hall : built.plan.details.deleteAllowedByReferences with
            | false =>
              refine .inl ⟨.inr ⟨henf, .inr ⟨env, built, hpl, hblt, hall⟩⟩, ?_⟩
              dsimp only
              rw [sweepWithPlan, if_neg (by simp [hall])]
              exact ⟨_, rfl⟩
            | true =>
              refine .inr ⟨fun h => ?_, _, _, rfl,
                guarded_sweepWithPlan sha256Hex options answers hall⟩
              obtain ⟨_, _, henv, hblt', hnot⟩ := hstp h
              cases hpl.symm.trans henv
              cases hblt.symm.trans hblt'
              cases hall.symm.trans hnot

/-- When a run leaves no sweep behind: its acquisition does not throw, and once it has the lease it
does not stop early, and its handler's finish goes through whenever the guarded part throws. -/
def FinishesSweep : Prop :=
  (∀ e, answers.acquisition ≠ .error e) ∧
    ∀ deleteAllowed reason, answers.acquisition = .ok (.lease deleteAllowed reason) →
      ¬ StopsEarly sha256Hex decode localeCompare options nowMs answers deleteAllowed ∧
      ∀ effects e result, sweepUnderLease sha256Hex decode localeCompare options nowMs answers
        deleteAllowed reason = (effects, .threw e result) → answers.finishFailed = .ok ()

end

/-! ## A run alone -/

/-- A run from an empty database with nobody else around, of which only the acquisition reaches the
database. -/
def Weave.alone : Weave where
  before := []
  input := ⟨"collector", none, "token", "run"⟩
  clock := fun _ => 0
  between := fun _ => []
  landed := (· = 0)
  describe := fun _ => ""

theorem Weave.history_alone (i : ℕ) (effects : List Effect) :
    Weave.alone.history (i + 1) effects = [] := by
  induction effects generalizing i with
  | nil => rfl
  | cons _ _ ih =>
    rw [history, ih, append_nil, turn]
    simp [alone]

theorem Weave.acquired_alone : Weave.alone.Acquired := ⟨rfl, by decide⟩

/-- It has not released the sweep, whatever it tried. -/
theorem Weave.not_released_alone (effects : List Effect) :
    ¬ Released (Weave.alone.after (.acquireSweep :: effects)) "token" := by
  intro h
  rw [after, history, Weave.history_alone] at h
  have hswept : ∃ g, (Weave.alone.after [.acquireSweep]).gate = some g ∧
      g.state = .sweeping ∧ g.sweepToken = some "token" := ⟨_, rfl, by decide, by decide⟩
  obtain ⟨g, hg, hsta, htok⟩ := hswept
  rcases h.gate g hg with hop | ⟨_, hne, ho⟩
  · rw [hsta] at hop
    cases hop
  · rw [Gate.sweepsAs_iff, htok, Option.some.injEq] at ho
    exact hne ho.2.symm

/-- It hears nothing else, if no finish it made returned. -/
theorem Weave.hears_alone {answers : RunAnswers} {effects : List Effect}
    (hbusy : ∀ sessions writers, answers.acquisition ≠ .ok (.busy sessions writers))
    (hfin : answers.finish = .ok () → ∀ outcome error counters,
      .finishSweep outcome error (some counters) ∉ effects)
    (hfinishFailed : answers.finishFailed = .ok () → ∀ outcome error,
      .finishSweep outcome error none ∉ effects) :
    Weave.alone.Hears answers (.acquireSweep :: effects) where
  lease _ _ _ := acquired_alone
  busy sessions writers h := absurd h (hbusy sessions writers)
  finish hok i outcome error counters hi := by
    rcases mem_cons.mp (mem_of_getElem? hi) with h | h
    · cases h
    · exact absurd h (hfin hok outcome error counters)
  finishFailed hok i outcome error hi := by
    rcases mem_cons.mp (mem_of_getElem? hi) with h | h
    · cases h
    · exact absurd h (hfinishFailed hok outcome error)

/-! ## Every run -/

section

variable {sha256Hex : Bytes → String} {decode : Bytes → Option Json}
  {localeCompare : String → String → Ordering} {options : RunOptions} {nowMs : Int}
  {answers : RunAnswers} {deleteAllowed : Bool} {reason : Option String} {effects : List Effect}

section

variable (hls : answers.acquisition = .ok (.lease deleteAllowed reason))

include hls

theorem run_of_returned {result : RunResult}
    (h : sweepUnderLease sha256Hex decode localeCompare options nowMs answers deleteAllowed reason =
      (effects, .returned result)) :
    run sha256Hex decode localeCompare options .delete nowMs answers =
      (.acquireSweep :: effects, .returned result) := by
  simp [run, runDelete, hls, h]

/-- The handler's finish is the last thing a run that threw under the lease does. -/
theorem run_of_threw {e : Thrown} {result : RunResult}
    (h : sweepUnderLease sha256Hex decode localeCompare options nowMs answers deleteAllowed reason =
      (effects, .threw e result)) :
    (run sha256Hex decode localeCompare options .delete nowMs answers).1 =
      .acquireSweep :: effects ++ [.finishSweep .failed (some (e.getD "cleanup run failed")) none] ∧
    (run sha256Hex decode localeCompare options .delete nowMs answers).2 ≠ .pending := by
  simp only [run, runDelete, hls, h, true_and]
  cases answers.finishFailed <;> simp

theorem run_of_pending
    (h : sweepUnderLease sha256Hex decode localeCompare options nowMs answers deleteAllowed reason =
      (effects, .pending)) :
    (run sha256Hex decode localeCompare options .delete nowMs answers).2 = .pending := by
  simp [run, runDelete, hls, h]

end

/-- A run that meets the condition has released the sweep. -/
theorem released_of_finishesSweep
    (h : FinishesSweep sha256Hex decode localeCompare options nowMs answers) {w : Weave}
    {result : List Effect × CallEnd RunResult}
    (hrun : run sha256Hex decode localeCompare options .delete nowMs answers = result)
    (hhrs : w.Hears answers result.1) (hacquired : w.Acquired) (hend : result.2 ≠ .pending) :
    Released (w.after result.1) w.input.sweepToken := by
  subst hrun
  obtain ⟨hret, hls⟩ := h
  cases hacq : answers.acquisition with
  | error e => exact absurd hacq (hret e)
  | ok acquisition =>
    cases acquisition with
    | busy sessions writers => exact absurd hacquired (hhrs.busy sessions writers hacq)
    | lease deleteAllowed reason =>
      obtain ⟨hely, hhandler⟩ := hls deleteAllowed reason hacq
      rcases sweepUnderLease_cases sha256Hex decode localeCompare options nowMs answers
        deleteAllowed reason with ⟨hstp, -⟩ | ⟨-, effects, ending, hsw, hgdd⟩
      · exact absurd hstp hely
      cases hgdd with
      | @finished _ outcome error counters _ hfin =>
        rw [run_of_returned hacq hsw] at hhrs ⊢
        rw [← cons_append]
        refine w.released_of_landed ?_
        exact hhrs.finish hfin _ outcome error counters (by simp)
      | @threw _ e result =>
        rw [(run_of_threw hacq hsw).1] at hhrs ⊢
        refine w.released_of_landed ?_
        exact hhrs.finishFailed (hhandler effects e result hsw) _ .failed
          (some (e.getD "cleanup run failed")) (by simp)
      | pending => exact absurd (run_of_pending hacq hsw) hend

end

/-- **A cleanup run in delete mode finishes its sweep exactly when it neither stops early nor throws
out of its acquisition, and its handler gets through.**  Whatever the tables were before, whatever
others do between its calls and whichever of its failed calls reached the database: if the run took
the sweep, then when it returns or throws the gate is open (or another sweep's) and its run is
settled. -/
theorem run_finishes_sweep_iff (sha256Hex : Bytes → String) (decode : Bytes → Option Json)
    (localeCompare : String → String → Ordering) (options : RunOptions) (nowMs : Int)
    (answers : RunAnswers) :
    (∀ w : Weave,
      w.Hears answers (run sha256Hex decode localeCompare options .delete nowMs answers).1 →
      w.Acquired → (run sha256Hex decode localeCompare options .delete nowMs answers).2 ≠ .pending →
      Released (w.after (run sha256Hex decode localeCompare options .delete nowMs answers).1)
        w.input.sweepToken) ↔
    FinishesSweep sha256Hex decode localeCompare options nowMs answers := by
  refine ⟨fun hall => ?_, fun h w hhrs hacquired hend =>
    released_of_finishesSweep h rfl hhrs hacquired hend⟩
  -- against each other run stands the one alone of which only the acquisition took effect
  have hnot : ∀ {effects}, (run sha256Hex decode localeCompare options .delete nowMs answers).1 =
      .acquireSweep :: effects →
      (run sha256Hex decode localeCompare options .delete nowMs answers).2 ≠ .pending →
      Weave.alone.Hears answers (.acquireSweep :: effects) → False := by
    intro effects hrun hend hhrs
    have hrel := hall Weave.alone (by rw [hrun]; exact hhrs) Weave.acquired_alone hend
    rw [hrun] at hrel
    exact Weave.not_released_alone effects hrel
  refine ⟨fun e hacq => ?_, fun deleteAllowed reason hacq => ⟨fun hstp => ?_, ?_⟩⟩
  · have hrun : run sha256Hex decode localeCompare options .delete nowMs answers =
        ([.acquireSweep], .threw e) := by
      simp [run, runDelete, hacq]
    exact hnot (congrArg Prod.fst hrun) (by rw [hrun]; simp)
      (Weave.hears_alone (by simp [hacq]) (by simp) (by simp))
  · rcases sweepUnderLease_cases sha256Hex decode localeCompare options nowMs answers deleteAllowed
      reason with ⟨-, result, hsw⟩ | ⟨hely, -⟩
    · have hrun := run_of_returned hacq hsw
      exact hnot (congrArg Prod.fst hrun) (by rw [hrun]; simp)
        (Weave.hears_alone (by simp [hacq]) (by simp) (by simp))
    · exact hely hstp
  · intro _ _ _ hsw
    by_contra hfail
    obtain ⟨hrun, hend⟩ := run_of_threw hacq hsw
    refine hnot hrun hend (Weave.hears_alone (by simp [hacq]) (fun hok o er c hmem => ?_)
      fun hok => absurd hok hfail)
    rcases sweepUnderLease_cases sha256Hex decode localeCompare options nowMs answers deleteAllowed
      reason with ⟨-, _, hret⟩ | ⟨-, _, _, heq, hgdd⟩
    · rw [hsw] at hret
      cases hret
    rw [hsw] at heq
    cases heq
    cases hgdd with
    | threw hunf =>
      have hno := any_eq_false.mp (hunf hok)
      rcases mem_append.mp hmem with hmem | hmem
      · exact hno _ hmem rfl
      · simp at hmem

namespace Demo

/-- What a run hears that finds the registry in report-only mode, while no call of it fails. -/
def reportOnlyAnswers : RunAnswers where
  acquisition := .ok (.lease false (some "registry_enforcement_disabled"))
  enforcement := .ok .reportOnly
  plan := .error none
  retention := .ok ()
  batch := fun _ => ⟨.ok (.current false none), .ok (.refused ""), .ok (), .ok ()⟩
  post := .ok []
  finish := .ok ()
  finishFailed := .ok ()

def reportOnlyRun : List Effect × CallEnd RunResult :=
  run (fun _ => "") (fun _ => none) (fun _ _ => .eq) (RunOptions.ofCore none none none) .delete 0
    reportOnlyAnswers

/-- **The sweep that is left behind.**  A delete run on a registry in report-only mode takes the
sweep, reads that mode and returns; the gate is sweeping and the run is running. -/
theorem report_only_keeps_sweep :
    reportOnlyRun = ([.acquireSweep],
      .returned (refusedResult "registry admission enforcement is report_only" 1)) ∧
    Weave.alone.Hears reportOnlyAnswers reportOnlyRun.1 ∧ Weave.alone.Acquired ∧
    (readRegistryAdmissionState (Weave.alone.after [.acquireSweep]).gate ⟨0, 0⟩ 0).enforcement =
      .reportOnly ∧
    (readRegistryAdmissionState (Weave.alone.after [.acquireSweep]).gate ⟨0, 0⟩ 0).blockedReason =
      some "registry_enforcement_disabled" ∧
    (Weave.alone.after reportOnlyRun.1).isSweeping = true ∧
    (Weave.alone.after reportOnlyRun.1).gcRuns.map GcRun.state = [.running] :=
  ⟨rfl, Weave.hears_alone (by simp [reportOnlyAnswers]) (by simp) (by simp), Weave.acquired_alone,
    by decide, by decide, by decide, by decide⟩

end Demo

end Intar.Registry
