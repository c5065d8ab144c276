import Intar.Jailer.Operations

/-!
# Between two operations

Two facts hold when no operation is under way, though not in the middle of one.  A daemon that is ready
has nothing left to contain: whatever leaves a containment incomplete also takes the readiness back.
And a daemon that does not run has nothing in memory.
-/

namespace Intar.Jailer

open Trace

open SortedTable (get mem_insert mem_erase)
open Trace (run)
open List

/-- A daemon that runs, and has nothing to contain if it is ready. -/
structure Resting (s : State) : Prop where
  running : s.running = true
  calm : s.attested = true → s.unresolvedRecoveries = []

/-- What holds between two operations, though not in the middle of one. -/
structure AtRest (s : State) : Prop where
  up : s.running = true → Resting s
  down : s.running = false → s.toJailerdCore = {}

theorem Resting.atRest {s : State} (h : Resting s) : AtRest s :=
  ⟨fun _ => h, fun hdown => absurd (h.running.symm.trans hdown) Bool.true_eq_false.mp⟩

/-! ## Changes that retain no recovery -/

/-- The daemon neither starts nor ends. -/
def Change.steady : Change → Bool
  | .serve _ | .shut => false
  | _ => true

/-- Steady, and no recovery is retained. -/
def Change.quiet : Change → Bool
  | .serve _ | .shut | .retain _ => false
  | _ => true

/-- None of the changes starts or ends the daemon, or retains a recovery. -/
def Quiet (cs : List Change) : Prop := ∀ c ∈ cs, c.quiet = true

variable {c : Change}

theorem Change.steady_of_quiet (h : c.quiet = true) : c.steady = true := by
  cases c <;> first | rfl | exact absurd h Bool.false_ne_true

variable {s : State} {cs : List Change}

theorem running_apply (h : c.steady = true) : (s.apply c).running = s.running := by
  cases c <;> first | rfl | exact absurd h Bool.false_ne_true

theorem attested_apply (h : c.steady = true) (hatt : (s.apply c).attested = true) :
    s.attested = true := by
  cases c <;> first
    | exact hatt
    | exact absurd h Bool.false_ne_true
    | exact absurd hatt Bool.false_ne_true

theorem unresolved_apply (h : c.quiet = true) (hno : s.unresolvedRecoveries = []) :
    (s.apply c).unresolvedRecoveries = [] := by
  cases c with
  | settle generation =>
    show SortedTable.erase _ generation s.unresolvedRecoveries = []
    rw [hno]
    rfl
  | _ => first | exact hno | exact absurd h Bool.false_ne_true

section

variable (h : ∀ c ∈ cs, c.steady = true)

include h

theorem running_run : (run State.apply s cs).running = s.running :=
  run_invariant_of_mem (P := fun t : State => t.running = s.running)
    (fun _ c hc ht => (running_apply (h c hc)).trans ht) rfl

/-- Readiness that is taken back does not return. -/
theorem attested_run (hatt : s.attested = false) : (run State.apply s cs).attested = false := by
  refine run_invariant_of_mem (P := fun t : State => t.attested = false) (fun t c hc ht => ?_) hatt
  by_contra hne
  rw [Bool.not_eq_false] at hne
  rw [attested_apply (h c hc) hne] at ht
  cases ht

theorem attested_of_run (hatt : (run State.apply s cs).attested = true) : s.attested = true := by
  by_contra hne
  rw [Bool.not_eq_true] at hne
  rw [attested_run h hne] at hatt
  cases hatt

theorem distrust_run (hmem : Change.distrust ∈ cs) : (run State.apply s cs).attested = false := by
  obtain ⟨_, _, rfl⟩ := append_of_mem hmem
  rw [run_append, run_cons]
  exact attested_run (fun c hc => h c (mem_append_right _ (mem_cons_of_mem _ hc))) rfl

end

namespace Resting

variable (hrs : Resting s)

include hrs

/-- A running daemon is at rest after changes that take its readiness back or leave nothing to
contain. -/
theorem of_run (h : ∀ c ∈ cs, c.steady = true)
    (hcalm : (run State.apply s cs).attested = true →
      (run State.apply s cs).unresolvedRecoveries = []) : Resting (run State.apply s cs) :=
  ⟨(running_run h).trans hrs.running, hcalm⟩

theorem of_quiet (h : Quiet cs) : Resting (run State.apply s cs) := by
  have hstdy : ∀ c ∈ cs, c.steady = true := fun c hc => Change.steady_of_quiet (h c hc)
  refine hrs.of_run hstdy fun hatt => ?_
  have hno := hrs.calm (attested_of_run hstdy hatt)
  exact run_invariant_of_mem (P := fun t : State => t.unresolvedRecoveries = [])
    (fun t c hc ht => unresolved_apply (h c hc) ht) hno

theorem of_distrust (h : ∀ c ∈ cs, c.steady = true)
    (hmem : Change.distrust ∈ cs) : Resting (run State.apply s cs) := by
  refine hrs.of_run h fun hatt => ?_
  rw [distrust_run h hmem] at hatt
  cases hatt

/-- Changes that retain only what the last of them settles. -/
theorem of_settle {generation : ValidatedId} (h : ∀ c ∈ cs, c.steady = true)
    (hretain : ∀ c ∈ cs, ∀ r, c = .retain r → r.generation = generation) :
    Resting (run State.apply s (cs ++ [.settle generation])) := by
  have hstdy : ∀ c ∈ cs ++ [.settle generation], c.steady = true := by
    intro c hc
    rcases mem_append.mp hc with hc | hc
    · exact h c hc
    rw [mem_singleton.mp hc]
    rfl
  refine hrs.of_run hstdy fun hatt => ?_
  have hno := hrs.calm (attested_of_run hstdy hatt)
  -- all that is retained before the last change is of the generation it settles
  have honly : ∀ r ∈ (run State.apply s cs).unresolvedRecoveries, r.generation = generation := by
    refine run_invariant_of_mem
      (P := fun t : State => ∀ r ∈ t.unresolvedRecoveries, r.generation = generation)
      (fun t c hc ht => ?_) (by rw [hno]; exact nofun)
    by_cases hqt : ∃ r, c = .retain r
    · obtain ⟨r, rfl⟩ := hqt
      intro x hx
      rcases mem_insert.mp hx with rfl | ⟨hx, -⟩
      · exact hretain _ hc x rfl
      · exact ht x hx
    · have hsub : ∀ r ∈ (t.apply c).unresolvedRecoveries, r ∈ t.unresolvedRecoveries := by
        have hs := h c hc
        cases c with
        | retain r => exact absurd ⟨r, rfl⟩ hqt
        | settle => exact fun r hr => (mem_erase.mp hr).1
        | _ => first | exact fun _ hr => hr | exact absurd hs Bool.false_ne_true
      exact fun r hr => ht r (hsub r hr)
  rw [run_append, eq_nil_iff_forall_not_mem]
  intro r hr
  obtain ⟨hr, hne⟩ := mem_erase.mp hr
  exact hne (honly r hr)

end Resting

/-! ## Which operations are quiet -/

namespace Quiet

variable {c : Change} {cs' : List Change}

theorem nil : Quiet [] := fun _ hc => nomatch hc

theorem cons (h : c.quiet = true) (hcs : Quiet cs) : Quiet (c :: cs) := by
  intro x hx
  rcases mem_cons.mp hx with rfl | hx
  · exact h
  · exact hcs x hx

theorem singleton (h : c.quiet = true) : Quiet [c] := cons h nil

theorem append (h : Quiet cs) (h' : Quiet cs') : Quiet (cs ++ cs') := by
  intro x hx
  rcases mem_append.mp hx with hx | hx
  · exact h x hx
  · exact h' x hx

theorem ite {p : Prop} [Decidable p] (h : Quiet cs) (h' : Quiet cs') :
    Quiet (if p then cs else cs') := by
  split
  · exact h
  · exact h'

theorem took (answer : Answer) (h : c.quiet = true) : Quiet (answer.took c) := ite nil (singleton h)

end Quiet

section

variable (config : JailerdConfig) (generation : ValidatedId) (a : HostAnswers)

theorem quiet_stopAndDestroy : Quiet (stopAndDestroy generation a) :=
  .append (.ite (.singleton rfl) .nil) (.ite (.singleton rfl) .nil)

theorem quiet_endUnit : Quiet (endUnit generation a) :=
  .append (quiet_stopAndDestroy generation a) (.ite (.took _ rfl) .nil)

variable (recovery : UnresolvedRecovery)

theorem quiet_containment : Quiet (attemptRecoveredContainment config recovery a).2 :=
  .append (.ite (.took _ rfl) .nil) (quiet_endUnit _ a)

theorem quiet_failLaunch : Quiet (failLaunch generation a) :=
  .append (quiet_endUnit generation a) (.ite (.cons rfl (.singleton rfl))
    (.append (.ite (.singleton rfl) .nil) (.singleton rfl)))

theorem quiet_containFailedBootSeal (record : VmRecord) : Quiet (containFailedBootSeal record a) :=
  .cons rfl (.append (quiet_endUnit _ a) (.ite (.singleton rfl) .nil))

theorem quiet_retryRecovery : Quiet (retryRecovery config recovery a) :=
  .append (quiet_containment config a recovery)
    (.append (.ite (.singleton rfl) .nil) (.ite (.singleton rfl) .nil))

theorem quiet_cleanupDetachedLaunch (reservation : LaunchReservation)
    (progress : DetachedLaunchProgress) :
    Quiet (cleanupDetachedLaunch reservation progress a).2 :=
  .append (.ite (quiet_stopAndDestroy _ a) .nil)
    (.append (.ite (.took _ rfl) .nil) (.ite (.took _ rfl) .nil))

theorem quiet_executeExistingLaunch (record : VmRecord) (answer : CheckAnswer) :
    Quiet (executeExistingLaunch config record answer).2 := by
  rw [executeExistingLaunch]
  split
  · exact .nil
  · exact .nil
  · exact quiet_containment config _ _

end

theorem quiet_ensureRunNetwork (core : JailerdCore) (request : EnsureRunNetworkRequest)
    (answer : Option RunNetworkResult) : Quiet (core.ensureRunNetwork request answer) := by
  cases answer with
  | none => exact .nil
  | some =>
    simp only [JailerdCore.ensureRunNetwork]
    split
    · exact .nil
    · exact .singleton rfl

theorem quiet_destroyRunNetwork (core : JailerdCore) (runId : ValidatedId) (answer : Bool) :
    Quiet (core.destroyRunNetwork runId answer) :=
  .ite .nil (.ite (.singleton rfl) .nil)

theorem quiet_admission (admission : DetachedLaunchAdmission) : Quiet admission.changes := by
  cases admission with
  | existing => exact .singleton rfl
  | reserved => exact .cons rfl (.cons rfl (.cons rfl (.cons rfl (.singleton rfl))))

theorem quiet_advance (task : DetachedLaunchTask) (a : TaskAnswer) : Quiet (task.advance a) := by
  -- a stage goes on one way or the other
  have hgo : ∀ {p : Prop} [Decidable p] (x y : DetachedLaunchTask),
      (if p then Change.setTask x else .setTask y).quiet = true := by
    intro p _ x y
    split <;> rfl
  cases hstg : task.stage <;> simp only [DetachedLaunchTask.advance, hstg]
  case validating => exact .singleton (hgo _ _)
  case reserving => exact .append (.took _ rfl) (.singleton (hgo _ _))
  case preparing => exact .singleton (hgo _ _)
  case networking => exact .singleton (hgo _ _)
  case recording => exact .append (.took _ rfl) (.singleton (hgo _ _))
  case starting => exact .cons (hgo _ _) (.singleton rfl)
  case granting => exact .singleton (hgo _ _)
  case identifying => exact .append (.took _ rfl) (.singleton (hgo _ _))
  case cleaning => exact .append (quiet_cleanupDetachedLaunch _ _ _) (.singleton rfl)
  case succeeded => exact .nil
  case failed => exact .nil

section

variable (core : JailerdCore)

include core

theorem quiet_finalizeVmBoot (generation : ValidatedId) (a : FinalizeAnswers) :
    Quiet (core.finalizeVmBoot generation a) := by
  have hforward : ∀ record, Quiet (finalizeForwarding record a) := fun record =>
    .ite .nil (.append (.took _ rfl) (.ite (.singleton rfl)
      (.ite .nil (quiet_containFailedBootSeal _ _))))
  rw [JailerdCore.finalizeVmBoot]
  split
  · exact .nil
  refine .ite .nil (.ite (quiet_containFailedBootSeal _ _) ?_)
  split
  · exact .nil
  · exact .append (.took _ rfl) (.ite (.cons rfl (hforward _)) (quiet_containFailedBootSeal _ _))

variable (selector : VmSelector)

theorem quiet_inspectVm (a : CheckAnswer) : Quiet (core.inspectVm selector a) := by
  rw [JailerdCore.inspectVm]
  split
  · exact .ite .nil (.ite (.singleton rfl) (.append (.cons rfl (.singleton rfl)) (.took _ rfl)))
  · exact .nil

theorem quiet_stopVm (answer : Bool) : Quiet (core.stopVm selector answer) := by
  rw [JailerdCore.stopVm]
  split
  · exact .ite (.singleton rfl) .nil
  · exact .nil

theorem quiet_destroyVm (a : DestroyAnswers) : Quiet (core.destroyVm selector a) := by
  rw [JailerdCore.destroyVm]
  split
  · exact .nil
  split
  · exact .ite (.cons rfl (.took _ rfl)) .nil
  exact .append (.took _ rfl) (.ite .nil (.cons rfl (.ite .nil (.ite (.took _ rfl)
    (.cons rfl (.cons rfl (.append (.took _ rfl) (.ite (.singleton rfl) .nil))))))))

theorem quiet_retryUnresolvedRecoveries (config : JailerdConfig)
    (answers : ValidatedId → HostAnswers) :
    Quiet (core.retryUnresolvedRecoveries config answers) := by
  intro c hc
  obtain ⟨recovery, -, hc⟩ := mem_flatMap.mp hc
  exact quiet_retryRecovery config _ recovery c hc

/-! ## The operations that retain a recovery -/

end

theorem steady_retain {before after : List Change} {recovery : UnresolvedRecovery}
    (hbef : Quiet before) (haft : Quiet after) :
    ∀ c ∈ before ++ .retain recovery :: after, c.steady = true := by
  intro c hc
  rcases mem_append.mp hc with hc | hc
  · exact Change.steady_of_quiet (hbef c hc)
  rcases mem_cons.mp hc with rfl | hc
  · rfl
  · exact Change.steady_of_quiet (haft c hc)

namespace Resting

variable (hrs : Resting s)

include hrs

theorem complete (task : DetachedLaunchTask) :
    Resting (run State.apply s (s.completeDetachedLaunch task)) := by
  have hfenced : Quiet [.endTask task.reservation.generation, .distrust] :=
    .cons rfl (.singleton rfl)
  simp only [JailerdCore.completeDetachedLaunch]
  split
  · refine hrs.of_quiet (.ite hfenced (.ite (.singleton rfl) ?_))
    exact .cons rfl (.cons rfl (.cons rfl (.singleton rfl)))
  · split
    · exact hrs.of_quiet hfenced
    rename_i failure _ _
    have hln : Quiet (.land task.reservation.generation ::
        ((if failure.cgroupDrainProven then [.discharge task.reservation.generation] else []) ++
          (if failure.identityReleased then [.free task.reservation.uid] else []))) :=
      .cons rfl (.append (.ite (.singleton rfl) .nil) (.ite (.singleton rfl) .nil))
    split
    · exact hrs.of_quiet (.cons rfl (.append (.singleton rfl) hln))
    · exact hrs.of_distrust (steady_retain (.singleton rfl) (.cons rfl hln)) (by simp)
  · exact hrs

/-- The commit of a check, after changes that retain nothing. -/
theorem completeExisting {before : List Change} (hbef : Quiet before) (core : JailerdCore)
    (record : VmRecord) (outcome : ExistingOutcome) (ingress : Bool) :
    Resting (run State.apply s (before ++
      (core.completeExistingLaunch record outcome ingress).1)) := by
  have hnil : Resting (run State.apply s (before ++ [])) := hrs.of_quiet (.append hbef .nil)
  have hdis : Resting (run State.apply s (before ++ [.distrust])) :=
    hrs.of_quiet (.append hbef (.singleton rfl))
  cases hget : get (·.generation) record.generation core.records with
  | none =>
    cases outcome <;> simp only [JailerdCore.completeExistingLaunch, hget]
    case success => exact hnil
    case inspectionFailed => exact hnil
    case identityMismatch => exact hdis
  | some =>
    cases outcome <;> simp only [JailerdCore.completeExistingLaunch, hget]
    case success => split <;> assumption
    case inspectionFailed => split <;> assumption
    case identityMismatch containment =>
      cases CpuQuota.fromMillis record.request.cpuMillis with
      | none => exact hdis
      | some =>
        -- settled or retained: what is retained comes with the readiness taken back
        have hboth : ∀ {charges drops}, Quiet charges → Quiet drops → ∀ (p : Prop) [Decidable p],
            Resting (run State.apply s (before ++ .distrust :: (charges ++
              ((if p then [.settle record.generation] else [.retain record.recovery]) ++
                drops)))) := by
          intro _ _ hchrg hdp p _
          by_cases hp : p
          · rw [if_pos hp]
            exact hrs.of_quiet (.append hbef (.cons rfl (.append hchrg
              (.append (.singleton rfl) hdp))))
          · rw [if_neg hp]
            refine hrs.of_distrust ?_ (by simp)
            rw [append_cons, ← append_assoc]
            refine steady_retain (.append (.append hbef (.singleton rfl)) hchrg) hdp
        exact hboth (.ite (.singleton rfl) (.singleton rfl)) (.ite (.singleton rfl) .nil) _

end Resting

/-- A failed launch takes the readiness back, or settles its generation in the end. -/
theorem failLaunch_cases (generation : ValidatedId) (a : HostAnswers) :
    Change.distrust ∈ failLaunch generation a ∨
      ∃ cs, Quiet cs ∧ failLaunch generation a = cs ++ [.settle generation] := by
  simp only [failLaunch]
  split
  · refine .inr ⟨endUnit generation a ++ [.discharge generation], ?_, ?_⟩
    · exact .append (quiet_endUnit generation a) (.singleton rfl)
    rw [append_assoc]
    rfl
  · exact .inl (by simp)

theorem launchStarted_cases (intent : VmRecord) (a : LaunchAnswers) :
    (Quiet (launchStarted intent a).1 ∧ Change.distrust ∈ (launchStarted intent a).1) ∨
      ∃ cs, Quiet cs ∧ (launchStarted intent a).1 = cs ++ [.settle intent.generation] := by
  have hfail : ∀ before, Quiet before →
      (Quiet (before ++ failLaunch intent.generation a.cleanup) ∧
        Change.distrust ∈ before ++ failLaunch intent.generation a.cleanup) ∨
        ∃ cs, Quiet cs ∧
          before ++ failLaunch intent.generation a.cleanup = cs ++ [.settle intent.generation] := by
    intro before hbef
    rcases failLaunch_cases intent.generation a.cleanup with hmem | ⟨cs, hqt, heq⟩
    · exact .inl ⟨.append hbef (quiet_failLaunch _ _), mem_append_right _ hmem⟩
    · exact .inr ⟨before ++ cs, .append hbef hqt, by rw [heq, append_assoc]⟩
  simp only [launchStarted]
  split
  · rename_i started now _ _ _
    split
    · exact .inr ⟨[.persist (intent.identified started now), .commit (intent.identified started now),
        .discharge intent.generation], .cons rfl (.cons rfl (.singleton rfl)), rfl⟩
    · exact hfail _ (.took _ rfl)
  · exact hfail [] .nil

theorem Resting.launchReserved (hrs : Resting s)
    (launch : LaunchReservation) (a : LaunchAnswers) :
    Resting (run State.apply s ([.beget launch, .allocate launch.uid] ++
      (Jailer.launchReserved launch a).1)) := by
  have hst : Quiet [.beget launch, .allocate launch.uid] := .cons rfl (.singleton rfl)
  simp only [Jailer.launchReserved]
  split
  · exact hrs.of_quiet (.append hst (.took _ rfl))
  split
  · exact hrs.of_quiet (.append hst (.singleton rfl))
  split
  · exact hrs.of_quiet (.append hst (.cons rfl (.took _ rfl)))
  split
  · exact hrs.of_quiet (.append hst (.cons rfl (.append (.took _ rfl) (.took _ rfl))))
  obtain ⟨intent, hint⟩ : ∃ intent, intent = launch.intent a.hostBootId a.jailRootInode := ⟨_, rfl⟩
  have hgen : intent.generation = launch.generation := by rw [hint]; rfl
  rw [← hint]
  have hbef : Quiet [.beget launch, .allocate launch.uid, .reserve launch.identity,
      .persist intent, .charge ⟨launch.generation, launch.quota⟩] :=
    .cons rfl (.cons rfl (.cons rfl (.cons rfl (.singleton rfl))))
  rcases launchStarted_cases intent a with ⟨hqt, hmem⟩ | ⟨cs, hqt, heq⟩
  · refine hrs.of_distrust ?_ (by simp [hmem])
    exact steady_retain hbef (.cons rfl hqt)
  rw [heq, hgen]
  show Resting (run State.apply s (([.beget launch, .allocate launch.uid,
    .reserve launch.identity, .persist intent, .charge ⟨launch.generation, launch.quota⟩,
    .retain launch.recovery, .start launch] ++ cs) ++ [.settle launch.generation]))
  refine hrs.of_settle ?_ ?_
  · exact steady_retain hbef (.cons rfl hqt)
  intro c hc r hretain
  subst hretain
  rcases mem_append.mp hc with hc | hc
  · simp only [mem_cons, reduceCtorEq, Change.retain.injEq, not_mem_nil, or_false, false_or] at hc
    rw [hc]
    rfl
  · exact absurd (hqt _ hc) Bool.false_ne_true

theorem Resting.launchVm (hrs : Resting s) (config : JailerdConfig)
    (request : VmLaunchRequest) (accepted : Bool) (generation : ValidatedId) (a : LaunchAnswers) :
    Resting (run State.apply s (s.launchVm config request accepted generation a).1) := by
  simp only [JailerdCore.launchVm]
  split
  · exact hrs
  split
  · exact hrs
  split
  · split
    · exact hrs.completeExisting (quiet_executeExistingLaunch config _ _) _ _ _ _
    · exact hrs
  · split
    · exact hrs
    · exact hrs.launchReserved _ a

end Intar.Jailer
