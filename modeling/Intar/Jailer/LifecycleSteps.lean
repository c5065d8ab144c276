import Intar.Jailer.LaunchSteps

/-!
# The operations under the lock

Run networks, checks of VMs that are already there, launches that hold the lock throughout, and the
life of a committed VM: each keeps the invariant.
-/

namespace Intar.Jailer

open JailerdCore

open SortedTable (get mem_insert_self mem_erase mem_of_get key_of_get)
open Trace (run throughout_nil throughout_cons throughout_singleton)
open List

variable {G : Guards} {s : State} {config : JailerdConfig}

/-! ## Run networks -/

theorem keeps_ensureRunNetwork (h : Inv G s) (request : EnsureRunNetworkRequest)
    (answer : Option RunNetworkResult) : Keeps G s (s.ensureRunNetwork request answer) := by
  cases answer with
  | none => exact throughout_nil h
  | some =>
    simp only [ensureRunNetwork]
    split
    · exact throughout_nil h
    rename_i hno
    refine throughout_singleton h (h.addNetwork fun n hn heq => ?_)
    exact absurd heq (SortedTable.ne_of_get_eq_none hno hn)

theorem keeps_destroyRunNetwork (h : Inv G s) (runId : ValidatedId) (answer : Bool)
    (hfr : G.networks → (∀ x ∈ s.inflightLaunches, x.request.runId ≠ runId) ∧
      ∀ u ∈ s.unresolvedRecoveries, u.runId ≠ runId) :
    Keeps G s (s.destroyRunNetwork runId answer) := by
  rw [destroyRunNetwork]
  split
  · exact throughout_nil h
  rename_i hrecs
  split
  · refine throughout_singleton h (h.dropNetwork ?_ (fun hG => (hfr hG).1)
      fun hG => (hfr hG).2)
    intro r hr heq
    exact hrecs (any_eq_true.mpr ⟨r, hr, by simpa using heq⟩)
  · exact throughout_nil h

/-! ## A committed VM -/

variable {record : VmRecord}

namespace Inv

variable {new : VmRecord} (h : Inv G s) (hr : record ∈ s.records)

include h hr

omit h in
theorem record_addressed : s.Addressed record.toLaunchReservation := .inl ⟨record, hr, rfl⟩

/-- The launch of a committed VM is over. -/
theorem task_ne_record : ∀ task ∈ s.tasks, task.generation ≠ record.generation :=
  fun task ht => (h.inflight_records _ (h.tasks_inflight task ht) record hr).symm

theorem persist_record (hsm : new.toLaunchReservation = record.toLaunchReservation) :
    Inv G (s.apply (.persist new)) := by
  have had := record_addressed hr
  obtain ⟨launch⟩ := new
  obtain rfl : launch = record.toLaunchReservation := hsm
  refine h.persist (h.records_born record hr) ?_ ?_ ?_ ?_ ?_ ?_ ?_
  · exact fun task ht heq => absurd heq (h.task_ne_record hr task ht)
  · exact fun x hx heq => h.uid_unique x _ hx (.inl had) heq
  · exact fun hup => h.uid_allocated hup _ (.inl had)
  · exact h.reserved _ (.inl ⟨record, hr, rfl⟩)
  · exact fun hG _ => h.disk_addressed hG _ had
  · exact fun hG _ x hx hvm => congrArg (·.generation) (h.vm_unique hG _ x had hx hvm)
  · exact fun _ _ _ _ => .inl had

theorem commit_record (hsm : new.toLaunchReservation = record.toLaunchReservation) :
    Inv G (s.apply (.commit new)) := by
  have had := record_addressed hr
  obtain ⟨launch⟩ := new
  obtain rfl : launch = record.toLaunchReservation := hsm
  refine h.commit (h.records_born record hr) ?_ ?_ ?_ ?_ ?_ ?_ ?_
  · exact fun x hx => h.inflight_records x hx record hr
  · exact fun x hx heq => h.uid_unique x _ hx (.inl had) heq
  · exact fun hup => h.uid_allocated hup _ (.inl had)
  · exact h.reserved _ (.inl ⟨record, hr, rfl⟩)
  · exact fun hG => h.records_network hG record hr
  · exact fun hG x hx hvm => h.vm_unique hG x _ hx had hvm
  · exact fun hG => h.disk_addressed hG _ had

theorem remove_record (hlv : ¬ s.Live record.generation) :
    Inv G (s.apply (.remove record.generation)) :=
  h.remove hlv fun _ task ht heq => absurd heq (h.task_ne_record hr task ht)

end Inv

section

variable (h : Inv G s)

include h

theorem keeps_finalizeForwarding (hr : record ∈ s.records)
    (a : FinalizeAnswers) : Keeps G s (finalizeForwarding record a) := by
  rw [finalizeForwarding]
  split
  · exact throughout_nil h
  have htk := h.task_ne_record hr
  have hpers : Inv G (s.apply (.persist record.forwarded)) := h.persist_record hr rfl
  refine Trace.Throughout.append (keeps_took h hpers) ?_
  rw [run_took]
  cases a.persistForward with
  | done => exact throughout_singleton hpers (hpers.commit_record hr rfl)
  | lost =>
    simp only [reduceCtorEq, if_false]
    split
    · exact throughout_nil hpers
    · exact keeps_containFailedBootSeal hpers htk
  | failed =>
    simp only [reduceCtorEq, if_false, if_true]
    split
    · exact throughout_nil h
    · exact keeps_containFailedBootSeal h htk

theorem keeps_finalizeVmBoot (generation : ValidatedId) (a : FinalizeAnswers) :
    Keeps G s (s.finalizeVmBoot generation a) := by
  rw [finalizeVmBoot]
  split
  · exact throughout_nil h
  rename_i record hget
  have hr : record ∈ s.records := mem_of_get hget
  have htk := h.task_ne_record hr
  split
  · exact throughout_nil h
  split
  · exact keeps_containFailedBootSeal h htk
  split
  · exact throughout_nil h
  rename_i now _
  have hpers : Inv G (s.apply (.persist (record.sealedAt now))) := h.persist_record hr rfl
  have hcom : Inv G ((s.apply (.persist (record.sealedAt now))).apply
      (.commit (record.sealedAt now))) := hpers.commit_record hr rfl
  refine Trace.Throughout.append (keeps_took h hpers) ?_
  rw [run_took]
  cases a.persistSeal with
  | done =>
    exact throughout_cons hpers (keeps_finalizeForwarding hcom mem_insert_self a)
  | lost => exact keeps_containFailedBootSeal hpers htk
  | failed => exact keeps_containFailedBootSeal h htk

variable (selector : VmSelector)

theorem keeps_inspectVm (a : CheckAnswer) : Keeps G s (s.inspectVm selector a) := by
  rw [inspectVm]
  split
  · rename_i record hfd _
    obtain ⟨_, -, hget⟩ := Option.bind_eq_some_iff.mp hfd
    have hr : record ∈ s.records := mem_of_get hget
    have h₁ := h.drain record.generation
    have h₂ := h₁.drain record.generation
    split
    · exact throughout_nil h
    split
    · exact throughout_singleton h h₁
    refine Trace.Throughout.append (throughout_cons h (throughout_singleton h₁ h₂)) ?_
    exact keeps_took h₂ (h₂.remove_record hr (not_live_drain _ _))
  · exact throughout_nil h

theorem keeps_stopVm (answer : Bool) : Keeps G s (s.stopVm selector answer) := by
  rw [stopVm]
  split
  · split
    · exact throughout_singleton h (h.drain _)
    · exact throughout_nil h
  · exact throughout_nil h

/-! ## Destroying a VM -/

theorem keeps_destroyUnknown {generation : ValidatedId} (a : DestroyAnswers)
    (htk : G.destroys → ∀ task ∈ s.tasks, task.generation ≠ generation) :
    Keeps G s (destroyUnknown generation a) := by
  rw [destroyUnknown]
  split
  · have h₁ := h.drain generation
    refine throughout_cons h (keeps_took h₁ (h₁.remove (not_live_drain s generation) ?_))
    exact fun hG task ht heq => absurd heq (htk hG task ht)
  · exact throughout_nil h

theorem keeps_destroyRecord (hr : record ∈ s.records)
    (a : DestroyAnswers) : Keeps G s (destroyRecord record a) := by
  have hrsv := h.reserve (h.records_born record hr)
  refine Trace.Throughout.append (keeps_took h hrsv) ?_
  split
  · rw [run_took]
    split
    · exact throughout_nil h
    · exact throughout_nil hrsv
  rename_i hgo
  have hdn : a.reserve = .done := by simpa using (not_or.mp hgo).1
  rw [run_took, if_neg (by simp [hdn])]
  have htk := h.task_ne_record hr
  have h₁ := hrsv.drain record.generation
  have h₂ := h₁.remove_record hr (not_live_drain _ _)
  refine throughout_cons hrsv ?_
  split
  · exact throughout_nil h₁
  split
  · exact keeps_took h₁ h₂
  -- the unit is drained and its files are gone: nothing is left but the record
  have hlv := not_live_drain (s.apply (.reserve record.identity)) record.generation
  have hdk : ¬ (run State.apply s [.reserve record.identity, .drain record.generation,
      .remove record.generation]).OnDisk record.generation := by
    rintro ⟨m, hm, heq⟩
    exact (mem_erase.mp hm).2 heq
  have h₃ := h₂.drop (fun _ _ hl => absurd hl hlv) (fun _ hl => absurd hl hlv)
    fun _ _ _ => hdk
  have h₄ := h₃.release (fun r hr => (mem_erase.mp hr).2) hlv hdk
    fun task ht heq => absurd heq (htk task ht)
  refine throughout_cons h₁ (throughout_cons h₂ ?_)
  refine Trace.Throughout.append (keeps_took h₃ h₄) ?_
  rw [run_took]
  cases a.release with
  | failed => exact throughout_nil h₃
  | lost => exact throughout_nil h₄
  | done =>
    refine throughout_singleton h₄ (h₄.free fun x hx heq => ?_)
    have hxs : s.Held x := by
      rcases hx with (⟨r, hr, hsm⟩ | hx) | hx | ⟨m, hm, hsm⟩
      · exact .inl (.inl ⟨r, (mem_erase.mp hr).1, hsm⟩)
      · exact .inl (.inr hx)
      · exact .inr (.inl (mem_erase.mp hx).1)
      · exact .inr (.inr ⟨m, (mem_erase.mp hm).1, hsm⟩)
    have hself : x = record.toLaunchReservation :=
      h.uid_unique x _ hxs (.inl (Inv.record_addressed hr)) heq
    subst hself
    rcases hx with (⟨r, hr, hsm⟩ | hx) | hx | ⟨m, hm, hsm⟩
    · exact (mem_erase.mp hr).2 (congrArg (·.generation) hsm)
    · exact h.inflight_records _ hx record hr rfl
    · exact hlv ⟨_, hx, rfl⟩
    · exact hdk ⟨m, hm, congrArg (·.generation) hsm⟩

theorem keeps_destroyVm (a : DestroyAnswers)
    (hfly : G.destroys → ∀ generation, s.resolveGeneration selector = some generation →
      ∀ x ∈ s.inflightLaunches, x.generation ≠ generation) :
    Keeps G s (s.destroyVm selector a) := by
  rw [destroyVm]
  split
  · exact throughout_nil h
  rename_i generation hrslv
  split
  · exact keeps_destroyUnknown h a fun hG task ht =>
      hfly hG generation hrslv _ (h.tasks_inflight task ht)
  · rename_i hget
    exact keeps_destroyRecord h (mem_of_get hget) a

/-! ## A check of a VM that is already there -/

end

variable (config : JailerdConfig)

section

/-- What a check leaves: the memory as it was, and a host that bears out a mismatch. -/
theorem keeps_executeExistingLaunch (a : CheckAnswer) (h : Inv G s)
    (hbn : record.toLaunchReservation ∈ s.births)
    (htk : ∀ task ∈ s.tasks, task.generation ≠ record.generation) :
    Keeps G s (executeExistingLaunch config record a).2 ∧
      SameMemory s (run State.apply s (executeExistingLaunch config record a).2) ∧
      ∀ containment, (executeExistingLaunch config record a).1 = .identityMismatch containment →
        containment.cgroupDrainProven = true ∨ containment.failures = [] →
          ¬ (run State.apply s (executeExistingLaunch config record a).2).Live record.generation := by
  rw [executeExistingLaunch]
  split
  · exact ⟨throughout_nil h, SameMemory.refl s, nofun⟩
  · exact ⟨throughout_nil h, SameMemory.refl s, nofun⟩
  obtain ⟨hkp, hdn⟩ := keeps_containment config a.containment h hbn htk rfl
  refine ⟨hkp, hdn.memory, ?_⟩
  rintro _ ⟨⟩ (hprov | hcl)
  · exact hdn.drained hprov
  · exact hdn.drained (hdn.clean (append_eq_nil_iff.mp hcl).2).1

theorem keeps_mismatch {current : VmRecord} {containment : RecoveryContainmentOutcome}
    {conservative : CpuQuota} (h : Inv G s) (hatt : s.attested = false)
    (hbn : record.toLaunchReservation ∈ s.births)
    (htk : ∀ task ∈ s.tasks, task.generation ≠ record.generation)
    (hcurrent : current ∈ s.records) (hgen : current.generation = record.generation)
    (hquo : CpuQuota.fromMillis record.request.cpuMillis = some conservative)
    (hdrn : containment.cgroupDrainProven = true ∨ containment.failures = [] →
      ¬ s.Live record.generation) (extra : List String) :
    Keeps G s ((if containment.cgroupDrainProven then [.discharge record.generation]
        else [.charge ⟨record.generation, conservative⟩]) ++
      ((if containment.failures ++ extra = [] then [.settle record.generation]
        else [.retain record.recovery]) ++
        (if record.IdentityMatches current then [.drop record.generation] else []))) := by
  have hsm : current.toLaunchReservation = record.toLaunchReservation :=
    h.launch_eq (h.records_born current hcurrent) hbn hgen
  have hcov : ∀ x ∈ s.births, x.generation = record.generation →
      x.quota.cpuMillis ≤ conservative.cpuMillis := by
    intro x hx heq
    rw [h.launch_eq hx hbn heq]
    have hval := (h.births_valid _ hbn).quota
    rw [hquo, Option.some_inj] at hval
    rw [hval]
  have hdis : ∀ {p : Prop}, s.attested = true → p := fun ha => absurd (hatt.symm.trans ha) (by decide)
  -- the charge first: it is there before the record goes
  generalize hchanges : (if containment.cgroupDrainProven then [.discharge record.generation]
    else [.charge ⟨record.generation, conservative⟩] : List Change) = changes
  have hfst : Keeps G s changes := by
    rw [← hchanges]
    split
    · exact throughout_singleton h (h.discharge (fun _ => ⟨current, hcurrent, hgen⟩) htk)
    · exact throughout_singleton h (h.charge hcov)
  obtain ⟨charges, hs₁⟩ : ∃ charges,
      run State.apply s changes = { s with pendingCpuReservations := charges } := by
    rw [← hchanges]
    split
    · exact ⟨_, rfl⟩
    · exact ⟨_, rfl⟩
  have hchd : s.Live record.generation → ∃ charge ∈ charges,
      charge.generation = record.generation ∧ ∀ x ∈ s.births,
        x.generation = record.generation → x.quota.cpuMillis ≤ charge.quota.cpuMillis := by
    intro hl
    rw [← hchanges, if_neg fun hprov => hdrn (.inl hprov) hl] at hs₁
    obtain rfl : _ = charges := congrArg (fun s : State => s.pendingCpuReservations) hs₁
    exact ⟨⟨record.generation, conservative⟩, mem_insert_self, rfl, hcov⟩
  have hls := hfst.last
  refine hfst.append ?_
  rw [hs₁] at hls ⊢
  by_cases hcl : containment.failures ++ extra = []
  · rw [if_pos hcl]
    have hlv := hdrn (.inr (append_eq_nil_iff.mp hcl).1)
    have h₂ := hls.settle (fun _ _ => .inl ⟨current, hcurrent, hgen⟩) fun _ _ => hdis
    refine throughout_cons hls ?_
    split
    · exact throughout_singleton h₂ (h₂.drop (fun _ _ hl => absurd hl hlv)
        (fun _ hl => absurd hl hlv) fun _ _ => hdis)
    · exact throughout_nil h₂
  · rw [if_neg hcl]
    have h₂ := hls.retain hbn htk fun hG => hsm ▸ h.records_network hG current hcurrent
    refine throughout_cons hls ?_
    split
    · exact throughout_singleton h₂ (h₂.drop (fun _ _ hl => hchd hl)
        (fun _ _ => ⟨_, mem_insert_self, rfl⟩) fun _ _ => hdis)
    · exact throughout_nil h₂

theorem keeps_completeExistingLaunch (h : Inv G s)
    (hbn : record.toLaunchReservation ∈ s.births)
    (htk : ∀ task ∈ s.tasks, task.generation ≠ record.generation) {outcome : ExistingOutcome}
    (hdrn : ∀ containment, outcome = .identityMismatch containment →
      containment.cgroupDrainProven = true ∨ containment.failures = [] →
        ¬ s.Live record.generation) (ingress : Bool) :
    Keeps G s (s.completeExistingLaunch record outcome ingress).1 := by
  have hdis := h.distrust
  cases hget : get (·.generation) record.generation s.records with
  | none =>
    cases outcome with
    | success | inspectionFailed =>
      simp only [completeExistingLaunch, hget]
      exact throughout_nil h
    | identityMismatch =>
      simp only [completeExistingLaunch, hget]
      exact throughout_singleton h hdis
  | some =>
    cases outcome with
    | success | inspectionFailed =>
      simp only [completeExistingLaunch, hget]
      split
      · exact throughout_nil h
      · exact throughout_singleton h hdis
    | identityMismatch containment =>
      simp only [completeExistingLaunch, hget]
      refine throughout_cons h ?_
      cases hquo : CpuQuota.fromMillis record.request.cpuMillis with
      | none => exact throughout_nil hdis
      | some =>
        have hgen := key_of_get hget
        exact keeps_mismatch hdis rfl hbn htk (mem_of_get hget) hgen hquo (hdrn containment rfl) _

theorem running_of_check {check : ExistingCheck} (h : Inv G s) (hc : check ∈ s.checks) :
    s.running = true := by
  by_contra hup
  rw [Bool.not_eq_true] at hup
  rw [(h.idle hup).2.1] at hc
  cases hc

theorem keeps_executeCheck (a : CheckAnswer) (h : Inv G s) (hc : ⟨record, none⟩ ∈ s.checks) :
    Keeps G s ((executeExistingLaunch config record a).2 ++
      [.endCheck ⟨record, none⟩,
        .addCheck ⟨record, some (executeExistingLaunch config record a).1⟩]) := by
  have hbn := h.checks_born _ hc
  have htk := fun task ht => (h.tasks_checks task ht _ hc).symm
  obtain ⟨hkp, hmem, hdrn⟩ := keeps_executeExistingLaunch config a h hbn htk
  have h₁ := hkp.last.endCheck ⟨record, none⟩
  refine hkp.append (throughout_cons hkp.last (throughout_singleton h₁ (h₁.addCheck ?_ ?_ ?_ ?_)))
  · exact hmem.running.trans (running_of_check h hc)
  · show record.toLaunchReservation ∈ (run State.apply s _).births
    rw [hmem.births]
    exact hbn
  · show ∀ task ∈ (run State.apply s _).tasks, _
    rw [hmem.tasks]
    exact fun task ht => (htk task ht).symm
  · intro containment hout
    exact hdrn containment (Option.some_inj.mp hout)

theorem keeps_completeCheck (h : Inv G s) {outcome : ExistingOutcome}
    (hc : ⟨record, some outcome⟩ ∈ s.checks) (ingress : Bool) :
    Keeps G s (.endCheck ⟨record, some outcome⟩ ::
      (s.completeExistingLaunch record outcome ingress).1) := by
  have h₁ := h.endCheck ⟨record, some outcome⟩
  refine throughout_cons h (keeps_completeExistingLaunch h₁ (h.checks_born _ hc)
    (fun task ht => (h.tasks_checks task ht _ hc).symm) ?_ ingress)
  intro containment hout
  exact h.checks_drained _ hc containment (congrArg some hout)

end

/-! ## Retries -/

theorem keeps_retries (answers : ValidatedId → HostAnswers) (h : Inv G s)
    {recoveries : List UnresolvedRecovery}
    (hbn : ∀ recovery ∈ recoveries, ∃ launch ∈ s.births, recovery = launch.recovery)
    (htk : ∀ task ∈ s.tasks, ∀ recovery ∈ recoveries, recovery.generation ≠ task.generation) :
    Keeps G s (recoveries.flatMap fun recovery =>
      retryRecovery config recovery (answers recovery.generation)) := by
  induction recoveries generalizing s with
  | nil => exact throughout_nil h
  | cons recovery _ ih =>
    obtain ⟨launch, hlau, rfl⟩ := hbn recovery mem_cons_self
    obtain ⟨hkp, hrtr⟩ := keeps_retryRecovery config (answers launch.generation) h hlau
      fun task ht => (htk task ht _ mem_cons_self).symm
    rw [flatMap_cons]
    refine hkp.append (ih hkp.last ?_ ?_)
    · rw [hrtr.births]
      exact fun u hu => hbn u (mem_cons_of_mem _ hu)
    · rw [hrtr.tasks]
      exact fun task ht u hu => htk task ht u (mem_cons_of_mem _ hu)

theorem keeps_retryUnresolvedRecoveries (answers : ValidatedId → HostAnswers) (h : Inv G s) :
    Keeps G s (s.retryUnresolvedRecoveries config answers) :=
  keeps_retries config answers h h.unresolved_born h.tasks_unresolved

end Intar.Jailer
