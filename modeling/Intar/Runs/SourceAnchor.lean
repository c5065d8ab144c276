import Intar.Runs.Idempotency

/-!
# The images of a run are current when it is admitted

Between the read of a scenario and the commit of a run, the scenario may be published anew, promoted
or rolled back, and a candidate may be staged again or retired.  The anchors of `Intar.Runs.Source`
are conditions on the tables *at the commit*, and this file follows the images from there to the run:

* `AdmissionStep.images`: the VMs of a run that is admitted have the images that the catalog has then,
  or the images of the candidate manifest that is stored then.
* `commit_refuses` and `check_refuses`: a start whose source is not current neither commits nor gets
  past the check that names the reason.

What counts is the moment of the commit.  A change that was taken back by then is not noticed, and
need not be (`Small.accepted_after_rollback`).
-/

namespace Intar.Runs

open Registry (ImageKey Architecture)
open Host (Millis DesiredState DesiredRow DesiredVm)
open List

/-! ## Image identities -/

/-- Which image a VM of a run was launched with. -/
def RunVmStateDocument.imageIdentity (vm : RunVmStateDocument) :
    String × Option ImageKey × Option String :=
  (vm.scenarioVmName, vm.provisioning.imageKey, vm.provisioning.imageSha256)

/-- Which image the catalog has for a VM; a run knows it by its slug. -/
def CatalogVm.imageIdentity (vm : CatalogVm) : String × Option ImageKey × Option String :=
  (slugify vm.vmName, vm.imageKey, vm.imageSha256)

def CandidateVm.imageIdentity (vm : CandidateVm) : String × Option ImageKey × Option String :=
  (slugify vm.name, some vm.imageKey, some vm.imageId)

def ScenarioLaunchSpec.imageIdentity (spec : ScenarioLaunchSpec) :
    String × Option ImageKey × Option String :=
  (spec.scenarioVmName, spec.imageKey, spec.imageSha256)

/-- The run has the images of the live catalog, VM for VM. -/
def Db.LiveImages (db : Db) (run : RunRow) : Prop :=
  (run.stateJson.vms.map RunVmStateDocument.imageIdentity).Perm
    ((db.catalogRows run.scenarioId).map CatalogVm.imageIdentity)

/-- The candidate is stored with this very text, and its build succeeded and was not retired. -/
def Db.CandidateStored (db : Db) (candidateId : String) (request : CandidateRequest)
    (manifestText : String) : Prop :=
  ∃ candidate ∈ db.candidates, candidate.id = candidateId ∧
    candidate.revision = request.revision ∧ candidate.buildId = request.buildId ∧
    candidate.manifestText = manifestText ∧
    ∃ build ∈ db.builds, build.id = request.buildId ∧ build.status = .succeeded ∧
      build.artifactsRetiredAt = none

/-- The run has the images of the candidate manifest that is stored. -/
def Db.CandidateImages (db : Db) (parseManifest : String → Option CandidateManifest)
    (request : CandidateRequest) (run : RunRow) : Prop :=
  ∃ manifestText manifest,
    db.CandidateStored (candidateScenarioId run.organizationId request.revision run.scenarioId)
      request manifestText ∧
    parseManifest manifestText = some manifest ∧ manifest.scenarioId = run.scenarioId ∧
    run.stateJson.vms.map RunVmStateDocument.imageIdentity =
      manifest.vms.map CandidateVm.imageIdentity

/-- The rows of the run and the desired state of its host have the images of its VMs. -/
def Db.HasImages (db : Db) (run : RunRow) : Prop :=
  ∀ vm ∈ run.stateJson.vms,
    (∃ row ∈ db.runtimeVms, row.executionId = run.runId ∧ row.runtimeVmName = vm.runtimeVmName ∧
      vm.provisioning.imageKey = some row.imageKey ∧
      Js.trimOrNone vm.provisioning.imageSha256 = some row.imageSha256) ∧
    ∃ row, db.desired run.hostId = some row ∧ ∃ desired ∈ row.doc.vms,
      desired.runId = run.runId ∧ desired.vmName = vm.runtimeVmName ∧
      vm.provisioning.imageKey = some desired.imageKey ∧
      Js.trimOrNone vm.provisioning.imageSha256 = some desired.imageId

/-! ## From the source to the run -/

section

variable {material : Material} {source : LaunchSource}

/-- A new run has the images of its launch specs, in their order. -/
theorem imageIdentity_provisionedRunState :
    (provisionedRunState material source).vms.map RunVmStateDocument.imageIdentity =
      source.launchSpecs.map ScenarioLaunchSpec.imageIdentity := by
  have hspec : ∀ spec : ScenarioLaunchSpec × Nat,
      (decorateVmState (queueProvisioning
        (decorateVmState (runVmState material spec.1 spec.2)))).imageIdentity =
          spec.1.imageIdentity := fun _ => rfl
  simp only [provisionedRunState, recomputeRunState_vms, runVmStates, map_map,
    Function.comp_def, hspec]
  have hfst : source.launchSpecs.zipIdx.map (fun spec => spec.1.imageIdentity) =
      (source.launchSpecs.zipIdx.map Prod.fst).map ScenarioLaunchSpec.imageIdentity := by
    rw [map_map]
    rfl
  rw [hfst, zipIdx_map_fst]

end

/-- The image key whose parts a fingerprint has. -/
def ImageRef.imageKey (ref : ImageRef) : Option ImageKey :=
  match ref.keyScenario, ref.keyVm, ref.keyArch with
  | some scenario, some vm, some arch =>
    some ⟨scenario, vm, if arch = Architecture.x86_64.text then .x86_64 else .aarch64⟩
  | _, _, _ => none

def ImageRef.imageIdentity (ref : ImageRef) : String × Option ImageKey × Option String :=
  (slugify ref.vmName, ref.imageKey, ref.imageSha256)

theorem imageKey_of_parts (key : ImageKey) :
    (⟨key.scenario, key.vm, if key.arch.text = Architecture.x86_64.text then .x86_64
      else .aarch64⟩ : ImageKey) = key := by
  obtain ⟨_, _, arch⟩ := key
  cases arch with
  | x86_64 | aarch64 => rfl

/-- A fingerprint tells the image of a catalog row. -/
theorem imageIdentity_catalog (vm : CatalogVm) : vm.imageRef.imageIdentity = vm.imageIdentity := by
  cases hkey : vm.imageKey with
  | none => simp [ImageRef.imageIdentity, ImageRef.imageKey, CatalogVm.imageRef,
      CatalogVm.imageIdentity, hkey]
  | some => simp [ImageRef.imageIdentity, ImageRef.imageKey, CatalogVm.imageRef,
      CatalogVm.imageIdentity, hkey, imageKey_of_parts]

/-- And of a VM that was read. -/
theorem imageIdentity_launchSpec (scenarioId : String) (vm : VmRecord) :
    (buildScenarioLaunchSpec scenarioId vm).imageRef.imageIdentity =
      (buildScenarioLaunchSpec scenarioId vm).imageIdentity := by
  cases hkey : vm.imageKey with
  | none => simp [ImageRef.imageIdentity, ImageRef.imageKey, buildScenarioLaunchSpec,
      VmRecord.imageRef, ScenarioLaunchSpec.imageIdentity, hkey]
  | some => simp [ImageRef.imageIdentity, ImageRef.imageKey, buildScenarioLaunchSpec,
      VmRecord.imageRef, ScenarioLaunchSpec.imageIdentity, hkey, imageKey_of_parts]

/-- The record of a candidate VM has its key and its image. -/
theorem imageIdentity_record {scenarioId : String} {vm : CandidateVm} {record : VmRecord}
    (h : vm.record scenarioId = some record) :
    (buildScenarioLaunchSpec scenarioId record).imageIdentity = vm.imageIdentity := by
  simp only [CandidateVm.record, Option.bind_eq_bind, Option.bind_eq_some_iff] at h
  obtain ⟨_, _, _, _, h⟩ := h
  have hrec := Option.some.inj h
  simp [← hrec, buildScenarioLaunchSpec, ScenarioLaunchSpec.imageIdentity, CandidateVm.imageIdentity]

/-- The launch specs of a manifest have its images. -/
theorem imageIdentity_candidate {manifest : CandidateManifest} {organizationId : Option String}
    {request : CandidateRequest} {source : LaunchSource}
    (h : candidateSourceFromManifest manifest organizationId request = some source) :
    source.launchSpecs.map ScenarioLaunchSpec.imageIdentity =
      manifest.vms.map CandidateVm.imageIdentity := by
  obtain ⟨records, hrecs, hsm⟩ := Option.bind_eq_some_iff.mp h
  cases hsm
  clear h
  rw [buildScenarioLaunchSpecs, map_map]
  generalize manifest.vms = vms at hrecs
  induction vms generalizing records with
  | nil =>
    cases hrecs
    rfl
  | cons _ _ ih =>
    simp only [mapM_cons, Option.bind_eq_bind, Option.bind_eq_some_iff, Option.pure_def]
      at hrecs
    obtain ⟨_, hvm, rest, hrs, hcs⟩ := hrecs
    cases hcs
    rw [map_cons, map_cons, ih rest hrs, Function.comp_apply, imageIdentity_record hvm]

/-! ## At the commit -/

/-- The source that the draft was made from is still the stored one. -/
def Db.SourceCurrent (db : Db) (draft : Draft) : Prop :=
  match draft.candidateProof with
  | some proof =>
    db.CandidateStored
      (candidateScenarioId draft.run.organizationId proof.revision draft.run.scenarioId)
      proof.toCandidateRequest proof.manifestText
  | none => ((db.catalogRows draft.run.scenarioId).map CatalogVm.imageRef).Perm
      (draft.sourceAnchor.getD [])

/-- The VM names of the scenario are unique. -/
def Db.UniqueNames (db : Db) (scenarioId : String) : Prop :=
  ((db.catalogRows scenarioId).map CatalogVm.vmName).Nodup

section

variable {parseManifest : String → Option CandidateManifest} {db : Db} {start : Start}
  {draft : Draft}

theorem candidateStored_of_anchor {candidateId : String} {proof : CandidateProof}
    (h : db.candidateAnchor candidateId proof = true) :
    db.CandidateStored candidateId proof.toCandidateRequest proof.manifestText := by
  obtain ⟨candidate, hcand, h⟩ := any_eq_true.mp h
  simp only [Bool.and_eq_true, decide_eq_true_eq] at h
  obtain ⟨build, hbld, hstat⟩ := any_eq_true.mp h.2
  simp only [Bool.and_eq_true, decide_eq_true_eq, Option.isNone_iff_eq_none] at hstat
  exact ⟨candidate, hcand, h.1.1.1.1, h.1.1.1.2, h.1.1.2, h.1.2, build, hbld, hstat.1.1,
    hstat.1.2, hstat.2⟩

/-- A draft has a proof of its candidate or a fingerprint of the catalog, under its scenario. -/
theorem Drafted.anchor (h : Drafted parseManifest start draft) :
    draft.run.scenarioName = draft.run.scenarioId ∧
      (draft.candidateProof = none → ∃ fingerprint, draft.sourceAnchor = some fingerprint) := by
  obtain ⟨source, _, _, -, hdr⟩ := h
  refine ⟨by rw [hdr.run]; rfl, fun hno => ⟨liveSourceFingerprint source.scenario.launchSpecs, ?_⟩⟩
  rw [hdr.proof] at hno
  rw [hdr.sourceAnchor, hno]
  rfl

/-- The condition of the run insert says that the source is current. -/
theorem sourceCurrent_of_anchor (hdrd : Drafted parseManifest start draft)
    (hnm : db.UniqueNames draft.run.scenarioId) (h : db.sourceAnchorHolds draft = true) :
    db.SourceCurrent draft := by
  obtain ⟨hscn, hanc⟩ := hdrd.anchor
  rw [Db.SourceCurrent]
  rw [Db.sourceAnchorHolds] at h
  cases hprf : draft.candidateProof with
  | some =>
    rw [hprf] at h
    exact candidateStored_of_anchor h
  | none =>
    obtain ⟨_, hfp⟩ := hanc hprf
    rw [hprf, hfp] at h
    rw [hscn] at h
    rw [hfp]
    exact perm_of_liveSourceAnchor h hnm

/-- So does the check after a refused commit. -/
theorem sourceCurrent_of_refusal (hdrd : Drafted parseManifest start draft)
    (hnm : db.UniqueNames draft.run.scenarioId) (h : db.sourceAnchorRefusal draft = none) :
    db.SourceCurrent draft := by
  obtain ⟨-, hanc⟩ := hdrd.anchor
  rw [Db.SourceCurrent]
  cases hprf : draft.candidateProof with
  | some =>
    simp only [Db.sourceAnchorRefusal, hprf] at h
    split at h
    · rename_i hcand
      exact candidateStored_of_anchor hcand
    · cases h
  | none =>
    obtain ⟨_, hfp⟩ := hanc hprf
    simp only [Db.sourceAnchorRefusal, hprf, hfp] at h
    split at h
    · rename_i hlv
      rw [hfp]
      exact perm_of_liveSourceAnchor hlv hnm
    · cases h

end

section

variable {localeCompare : String → String → Ordering} {parseReport : String → Json}
  {parseManifest : String → Option CandidateManifest} {s s' : State} {id : Nat} {start : Start}
  {input : CommitInput}

section

variable (h : AdmissionStep localeCompare parseReport parseManifest s s' id start input)

include h

/-- The anchor held when the run was admitted. -/
theorem AdmissionStep.sourceAnchorHolds : s.db.sourceAnchorHolds input.draft = true := by
  obtain ⟨_, _, hadm, -⟩ := h.admission
  obtain ⟨_, -, hads⟩ := hadm.host
  simp only [Db.admits, Bool.and_eq_true] at hads
  exact hads.2

/-- What is written for a VM has its image. -/
theorem AdmissionStep.hasImages (hsnd : s.db.Sound) : s'.db.HasImages input.run := by
  obtain ⟨source, _, material, -, hdr⟩ := h.drafted
  obtain ⟨_, _, hadm, hdb⟩ := h.admission
  obtain ⟨_, _, hrow, hnx, -⟩ := h.planned.stored hadm.version
  have hsta : input.run.stateJson = provisionedRunState material source.scenario := hdr.stateJson
  intro vm hvm
  rw [hsta] at hvm
  rw [hdb]
  constructor
  · obtain ⟨_, hspec, hvmOk⟩ := Fallible.exists_mem_of_each hdr.runtimeVms hvm
    rw [← hadm.map_fst] at hspec
    obtain ⟨⟨spec', _⟩, hpr, rfl⟩ := mem_map.mp hspec
    obtain ⟨hnam, hkey, himg⟩ := runtimeVmSpec_eq_ok hvmOk
    exact ⟨input.runtimeVmRow spec', mem_append_right _ (mem_map.mpr ⟨_, hpr, rfl⟩), rfl,
      hnam, hkey, himg⟩
  · obtain ⟨desired, hdes, hvmOk⟩ := Fallible.exists_mem_of_each hdr.desiredVms hvm
    obtain ⟨hrun, -⟩ := hdr.running hdes
    obtain ⟨-, -, hnam, hkey, himg⟩ := draftDesiredVm_eq_ok hvmOk
    refine ⟨_, setDesired_self, desired, ?_, hrun, hnam, hkey, himg⟩
    exact mem_published (hsnd.docs _ _ hrow).2 (hadm.nodup_names hdr)
      (fun vm hvm => (hdr.running hvm).1) hnx hdes

/-- **The images of an admitted run** are those of the catalog, or of the stored candidate. -/
theorem AdmissionStep.images :
    input.run.scenarioId = start.input.scenarioId ∧
    ((candidateRequestFromInput start.input = .ok none ∧
      (s.db.UniqueNames input.run.scenarioId → s.db.LiveImages input.run)) ∨
    ∃ request, candidateRequestFromInput start.input = .ok (some request) ∧
      s.db.CandidateImages parseManifest request input.run) := by
  have hanc := h.sourceAnchorHolds
  have hcur : s.db.UniqueNames input.run.scenarioId → s.db.SourceCurrent input.draft :=
    fun hnm => sourceCurrent_of_anchor h.drafted hnm hanc
  obtain ⟨source, _, material, hsrc, hdr⟩ := h.drafted
  have hscn : input.run.scenarioId = source.scenario.scenarioId := by
    have hrun : input.draft.run.scenarioId = source.scenario.scenarioId := by rw [hdr.run]; rfl
    exact hrun
  have hvms : input.run.stateJson.vms.map RunVmStateDocument.imageIdentity =
      source.scenario.launchSpecs.map ScenarioLaunchSpec.imageIdentity := by
    have hsta : input.run.stateJson = provisionedRunState material source.scenario := hdr.stateJson
    rw [hsta, imageIdentity_provisionedRunState]
  refine ⟨hscn.trans hsrc.scenarioId, ?_⟩
  cases hprf : source.candidateProof with
  | none =>
    refine .inl ⟨by rw [hsrc.request, hprf]; rfl, fun hnm => ?_⟩
    obtain ⟨_, hrecs⟩ := hsrc.live hprf
    have hperm := hcur hnm
    rw [Db.SourceCurrent, hdr.proof, hprf, hdr.sourceAnchor, hprf] at hperm
    have himgs := hperm.map ImageRef.imageIdentity
    -- Both sides of the anchor are read as images.
    rw [map_map, Option.isSome_none, if_neg Bool.false_ne_true, Option.getD_some,
      liveSourceFingerprint, map_map, hrecs, buildScenarioLaunchSpecs, map_map] at himgs
    rw [Db.LiveImages, hvms, hrecs, buildScenarioLaunchSpecs, map_map]
    have hcatalog : ImageRef.imageIdentity ∘ CatalogVm.imageRef = CatalogVm.imageIdentity :=
      funext imageIdentity_catalog
    have hspecs : (ImageRef.imageIdentity ∘ ScenarioLaunchSpec.imageRef) ∘
        buildScenarioLaunchSpec start.input.scenarioId =
          ScenarioLaunchSpec.imageIdentity ∘ buildScenarioLaunchSpec start.input.scenarioId :=
      funext (imageIdentity_launchSpec start.input.scenarioId)
    rw [hcatalog, hspecs] at himgs
    exact himgs.symm
  | some proof =>
    refine .inr ⟨proof.toCandidateRequest, by rw [hsrc.request, hprf]; rfl, ?_⟩
    obtain ⟨manifest, hman, hid, hspecs⟩ := hsrc.candidate proof hprf
    rw [Db.sourceAnchorHolds, hdr.proof, hprf] at hanc
    refine ⟨proof.manifestText, manifest, candidateStored_of_anchor hanc, hman, ?_, ?_⟩
    · rw [hid, hscn, hsrc.scenarioId]
    · rw [hvms, imageIdentity_candidate hspecs]

/-! ## A source that has changed -/

end

/-- The start is refused, or about to be asked whether its source is current. -/
def Refusing (draft : Draft) (phase : StartPhase) : Prop :=
  (∃ error, phase = .refused error) ∨
    ∃ checks retry, .source ∈ checks ∧ phase = .admitting draft (.checking checks retry)

theorem refusing_afterCommit {parseReport : String → Json} {db : Db} {input : CommitInput}
    {dbNow : Millis} (attempt : Nat) (requestedHostId : Option String)
    (hwf : input.draft.WellFormed) (hfr : db.findRun input.run.runId = none)
    (hnot : db.sourceAnchorHolds input.draft = false)
    (hok : (commitAdmissionBatch parseReport db input dbNow).2 ≠ .ok) :
    Refusing input.draft (afterCommit input.draft attempt requestedHostId input.desired.hostId
      (commitAdmissionBatch parseReport db input dbNow).2) := by
  have href : (db.hosts.find? (·.id = input.run.hostId)).any
      (db.admits parseReport input dbNow) = false := by
    rw [Bool.eq_false_iff]
    intro hany
    obtain ⟨_, -, hads⟩ := (Option.any_eq_true _ _).mp hany
    rw [Db.admits, hnot, Bool.and_false] at hads
    cases hads
  have herror : ∀ statements e, admissionStatements parseReport input dbNow = some statements →
      Batch.exec statements db = .error e → e = .generationPositive ∨ ∃ name, e = .constraint name :=
    fun statements e hqs hexec => exec_admissionStatements_error hwf hfr hqs href hexec
  rw [commitAdmissionBatch] at hok ⊢
  split
  · exact .inl ⟨_, rfl⟩
  rename_i hqs
  split
  · exact .inr ⟨_, _, by simp, rfl⟩
  iterate 3
    · rename_i hexec
      rcases herror _ _ hqs hexec with hfls | ⟨_, hfls⟩
      · cases hfls
      · cases hfls
  · exact .inl ⟨_, rfl⟩
  rename_i inserted hexec
  rw [hqs] at hok
  simp only [hexec] at hok
  by_cases hzero : inserted[1]? = some 0
  · simp only [hzero, if_pos]
    exact .inr ⟨_, _, by simp, rfl⟩
  · rw [if_neg hzero] at hok
    exact absurd rfl hok

section

variable {draft : Draft} {answer : Answer} (h : Inv localeCompare parseReport parseManifest s)
  (hst : s.starts id = some start) (hnm : s.db.UniqueNames draft.run.scenarioId)
  (hnot : ¬ s.db.SourceCurrent draft)
  (hs' : step localeCompare parseReport parseManifest s (.advance id answer) = s')

include h hst hnm hnot hs'

/-- **A commit refuses** a source that is not current. -/
theorem commit_refuses {attempt : Nat} {requestedHostId : Option String} {allocation : Allocation}
    (hph : start.phase = .admitting draft (.committing attempt requestedHostId allocation)) :
    s'.db = s.db ∧ ∃ phase, s'.starts id = some { start with phase } ∧ Refusing draft phase := by
  obtain ⟨hrcd, hinv⟩ := h.starts id start hst
  rw [hph] at hinv
  obtain ⟨hdrd, hdrew, hcmm, -⟩ := hinv
  have hfr := hrcd.absent hcmm draft.run.runId hdrew
  have hanc : s.db.sourceAnchorHolds draft = false := by
    rw [Bool.eq_false_iff]
    exact fun htrue => hnot (sourceCurrent_of_anchor hdrd hnm htrue)
  have hwf : draft.WellFormed := by
    obtain ⟨_, _, _, -, hdr⟩ := hdrd
    exact hdr.wellFormed
  have hcom : commit parseReport s id start draft attempt requestedHostId allocation answer =
      s' := by
    rw [← hs']
    simp [step, hst, advance, hph, advanceAdmission]
  generalize hresl : commitAdmissionBatch parseReport s.db ⟨draft, allocation, answer.now⟩
    answer.dbNow = result at hcom
  obtain ⟨_, _⟩ := result
  rcases commitAdmissionBatch_spec hwf hfr hresl with
    ⟨rfl, vms, hadm, -⟩ | ⟨hok, rfl⟩
  · obtain ⟨_, -, hads⟩ := hadm.host
    rw [Db.admits, hanc, Bool.and_false] at hads
    cases hads
  have hrefusing := refusing_afterCommit attempt requestedHostId hwf
    (findRun_eq_none_of_not_mentions hfr) hanc (by rw [hresl]; exact hok)
  rw [hresl] at hrefusing
  rw [← hcom]
  simp only [commit, hresl]
  refine ⟨rfl, _, ?_, hrefusing⟩
  rw [setStart_self]
  simp [hok]

/-- **So does the check** that comes after. -/
theorem check_refuses {checks : List RefusalCheck} {retry : Option (Nat × Option String)}
    (hph : start.phase = .admitting draft (.checking checks retry))
    (hchks : .source ∈ checks) :
    s'.db = s.db ∧ ∃ phase, s'.starts id = some { start with phase } ∧ Refusing draft phase := by
  have hinv := (h.starts id start hst).phase
  rw [hph] at hinv
  have hgoOn : s.goOn id start s.db (decidePhase s.db start draft answer (.checking checks retry)) =
      s' := by
    rw [← hs']
    simp [step, hst, advance, hph, advanceAdmission]
  rw [← hgoOn]
  refine ⟨rfl, _, setStart_self, ?_⟩
  cases checks with
  | nil => cases hchks
  | cons _ checks =>
    simp only [decidePhase]
    split
    · exact .inl ⟨_, rfl⟩
    rename_i hno
    rcases mem_cons.mp hchks with rfl | hchks
    · exact absurd (sourceCurrent_of_refusal hinv.1 hnm hno) hnot
    · exact .inr ⟨checks, retry, hchks, rfl⟩

end

/-! ## Whole runs -/

/-- **The images of a run are current when it is admitted.**  Whenever a run comes up, its VMs have the
images of the live catalog of its scenario at that moment, VM for VM, or, for a candidate start, those
of the candidate manifest stored at that moment, of a build that succeeded and is not retired; and
everything written for the run has these images.  A start whose source is not current at its commit
admits nothing, and as long as that is so it gets to nothing but its refusal. -/
theorem images_current_at_commit {s₀ : State} (hinit : Initial s₀) (acts : List Act)
    (hs : Trace.run (step localeCompare parseReport parseManifest) s₀ acts = s) :
    (∀ act s', step localeCompare parseReport parseManifest s act = s' →
      ∀ run ∈ s'.db.runs, (∀ old ∈ s.db.runs, old.runId ≠ run.runId) →
      s'.db.HasImages run ∧
      ∃ id start, s.starts id = some start ∧ run.userId = start.input.userId ∧
        run.scenarioId = start.input.scenarioId ∧
        ((candidateRequestFromInput start.input = .ok none ∧
          (s.db.UniqueNames run.scenarioId → s.db.LiveImages run)) ∨
        ∃ request, candidateRequestFromInput start.input = .ok (some request) ∧
          s.db.CandidateImages parseManifest request run)) ∧
    ∀ id start draft, s.starts id = some start →
      ((∃ attempt requestedHostId allocation,
          start.phase = .admitting draft (.committing attempt requestedHostId allocation)) ∨
        ∃ checks retry, .source ∈ checks ∧
          start.phase = .admitting draft (.checking checks retry)) →
      s.db.UniqueNames draft.run.scenarioId → ¬ s.db.SourceCurrent draft →
      ∀ answer s', step localeCompare parseReport parseManifest s (.advance id answer) = s' →
        s'.db = s.db ∧
          ∃ phase, s'.starts id = some { start with phase } ∧ Refusing draft phase := by
  have hinv : Inv localeCompare parseReport parseManifest s := hs ▸ inv_run hinit acts
  constructor
  · intro _ _ hs' _ hrun hnew
    obtain ⟨id, start, _, hstp, rfl⟩ := AdmissionStep.of_new hinv hs' hrun hnew
    obtain ⟨hscn, himgs⟩ := hstp.images
    obtain ⟨-, huser, -⟩ := RunRow.identity_eq_iff.mp hstp.drafted.identity
    exact ⟨hstp.hasImages hinv.sound, id, start, hstp.starts, huser, hscn, himgs⟩
  · rintro id start draft hst (⟨attempt, requestedHostId, allocation, hph⟩ |
      ⟨checks, retry, hchks, hph⟩) hnm hnot answer s' hs'
    · exact commit_refuses hinv hst hnm hnot hs' hph
    · exact check_refuses hinv hst hnm hnot hs' hph hchks

end

namespace Small

theorem hasImages_committing :
    ∃ admitted, (run (planning ++ [committing])).db.HasImages admitted := by
  obtain ⟨admitted, hadmd, hnew⟩ := new_committing
  have hs : Trace.run step initial planning = run planning := rfl
  obtain ⟨himgs, -⟩ := images_current_at_commit initial_initial planning hs
  exact ⟨admitted, (himgs committing (run (planning ++ [committing])) (run_concat planning committing)
    admitted hadmd hnew).1⟩

/-- Another image is published for the scenario. -/
def publish : Act :=
  .env (.outside { db.toOutside with
    catalog := [{ catalogVm with imageSha256 := some (String.ofList (List.replicate 64 'b')) }] })

/-- The scenario goes back to what it was. -/
def rollback : Act := .env (.outside db.toOutside)

/-- A start, up to where it has read its scenario. -/
def reading : List Act := planning.take 8

set_option maxRecDepth 10000 in
/-- While a start is under way, its scenario is published anew and rolled back; the start goes
through. -/
theorem accepted_after_rollback :
    (run (reading ++ [publish])).db.catalog.map CatalogVm.imageIdentity ≠
      (run reading).db.catalog.map CatalogVm.imageIdentity ∧
    ((run (reading ++ [publish, rollback] ++ planning.drop 8 ++
      [committing, .advance 0 answer])).starts 0).map Start.phase =
        some (.accepted ⟨"run1", "sc", 1, false, "h1"⟩) := by
  decide +kernel

end Small

end Intar.Runs
