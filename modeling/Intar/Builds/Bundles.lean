import Intar.Builds.Queueing
import Intar.Lib.Trace

/-!
# Ingesting bundles

`ingestScenarioBundle` of `control-plane/image-registry/bundle.ts`, for any number of ingests at a
time.  An ingest checks the references of the course catalog, makes sure that no other scope owns
the revision, puts the archive under the revision's key, and inserts the bundle row.  The row never
changes its scope, but the check and the insertion are two statements and the put stands between
them: two scopes that ingest one revision can both pass the check, and the one whose row is refused
has put its archive all the same.

The archive of a revision is its owner's in every run in which no two scopes are between the check
and the row of one revision at a time (`archive_of_owner`).
-/

namespace Intar.Builds

open Trace

open Registry (Architecture BuildStatus)
open Host (Millis DesiredBuild)
open List

/-- The scope that owns a revision. -/
def Tables.owner (t : Tables) (rev : String) : Option Scope :=
  (t.bundles.find? (·.rev = rev)).map BundleRow.organizationId

def assertBundleRevScope (t : Tables) (rev : String) (organizationId : Scope) :
    Except QueueError Unit :=
  match t.owner rev with
  | none => .ok ()
  | some owner => if owner = organizationId then .ok () else .error revScopeConflict

/-- What comes next in an ingest. -/
inductive IngestStage (β : Type) where
  | checkRevScope
  | storeBundle (payload : β)
  | queueBuilds

def IngestStage.isPastCheck {β : Type} : IngestStage β → Bool
  | .checkRevScope => false
  | _ => true

/-- An ingest that runs; without a payload the stored archive is used again. -/
structure Ingest (β : Type) where
  id : Nat
  bundle : BundleInput
  payload : Option β
  stage : IngestStage β

variable {β : Type}

/-- The stage behind the check. -/
def Ingest.afterCheck (ingest : Ingest β) : IngestStage β :=
  match ingest.payload with
  | none => .queueBuilds
  | some payload => .storeBundle payload

/-- Another scope is between the check and the row of the revision. -/
def Ingest.overlaps (ingest other : Ingest β) : Bool :=
  other.id ≠ ingest.id && other.stage.isPastCheck && other.bundle.rev = ingest.bundle.rev &&
    other.bundle.organizationId ≠ ingest.bundle.organizationId

namespace Ingests

/-- The archives, each with the scope that uploaded it, and the ingests that run. -/
structure State (β : Type) where
  tables : Tables
  archive : String → Option (Scope × β)
  running : List (Ingest β)

inductive Op (β : Type) where
  /-- `scenarios` are the rows the course catalog is checked against, `referencedIds` what it links
  to. -/
  | start (id : Nat) (bundle : BundleInput) (payload : Option β) (scenarios : List ScenarioOwner)
      (referencedIds : List String)
  | advance (id : Nat)
  /-- An ingest breaks off. -/
  | fail (id : Nat)

def State.remove (s : State β) (id : Nat) : State β :=
  { s with running := s.running.filter (·.id ≠ id) }

def State.goOn (s : State β) (id : Nat) (stage : IngestStage β) : State β :=
  { s with running := s.running.map fun ingest =>
      if ingest.id = id then { ingest with stage } else ingest }

/-- `VM_IMAGE_REGISTRY_BUCKET.put`. -/
def State.put (s : State β) (rev : String) (uploader : Scope) (payload : β) : State β :=
  { s with archive := Function.update s.archive rev (some (uploader, payload)) }

/-- One access of an ingest. -/
def State.move (s : State β) (ingest : Ingest β) : State β :=
  match ingest.stage with
  | .checkRevScope =>
    match assertBundleRevScope s.tables ingest.bundle.rev ingest.bundle.organizationId with
    | .error _ => s.remove ingest.id
    | .ok () => s.goOn ingest.id ingest.afterCheck
  | .storeBundle payload =>
    (s.put ingest.bundle.rev ingest.bundle.organizationId payload).goOn ingest.id .queueBuilds
  | .queueBuilds =>
    match s.tables.upsertBundle ingest.bundle with
    | .error _ => s.remove ingest.id
    | .ok upserted => { s with tables := upserted }.remove ingest.id

/-- The step of the ingests.  Only `ingestRow` leaves the payload out, when it has read that its
scope owns the revision. -/
def step (s : State β) : Op β → State β
  | .start id bundle payload scenarios referencedIds =>
    if s.running.any (·.id = id) then s
    else if payload.isNone && s.tables.owner bundle.rev ≠ some bundle.organizationId then s
    else if validateCourseCatalogReferences scenarios referencedIds
        (bundle.content.scenarios.map ScenarioBuild.scenarioId) bundle.organizationId ≠ [] then s
    else { s with running := s.running ++ [⟨id, bundle, payload, .checkRevScope⟩] }
  | .advance id =>
    match s.running.find? (·.id = id) with
    | none => s
    | some ingest => s.move ingest
  | .fail id => s.remove id

def State.rest (t : Tables) (archive : String → Option (Scope × β)) : State β := ⟨t, archive, []⟩

/-- No archive is another scope's than the owner's. -/
def State.OwnersArchives (s : State β) : Prop :=
  ∀ rev owner uploader payload, s.tables.owner rev = some owner →
    s.archive rev = some (uploader, payload) → uploader = owner

/-- An ingest is alone with its revision when it checks it. -/
def Alone (s : State β) : Op β → Prop
  | .advance id =>
    ∀ ingest ∈ s.running, ingest.id = id → ingest.stage.isPastCheck = false →
      ∀ other ∈ s.running, ingest.overlaps other = false
  | _ => True

instance (s : State β) : (op : Op β) → Decidable (Alone s op)
  | .start .. => isTrue trivial
  | .advance id => inferInstanceAs (Decidable (∀ ingest ∈ s.running, ingest.id = id →
      ingest.stage.isPastCheck = false → ∀ other ∈ s.running, ingest.overlaps other = false))
  | .fail _ => isTrue trivial

/-! ## The owner of a revision -/

section

variable {t t' : Tables} {input : BundleInput} {rev : String}

theorem assertBundleRevScope_eq_ok {organizationId : Scope} :
    assertBundleRevScope t rev organizationId = .ok () ↔
      t.owner rev = none ∨ t.owner rev = some organizationId := by
  rw [assertBundleRevScope]
  split
  · rename_i h
    simp [h]
  · rename_i owner h
    by_cases heq : owner = organizationId <;> simp [h, heq]

theorem owner_map {f : BundleRow → BundleRow} (hrev : ∀ row, (f row).rev = row.rev)
    (hsc : ∀ row, (f row).organizationId = row.organizationId) (rev : String) :
    Tables.owner { t with bundles := t.bundles.map f } rev = t.owner rev := by
  have hfind : (fun row : BundleRow => decide (row.rev = rev)) ∘ f =
      fun row => decide (row.rev = rev) := by
    funext row
    simp [hrev]
  have hown : BundleRow.organizationId ∘ f = BundleRow.organizationId := funext hsc
  rw [Tables.owner, find?_map, Option.map_map, hfind, hown, Tables.owner]

/-- A revision goes to the scope whose bundle has it, and never to another. -/
theorem owner_upsertBundle (h : t.upsertBundle input = .ok t') :
    (t.owner input.rev = none ∨ t.owner input.rev = some input.organizationId) ∧
      ∀ rev, t'.owner rev = if rev = input.rev then some input.organizationId else t.owner rev := by
  rw [Tables.upsertBundle] at h
  split at h
  · rename_i hno
    cases h
    refine ⟨.inl (by rw [Tables.owner, hno]; rfl), fun rev => ?_⟩
    simp only [Tables.owner, find?_append]
    by_cases hrev : rev = input.rev
    · simp [hrev, hno]
    · simp [hrev, Ne.symm hrev]
  · rename_i row hrow
    split at h
    · rename_i hsc
      cases h
      have hown : t.owner input.rev = some input.organizationId := by
        rw [Tables.owner, hrow, Option.map_some, hsc]
      refine ⟨.inr hown, fun rev => ?_⟩
      rw [owner_map]
      · split
        · rename_i heq
          rw [heq, hown]
        · rfl
      · intro _
        split <;> rfl
      · intro _
        split <;> rfl
    · cases h

end

/-! ## The invariant -/

structure State.Inv (s : State β) : Prop where
  ids : (s.running.map Ingest.id).Nodup
  reuses : ∀ ingest ∈ s.running, ingest.payload = none →
    s.tables.owner ingest.bundle.rev = some ingest.bundle.organizationId
  checked : ∀ ingest ∈ s.running, ingest.stage.isPastCheck = true →
    s.tables.owner ingest.bundle.rev = none ∨
      s.tables.owner ingest.bundle.rev = some ingest.bundle.organizationId
  agree : ∀ ingest ∈ s.running, ∀ other ∈ s.running, ingest.stage.isPastCheck = true →
    other.stage.isPastCheck = true → ingest.bundle.rev = other.bundle.rev →
      ingest.bundle.organizationId = other.bundle.organizationId
  stored : ∀ ingest ∈ s.running, ingest.stage = .queueBuilds →
    s.tables.owner ingest.bundle.rev = some ingest.bundle.organizationId ∨
      ∃ payload, s.archive ingest.bundle.rev = some (ingest.bundle.organizationId, payload)
  owners : s.OwnersArchives

section

variable {s : State β} {ingest : Ingest β}

theorem archive_put_self (s : State β) (rev : String) (uploader : Scope) (payload : β) :
    (s.put rev uploader payload).archive rev = some (uploader, payload) := Function.update_self ..

theorem archive_put_of_ne (s : State β) {rev other : String} (h : other ≠ rev) (uploader : Scope)
    (payload : β) : (s.put rev uploader payload).archive other = s.archive other :=
  Function.update_of_ne h ..

theorem State.Inv.remove (h : s.Inv) (id : Nat) : (s.remove id).Inv where
  ids := h.ids.sublist (filter_sublist.map _)
  reuses i hi := h.reuses i (mem_filter.mp hi).1
  checked i hi := h.checked i (mem_filter.mp hi).1
  agree i hi j hj := h.agree i (mem_filter.mp hi).1 j (mem_filter.mp hj).1
  stored i hi := h.stored i (mem_filter.mp hi).1
  owners := h.owners

theorem ids_goOn (s : State β) (id : Nat) (stage : IngestStage β) :
    (s.goOn id stage).running.map Ingest.id = s.running.map Ingest.id := by
  rw [State.goOn, map_map]
  refine map_congr_left fun i _ => ?_
  simp only [Function.comp_apply]
  split <;> rfl

/-- The ingest that goes on, and the others. -/
theorem mem_goOn (hids : (s.running.map Ingest.id).Nodup) (hmem : ingest ∈ s.running)
    {stage : IngestStage β} {i : Ingest β} (hi : i ∈ (s.goOn ingest.id stage).running) :
    i ∈ s.running ∨ i = { ingest with stage } := by
  obtain ⟨before, hbef, rfl⟩ := mem_map.mp hi
  by_cases hid : before.id = ingest.id
  · have hsm : before = ingest := inj_on_of_nodup_map hids hbef hmem hid
    rw [if_pos hid, hsm]
    exact .inr rfl
  · rw [if_neg hid]
    exact .inl hbef

/-- The check passes, and no other scope is past it. -/
theorem State.Inv.check (h : s.Inv) (hmem : ingest ∈ s.running)
    (hsc : s.tables.owner ingest.bundle.rev = none ∨
      s.tables.owner ingest.bundle.rev = some ingest.bundle.organizationId)
    (halone : ∀ other ∈ s.running, ingest.overlaps other = false) :
    (s.goOn ingest.id ingest.afterCheck).Inv := by
  have ho : ∀ other ∈ s.running, other.stage.isPastCheck = true →
      other.bundle.rev = ingest.bundle.rev →
        other.bundle.organizationId = ingest.bundle.organizationId := by
    intro other hin hstg hrev
    by_cases hid : other.id = ingest.id
    · rw [inj_on_of_nodup_map h.ids hin hmem hid]
    have hclear := halone other hin
    simpa [Ingest.overlaps, hid, hstg, hrev] using hclear
  refine ⟨ids_goOn s _ _ ▸ h.ids, fun i hi => ?_, fun i hi => ?_, fun i hi j hj => ?_, fun i hi => ?_,
    h.owners⟩
  · rcases mem_goOn h.ids hmem hi with hi | rfl
    · exact h.reuses i hi
    · exact h.reuses ingest hmem
  · rcases mem_goOn h.ids hmem hi with hi | rfl
    · exact h.checked i hi
    · exact fun _ => hsc
  · rcases mem_goOn h.ids hmem hi with hi | rfl
    · rcases mem_goOn h.ids hmem hj with hj | rfl
      · exact h.agree i hi j hj
      · exact fun hstg _ hrev => ho i hi hstg hrev
    · rcases mem_goOn h.ids hmem hj with hj | rfl
      · exact fun _ hstg hrev => (ho j hj hstg hrev.symm).symm
      · exact fun _ _ _ => rfl
  · rcases mem_goOn h.ids hmem hi with hi | rfl
    · exact h.stored i hi
    -- an ingest that stores nothing is of a revision its scope owns
    intro hstg
    refine .inl (h.reuses ingest hmem ?_)
    cases hpay : ingest.payload with
    | none => rfl
    | some =>
      rw [Ingest.afterCheck, hpay] at hstg
      cases hstg

/-- The put of an ingest that is past its check. -/
theorem State.Inv.store (h : s.Inv) (hmem : ingest ∈ s.running) {payload : β}
    (hstg : ingest.stage = .storeBundle payload) :
    ((s.put ingest.bundle.rev ingest.bundle.organizationId payload).goOn ingest.id
      .queueBuilds).Inv := by
  have hpast : ingest.stage.isPastCheck = true := by
    rw [hstg]
    rfl
  refine ⟨?_, fun i hi => ?_, fun i hi => ?_, fun i hi j hj => ?_, fun i hi hqu => ?_, ?_⟩
  · exact ids_goOn s _ _ ▸ h.ids
  · rcases mem_goOn h.ids hmem hi with hi | rfl
    · exact h.reuses i hi
    · exact h.reuses ingest hmem
  · rcases mem_goOn h.ids hmem hi with hi | rfl
    · exact h.checked i hi
    · exact fun _ => h.checked ingest hmem hpast
  · rcases mem_goOn h.ids hmem hi with hi | rfl
    · rcases mem_goOn h.ids hmem hj with hj | rfl
      · exact h.agree i hi j hj
      · exact fun hi' _ => h.agree i hi ingest hmem hi' hpast
    · rcases mem_goOn h.ids hmem hj with hj | rfl
      · exact fun _ => h.agree ingest hmem j hj hpast
      · exact fun _ _ _ => rfl
  · rcases mem_goOn h.ids hmem hi with hi | rfl
    · by_cases hrev : i.bundle.rev = ingest.bundle.rev
      · have hsm := h.agree i hi ingest hmem (by rw [hqu]; rfl) hpast hrev
        refine .inr ⟨payload, ?_⟩
        rw [hsm, hrev]
        exact archive_put_self ..
      · refine (h.stored i hi hqu).imp_right fun ⟨p, hp⟩ => ⟨p, ?_⟩
        exact (archive_put_of_ne s hrev ..).trans hp
    · exact .inr ⟨payload, archive_put_self ..⟩
  · intro rev owner uploader p hown harch
    by_cases hrev : rev = ingest.bundle.rev
    · subst hrev
      have hput : (ingest.bundle.organizationId, payload) = (uploader, p) :=
        Option.some.inj ((archive_put_self s ..).symm.trans harch)
      rcases h.checked ingest hmem hpast with hno | hsom
      · exact absurd (hno.symm.trans hown) (by simp)
      rw [← (Prod.mk.inj hput).1]
      exact Option.some.inj (hsom.symm.trans hown)
    · exact h.owners rev owner uploader p hown ((archive_put_of_ne s hrev ..).symm.trans harch)

/-- The row of an ingest whose archive is in the store. -/
theorem State.Inv.queue (h : s.Inv) (hmem : ingest ∈ s.running) (hstg : ingest.stage = .queueBuilds)
    {upserted : Tables} (hups : s.tables.upsertBundle ingest.bundle = .ok upserted) :
    (State.remove { s with tables := upserted } ingest.id).Inv := by
  obtain ⟨hbef, hown⟩ := owner_upsertBundle hups
  have hpast : ingest.stage.isPastCheck = true := by
    rw [hstg]
    rfl
  -- who owns a revision goes on owning it
  have hkeep : ∀ rev scope, s.tables.owner rev = some scope → upserted.owner rev = some scope := by
    intro _ _ hsc
    rw [hown]
    split
    · rename_i hrev
      rw [hrev] at hsc
      rcases hbef with hno | hsm
      · exact absurd (hno.symm.trans hsc) (by simp)
      · rw [← hsc, hsm]
    · exact hsc
  suffices hnew : State.Inv { s with tables := upserted } from hnew.remove _
  refine ⟨h.ids, fun i hi hpay => hkeep _ _ (h.reuses i hi hpay), fun i hi hi' => ?_,
    h.agree, fun i hi hqu => ?_, ?_⟩
  · by_cases hrev : i.bundle.rev = ingest.bundle.rev
    · rw [hown, if_pos hrev, h.agree i hi ingest hmem hi' hpast hrev]
      exact .inr rfl
    · rw [hown, if_neg hrev]
      exact h.checked i hi hi'
  · exact (h.stored i hi hqu).imp_left (hkeep _ _)
  intro rev owner uploader payload hnow harch
  rw [hown] at hnow
  split at hnow
  · rename_i hrev
    subst hrev
    rw [← Option.some.inj hnow]
    rcases h.stored ingest hmem hstg with hsm | ⟨p, hput⟩
    · exact h.owners _ _ _ _ hsm harch
    · exact (Prod.mk.inj (Option.some.inj (hput.symm.trans harch))).1.symm
  · exact h.owners rev owner uploader payload hnow harch

/-- **One step.** -/
theorem State.Inv.step (h : s.Inv) {op : Op β} (halone : Alone s op) : (step s op).Inv := by
  cases op with
  | fail id => exact h.remove id
  | start =>
    simp only [Ingests.step]
    split
    · exact h
    rename_i hfr
    split
    · exact h
    rename_i hreuse
    split
    · exact h
    refine ⟨?_, forall_mem_append.mpr ⟨h.reuses, forall_mem_singleton.mpr ?_⟩,
      forall_mem_append.mpr ⟨h.checked, forall_mem_singleton.mpr nofun⟩,
      forall_mem_append.mpr ⟨fun i hi => forall_mem_append.mpr
        ⟨h.agree i hi, forall_mem_singleton.mpr nofun⟩, forall_mem_singleton.mpr nofun⟩,
      forall_mem_append.mpr ⟨h.stored, forall_mem_singleton.mpr nofun⟩, h.owners⟩
    · rw [map_append, map_singleton]
      refine List.Nodup.append h.ids (nodup_singleton _) ?_
      rw [disjoint_singleton]
      intro hmem
      obtain ⟨i, hi, hid⟩ := mem_map.mp hmem
      exact hfr (any_eq_true.mpr ⟨i, hi, decide_eq_true hid⟩)
    · rintro rfl
      simpa using hreuse
  | advance id =>
    simp only [Ingests.step]
    split
    · exact h
    rename_i ingest hfind
    have hmem := mem_of_find?_eq_some hfind
    have hid : ingest.id = id := by simpa using find?_some hfind
    simp only [State.move]
    split
    · rename_i hstg
      split
      · exact h.remove _
      rename_i hok
      exact h.check hmem (assertBundleRevScope_eq_ok.mp hok) (halone ingest hmem hid (by rw [hstg]; rfl))
    · rename_i hstg
      exact h.store hmem hstg
    rename_i hstg
    split
    · exact h.remove _
    rename_i hups
    exact h.queue hmem hstg hups

end

/-- **The archive of a revision.**  In every run in which an ingest checks its revision only while
no other scope is between the check and the row of the revision, the archive under a revision was
uploaded by the scope that owns its bundle row. -/
theorem archive_of_owner (t : Tables) (archive : String → Option (Scope × β))
    (hstart : (State.rest t archive).OwnersArchives) (ops : List (Op β))
    (halone : Along step Alone (State.rest t archive) ops) (rev : String) (owner uploader : Scope)
    (payload : β) (howner : (run step (State.rest t archive) ops).tables.owner rev = some owner)
    (harchive : (run step (State.rest t archive) ops).archive rev = some (uploader, payload)) :
    uploader = owner := by
  have hrs : (State.rest t archive).Inv :=
    ⟨nodup_nil, fun _ h => absurd h not_mem_nil, fun _ h => absurd h not_mem_nil,
      fun _ h => absurd h not_mem_nil, fun _ h => absurd h not_mem_nil, hstart⟩
  have hrun := halone.invariant (fun _ _ h hcd => h.step hcd) hrs
  exact hrun.owners rev owner uploader payload howner harchive

namespace Demo

open Builds.Demo (acme globex)

def bundleOf (scope : OrganizationId) : BundleInput :=
  ⟨"git-7-c0ffee", "builds/bundles/git-7-c0ffee.tar.gz", [], some .candidate, some scope, 10⟩

def empty : State String := State.rest ⟨[], [], fun _ => .empty⟩ fun _ => none

/-- Acme ingests a revision; globex, which has the same repository, comes later and is refused. -/
def oneByOne : List (Op String) :=
  [.start 0 (bundleOf acme) (some "acme's archive") [] [], .advance 0, .advance 0, .advance 0,
    .start 1 (bundleOf globex) (some "globex' archive") [] [], .advance 1]

theorem archive_stays_acmes :
    (run step empty oneByOne).archive "git-7-c0ffee" = some (some acme, "acme's archive") ∧
      ∀ owner uploader payload,
        (run step empty oneByOne).tables.owner "git-7-c0ffee" = some owner →
          (run step empty oneByOne).archive "git-7-c0ffee" = some (uploader, payload) →
            uploader = owner :=
  ⟨by decide +kernel, fun owner uploader payload =>
    archive_of_owner _ _ (fun _ _ _ _ h _ => absurd h (by simp [State.rest, Tables.owner])) oneByOne
      (by decide +kernel) "git-7-c0ffee" owner uploader payload⟩

/-- Both pass the check before either has put its archive. -/
def overlapping : List (Op String) :=
  [.start 0 (bundleOf acme) (some "acme's archive") [] [],
    .start 1 (bundleOf globex) (some "globex' archive") [] [], .advance 0, .advance 1,
    .advance 0, .advance 0, .advance 1, .advance 1]

theorem refused_ingest_replaces_archive :
    (run step empty overlapping).tables.owner "git-7-c0ffee" = some (some acme) ∧
      (run step empty overlapping).archive "git-7-c0ffee" =
        some (some globex, "globex' archive") := by
  constructor
  · decide +kernel
  · decide +kernel

end Demo

end Ingests

end Intar.Builds
