import Intar.Jailer.AtRest
import Intar.Jailer.LockedLaunch

/-!
# The start of the daemon

`new_with_readiness` goes through the metadata it finds, in any order, and adopts each generation or
contains it.  `Recovering` is what holds between two rounds: every unit that may be running is
charged, or its metadata is still to come; and as long as nothing had to be contained, all metadata
that was seen has its record.
-/

namespace Intar.Jailer

open Trace

open SortedTable (get mem_insert mem_insert_self mem_erase mem_of_get)
open Trace (run throughout_nil throughout_cons throughout_singleton)
open List

variable {G : Guards} {s t : State} {config : JailerdConfig} {record : VmRecord}
  {waiting : List LaunchReservation} {rest : List VmRecord} {clean : Bool}

/-- The loop has the launches `waiting` before it, with the metadata of `rest` as it was found. -/
structure Recovering (G : Guards) (t : State) (waiting : List LaunchReservation)
    (rest : List VmRecord) (clean : Bool) : Prop where
  inv : Inv G t
  down : t.running = false
  stored : ∀ m ∈ rest, m ∈ t.metadata
  charged : G.destroys → ∀ u ∈ t.units, t.Charged u ∨ u ∈ waiting
  allocated : ∀ i ∈ t.reservations, i.uid ∈ t.allocatedIdentities
  known : clean = true → ∀ m ∈ t.metadata,
    t.Committed m.toLaunchReservation ∨ m.toLaunchReservation ∈ waiting
  settled : clean = true → t.unresolvedRecoveries = []

namespace Recovering

variable (hr : Recovering G t waiting rest clean)

include hr

theorem no_task : ∀ task ∈ t.tasks, task.generation ≠ record.generation := by
  rw [(hr.inv.idle hr.down).1]
  exact fun _ ht => nomatch ht

theorem addNetwork {network : RunNetworkRecord}
    (hnew : ∀ n ∈ t.runNetworks, n.runId = network.runId → n = network) :
    Recovering G (t.apply (.addNetwork network)) waiting rest clean :=
  { hr with inv := hr.inv.addNetwork hnew }

theorem allocate (uid : ℕ) : Recovering G (t.apply (.allocate uid)) waiting rest clean :=
  { hr with
    inv := hr.inv.allocate uid
    allocated := by
      intro i hi
      by_cases heq : i.uid = uid
      · exact mem_insert.mpr (.inl heq)
      · exact mem_insert.mpr (.inr ⟨hr.allocated i hi, heq⟩) }

/-- The attestation of a generation is renewed on disk. -/
theorem persist (now : ℕ) (hsto : t.Stored record.toLaunchReservation)
    (huq : G.launches → record.Adoptable → ∃ m ∈ t.metadata, m.Adoptable ∧
      m.toLaunchReservation = record.toLaunchReservation)
    (hwaiting : record.toLaunchReservation ∈ waiting)
    (hrs : ∀ m ∈ rest, m.generation ≠ record.generation) :
    Recovering G (t.apply (.persist (record.sealedAt now))) waiting rest clean := by
  have hbn : record.toLaunchReservation ∈ t.births := hr.inv.held_born (.inr (.inr hsto))
  have hinv : Inv G (t.apply (.persist (record.sealedAt now))) := by
    refine hr.inv.persist hbn (fun task ht heq => absurd heq (hr.no_task task ht)) ?_ ?_ ?_ ?_ ?_ ?_
    · exact fun x hx heq => hr.inv.uid_unique x _ hx (.inr (.inr hsto)) heq
    · exact fun hup => absurd (hr.down.symm.trans hup) (by decide)
    · exact hr.inv.reserved _ (.inr (.inr hsto))
    · intro hG hado m hm hado' hvm
      obtain ⟨old, hold, holdadopt, hsm⟩ := huq hG hado
      have hvm' : m.toLaunchReservation.SameVmAs old.toLaunchReservation := by
        rw [hsm]
        exact hvm
      rw [hr.inv.disk_unique hG m hm old hold hado' holdadopt hvm']
      exact congrArg (·.generation) hsm
    · intro hG hado x hx hvm
      obtain ⟨old, hold, holdadopt, hsm⟩ := huq hG hado
      have hvm' : old.toLaunchReservation.SameVmAs x := by
        rw [hsm]
        exact hvm
      rw [← hr.inv.disk_addressed hG x hx old hold holdadopt hvm']
      exact (congrArg (·.generation) hsm).symm
    · exact fun _ _ hup => absurd (hr.down.symm.trans hup) (by decide)
  refine { hr with inv := hinv, stored := ?_, known := ?_ }
  · exact fun m hm => mem_insert.mpr (.inr ⟨hr.stored m hm, hrs m hm⟩)
  intro hcl m hm
  rcases mem_insert.mp hm with rfl | ⟨hm, -⟩
  · exact .inr hwaiting
  · exact hr.known hcl m hm

end Recovering

/-! ## Containment of a generation that cannot be reattached -/

/-- The conservative charge is the quota of the launch. -/
theorem conservativeQuota_eq (h : record.toLaunchReservation.Valid) :
    record.conservativeQuota = record.quota := by
  have hmillis := CpuQuota.cpuMillis_of_fromMillis h.quota
  rw [VmRecord.conservativeQuota, hmillis, max_self, h.quota]
  rfl

variable (config : JailerdConfig)

theorem keeps_containOrRetain (a : HostAnswers) (hG : ¬ G.networks)
    (hr : Recovering G t (record.toLaunchReservation :: waiting) rest clean)
    (hbn : record.toLaunchReservation ∈ t.births)
    (hrs : ∀ m ∈ rest, m.generation ≠ record.generation) :
    Keeps G t (containOrRetainRecoveredRecord config record a) ∧
      Recovering G (run State.apply t (containOrRetainRecoveredRecord config record a)) waiting rest
        false := by
  have hquo := conservativeQuota_eq (hr.inv.births_valid _ hbn)
  have h₁ : Inv G (t.apply (.charge ⟨record.generation, record.conservativeQuota⟩)) := by
    refine hr.inv.charge fun x hx heq => ?_
    rw [hr.inv.launch_eq hx hbn heq, hquo]
  have h₂ := h₁.retain hbn hr.no_task fun hn => absurd hn hG
  obtain ⟨hkp, hrtr⟩ := keeps_retryRecovery config a h₂ hbn hr.no_task
  have h₃ := hkp.last
  have h₄ := h₃.allocate record.uid
  refine ⟨throughout_cons hr.inv (throughout_cons h₁ (hkp.append (throughout_singleton h₃ h₄))), ?_⟩
  obtain ⟨t', ht'⟩ : ∃ t', t' = run State.apply ((t.apply (.charge
      ⟨record.generation, record.conservativeQuota⟩)).apply (.retain record.recovery))
      (retryRecovery config record.recovery a) := ⟨_, rfl⟩
  have hrun : run State.apply t (containOrRetainRecoveredRecord config record a) =
      t'.apply (.allocate record.uid) := by
    rw [ht', containOrRetainRecoveredRecord, run_append, run_append]
    rfl
  rw [hrun]
  rw [← ht'] at hrtr h₄
  refine ⟨h₄, hrtr.running.trans hr.down, ?_, ?_, ?_, nofun, nofun⟩
  · exact fun m hm => hrtr.frame.metadata_kept m (hr.stored m hm) (hrs m hm)
  · intro hdest u hu
    have hold := hrtr.frame.units u hu
    by_cases heq : u.generation = record.generation
    · -- the unit of the generation is still there, so its charge was not taken back
      have hsm := hr.inv.launch_eq (hr.inv.units_born u hold) hbn heq
      refine .inl (.inr ⟨⟨record.generation, record.conservativeQuota⟩, ?_, heq.symm, ?_⟩)
      · exact hrtr.charges _ mem_insert_self (.inr ⟨u, hu, heq⟩)
      · rw [hsm, hquo]
    · rcases hr.charged hdest u hold with (⟨r, hrec, hgen⟩ | ⟨c, hc, hgen⟩) | hw
      · exact .inl (.inl ⟨r, hrtr.records.symm ▸ hrec, hgen⟩)
      · have hne : c.generation ≠ record.generation := hgen.1 ▸ heq
        exact .inl (.inr ⟨c, hrtr.charges c (mem_insert.mpr (.inr ⟨hc, hne⟩)) (.inl hne), hgen⟩)
      · rcases mem_cons.mp hw with rfl | hw
        · exact absurd rfl heq
        · exact .inr hw
  · intro i hi
    rcases hrtr.frame.reservations i hi with rfl | hi
    · exact mem_insert_self
    have hmem := hr.allocated i hi
    by_cases heq : i.uid = record.uid
    · exact mem_insert.mpr (.inl heq)
    refine mem_insert.mpr (.inr ⟨?_, heq⟩)
    rw [hrtr.allocated]
    exact hmem

/-! ## Adoption -/

theorem keeps_adoption (now : ℕ) (hG : ¬ G.networks)
    (hr : Recovering G t (record.toLaunchReservation :: waiting) rest clean)
    (hmem : record ∈ t.metadata) (hado : record.Adoptable)
    (hrs : ∀ m ∈ rest, m.generation ≠ record.generation) :
    Keeps G t [.persist (record.sealedAt now), .allocate record.uid, .commit (record.sealedAt now)] ∧
      Recovering G (run State.apply t [.persist (record.sealedAt now), .allocate record.uid,
        .commit (record.sealedAt now)]) waiting rest clean := by
  have hsto : t.Stored record.toLaunchReservation := ⟨record, hmem, rfl⟩
  have hbn : record.toLaunchReservation ∈ t.births := hr.inv.metadata_born record hmem
  have hr₁ := hr.persist now hsto (fun _ _ => ⟨record, hmem, hado, rfl⟩) mem_cons_self hrs
  have hr₂ := hr₁.allocate record.uid
  have hsto₁ : record.sealedAt now ∈ (t.apply (.persist (record.sealedAt now))).metadata :=
    mem_insert_self
  have hado₁ : (record.sealedAt now).Adoptable := hado
  have hinv : Inv G (((t.apply (.persist (record.sealedAt now))).apply (.allocate record.uid)).apply
      (.commit (record.sealedAt now))) := by
    refine hr₂.inv.commit hbn ?_ ?_ ?_ ?_ (fun hn => absurd hn hG) ?_ ?_
    · intro x hx
      rw [(hr₂.inv.idle hr.down).2.2] at hx
      cases hx
    · exact fun x hx heq => hr₂.inv.uid_unique x _ hx (.inr (.inr ⟨_, hsto₁, rfl⟩)) heq
    · exact fun hup => absurd (hr.down.symm.trans hup) (by decide)
    · exact hr₂.inv.reserved _ (.inr (.inr ⟨_, hsto₁, rfl⟩))
    · intro hl x hx hvm
      have hgen := hr₂.inv.disk_addressed hl x hx _ hsto₁ hado₁ hvm.symm
      exact hr₂.inv.launch_eq (hr₂.inv.held_born (.inl hx)) hbn hgen.symm
    · exact fun hl m hm hado' hvm => hr₂.inv.disk_unique hl m hm _ hsto₁ hado' hado₁ hvm
  refine ⟨throughout_cons hr.inv (throughout_cons hr₁.inv (throughout_singleton hr₂.inv hinv)), ?_⟩
  have hcmm : ∀ x, t.Committed x → (t.apply (.commit (record.sealedAt now))).Committed x :=
    fun x hx => hr.inv.exists_mem_insert (hr.inv.held_born (.inl (.inl hx))) hbn hx
  refine ⟨hinv, hr.down, hr₂.stored, ?_, hr₂.allocated, ?_, hr₂.settled⟩
  · intro hdest u hu
    rcases hr.charged hdest u hu with (⟨r, hrec, hgen, hq⟩ | hpd) | hw
    · have hsm := hr.inv.launch_eq (hr.inv.records_born r hrec) (hr.inv.units_born u hu) hgen
      obtain ⟨r', hr', heq⟩ := hcmm u ⟨r, hrec, hsm⟩
      exact .inl (.inl ⟨r', hr', congrArg (·.generation) heq, congrArg (·.quota) heq⟩)
    · exact .inl (.inr hpd)
    rcases mem_cons.mp hw with rfl | hw
    · exact .inl (.inl ⟨record.sealedAt now, mem_insert_self, rfl, rfl⟩)
    · exact .inr hw
  · intro hcl m hm
    rcases hr₂.known hcl m hm with hx | hw
    · exact .inl (hcmm _ hx)
    rcases mem_cons.mp hw with heq | hw
    · rw [heq]
      exact .inl ⟨record.sealedAt now, mem_insert_self, rfl⟩
    · exact .inr hw

/-! ## One round -/

theorem keeps_restoreRunNetwork {answer : Option RunNetworkResult} {restored : List Change}
    (hr : Recovering G t waiting rest clean) (hbn : record.toLaunchReservation ∈ t.births)
    (h : restoreRunNetwork t.runNetworks record answer = some restored) :
    Keeps G t restored ∧ Recovering G (run State.apply t restored) waiting rest clean ∧
      (run State.apply t restored).metadata = t.metadata ∧
      (run State.apply t restored).births = t.births := by
  rw [restoreRunNetwork] at h
  split at h
  · split at h
    · cases h
      exact ⟨throughout_nil hr.inv, hr, rfl, rfl⟩
    · cases h
  rename_i hno
  split at h
  · cases h
    have hadd : Recovering G (t.apply (.addNetwork record.runNetwork)) waiting rest clean := by
      refine hr.addNetwork fun n hn heq => ?_
      rw [(hr.inv.births_valid _ hbn).network] at heq
      exact absurd heq (SortedTable.ne_of_get_eq_none hno hn)
    exact ⟨throughout_singleton hr.inv hadd.inv, hadd, rfl, rfl⟩
  · cases h

/-- What a round of the loop makes sure of, by its verdict. -/
def RoundOk (G : Guards) (t : State) (waiting : List LaunchReservation) (rest : List VmRecord)
    (clean : Bool) : Recovered → Prop
  | .aborted changes => Keeps G t changes
  | .contained changes =>
    Keeps G t changes ∧ Recovering G (run State.apply t changes) waiting rest false
  | .adopted changes =>
    Keeps G t changes ∧ Recovering G (run State.apply t changes) waiting rest clean

theorem round_ok (active : List ℕ) (a : RecoveryAnswers)
    (hG : ¬ G.networks) (hr : Recovering G t (record.toLaunchReservation :: waiting) rest clean)
    (hmem : record ∈ t.metadata) (hrs : ∀ m ∈ rest, m.generation ≠ record.generation) :
    RoundOk G t waiting rest clean (recoverRecord config t.runNetworks active record a) := by
  have hbn := hr.inv.metadata_born record hmem
  have hcontain := keeps_containOrRetain config a.containment hG hr hbn hrs
  simp only [recoverRecord]
  split
  · exact hcontain
  split
  · exact hcontain
  rename_i restored hrestored
  obtain ⟨hkp, hr₁, hmeta, hbirths⟩ := keeps_restoreRunNetwork hr hbn hrestored
  have hmem₁ : record ∈ (run State.apply t restored).metadata := hmeta ▸ hmem
  have hbn₁ : record.toLaunchReservation ∈ (run State.apply t restored).births := hbirths ▸ hbn
  split
  · obtain ⟨hkp₂, hr₂⟩ := keeps_containOrRetain config a.containment hG hr₁ hbn₁ hrs
    refine ⟨hkp.append hkp₂, ?_⟩
    rw [run_append]
    exact hr₂
  rename_i hnmd
  have hado : record.Adoptable := (not_or.mp hnmd).1
  split
  · exact hkp
  rename_i now _
  have hr₂ := hr₁.persist now ⟨record, hmem₁, rfl⟩ (fun _ _ => ⟨record, hmem₁, hado, rfl⟩)
    mem_cons_self hrs
  obtain ⟨hkp₂, hr₃⟩ := keeps_containOrRetain config a.containment hG hr₁ hbn₁ hrs
  obtain ⟨hkp₂', hr₃'⟩ := keeps_containOrRetain config a.containment hG hr₂ hbn₁ hrs
  split
  · -- the metadata was not written, or was written and reported as an error
    refine ⟨hkp.append (Throughout.append (keeps_took hr₁.inv hr₂.inv) ?_), ?_⟩
    · rw [run_took]
      split
      · exact hkp₂
      · exact hkp₂'
    · rw [run_append, run_append, run_took]
      split
      · exact hr₃
      · exact hr₃'
  · split
    · refine ⟨hkp.append (throughout_cons hr₁.inv hkp₂'), ?_⟩
      rw [run_append]
      exact hr₃'
    · obtain ⟨hkp₄, hr₄⟩ := keeps_adoption now hG hr₁ hmem₁ hado hrs
      refine ⟨hkp.append hkp₄, ?_⟩
      rw [run_append]
      exact hr₄

/-! ## The loop -/

/-- At the end of the loop the daemon takes requests. -/
theorem Recovering.serve (hr : Recovering G t [] [] clean) (ready : Bool) :
    Inv G (t.apply (.serve (ready && clean))) ∧ AtRest (t.apply (.serve (ready && clean))) := by
  refine ⟨hr.inv.serve ?_ ?_ ?_, Resting.atRest ⟨rfl, ?_⟩⟩
  · intro hdest u hu
    rcases hr.charged hdest u hu with hchd | hw
    · exact hchd
    · cases hw
  · -- every identity that is held is reserved on disk
    intro x hx
    have hmem : x.identity ∈ t.reservations := by
      rcases hx with (hx | hx) | hx
      · exact hr.inv.reserved x (.inl hx)
      · rw [(hr.inv.idle hr.down).2.2] at hx
        cases hx
      · exact hr.inv.reserved x (.inr hx)
    exact hr.allocated _ hmem
  · intro _ hatt m hm _
    have hcl : clean = true := (Bool.and_eq_true_iff.mp hatt).2
    rcases hr.known hcl m hm with hx | hw
    · exact .inl hx
    · cases hw
  · intro hatt
    exact hr.settled (Bool.and_eq_true_iff.mp hatt).2

theorem keeps_recoverRecords (ready : Bool)
    (answers : ValidatedId → RecoveryAnswers) (hG : ¬ G.networks) {found : List VmRecord}
    (hnd : (found.map (·.generation)).Nodup) (active : List ℕ)
    (hr : Recovering G t (found.map (·.toLaunchReservation)) found clean) :
    Keeps G t (recoverRecords config ready answers t active clean found) ∧
      AtRest (run State.apply t (recoverRecords config ready answers t active clean found)) := by
  induction found generalizing t active clean with
  | nil =>
    obtain ⟨hinv, hrs⟩ := hr.serve ready
    exact ⟨throughout_singleton hr.inv hinv, hrs⟩
  | cons record rest ih =>
    rw [map_cons, nodup_cons] at hnd
    have hrs : ∀ m ∈ rest, m.generation ≠ record.generation := by
      intro m hm heq
      exact hnd.1 (heq ▸ mem_map_of_mem hm)
    have hr' : Recovering G t (record.toLaunchReservation :: rest.map (·.toLaunchReservation)) rest
        clean := { hr with stored := fun m hm => hr.stored m (mem_cons_of_mem _ hm) }
    have hrnd := round_ok config active (answers record.generation) hG hr'
      (hr.stored record mem_cons_self) hrs
    rw [recoverRecords]
    split
    · rename_i hverd
      rw [hverd] at hrnd
      have hshut := Throughout.last hrnd
      refine ⟨Throughout.append hrnd (throughout_singleton hshut (hshut.shut hG)), ?_⟩
      rw [run_append]
      exact ⟨fun hup => absurd hup Bool.false_ne_true, fun _ => rfl⟩
    · rename_i hverd
      rw [hverd] at hrnd
      obtain ⟨hkp, hnx⟩ := ih hnd.2 active hrnd.2
      refine ⟨hrnd.1.append hkp, ?_⟩
      rw [run_append]
      exact hnx
    · rename_i hverd
      rw [hverd] at hrnd
      obtain ⟨hkp, hnx⟩ := ih hnd.2 (record.uid :: active) hrnd.2
      refine ⟨hrnd.1.append hkp, ?_⟩
      rw [run_append]
      exact hnx

/-! ## The start -/

/-- The identities allocated at the start: those that are reserved on disk. -/
def reservedIdentities (identities : List IdentityReservation) (allocated : List ℕ) : List ℕ :=
  identities.foldl (fun m identity => SortedTable.insert id identity.uid m) allocated

theorem mem_reservedIdentities {identities : List IdentityReservation} {allocated : List ℕ}
    {identity : IdentityReservation} (h : identity ∈ identities) :
    identity.uid ∈ reservedIdentities identities allocated := by
  -- an identity that is allocated stays allocated
  have hkt : ∀ (identities : List IdentityReservation) (allocated : List ℕ) (uid : ℕ),
      uid ∈ allocated → uid ∈ reservedIdentities identities allocated := by
    intro identities
    induction identities with
    | nil => exact fun _ _ hmem => hmem
    | cons i _ ih =>
      intro _ uid hmem
      refine ih _ uid ?_
      by_cases heq : uid = i.uid
      · exact mem_insert.mpr (.inl heq)
      · exact mem_insert.mpr (.inr ⟨hmem, heq⟩)
  induction identities generalizing allocated with
  | nil => cases h
  | cons i identities ih =>
    rcases mem_cons.mp h with rfl | h
    · exact hkt identities _ _ mem_insert_self
    · exact ih h

theorem keeps_allocateReserved (h : Inv G s) (identities : List IdentityReservation) :
    Keeps G s (identities.map fun identity => .allocate identity.uid) := by
  induction identities generalizing s with
  | nil => exact throughout_nil h
  | cons identity _ ih => exact throughout_cons h (ih (h.allocate identity.uid))

/-- Allocating identities changes nothing else. -/
theorem run_allocateReserved (s : State) (identities : List IdentityReservation) :
    run State.apply s (identities.map fun identity => .allocate identity.uid) =
      { s with allocatedIdentities := reservedIdentities identities s.allocatedIdentities } := by
  induction identities generalizing s with
  | nil => rfl
  | cons identity _ ih => exact ih (s.apply (.allocate identity.uid))

/-- **The start of the daemon** keeps the invariant. -/
theorem keeps_newWithReadiness (ready : Bool) (found : List VmRecord)
    (answers : ValidatedId → RecoveryAnswers) (hG : ¬ G.networks) (h : Inv G s) (hrs : AtRest s)
    (hdown : s.running = false) :
    Keeps G s (s.newWithReadiness config ready found answers) ∧
      AtRest (run State.apply s (s.newWithReadiness config ready found answers)) := by
  rw [State.newWithReadiness]
  split
  · exact ⟨throughout_nil h, hrs⟩
  rename_i hok
  have hperm : found.Perm s.metadata := by simpa using (not_or.mp hok).2
  have hcore := hrs.down hdown
  have hkp := keeps_allocateReserved h s.reservations
  have hnd : (found.map (·.generation)).Nodup :=
    ((hperm.map (·.generation)).nodup_iff).mpr h.metadata_nodup
  have hr : Recovering G (run State.apply s (s.reservations.map fun i => .allocate i.uid))
      (found.map (·.toLaunchReservation)) found true := by
    refine ⟨hkp.last, ?_, ?_, ?_, ?_, ?_, ?_⟩ <;> rw [run_allocateReserved]
    · exact hdown
    · exact fun m hm => hperm.mem_iff.mp hm
    · intro hdest u hu
      obtain ⟨m, hm, rfl⟩ := h.stored hdest u hu
      exact .inr (mem_map_of_mem (hperm.mem_iff.mpr hm))
    · exact fun i hi => mem_reservedIdentities hi
    · exact fun _ m hm => .inr (mem_map_of_mem (hperm.mem_iff.mpr hm))
    · exact fun _ => congrArg (·.unresolvedRecoveries) hcore
  obtain ⟨hkp', hrs'⟩ := keeps_recoverRecords config ready answers hG hnd [] hr
  refine ⟨hkp.append hkp', ?_⟩
  rw [run_append]
  exact hrs'

end Intar.Jailer
