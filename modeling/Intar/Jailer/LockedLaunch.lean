import Intar.Jailer.LifecycleSteps

/-!
# A launch under the lock

`launch_vm_validated` draws a generation, reserves its identity, prepares and records it, charges its
quota and only then starts its unit.  `Underway` is what holds of the generation from the allocation
of its identity on: nothing else has its name, its identity or its VM.
-/

namespace Intar.Jailer

open SortedTable (mem_insert mem_insert_self mem_erase)
open Trace (run throughout_nil throughout_cons throughout_singleton)

variable {G : Guards} {s : State} {launch : LaunchReservation} {record : VmRecord}

/-- A launch under the lock is under way. -/
structure Underway (G : Guards) (s : State) (launch : LaunchReservation) : Prop where
  inv : Inv G s
  born : launch ∈ s.births
  tasks : ∀ task ∈ s.tasks, task.generation ≠ launch.generation
  checks : ∀ check ∈ s.checks, check.record.generation ≠ launch.generation
  inflight : ∀ x ∈ s.inflightLaunches, launch.generation ≠ x.generation
  uid : ∀ x, s.Held x → x.uid = launch.uid → x = launch
  allocated : launch.uid ∈ s.allocatedIdentities
  network : launch.runNetwork ∈ s.runNetworks
  vm : G.launches → ∀ x, s.Addressed x → ¬ x.SameVmAs launch
  disk : G.launches → ∀ m ∈ s.metadata, m.Adoptable → m.toLaunchReservation.SameVmAs launch →
    m.generation = launch.generation

namespace Underway

theorem of_begotten (h : Inv G s) (hup : s.running = true) (hb : Begotten s launch)
    (hvm : G.launches → ∀ x, s.Addressed x → ¬ x.SameVmAs launch)
    (hdk : G.launches → ∀ m ∈ s.metadata, m.Adoptable → ¬ m.toLaunchReservation.SameVmAs launch) :
    Underway G ((s.apply (.beget launch)).apply (.allocate launch.uid)) launch where
  inv := (h.beget hb.fresh hb.valid).allocate launch.uid
  born := List.mem_cons_self
  tasks := fun task ht => hb.fresh _ (h.inflight_born _ (h.tasks_inflight task ht))
  checks := fun c hc => hb.fresh _ (h.checks_born c hc)
  inflight := fun x hx => (hb.fresh x (h.inflight_born x hx)).symm
  uid := fun _ hx heq => absurd heq (hb.uid_ne h hup hx)
  allocated := mem_insert_self
  network := hb.network
  vm := hvm
  disk := fun hG m hm hado hsm => absurd hsm (hdk hG m hm hado)

variable (hu : Underway G s launch)

include hu

theorem reserve : Underway G (s.apply (.reserve launch.identity)) launch :=
  { hu with inv := hu.inv.reserve hu.born }

theorem remove (hlv : ¬ s.Live launch.generation) : Inv G (s.apply (.remove launch.generation)) :=
  hu.inv.remove hlv fun _ task ht heq => absurd heq (hu.tasks task ht)

theorem persist (hsm : record.toLaunchReservation = launch)
    (hres : launch.identity ∈ s.reservations)
    (hkn : record.Adoptable →
      ∃ recovery ∈ s.unresolvedRecoveries, recovery.generation = record.generation) :
    Underway G (s.apply (.persist record)) launch := by
  subst hsm
  have hinv : Inv G (s.apply (.persist record)) := by
    refine hu.inv.persist hu.born ?_ hu.uid (fun _ => hu.allocated) hres (fun hG _ => hu.disk hG)
      ?_ fun _ hado _ _ => .inr (hkn hado)
    · exact fun task ht heq => absurd heq (hu.tasks task ht)
    · exact fun hG _ x hx hvm => absurd hvm.symm (hu.vm hG x hx)
  have hmeta : ∀ m ∈ (s.apply (.persist record)).metadata, m = record ∨ m ∈ s.metadata :=
    fun m hm => (mem_insert.mp hm).imp_right (·.1)
  refine { hu with inv := hinv, uid := ?_, disk := ?_ }
  · rintro x (hx | hx | ⟨m, hm, rfl⟩) heq
    · exact hu.uid x (.inl hx) heq
    · exact hu.uid x (.inr (.inl hx)) heq
    rcases hmeta m hm with rfl | hm
    · rfl
    · exact hu.uid _ (.inr (.inr ⟨m, hm, rfl⟩)) heq
  · intro hG m hm hado hvm
    rcases hmeta m hm with rfl | hm
    · rfl
    · exact hu.disk hG m hm hado hvm

theorem charge : Underway G (s.apply (.charge ⟨launch.generation, launch.quota⟩)) launch := by
  refine { hu with inv := hu.inv.charge fun x hx heq => ?_ }
  rw [hu.inv.launch_eq hx hu.born heq]

theorem retain : Underway G (s.apply (.retain launch.recovery)) launch :=
  { hu with inv := hu.inv.retain hu.born hu.tasks fun _ => hu.network }

theorem start (hchd : s.Charged launch) (hsto : s.Stored launch)
    (htrkd : s.Tracked launch.generation) (hres : launch.identity ∈ s.reservations) :
    Underway G (s.apply (.start launch)) launch := by
  have hinv := hu.inv.start hu.born (fun task ht heq => absurd heq (hu.tasks task ht)) hu.checks
    hchd (fun _ => hsto) (fun _ => htrkd) hu.uid (fun _ => hu.allocated) hres
  refine { hu with inv := hinv, uid := ?_ }
  rintro x (hx | hx | hx) heq
  · exact hu.uid x (.inl hx) heq
  · rcases mem_insert.mp hx with rfl | ⟨hx, -⟩
    · rfl
    · exact hu.uid x (.inr (.inl hx)) heq
  · exact hu.uid x (.inr (.inr hx)) heq

theorem commit (hsm : record.toLaunchReservation = launch)
    (hres : launch.identity ∈ s.reservations) : Inv G (s.apply (.commit record)) := by
  subst hsm
  refine hu.inv.commit hu.born hu.inflight hu.uid (fun _ => hu.allocated) hres
    (fun _ => hu.network) ?_ hu.disk
  exact fun hG x hx hvm => absurd hvm (hu.vm hG x hx)

end Underway

/-! ## The sequence -/

theorem keeps_launchStarted {intent : VmRecord} (hu : Underway G s launch)
    (hsm : intent.toLaunchReservation = launch) (hres : launch.identity ∈ s.reservations)
    (hunr : ∃ recovery ∈ s.unresolvedRecoveries, recovery.generation = launch.generation)
    (a : LaunchAnswers) : Keeps G s (launchStarted intent a).1 := by
  subst hsm
  rw [launchStarted]
  split
  · rename_i started now _ _ _
    have hu₁ : Underway G (s.apply (.persist (intent.identified started now)))
        intent.toLaunchReservation := hu.persist rfl hres fun _ => hunr
    split
    · have h₂ : Inv G (run State.apply s [.persist (intent.identified started now),
          .commit (intent.identified started now)]) := hu₁.commit rfl hres
      have hmem : intent.identified started now ∈ (run State.apply s
          [.persist (intent.identified started now),
            .commit (intent.identified started now)]).records := mem_insert_self
      have h₃ := h₂.discharge (fun _ => ⟨_, hmem, rfl⟩) hu.tasks
      have h₄ := h₃.settle (fun _ _ => .inl ⟨_, hmem, rfl⟩) fun _ _ _ m hm heq =>
        .inl ⟨_, hmem, h₃.launch_eq hu.born (h₃.metadata_born m hm) heq.symm⟩
      exact throughout_cons hu.inv
        (throughout_cons hu₁.inv (throughout_cons h₂ (throughout_singleton h₃ h₄)))
    · refine Trace.Throughout.append (keeps_took hu.inv hu₁.inv) ?_
      rw [run_took]
      split
      · exact keeps_failLaunch hu.inv hu.tasks
      · exact keeps_failLaunch hu₁.inv hu.tasks
  · exact keeps_failLaunch hu.inv hu.tasks

theorem keeps_launchReserved (hu : Underway G s launch) (hlv : ¬ s.Live launch.generation)
    (a : LaunchAnswers) : Keeps G s (launchReserved launch a).1 := by
  have hu₁ := hu.reserve
  have hres : launch.identity ∈ (s.apply (.reserve launch.identity)).reservations := mem_insert_self
  have hrem := hu₁.remove hlv
  simp only [launchReserved]
  split
  · exact keeps_took hu.inv hu₁.inv
  split
  · exact throughout_singleton hu.inv hu₁.inv
  split
  · exact throughout_cons hu.inv (keeps_took hu₁.inv hrem)
  -- the metadata written before the start names no unit
  have hu₂ : Underway G (run State.apply s [.reserve launch.identity,
      .persist (launch.intent a.hostBootId a.jailRootInode)]) launch :=
    hu₁.persist rfl hres fun hado => absurd rfl hado
  split
  · refine throughout_cons hu.inv ?_
    refine Trace.Throughout.append (keeps_took hu₁.inv hu₂.inv) ?_
    rw [run_took]
    split
    · exact keeps_took hu₁.inv hrem
    · exact keeps_took hu₂.inv (hu₂.remove hlv)
  · have hu₃ := hu₂.charge
    have hu₄ := hu₃.retain
    have hu₅ := hu₄.start
      (.inr ⟨⟨launch.generation, launch.quota⟩, mem_insert_self, rfl, le_refl _⟩)
      ⟨_, mem_insert_self, rfl⟩
      (.inr (.inr ⟨launch.recovery, mem_insert_self, rfl⟩)) hres
    refine Trace.Throughout.append (throughout_cons hu.inv (throughout_cons hu₁.inv
      (throughout_cons hu₂.inv (throughout_cons hu₃.inv
        (throughout_singleton hu₄.inv hu₅.inv))))) ?_
    exact keeps_launchStarted hu₅ rfl hres ⟨launch.recovery, mem_insert_self, rfl⟩ a

/-- **A launch under the lock** keeps the invariant. -/
theorem keeps_launchVm (config : JailerdConfig) (h : Inv G s) (hup : s.running = true)
    (hcalm : G.launches → s.attested = true → s.unresolvedRecoveries = [])
    {request : VmLaunchRequest} (accepted : Bool) {generation : ValidatedId}
    (hfr : s.Fresh generation)
    (hfly : G.launches → ∀ x ∈ s.inflightLaunches, ¬ x.SameVm request.runId request.vmId)
    (a : LaunchAnswers) : Keeps G s (s.launchVm config request accepted generation a).1 := by
  simp only [JailerdCore.launchVm]
  split
  · exact throughout_nil h
  rename_i hquo
  split
  · exact throughout_nil h
  rename_i hrdy
  have hatt : s.attested = true := by simpa using (not_or.mp hrdy).2
  split
  · rename_i existing hfind
    split
    · have hr : existing ∈ s.records := (findRecord_eq_some hfind).1
      obtain ⟨hkp, hmem, hdrn⟩ := keeps_executeExistingLaunch config a.check h
        (h.records_born existing hr) (h.task_ne_record hr)
      refine hkp.append ?_
      rw [← hmem.core]
      refine keeps_completeExistingLaunch hkp.last ?_ ?_ hdrn a.ingress
      · rw [hmem.births]
        exact h.records_born existing hr
      · rw [hmem.tasks]
        exact h.task_ne_record hr
    · exact throughout_nil h
  · rename_i hfind
    split
    · exact throughout_nil h
    rename_i launch hresv
    have hres := reservedFrom_of_reservation hresv
    have hadmd : AdmittedFrom s.toJailerdCore config request generation launch :=
      ⟨hatt, hres.quota_eq ▸ hquo, findRecord_eq_none hfind, hres.quota_eq ▸ hres⟩
    have hb := begotten_of_admittedFrom hadmd hfr
    have hvm := fun hG => hadmd.not_sameVmAs (hfly hG)
    have hu := Underway.of_begotten h hup hb hvm fun hG =>
      no_adoptable h hG hup hatt (hcalm hG hatt) (hvm hG)
    refine Trace.Throughout.append (throughout_cons h (throughout_singleton
      (h.beget hb.fresh hb.valid) hu.inv)) (keeps_launchReserved hu ?_ a)
    rintro ⟨u, hun, heq⟩
    exact hb.fresh u (h.units_born u hun) heq

end Intar.Jailer
