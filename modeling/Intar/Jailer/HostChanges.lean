import Intar.Jailer.Invariant

/-!
# Changes to the host

For each change to the host, what has to be known when it is made for the invariant to go on holding.
A unit is started when it is charged, known and has its metadata and its identity on disk; metadata is
removed when the unit is not running.
-/

namespace Intar.Jailer

open SortedTable

namespace Inv

variable {G : Guards} {s : State}

variable {launch : LaunchReservation} {record : VmRecord} {generation : ValidatedId}

variable (h : Inv G s)

include h

theorem start (hbn : launch ∈ s.births)
    (htks : ∀ task ∈ s.tasks, task.generation = launch.generation → task.stage.started = true)
    (hchks : ∀ check ∈ s.checks, check.record.generation ≠ launch.generation)
    (hchd : s.Charged launch) (hsto : G.destroys → s.Stored launch)
    (htrkd : G.networks → s.Tracked launch.generation)
    (huid : ∀ x, s.Held x → x.uid = launch.uid → x = launch)
    (halc : s.running = true → launch.uid ∈ s.allocatedIdentities)
    (hres : launch.identity ∈ s.reservations) : Inv G (s.apply (.start launch)) := by
  have hhd : ∀ x, (s.apply (.start launch)).Held x → x = launch ∨ s.Held x := by
    rintro x (hx | hx | hx)
    · exact .inr (.inl hx)
    · exact (mem_insert.mp hx).imp_right fun hx => .inr (.inl hx.1)
    · exact .inr (.inr (.inr hx))
  exact
  { h with
    units_nodup := nodup_insert h.units_nodup
    units_born := forall_mem_insert hbn h.units_born
    tasks_stage := by
      intro t ht
      have hok := h.tasks_stage t ht
      refine { hok with unstarted := fun hstg => forall_mem_insert ?_ (hok.unstarted hstg) }
      intro heq
      rw [htks t ht heq.symm] at hstg
      cases hstg
    checks_drained := by
      rintro c hc containment hout hprov ⟨u, hu, hgen⟩
      rcases mem_insert.mp hu with rfl | ⟨hu, -⟩
      · exact hchks c hc hgen.symm
      · exact h.checks_drained c hc containment hout hprov ⟨u, hu, hgen⟩
    charged := fun hG hr => forall_mem_insert hchd (h.charged hG hr)
    stored := fun hG => forall_mem_insert (hsto hG) (h.stored hG)
    tracked := fun hG => forall_mem_insert (htrkd hG) (h.tracked hG)
    uid_unique := h.uid_unique_of hhd huid
    uid_allocated := h.uid_allocated_of hhd halc
    reserved := by
      rintro x (hx | hx | hx)
      · exact h.reserved x (.inl hx)
      · exact forall_mem_insert (P := fun y => y.identity ∈ s.reservations) hres
          (fun y hy => h.reserved y (.inr (.inl hy))) x hx
      · exact h.reserved x (.inr (.inr hx)) }

theorem drain (generation : ValidatedId) : Inv G (s.apply (.drain generation)) := by
  have huts : ∀ u ∈ (s.apply (.drain generation)).units, u ∈ s.units :=
    fun u hu => (mem_erase.mp hu).1
  have hhd : ∀ x, (s.apply (.drain generation)).Held x → s.Held x :=
    fun x => Or.imp_right (Or.imp_left (huts x))
  exact
  { h with
    units_nodup := nodup_erase h.units_nodup
    units_born := forall_mem_erase h.units_born
    tasks_stage := fun t ht =>
      { h.tasks_stage t ht with
        unstarted := fun hstg => forall_mem_erase ((h.tasks_stage t ht).unstarted hstg) }
    checks_drained := fun c hc containment hout hprov ⟨u, hu, hgen⟩ =>
      h.checks_drained c hc containment hout hprov ⟨u, huts u hu, hgen⟩
    charged := fun hG hr => forall_mem_erase (h.charged hG hr)
    stored := fun hG => forall_mem_erase (h.stored hG)
    tracked := fun hG => forall_mem_erase (h.tracked hG)
    uid_unique := fun x y hx hy => h.uid_unique x y (hhd x hx) (hhd y hy)
    uid_allocated := fun hr x hx => h.uid_allocated hr x (hhd x hx)
    reserved := fun x hx => h.reserved x (hx.imp_right (Or.imp_left (huts x))) }

theorem persist (hbn : record.toLaunchReservation ∈ s.births)
    (htks : ∀ task ∈ s.tasks, task.generation = record.generation → task.stage.recorded = true)
    (huid : ∀ x, s.Held x → x.uid = record.uid → x = record.toLaunchReservation)
    (halc : s.running = true → record.uid ∈ s.allocatedIdentities)
    (hres : record.identity ∈ s.reservations)
    (hdk : G.launches → record.Adoptable → ∀ m ∈ s.metadata, m.Adoptable →
      m.toLaunchReservation.SameVmAs record.toLaunchReservation → m.generation = record.generation)
    (had : G.launches → record.Adoptable → ∀ x, s.Addressed x →
      record.toLaunchReservation.SameVmAs x → record.generation = x.generation)
    (hkn : G.launches → record.Adoptable → s.running = true → s.attested = true →
      s.Addressed record.toLaunchReservation ∨
        ∃ recovery ∈ s.unresolvedRecoveries, recovery.generation = record.generation) :
    Inv G (s.apply (.persist record)) := by
  have hkt : ∀ x ∈ s.births, s.Stored x → (s.apply (.persist record)).Stored x :=
    fun x hx => h.exists_mem_insert hx hbn
  have hhd : ∀ x, (s.apply (.persist record)).Held x →
      x = record.toLaunchReservation ∨ s.Held x := by
    rintro x (hx | hx | hx)
    · exact .inr (.inl hx)
    · exact .inr (.inr (.inl hx))
    · exact (exists_of_mem_insert hx).imp_right fun hx => .inr (.inr hx)
  exact
  { h with
    metadata_nodup := nodup_insert h.metadata_nodup
    metadata_born := forall_mem_insert hbn h.metadata_born
    tasks_stage := by
      intro t ht
      have hok := h.tasks_stage t ht
      refine { hok with unrecorded := fun hstg => forall_mem_insert ?_ (hok.unrecorded hstg) }
      intro heq
      rw [htks t ht heq.symm] at hstg
      cases hstg
    stored := fun hG u hu => hkt u (h.units_born u hu) (h.stored hG u hu)
    tasks_stored := fun hG t ht r hr =>
      hkt _ (h.inflight_born _ (h.tasks_inflight t ht)) (h.tasks_stored hG t ht r hr)
    uid_unique := h.uid_unique_of hhd huid
    uid_allocated := h.uid_allocated_of hhd halc
    reserved := by
      rintro x (hx | hx | hx)
      · exact h.reserved x (.inl hx)
      · exact h.reserved x (.inr (.inl hx))
      rcases exists_of_mem_insert hx with rfl | hx
      · exact hres
      · exact h.reserved x (.inr (.inr hx))
    disk_unique := by
      intro hG m hm m' hm' hado hado' hvm
      rcases mem_insert.mp hm with rfl | ⟨hmold, -⟩ <;>
        rcases mem_insert.mp hm' with hmr | ⟨hmold', -⟩
      · rw [hmr]
      · exact (hdk hG hado m' hmold' hado' hvm.symm).symm
      · subst hmr
        exact hdk hG hado' m hmold hado hvm
      · exact h.disk_unique hG m hmold m' hmold' hado hado' hvm
    disk_addressed := by
      intro hG x hx
      exact forall_mem_insert (fun hado => had hG hado x hx) (h.disk_addressed hG x hx)
    disk_known := by
      intro hG hr ha
      exact forall_mem_insert (fun hado => hkn hG hado hr ha) (h.disk_known hG hr ha) }

theorem remove (hlv : ¬ s.Live generation)
    (htks : G.destroys → ∀ task ∈ s.tasks, task.generation = generation →
      ∀ r, task.stage ≠ .starting r) : Inv G (s.apply (.remove generation)) := by
  have hmeta : ∀ m ∈ (s.apply (.remove generation)).metadata, m ∈ s.metadata :=
    fun m hm => (mem_erase.mp hm).1
  have hsto : ∀ x, (s.apply (.remove generation)).Stored x → s.Stored x := by
    rintro x ⟨m, hm, rfl⟩
    exact ⟨m, hmeta m hm, rfl⟩
  have hkt : ∀ x, x.generation ≠ generation → s.Stored x →
      (s.apply (.remove generation)).Stored x := by
    rintro x hne ⟨m, hm, rfl⟩
    exact ⟨m, mem_erase.mpr ⟨hm, hne⟩, rfl⟩
  have hhd : ∀ x, (s.apply (.remove generation)).Held x → s.Held x :=
    fun x => Or.imp_right (Or.imp_right (hsto x))
  exact
  { h with
    metadata_nodup := nodup_erase h.metadata_nodup
    metadata_born := forall_mem_erase h.metadata_born
    tasks_stage := fun t ht =>
      { h.tasks_stage t ht with
        unrecorded := fun hstg => forall_mem_erase ((h.tasks_stage t ht).unrecorded hstg) }
    stored := fun hG u hu => hkt u (fun heq => hlv ⟨u, hu, heq⟩) (h.stored hG u hu)
    tasks_stored := by
      intro hG t ht r hr
      refine hkt _ (fun heq => ?_) (h.tasks_stored hG t ht r hr)
      exact htks hG t ht heq r hr
    uid_unique := fun x y hx hy => h.uid_unique x y (hhd x hx) (hhd y hy)
    uid_allocated := fun hr x hx => h.uid_allocated hr x (hhd x hx)
    reserved := fun x hx => h.reserved x (hx.imp_right (Or.imp_right (hsto x)))
    disk_unique := fun hG m hm m' hm' => h.disk_unique hG m (hmeta m hm) m' (hmeta m' hm')
    disk_addressed := fun hG x hx => forall_mem_erase (h.disk_addressed hG x hx)
    disk_known := fun hG hr ha => forall_mem_erase (h.disk_known hG hr ha) }

theorem reserve (hbn : launch ∈ s.births) : Inv G (s.apply (.reserve launch.identity)) := by
  -- a generation only ever reserves the identity it was launched with
  have hkt : ∀ x ∈ s.births, x.identity ∈ s.reservations →
      x.identity ∈ (s.apply (.reserve launch.identity)).reservations :=
    fun x hx hmem => mem_insert_of_mem hmem fun heq => by rw [h.launch_eq hx hbn heq]
  exact
  { h with
    tasks_stage := fun t ht =>
      { h.tasks_stage t ht with
        reserved := fun hstg =>
          hkt _ (h.inflight_born _ (h.tasks_inflight t ht)) ((h.tasks_stage t ht).reserved hstg) }
    reserved := by
      intro x hx
      refine hkt x (h.held_born ?_) (h.reserved x hx)
      exact hx.elim (fun hx => .inl (.inl hx)) .inr }

theorem release (hrecs : ∀ r ∈ s.records, r.generation ≠ generation)
    (hlv : ¬ s.Live generation) (hdk : ¬ s.OnDisk generation)
    (htks : ∀ task ∈ s.tasks, task.generation = generation → task.stage.reserved = false) :
    Inv G (s.apply (.release generation)) :=
  { h with
    tasks_stage := by
      intro t ht
      have hok := h.tasks_stage t ht
      refine { hok with reserved := fun hstg => mem_erase.mpr ⟨hok.reserved hstg, ?_⟩ }
      intro heq
      rw [htks t ht heq] at hstg
      cases hstg
    reserved := by
      intro x hx
      refine mem_erase.mpr ⟨h.reserved x hx, ?_⟩
      intro heq
      rcases hx with ⟨r, hr, rfl⟩ | hx | ⟨m, hm, rfl⟩
      · exact hrecs r hr heq
      · exact hlv ⟨x, hx, heq⟩
      · exact hdk ⟨m, hm, heq⟩ }

end Inv

end Intar.Jailer
