import Intar.Jailer.Invariant

/-!
# Changes to the memory of the daemon

For each change to the tables, what has to be known when it is made for the invariant to go on holding.
What the changes of a table must not do is lose track of a unit that may be running: a charge is
taken back, a record dropped, a launch landed or a containment settled only where another table has
the generation, or where its unit is drained.
-/

namespace Intar.Jailer

open SortedTable List

namespace Inv

variable {G : Guards} {s : State}

variable {launch : LaunchReservation} {record : VmRecord} {generation : ValidatedId}

variable (h : Inv G s)

include h

theorem beget (hfr : s.Fresh launch.generation) (hval : launch.Valid) :
    Inv G (s.apply (.beget launch)) :=
  { h with
    births_unique := by
      intro x hx y hy heq
      rcases mem_cons.mp hx with hxl | hx <;> rcases mem_cons.mp hy with hyl | hy
      · rw [hxl, hyl]
      · exact absurd (hxl ▸ heq).symm (hfr y hy)
      · exact absurd (hyl ▸ heq) (hfr x hx)
      · exact h.launch_eq hx hy heq
    births_valid := forall_mem_cons.mpr ⟨hval, h.births_valid⟩
    units_born := fun x hx => mem_cons_of_mem _ (h.units_born x hx)
    metadata_born := fun x hx => mem_cons_of_mem _ (h.metadata_born x hx)
    records_born := fun x hx => mem_cons_of_mem _ (h.records_born x hx)
    inflight_born := fun x hx => mem_cons_of_mem _ (h.inflight_born x hx)
    checks_born := fun x hx => mem_cons_of_mem _ (h.checks_born x hx)
    unresolved_born := by
      intro recovery hrcv
      obtain ⟨x, hx, hrec⟩ := h.unresolved_born recovery hrcv
      exact ⟨x, mem_cons_of_mem _ hx, hrec⟩
    unresolved_network := by
      intro hG recovery hrcv x hx heq
      rcases mem_cons.mp hx with rfl | hx
      · obtain ⟨y, hy, rfl⟩ := h.unresolved_born recovery hrcv
        exact absurd heq.symm (hfr y hy)
      · exact h.unresolved_network hG recovery hrcv x hx heq }

theorem allocate (uid : ℕ) : Inv G (s.apply (.allocate uid)) :=
  { h with
    uid_allocated := by
      intro hup x hx
      exact mem_insert_of_mem (h.uid_allocated hup x hx) id }

theorem free {uid : ℕ} (hfr : ∀ x, s.Held x → x.uid ≠ uid) : Inv G (s.apply (.free uid)) :=
  { h with
    uid_allocated := fun hup x hx => mem_erase.mpr ⟨h.uid_allocated hup x hx, hfr x hx⟩ }

theorem charge {charge : CpuCharge}
    (hchrg : ∀ x ∈ s.births, x.generation = charge.generation →
      x.quota.cpuMillis ≤ charge.quota.cpuMillis) : Inv G (s.apply (.charge charge)) := by
  -- a charge of the same generation is replaced by one that also covers it
  have hcov : ∀ x ∈ s.births, ∀ old ∈ s.pendingCpuReservations, old.generation = x.generation →
      x.quota.cpuMillis ≤ old.quota.cpuMillis →
      ∃ new ∈ (s.apply (.charge charge)).pendingCpuReservations,
        new.generation = x.generation ∧ x.quota.cpuMillis ≤ new.quota.cpuMillis := by
    intro x hx old hold hgen hle
    by_cases heq : old.generation = charge.generation
    · exact ⟨charge, mem_insert_self, heq ▸ hgen, hchrg x hx (hgen ▸ heq)⟩
    · exact ⟨old, mem_insert.mpr (.inr ⟨hold, heq⟩), hgen, hle⟩
  exact
  { h with
    tasks_charged := by
      intro task htk
      obtain ⟨old, hold, hgen, hle⟩ := h.tasks_charged task htk
      exact hcov task.reservation (h.inflight_born _ (h.tasks_inflight task htk)) old hold hgen hle
    charged := by
      intro hG hup unit hun
      rcases h.charged hG hup unit hun with hrec | ⟨old, hold, hgen, hle⟩
      · exact .inl hrec
      · exact .inr (hcov unit (h.units_born unit hun) old hold hgen hle) }

theorem discharge (hlv : s.Live generation → ∃ record ∈ s.records, record.generation = generation)
    (htk : ∀ task ∈ s.tasks, task.generation ≠ generation) :
    Inv G (s.apply (.discharge generation)) :=
  { h with
    tasks_charged := by
      intro task hmem
      obtain ⟨old, hold, hgen, hle⟩ := h.tasks_charged task hmem
      exact ⟨old, mem_erase.mpr ⟨hold, hgen ▸ htk task hmem⟩, hgen, hle⟩
    charged := by
      intro hG hup unit hun
      rcases h.charged hG hup unit hun with hrec | ⟨old, hold, hgen, hle⟩
      · exact .inl hrec
      by_cases heq : unit.generation = generation
      · obtain ⟨record, hrec, hrgen⟩ := hlv ⟨unit, hun, heq⟩
        have hsm := h.launch_eq (h.records_born record hrec) (h.units_born unit hun)
          (hrgen.trans heq.symm)
        exact .inl ⟨record, hrec, hrgen.trans heq.symm, congrArg (·.quota) hsm⟩
      · exact .inr ⟨old, mem_erase.mpr ⟨hold, hgen ▸ heq⟩, hgen, hle⟩ }

theorem fly (hbn : launch ∈ s.births) (hup : s.running = true)
    (hrecs : ∀ record ∈ s.records, record.generation ≠ launch.generation)
    (huid : ∀ x, s.Held x → x.uid = launch.uid → x = launch)
    (halc : launch.uid ∈ s.allocatedIdentities) (hnet : launch.runNetwork ∈ s.runNetworks)
    (hvm : G.launches → ∀ x, s.Addressed x → ¬ x.SameVmAs launch)
    (hdk : G.launches → ∀ m ∈ s.metadata, m.Adoptable → ¬ m.toLaunchReservation.SameVmAs launch) :
    Inv G (s.apply (.fly launch)) := by
  have hkt : ∀ x ∈ s.inflightLaunches, x ∈ (s.apply (.fly launch)).inflightLaunches :=
    fun x hx => mem_insert_of_mem hx (h.launch_eq (h.inflight_born x hx) hbn)
  have had : ∀ x, (s.apply (.fly launch)).Addressed x → x = launch ∨ s.Addressed x := by
    rintro x (hx | hx)
    · exact .inr (.inl hx)
    rcases mem_insert.mp hx with rfl | ⟨hx, -⟩
    · exact .inl rfl
    · exact .inr (.inr hx)
  have hhd : ∀ x, (s.apply (.fly launch)).Held x → x = launch ∨ s.Held x := by
    rintro x (hx | hx)
    · exact (had x hx).imp_right .inl
    · exact .inr (.inr hx)
  exact
  { h with
    inflight_born := forall_mem_insert hbn h.inflight_born
    idle := fun hidle => absurd (hup.symm.trans hidle) (by decide)
    tasks_inflight := fun task htk => hkt _ (h.tasks_inflight task htk)
    inflight_records := forall_mem_insert hrecs h.inflight_records
    inflight_network := fun hG => forall_mem_insert hnet (h.inflight_network hG)
    tracked := by
      intro hG unit hun
      exact (h.tracked hG unit hun).imp_right (Or.imp_left exists_key_insert)
    uid_unique := h.uid_unique_of hhd huid
    uid_allocated := h.uid_allocated_of hhd fun _ => halc
    vm_unique := by
      intro hG x y hx hy hvm'
      rcases had x hx with hxl | hx' <;> rcases had y hy with hyl | hy'
      · rw [hxl, hyl]
      · exact absurd (hxl ▸ hvm'.symm) (hvm hG y hy')
      · exact absurd (hyl ▸ hvm') (hvm hG x hx')
      · exact h.vm_unique hG x y hx' hy' hvm'
    disk_addressed := by
      intro hG x hx m hm hado hvm'
      rcases had x hx with rfl | hx
      · exact absurd hvm' (hdk hG m hm hado)
      · exact h.disk_addressed hG x hx m hm hado hvm'
    disk_known := by
      intro hG hr ha m hm hado
      exact (h.disk_known hG hr ha m hm hado).imp_left (Or.imp_right (hkt _)) }

theorem land (htk : ∀ task ∈ s.tasks, task.generation ≠ generation)
    (hlv : G.networks → s.Live generation →
      (∃ record ∈ s.records, record.generation = generation) ∨
        ∃ recovery ∈ s.unresolvedRecoveries, recovery.generation = generation)
    (hdk : G.launches → s.running = true → s.attested = true →
      ¬ s.OnDisk generation) : Inv G (s.apply (.land generation)) := by
  have hsub : ∀ x, (s.apply (.land generation)).Addressed x → s.Addressed x :=
    fun x hx => hx.imp_right fun hx => (mem_erase.mp hx).1
  have hhd : ∀ x, (s.apply (.land generation)).Held x → s.Held x := fun x => Or.imp_left (hsub x)
  exact
  { h with
    inflight_born := forall_mem_erase h.inflight_born
    idle := by
      intro hidle
      obtain ⟨ht, hc, hi⟩ := h.idle hidle
      refine ⟨ht, hc, ?_⟩
      show erase _ generation s.inflightLaunches = []
      rw [hi]
      rfl
    tasks_inflight := fun task hmem => mem_erase.mpr ⟨h.tasks_inflight task hmem, htk task hmem⟩
    inflight_records := forall_mem_erase h.inflight_records
    inflight_network := fun hG => forall_mem_erase (h.inflight_network hG)
    tracked := by
      intro hG unit hun
      by_cases heq : unit.generation = generation
      · subst heq
        exact (hlv hG ⟨unit, hun, rfl⟩).imp_right .inr
      · exact (h.tracked hG unit hun).imp_right (Or.imp_left (exists_key_erase · heq))
    uid_unique := fun x y hx hy => h.uid_unique x y (hhd x hx) (hhd y hy)
    uid_allocated := fun hr x hx => h.uid_allocated hr x (hhd x hx)
    vm_unique := fun hG x y hx hy => h.vm_unique hG x y (hsub x hx) (hsub y hy)
    disk_addressed := fun hG x hx => h.disk_addressed hG x (hsub x hx)
    disk_known := by
      intro hG hr ha m hm hado
      have hne : m.generation ≠ generation := fun heq => hdk hG hr ha ⟨m, hm, heq⟩
      exact (h.disk_known hG hr ha m hm hado).imp_left
        (Or.imp_right fun hx => mem_erase.mpr ⟨hx, hne⟩) }

theorem retain (hbn : launch ∈ s.births)
    (htk : ∀ task ∈ s.tasks, task.generation ≠ launch.generation)
    (hnet : G.networks → launch.runNetwork ∈ s.runNetworks) :
    Inv G (s.apply (.retain launch.recovery)) :=
  { h with
    unresolved_born := forall_mem_insert ⟨launch, hbn, rfl⟩ h.unresolved_born
    tasks_unresolved := fun task hmem =>
      forall_mem_insert (htk task hmem).symm (h.tasks_unresolved task hmem)
    unresolved_network := by
      intro hG
      refine forall_mem_insert (fun x hx hgen => ?_) (h.unresolved_network hG)
      rw [h.launch_eq hx hbn hgen]
      exact hnet hG
    tracked := fun hG unit hun =>
      (h.tracked hG unit hun).imp_right (Or.imp_right exists_key_insert)
    disk_known := fun hG hr ha m hm hado =>
      (h.disk_known hG hr ha m hm hado).imp_right exists_key_insert }

theorem settle
    (hlv : G.networks → s.Live generation →
      (∃ record ∈ s.records, record.generation = generation) ∨
        ∃ x ∈ s.inflightLaunches, x.generation = generation)
    (hdk : G.launches → s.running = true → s.attested = true → ∀ m ∈ s.metadata,
      m.generation = generation → s.Addressed m.toLaunchReservation) :
    Inv G (s.apply (.settle generation)) :=
  { h with
    unresolved_born := forall_mem_erase h.unresolved_born
    tasks_unresolved := fun task hmem => forall_mem_erase (h.tasks_unresolved task hmem)
    unresolved_network := fun hG => forall_mem_erase (h.unresolved_network hG)
    tracked := by
      intro hG unit hun
      by_cases heq : unit.generation = generation
      · subst heq
        exact (hlv hG ⟨unit, hun, rfl⟩).imp_right .inl
      · exact (h.tracked hG unit hun).imp_right (Or.imp_right (exists_key_erase · heq))
    disk_known := by
      intro hG hr ha m hm hado
      by_cases heq : m.generation = generation
      · exact .inl (hdk hG hr ha m hm heq)
      · exact (h.disk_known hG hr ha m hm hado).imp_right (exists_key_erase · heq) }

theorem commit (hbn : record.toLaunchReservation ∈ s.births)
    (hfly : ∀ x ∈ s.inflightLaunches, record.generation ≠ x.generation)
    (huid : ∀ x, s.Held x → x.uid = record.uid → x = record.toLaunchReservation)
    (halc : s.running = true → record.uid ∈ s.allocatedIdentities)
    (hres : record.identity ∈ s.reservations)
    (hnet : G.networks → record.runNetwork ∈ s.runNetworks)
    (hvm : G.launches → ∀ x, s.Addressed x → x.SameVmAs record.toLaunchReservation →
      x = record.toLaunchReservation)
    (hdk : G.launches → ∀ m ∈ s.metadata, m.Adoptable →
      m.toLaunchReservation.SameVmAs record.toLaunchReservation →
        m.generation = record.generation) : Inv G (s.apply (.commit record)) := by
  have had : ∀ x, (s.apply (.commit record)).Addressed x →
      x = record.toLaunchReservation ∨ s.Addressed x := by
    rintro x (hx | hx)
    · exact (exists_of_mem_insert hx).imp_right .inl
    · exact .inr (.inr hx)
  have hhd : ∀ x, (s.apply (.commit record)).Held x →
      x = record.toLaunchReservation ∨ s.Held x := by
    rintro x (hx | hx)
    · exact (had x hx).imp_right .inl
    · exact .inr (.inr hx)
  exact
  { h with
    records_born := forall_mem_insert hbn h.records_born
    inflight_records := fun x hx => forall_mem_insert (hfly x hx) (h.inflight_records x hx)
    charged := fun hG hr u hu => h.charged_insert hbn (h.units_born u hu) (h.charged hG hr u hu)
    records_network := fun hG => forall_mem_insert (hnet hG) (h.records_network hG)
    tracked := fun hG u hu => (h.tracked hG u hu).imp_left exists_key_insert
    uid_unique := h.uid_unique_of hhd huid
    uid_allocated := h.uid_allocated_of hhd halc
    reserved := h.reserved_insert hres
    vm_unique := by
      intro hG x y hx hy hvm'
      rcases had x hx with hxl | hx' <;> rcases had y hy with hyl | hy'
      · rw [hxl, hyl]
      · rw [hxl, hvm hG y hy' (hxl ▸ hvm'.symm)]
      · rw [hyl, hvm hG x hx' (hyl ▸ hvm')]
      · exact h.vm_unique hG x y hx' hy' hvm'
    disk_addressed := by
      intro hG x hx m hm hado hvm'
      rcases had x hx with rfl | hx
      · exact hdk hG m hm hado hvm'
      · exact h.disk_addressed hG x hx m hm hado hvm'
    disk_known := fun hG hr ha m hm hado =>
      (h.disk_known hG hr ha m hm hado).imp_left (Or.imp_left
        (h.exists_mem_insert (h.metadata_born m hm) hbn)) }

theorem promote (hmem : record.toLaunchReservation ∈ s.inflightLaunches)
    (htk : ∀ task ∈ s.tasks, task.generation ≠ record.generation)
    (hres : record.identity ∈ s.reservations) : Inv G (s.apply (.promote record)) := by
  have hbn := h.inflight_born _ hmem
  have had : ∀ x, (s.apply (.promote record)).Addressed x → s.Addressed x := by
    rintro x (hx | hx)
    · rcases exists_of_mem_insert hx with rfl | hx
      · exact .inr hmem
      · exact .inl hx
    · exact .inr (mem_erase.mp hx).1
  -- what was in flight still is, or has just been committed
  have had' : ∀ x, s.Addressed x → (s.apply (.promote record)).Addressed x := by
    rintro x (hx | hx)
    · exact .inl (h.exists_mem_insert (h.held_born (.inl (.inl hx))) hbn hx)
    by_cases heq : x.generation = record.generation
    · exact .inl ⟨record, mem_insert_self, h.launch_eq hbn (h.inflight_born x hx) heq.symm⟩
    · exact .inr (mem_erase.mpr ⟨hx, heq⟩)
  have hhd : ∀ x, (s.apply (.promote record)).Held x → s.Held x :=
    fun x => Or.imp_left (had x)
  exact
  { h with
    records_born := forall_mem_insert hbn h.records_born
    inflight_born := forall_mem_erase h.inflight_born
    idle := by
      intro hidle
      rw [(h.idle hidle).2.2] at hmem
      cases hmem
    tasks_inflight := fun task ht => mem_erase.mpr ⟨h.tasks_inflight task ht, htk task ht⟩
    inflight_records := by
      intro x hx
      obtain ⟨hx, hne⟩ := mem_erase.mp hx
      exact forall_mem_insert hne.symm (h.inflight_records x hx)
    charged := fun hG hr u hu => h.charged_insert hbn (h.units_born u hu) (h.charged hG hr u hu)
    records_network := fun hG =>
      forall_mem_insert (h.inflight_network hG _ hmem) (h.records_network hG)
    inflight_network := fun hG => forall_mem_erase (h.inflight_network hG)
    tracked := by
      intro hG unit hun
      rcases h.tracked hG unit hun with hr | ⟨x, hx, hgen⟩ | hu
      · exact .inl (exists_key_insert hr)
      · rcases had' x (.inr hx) with ⟨r, hr, heq⟩ | hx
        · exact .inl ⟨r, hr, (congrArg (·.generation) heq).trans hgen⟩
        · exact .inr (.inl ⟨x, hx, hgen⟩)
      · exact .inr (.inr hu)
    uid_unique := fun x y hx hy => h.uid_unique x y (hhd x hx) (hhd y hy)
    uid_allocated := fun hr x hx => h.uid_allocated hr x (hhd x hx)
    reserved := h.reserved_insert hres
    vm_unique := fun hG x y hx hy => h.vm_unique hG x y (had x hx) (had y hy)
    disk_addressed := fun hG x hx => h.disk_addressed hG x (had x hx)
    disk_known := fun hG hr ha m hm hado => (h.disk_known hG hr ha m hm hado).imp_left (had' _) }

theorem drop
    (hchd : G.destroys → s.running = true → s.Live generation →
      ∃ charge ∈ s.pendingCpuReservations, charge.generation = generation ∧
        ∀ x ∈ s.births, x.generation = generation → x.quota.cpuMillis ≤ charge.quota.cpuMillis)
    (htrkd : G.networks → s.Live generation →
      ∃ recovery ∈ s.unresolvedRecoveries, recovery.generation = generation)
    (hdk : G.launches → s.running = true → s.attested = true → ¬ s.OnDisk generation) :
    Inv G (s.apply (.drop generation)) := by
  have hcmm : ∀ x, (s.apply (.drop generation)).Committed x → s.Committed x := by
    rintro x ⟨r, hr, rfl⟩
    exact ⟨r, (mem_erase.mp hr).1, rfl⟩
  have had : ∀ x, (s.apply (.drop generation)).Addressed x → s.Addressed x :=
    fun x => Or.imp_left (hcmm x)
  have hhd : ∀ x, (s.apply (.drop generation)).Held x → s.Held x :=
    fun x => Or.imp_left (had x)
  exact
  { h with
    records_born := forall_mem_erase h.records_born
    inflight_records := fun x hx => forall_mem_erase (h.inflight_records x hx)
    charged := by
      intro hG hup unit hun
      by_cases heq : unit.generation = generation
      · obtain ⟨charge, hchrg, hgen, hle⟩ := hchd hG hup ⟨unit, hun, heq⟩
        exact .inr ⟨charge, hchrg, hgen.trans heq.symm, hle unit (h.units_born unit hun) heq⟩
      · rcases h.charged hG hup unit hun with ⟨r, hr, hgen, hquo⟩ | hpd
        · exact .inl ⟨r, mem_erase.mpr ⟨hr, hgen ▸ heq⟩, hgen, hquo⟩
        · exact .inr hpd
    records_network := fun hG => forall_mem_erase (h.records_network hG)
    tracked := by
      intro hG unit hun
      by_cases heq : unit.generation = generation
      · subst heq
        exact .inr (.inr (htrkd hG ⟨unit, hun, rfl⟩))
      · exact (h.tracked hG unit hun).imp_left (exists_key_erase · heq)
    uid_unique := fun x y hx hy => h.uid_unique x y (hhd x hx) (hhd y hy)
    uid_allocated := fun hr x hx => h.uid_allocated hr x (hhd x hx)
    reserved := fun x hx => h.reserved x (hx.imp_left (hcmm x))
    vm_unique := fun hG x y hx hy => h.vm_unique hG x y (had x hx) (had y hy)
    disk_addressed := fun hG x hx => h.disk_addressed hG x (had x hx)
    disk_known := by
      intro hG hr ha m hm hado
      have hne : m.generation ≠ generation := fun heq => hdk hG hr ha ⟨m, hm, heq⟩
      refine (h.disk_known hG hr ha m hm hado).imp_left (Or.imp_left ?_)
      rintro ⟨r, hr, heq⟩
      exact ⟨r, mem_erase.mpr ⟨hr, (congrArg (·.generation) heq).trans_ne hne⟩, heq⟩ }

theorem addNetwork {network : RunNetworkRecord}
    (hnew : ∀ n ∈ s.runNetworks, n.runId = network.runId → n = network) :
    Inv G (s.apply (.addNetwork network)) := by
  have hkt : ∀ n ∈ s.runNetworks, n ∈ (s.apply (.addNetwork network)).runNetworks :=
    fun n hn => mem_insert_of_mem hn (hnew n hn)
  exact
  { h with
    records_network := fun hG r hr => hkt _ (h.records_network hG r hr)
    inflight_network := fun hG x hx => hkt _ (h.inflight_network hG x hx)
    unresolved_network := fun hG u hu x hx hgen => hkt _ (h.unresolved_network hG u hu x hx hgen) }

theorem dropNetwork {runId : ValidatedId} (hrecs : ∀ r ∈ s.records, r.request.runId ≠ runId)
    (hfly : G.networks → ∀ x ∈ s.inflightLaunches, x.request.runId ≠ runId)
    (hunr : G.networks → ∀ u ∈ s.unresolvedRecoveries, u.runId ≠ runId) :
    Inv G (s.apply (.dropNetwork runId)) := by
  have hkt : ∀ x ∈ s.births, x.request.runId ≠ runId → x.runNetwork ∈ s.runNetworks →
      x.runNetwork ∈ (s.apply (.dropNetwork runId)).runNetworks :=
    fun x hx hne hmem => mem_erase.mpr ⟨hmem, (h.births_valid x hx).network.trans_ne hne⟩
  exact
  { h with
    records_network := fun hG r hr =>
      hkt _ (h.records_born r hr) (hrecs r hr) (h.records_network hG r hr)
    inflight_network := fun hG x hx =>
      hkt x (h.inflight_born x hx) (hfly hG x hx) (h.inflight_network hG x hx)
    unresolved_network := by
      intro hG u hu x hx hgen
      obtain ⟨y, hy, rfl⟩ := h.unresolved_born u hu
      have hxy : x = y := h.launch_eq hx hy hgen
      exact hkt x hx (hxy ▸ hunr hG _ hu) (h.unresolved_network hG _ hu x hx hgen) }

theorem distrust : Inv G (s.apply .distrust) :=
  { h with disk_known := fun _ _ ha => absurd ha Bool.false_ne_true }

theorem setTask {task : DetachedLaunchTask} (hup : s.running = true)
    (hfly : task.reservation ∈ s.inflightLaunches)
    (hunr : ∀ u ∈ s.unresolvedRecoveries, u.generation ≠ task.generation)
    (hchks : ∀ c ∈ s.checks, c.record.generation ≠ task.generation)
    (hchd : ∃ charge ∈ s.pendingCpuReservations, charge.generation = task.generation ∧
      task.reservation.quota.cpuMillis ≤ charge.quota.cpuMillis)
    (hstg : StageOk s.units s.metadata s.reservations task)
    (hsto : G.destroys → ∀ r, task.stage = .starting r → s.Stored task.reservation) :
    Inv G (s.apply (.setTask task)) :=
  { h with
    idle := fun hidle => absurd (hup.symm.trans hidle) (by decide)
    tasks_unique := unique_insert h.tasks_unique
    tasks_inflight := forall_mem_insert hfly h.tasks_inflight
    tasks_unresolved := forall_mem_insert hunr h.tasks_unresolved
    tasks_checks := forall_mem_insert hchks h.tasks_checks
    tasks_charged := forall_mem_insert hchd h.tasks_charged
    tasks_stage := forall_mem_insert hstg h.tasks_stage
    tasks_stored := fun hG => forall_mem_insert (hsto hG) (h.tasks_stored hG) }

/-- A launch goes on to its next stage. -/
theorem goOn {task : DetachedLaunchTask} {stage : LaunchStage} (ht : task ∈ s.tasks)
    (hstg : StageOk s.units s.metadata s.reservations { task with stage })
    (hsto : G.destroys → ∀ r, stage = .starting r → s.Stored task.reservation) :
    Inv G (s.apply (.setTask { task with stage })) := by
  refine h.setTask ?_ (h.tasks_inflight task ht) (h.tasks_unresolved task ht)
    (h.tasks_checks task ht) (h.tasks_charged task ht) hstg hsto
  by_contra hup
  rw [Bool.not_eq_true] at hup
  rw [(h.idle hup).1] at ht
  cases ht

theorem endTask (generation : ValidatedId) : Inv G (s.apply (.endTask generation)) :=
  { h with
    idle := by
      intro hidle
      obtain ⟨ht, hc, hi⟩ := h.idle hidle
      refine ⟨?_, hc, hi⟩
      show erase _ generation s.tasks = []
      rw [ht]
      rfl
    tasks_unique := unique_erase h.tasks_unique
    tasks_inflight := forall_mem_erase h.tasks_inflight
    tasks_unresolved := forall_mem_erase h.tasks_unresolved
    tasks_checks := forall_mem_erase h.tasks_checks
    tasks_charged := forall_mem_erase h.tasks_charged
    tasks_stage := forall_mem_erase h.tasks_stage
    tasks_stored := fun hG => forall_mem_erase (h.tasks_stored hG) }

theorem addCheck {check : ExistingCheck} (hup : s.running = true)
    (hbn : check.record.toLaunchReservation ∈ s.births)
    (htk : ∀ task ∈ s.tasks, check.record.generation ≠ task.generation)
    (hdrn : ∀ containment, check.outcome = some (.identityMismatch containment) →
      containment.cgroupDrainProven = true ∨ containment.failures = [] →
        ¬ s.Live check.record.generation) :
    Inv G (s.apply (.addCheck check)) :=
  { h with
    idle := fun hidle => absurd (hup.symm.trans hidle) (by decide)
    checks_born := forall_mem_cons.mpr ⟨hbn, h.checks_born⟩
    tasks_checks := fun t ht => forall_mem_cons.mpr ⟨htk t ht, h.tasks_checks t ht⟩
    checks_drained := forall_mem_cons.mpr ⟨hdrn, h.checks_drained⟩ }

theorem endCheck (check : ExistingCheck) : Inv G (s.apply (.endCheck check)) :=
  { h with
    idle := by
      intro hidle
      obtain ⟨ht, hc, hi⟩ := h.idle hidle
      refine ⟨ht, ?_, hi⟩
      show s.checks.erase check = []
      rw [hc]
      rfl
    checks_born := fun c hc => h.checks_born c (mem_of_mem_erase hc)
    tasks_checks := fun t ht c hc => h.tasks_checks t ht c (mem_of_mem_erase hc)
    checks_drained := fun c hc => h.checks_drained c (mem_of_mem_erase hc) }

theorem serve {attested : Bool} (hchd : G.destroys → ∀ u ∈ s.units, s.Charged u)
    (halc : ∀ x, s.Held x → x.uid ∈ s.allocatedIdentities)
    (hkn : G.launches → attested = true → ∀ m ∈ s.metadata, m.Adoptable →
      s.Addressed m.toLaunchReservation) : Inv G (s.apply (.serve attested)) :=
  { h with
    idle := fun hidle => absurd hidle.symm Bool.false_ne_true
    charged := fun hG _ => hchd hG
    uid_allocated := fun _ => halc
    disk_known := fun hG _ ha m hm hado => .inl (hkn hG ha m hm hado) }

/-- The tables of a daemon that ends are empty; the host stays as it is.  Whoever relies on the
networks does not let the daemon end. -/
theorem shut (hG : ¬ G.networks) : Inv G (s.apply .shut) := by
  have hhd : ∀ x, (s.apply .shut).Held x → s.Held x := by
    rintro x ((⟨r, hr, -⟩ | hx) | hx)
    · cases hr
    · cases hx
    · exact .inr hx
  have had : ∀ x, ¬ (s.apply .shut).Addressed x := by
    rintro x (⟨r, hr, -⟩ | hx)
    · cases hr
    · cases hx
  exact
  { births_unique := h.births_unique
    births_valid := h.births_valid
    units_nodup := h.units_nodup
    metadata_nodup := h.metadata_nodup
    units_born := h.units_born
    metadata_born := h.metadata_born
    records_born := fun r hr => nomatch hr
    inflight_born := fun r hr => nomatch hr
    unresolved_born := fun r hr => nomatch hr
    checks_born := fun r hr => nomatch hr
    idle := fun _ => ⟨rfl, rfl, rfl⟩
    tasks_unique := SortedTable.unique_nil
    tasks_inflight := fun t ht => nomatch ht
    tasks_unresolved := fun t ht => nomatch ht
    tasks_checks := fun t ht => nomatch ht
    tasks_charged := fun t ht => nomatch ht
    tasks_stage := fun t ht => nomatch ht
    inflight_records := fun t ht => nomatch ht
    checks_drained := fun t ht => nomatch ht
    charged := fun _ hr => nomatch hr
    stored := h.stored
    tasks_stored := fun _ t ht => nomatch ht
    records_network := fun hn => absurd hn hG
    inflight_network := fun hn => absurd hn hG
    unresolved_network := fun hn => absurd hn hG
    tracked := fun hn => absurd hn hG
    uid_unique := fun x y hx hy => h.uid_unique x y (hhd x hx) (hhd y hy)
    uid_allocated := fun hr => nomatch hr
    reserved := fun x hx => h.reserved x (hx.imp_left fun ⟨_, hr, _⟩ => nomatch hr)
    vm_unique := fun _ x _ hx => absurd hx (had x)
    disk_unique := h.disk_unique
    disk_addressed := fun _ x hx => absurd hx (had x)
    disk_known := fun _ hr => nomatch hr }

end Inv

end Intar.Jailer
