import Intar.Registry.SweepLease

/-!
# Gate and collector run over every interleaving

What the lease of `Intar.Registry.SweepLease` gives for whole runs of the registry, from an empty
database and with any operations of any callers in between.

* `sound_run`: gate and ledger agree after every run in which the operations of each single sweep
  read a clock that does not go back.  Nothing is asked of the clocks of different sweeps, or of the
  operator's: `sweepersInOrder_of_clock` says that one clock that never goes back is enough.
* `mem_run_of_ended`: a run that has ended is never written again.
* `past_run`: a token that was granted and lost stays lost.

`sweep_gate_and_run` puts them together.
-/

namespace Intar.Registry

open Trace List

/-! ## The ledger -/

/-- A ledger that grew: running rows were changed, but never their ids, and rows with new ids were
appended. -/
def LedgerGrows (rows rows' : List GcRun) : Prop :=
  ∃ (p : GcRun → Bool) (f : GcRun → GcRun) (new : List GcRun),
    rows' = Table.update p f rows ++ new ∧ (∀ r, p r = true → r.isRunning = true) ∧
    (∀ r, (f r).id = r.id) ∧ (new.map GcRun.id).Nodup ∧ ∀ r ∈ new, r.id ∉ rows.map GcRun.id

theorem ledgerGrows_update {p : GcRun → Bool} {f : GcRun → GcRun} (rows : List GcRun)
    (hp : ∀ r, p r = true → r.isRunning = true) (hf : ∀ r, (f r).id = r.id) :
    LedgerGrows rows (Table.update p f rows) :=
  ⟨p, f, [], (append_nil _).symm, hp, hf, nodup_nil, fun _ hr => nomatch hr⟩

theorem ledgerGrows_append (rows new : List GcRun) (hnd : (new.map GcRun.id).Nodup)
    (hnew : ∀ r ∈ new, r.id ∉ rows.map GcRun.id) : LedgerGrows rows (rows ++ new) :=
  ⟨fun _ => false, id, new, by simp [Table.update], fun _ hp => (nomatch hp), fun _ => rfl, hnd, hnew⟩

theorem LedgerGrows.refl (rows : List GcRun) : LedgerGrows rows rows := by
  simpa using ledgerGrows_append rows [] nodup_nil fun _ hr => nomatch hr

variable {rows rows' : List GcRun} {r : GcRun} {s : Tables} {token : String} {beat : Millis}
  {ops : List Op}

/-- What has ended stays as it is. -/
theorem LedgerGrows.mem_of_ended (h : LedgerGrows rows rows') (hr : r ∈ rows)
    (hend : r.isRunning = false) : r ∈ rows' := by
  obtain ⟨_, _, _, rfl, hp, -, -, -⟩ := h
  refine mem_append_left _ (Table.mem_update.mpr ⟨r, hr, if_neg fun hpick => ?_⟩)
  rw [hp r hpick] at hend
  cases hend

theorem LedgerGrows.nodup (h : LedgerGrows rows rows') (hnd : (rows.map GcRun.id).Nodup) :
    (rows'.map GcRun.id).Nodup := by
  obtain ⟨_, _, _, rfl, -, hf, hfr, hnew⟩ := h
  rw [map_append, Table.map_update hf]
  refine nodup_append.mpr ⟨hnd, hfr, fun a ha b hb hab => ?_⟩
  obtain ⟨r, hr, rfl⟩ := mem_map.mp hb
  exact hnew r hr (hab ▸ ha)

theorem ledgerGrows_step (hrec : s.SweepsOnRecord) (op : Op) :
    LedgerGrows s.gcRuns (step s op).gcRuns := by
  cases hop : op.sweeps with
  | false =>
    rw [(sameSweep_step hop s).gcRuns]
    exact .refl _
  | true =>
    cases op with
    | acquireSweep input now =>
      obtain ⟨-, g, -, -, -, hid, -, hstp⟩ | ⟨-, hqt⟩ := acquireSweep_cases hrec input now
      · rw [hstp]
        refine ledgerGrows_append _ _ (nodup_singleton _) fun r hr => ?_
        rw [mem_singleton.mp hr]
        exact hid
      · rw [hqt.gcRuns]
        exact .refl _
    | heartbeatSweep =>
      rw [step, Op.batch, heartbeatRegistrySweep, commit_gate_runs]
      exact ledgerGrows_update _ (fun r hr => (Bool.and_eq_true_iff.mp hr).2) fun _ => rfl
    | recordProgress =>
      exact ledgerGrows_update _ (fun r hr => (Bool.and_eq_true_iff.mp hr).2) fun _ => rfl
    | finishSweep =>
      rw [step, Op.batch, finishRegistrySweep, commit_gate_runs]
      exact ledgerGrows_update _ (fun r hr => (Bool.and_eq_true_iff.mp hr).2) fun _ => rfl
    | reap _ now =>
      rw [(step_reap s hop now).2]
      exact ledgerGrows_update _ (fun r hr => (Bool.and_eq_true_iff.mp hr).1) fun _ => rfl
    | _ => cases hop

/-! ## Whole runs -/

theorem record_empty : Tables.empty.SweepsOnRecord := fun _ hg => nomatch hg

/-- The invariant rule, for what a step preserves of tables that sweep on record. -/
theorem run_on_record {P : Tables → Prop} (hstp : ∀ s op, s.SweepsOnRecord → P s → P (step s op))
    (hrec : s.SweepsOnRecord) (hs : P s) (ops : List Op) :
    (Trace.run step s ops).SweepsOnRecord ∧ P (Trace.run step s ops) :=
  run_invariant (P := fun s : Tables => s.SweepsOnRecord ∧ P s)
    (fun s op h => ⟨(moves_step h.1 op).record, hstp s op h.1 h.2⟩) ⟨hrec, hs⟩ ops

theorem record_run (ops : List Op) : (Trace.run step Tables.empty ops).SweepsOnRecord :=
  (run_on_record (P := fun _ => True) (fun _ _ _ h => h) record_empty trivial ops).1

/-- The clock reading that an operation of a sweep leaves under its token. -/
def Op.stamp : Op → Option (String × Millis)
  | .acquireSweep input now => some (input.sweepToken, now)
  | .heartbeatSweep sweepToken _ now => some (sweepToken, now)
  | .recordProgress sweepToken _ _ now => some (sweepToken, now)
  | _ => none

/-- Under one token, the clock does not go back. -/
def SweepersInOrder (ops : List Op) : Prop :=
  ops.Pairwise fun a b => ∀ x ∈ a.stamp, ∀ y ∈ b.stamp, x.1 = y.1 → x.2 ≤ y.2

/-- The clock an operation reads. -/
def Op.now : Op → Millis
  | .admitOperation _ _ _ now => now
  | .admitInternal _ _ _ now => now
  | .touch _ _ now => now
  | .release _ _ now => now
  | .createSession _ _ _ now => now
  | .completeSession _ _ _ now => now
  | .reap _ now => now
  | .compact _ now => now
  | .setPause _ _ now => now
  | .setEnforcement _ now => now
  | .acquireSweep _ now => now
  | .heartbeatSweep _ _ now => now
  | .recordProgress _ _ _ now => now
  | .finishSweep _ _ _ _ now => now

theorem Op.mem_stamp_of_move {op : Op}
    (h : op.move s = .renew token beat ∨ op.move s = .acquire token beat) :
    (token, beat) ∈ op.stamp := by
  cases op with
  | acquireSweep =>
    rw [Op.move] at h
    split_ifs at h
    · rcases h with h | h
      · cases h
      cases h
      exact rfl
    · rcases h with h | h <;> cases h
  | heartbeatSweep =>
    rcases h with h | h
    · cases h
      exact rfl
    · cases h
  | reap =>
    rw [Op.move] at h
    split_ifs at h <;> rcases h with h | h <;> cases h
  | _ => rcases h with h | h <;> cases h

/-- What the gate's heartbeat says was stamped by an operation under the holder's token. -/
theorem exists_stamp (h : (Trace.run step Tables.empty ops).lease.holder = some (token, beat)) :
    ∃ op ∈ ops, (token, beat) ∈ op.stamp := by
  induction ops using List.reverseRecOn with
  | nil => cases h
  | append_singleton ops op ih =>
    rw [run_concat, (moves_step (record_run ops) op).lease] at h
    rcases Lease.holder_of_apply h with ⟨_, hbef, rfl | hrenew⟩ | hacquire
    · obtain ⟨earlier, hmem, hstamp⟩ := ih hbef
      exact ⟨earlier, mem_append_left _ hmem, hstamp⟩
    · exact ⟨op, by simp, Op.mem_stamp_of_move (.inl hrenew)⟩
    · exact ⟨op, by simp, Op.mem_stamp_of_move (.inr hacquire)⟩

/-- Gate and ledger agree after every run of sweepers in order. -/
theorem sound_run (hord : SweepersInOrder ops) : (Trace.run step Tables.empty ops).lease.Sound := by
  induction ops using List.reverseRecOn with
  | nil => exact ⟨nodup_nil, fun _ _ h => (nomatch h), fun _ h => nomatch h⟩
  | append_singleton ops op ih =>
    obtain ⟨hbef, -, hls⟩ := pairwise_append.mp hord
    have hmv := moves_step (record_run ops) op
    rw [run_concat, hmv.lease]
    refine (ih hbef).apply hmv.allows ?_
    cases op with
    | recordProgress =>
      intro beat hhold
      obtain ⟨earlier, hmem, hstamp⟩ := exists_stamp hhold
      exact hls earlier hmem _ (mem_singleton_self _) _ hstamp _ rfl rfl
    | acquireSweep | reap =>
      rw [Op.move]
      split_ifs <;> trivial
    | _ => trivial

theorem nodup_ids_run (ops : List Op) :
    ((Trace.run step Tables.empty ops).gcRuns.map GcRun.id).Nodup :=
  (run_on_record (P := fun s => (s.gcRuns.map GcRun.id).Nodup)
    (fun _ op hrec h => (ledgerGrows_step hrec op).nodup h) record_empty nodup_nil ops).2

/-- A run that has ended is never written again. -/
theorem mem_run_of_ended (hrec : s.SweepsOnRecord) (hr : r ∈ s.gcRuns)
    (hend : r.isRunning = false) (ops : List Op) : r ∈ (Trace.run step s ops).gcRuns :=
  (run_on_record (P := fun s => r ∈ s.gcRuns)
    (fun _ op hrec h => (ledgerGrows_step hrec op).mem_of_ended h hend) hrec hr ops).2

/-- **A sweep that has ended stays as it is**, whatever the clocks read. -/
theorem ended_runs_kept (ops more : List Op) :
    let s := Trace.run step Tables.empty ops
    (s.gcRuns.map GcRun.id).Nodup ∧
      ∀ r ∈ s.gcRuns, r.isRunning = false → r ∈ (Trace.run step s more).gcRuns :=
  ⟨nodup_ids_run ops, fun _ hr hend => mem_run_of_ended (record_run ops) hr hend more⟩

theorem past_run (hrec : s.SweepsOnRecord) (hpast : s.lease.Past token) (ops : List Op) :
    (Trace.run step s ops).SweepsOnRecord ∧ (Trace.run step s ops).lease.Past token := by
  refine run_on_record (P := fun s => s.lease.Past token) (fun s op hrec h => ?_) hrec hpast ops
  have hmv := moves_step hrec op
  rw [hmv.lease]
  exact h.apply hmv.allows

theorem lease_holder_eq_some :
    s.lease.holder = some (token, beat) ↔ ∃ g, s.gate = some g ∧ g.state = .sweeping ∧
      g.sweepToken = some token ∧ g.sweepHeartbeatAt = some beat := by
  rw [show s.lease.holder = s.gate.bind Gate.holder from rfl, Option.bind_eq_some_iff]
  simp [Gate.holder_eq_some]

/-- A sweep that asks under a token it has lost is turned away. -/
theorem assert_refused_of_past (hrec : s.SweepsOnRecord) (hpast : s.lease.Past token)
    (counts : AdmissionCounts) (now : Millis) (keys : List String) :
    assertRegistrySweepDeletable (readRegistryAdmissionState s.gate counts now) token keys =
      .refused "registry_sweep_superseded" := by
  cases hg : s.gate with
  | none => rfl
  | some g =>
    refine if_pos ?_
    by_contra hnot
    simp only [readRegistryAdmissionState, Option.any_some, Bool.or_eq_true, not_or,
      Bool.not_eq_true', Bool.not_eq_false, Bool.and_eq_true, decide_eq_true_eq, Option.bind_some]
      at hnot
    obtain ⟨⟨hswp, -⟩, htok⟩ := hnot
    obtain ⟨_, beat, -, hbeat, -⟩ := hrec g hg hswp
    exact hpast.2 beat (lease_holder_eq_some.mpr ⟨g, hg, hswp,
      not_not.mp fun hne => htok (decide_eq_true hne), hbeat⟩)

/-- The rows that are running are the one of the holder. -/
theorem running_eq_singleton (hsnd : s.lease.Sound) (hr : r ∈ s.gcRuns)
    (hrun : r.isRunning = true) : s.gcRuns.filter GcRun.isRunning = [r] := by
  have hnd : (s.gcRuns.map GcRun.sweepToken).Nodup := tokens_lease s ▸ hsnd.nodup
  refine perm_singleton.mp ((perm_ext_iff_of_nodup (hnd.of_map.filter _)
    (nodup_singleton r)).mpr fun x => ?_)
  rw [mem_filter, mem_singleton]
  constructor
  · rintro ⟨hx, hxrun⟩
    have heq := hsnd.eq_of_running (mem_map_of_mem hx) (mem_map_of_mem hr)
      (by rw [GcRun.isRunning_entry, hxrun]) (by rw [GcRun.isRunning_entry, hrun])
    exact inj_on_of_nodup_map hnd hx hr (congrArg Lease.Entry.token heq)
  · rintro rfl
    exact ⟨hr, hrun⟩

/-- The gate sweeps exactly when one run is running, and it is the one of the gate's token. -/
theorem isSweeping_iff (hrec : s.SweepsOnRecord) (hsnd : s.lease.Sound) :
    s.isSweeping = true ↔ ∃ r, s.gcRuns.filter GcRun.isRunning = [r] ∧
      s.gate.any (·.sweepToken = some r.sweepToken) = true := by
  constructor
  · intro hswp
    obtain ⟨g, hg, hsta⟩ : ∃ g, s.gate = some g ∧ g.state = .sweeping := by
      simpa [Tables.isSweeping, Option.any_eq_true] using hswp
    obtain ⟨token, beat, htok, hbeat, -⟩ := hrec g hg hsta
    obtain ⟨e, he, rfl, hrun, -⟩ := hsnd.held token beat
      (lease_holder_eq_some.mpr ⟨g, hg, hsta, htok, hbeat⟩)
    obtain ⟨r, hr, rfl⟩ := mem_map.mp he
    rw [GcRun.isRunning_entry] at hrun
    exact ⟨r, running_eq_singleton hsnd hr hrun, by simp [hg, htok, GcRun.entry]⟩
  · rintro ⟨r, hfilt, -⟩
    have hmem : r ∈ s.gcRuns.filter GcRun.isRunning := by
      rw [hfilt]
      exact mem_singleton_self r
    obtain ⟨hr, hrun⟩ := mem_filter.mp hmem
    obtain ⟨_, hhold⟩ := hsnd.running r.entry (mem_map_of_mem hr)
      (by rw [GcRun.isRunning_entry, hrun])
    obtain ⟨g, hg, hsta, -⟩ := lease_holder_eq_some.mp hhold
    simp [Tables.isSweeping, hg, hsta]

/-- No two runs are running together. -/
theorem length_running_le_one (hsnd : s.lease.Sound) :
    (s.gcRuns.filter GcRun.isRunning).length ≤ 1 := by
  cases hfilt : s.gcRuns.filter GcRun.isRunning with
  | nil => exact Nat.zero_le _
  | cons r =>
    have hmem : r ∈ s.gcRuns.filter GcRun.isRunning := by simp [hfilt]
    obtain ⟨hr, hrun⟩ := mem_filter.mp hmem
    rw [← hfilt, running_eq_singleton hsnd hr hrun]
    exact le_rfl

/-- **Gate and run move together.**  After any interleaving of the registry operations of any
callers, with every sweep's own clock readings in order: the gate is sweeping exactly when one run
is running and its token is the gate's; no two runs are running together; an aborted run stays
aborted; the epoch never falls and rises with every acquisition; and a sweep whose token the gate no
longer has is refused every delete from then on, whatever happens. -/
theorem sweep_gate_and_run (ops : List Op) (horder : SweepersInOrder ops) (s : Tables)
    (hs : s = Trace.run step Tables.empty ops) :
    (s.isSweeping = true ↔ ∃ r, s.gcRuns.filter GcRun.isRunning = [r] ∧
      s.gate.any (·.sweepToken = some r.sweepToken) = true) ∧
    (s.gcRuns.filter GcRun.isRunning).length ≤ 1 ∧
    (∀ r ∈ s.gcRuns, r.state = .aborted → ∀ more, ∀ r' ∈ (Trace.run step s more).gcRuns,
      r'.id = r.id → r'.state = .aborted) ∧
    (∀ op, s.epoch ≤ (step s op).epoch) ∧
    (∀ input now, acquires s input now = true →
      s.epoch < (step s (.acquireSweep input now)).epoch) ∧
    ∀ r ∈ s.gcRuns, s.gate.any (·.sweepsAs r.sweepToken) = false → ∀ more counts now keys,
      assertRegistrySweepDeletable
          (readRegistryAdmissionState (Trace.run step s more).gate counts now) r.sweepToken keys =
        .refused "registry_sweep_superseded" := by
  have hrec : s.SweepsOnRecord := hs ▸ record_run ops
  have hsnd : s.lease.Sound := hs ▸ sound_run horder
  refine ⟨isSweeping_iff hrec hsnd, length_running_le_one hsnd, ?_, ?_, ?_, ?_⟩
  · intro _ hr haborted more _ hr' hid
    have hnd : ((Trace.run step s more).gcRuns.map GcRun.id).Nodup := by
      rw [hs, ← run_append]
      exact nodup_ids_run (ops ++ more)
    have hkt := mem_run_of_ended hrec hr (by simp [GcRun.isRunning, haborted]) more
    rw [inj_on_of_nodup_map hnd hr' hkt hid]
    exact haborted
  · intro op
    change s.lease.epoch ≤ (step s op).lease.epoch
    rw [(moves_step hrec op).lease]
    exact Lease.epoch_le_apply
  · intro input now hacquires
    change s.lease.epoch < (step s (.acquireSweep input now)).lease.epoch
    rw [(moves_step hrec _).lease, Op.move, if_pos hacquires, Lease.epoch_acquire]
    exact Nat.lt_succ_self _
  intro r hr hlost more counts now keys
  have hpast : s.lease.Past r.sweepToken := by
    refine ⟨?_, fun beat hhold => ?_⟩
    · rw [tokens_lease]
      exact mem_map_of_mem hr
    · obtain ⟨g, hg, hsta, htok, -⟩ := lease_holder_eq_some.mp hhold
      rw [hg, Option.any_some, Gate.sweepsAs_iff.mpr ⟨hsta, htok⟩] at hlost
      cases hlost
  obtain ⟨hrec', hpast'⟩ := past_run hrec hpast more
  exact assert_refused_of_past hrec' hpast' counts now keys

namespace Demo

/-- A sweep that an operator resolves, and the next one. -/
def twoSweeps : List Op :=
  [.acquireSweep ⟨"collector", none, "first", "run-1"⟩ 0,
    .heartbeatSweep "first" none 10,
    .recordProgress "first" ⟨none, none, none, none⟩ none 20,
    .reap ⟨some 5, none, true⟩ 30,
    .acquireSweep ⟨"collector", none, "second", "run-2"⟩ 40]

def finishSecond : Op := .finishSweep "second" .completed none ⟨none, none, none, none⟩ 50

/-- The first run is aborted, and refused every delete under the second sweep and after it. -/
theorem resolved_sweep_refused :
    (Trace.run step Tables.empty twoSweeps).gcRuns.map GcRun.state = [.aborted, .running] ∧
    (Trace.run step Tables.empty twoSweeps).isSweeping = true ∧
    (Trace.run step Tables.empty twoSweeps).epoch = 2 ∧
    assertRegistrySweepDeletable (readRegistryAdmissionState
        (Trace.run step (Trace.run step Tables.empty twoSweeps) [finishSecond]).gate ⟨0, 0⟩ 60)
      "first" ["key"] = .refused "registry_sweep_superseded" := by
  refine ⟨by decide +kernel, by decide +kernel, by decide +kernel, ?_⟩
  have hinOrder : SweepersInOrder twoSweeps := by
    unfold SweepersInOrder
    decide +kernel
  obtain ⟨-, -, -, -, -, hlost⟩ := sweep_gate_and_run twoSweeps hinOrder _ rfl
  have hfst : ∃ r ∈ (Trace.run step Tables.empty twoSweeps).gcRuns, r.sweepToken = "first" := by
    decide +kernel
  obtain ⟨r, hr, htok⟩ := hfst
  have href := hlost r hr (by rw [htok]; decide +kernel) [finishSecond] ⟨0, 0⟩ 60 ["key"]
  rw [htok] at href
  exact href

end Demo

end Intar.Registry
