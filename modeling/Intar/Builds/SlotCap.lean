import Intar.Builds.Scheduler

/-!
# The slots of a builder

A builder has two build workers, and a build holds one until it is published.  The only statement
that gives a builder another build is the claim of an assignment pass, and it counts the slots
itself.  But a build that is being published has left its slot, and a report takes it to whatever
phase the report names: a late report of an earlier phase takes the slot back, and by then the
builder may have two other builds.

So the cap holds in every run in which no report takes a build back from publication
(`slotsUsed_le_of_run`), and not in every run (`Demo.late_report_exceeds_slots`).
-/

namespace Intar.Builds

open Registry (Architecture BuildStatus)
open Host (Millis DesiredBuild)

def Tables.WithinSlots (t : Tables) : Prop := ∀ hostId, t.slotsUsed hostId ≤ builderBuildSlots

/-- A report takes a build from publication back to a phase before it. -/
def Statement.takesBack : Statement → BuildRow → Bool
  | .update (.report hostId report read now), row =>
    (Update.report hostId report read now).guard row && isPrePublication report.phase &&
      !isPrePublication row.phase
  | _, _ => false

def Statement.NoReturn (t : Tables) (statement : Statement) : Prop :=
  ∀ row ∈ t.builds, statement.takesBack row = false

instance (t : Tables) (statement : Statement) : Decidable (statement.NoReturn t) :=
  inferInstanceAs (Decidable (∀ row ∈ t.builds, _))

section

variable {t t' : Tables} {hostId : String}

/-! ## What a statement does to the slots -/

/-- An update that gives no row a slot it did not have. -/
theorem slotsUsed_update_le {now : Millis} {guard : BuildRow → Bool} {set : BuildRow → BuildRow}
    (h : ∀ row ∈ t.builds, guard row = true → (set row).holdsSlot hostId = true →
      row.holdsSlot hostId = true) :
    (t.update now guard set).slotsUsed hostId ≤ t.slotsUsed hostId := by
  rw [Tables.slotsUsed, Tables.update, List.countP_map]
  refine List.countP_mono_left fun row hrow hslot => ?_
  simp only [Function.comp_apply] at hslot
  by_cases hgd : guard row = true
  · rw [if_pos hgd] at hslot
    exact h row hrow hgd hslot
  · rwa [if_neg hgd] at hslot

theorem countP_id_le_one (h : t.UniqueIds) (buildId : String) :
    t.builds.countP (fun row => row.id = buildId) ≤ 1 := by
  have hcn := List.nodup_iff_count_le_one.mp h buildId
  rw [List.count, List.countP_map] at hcn
  simpa [Function.comp_def, beq_eq_decide] using hcn

theorem countP_le_add {α : Type} {p q r : α → Bool} {l : List α}
    (h : ∀ a ∈ l, p a = true → q a = true ∨ r a = true) :
    l.countP p ≤ l.countP q + l.countP r := by
  induction l with
  | nil => rfl
  | cons a l ih =>
    have hrs := ih fun b hb => h b (List.mem_cons_of_mem _ hb)
    have hhe := h a List.mem_cons_self
    simp only [List.countP_cons]
    by_cases hp : p a = true
    · rcases hhe hp with hq | hr
      · simp only [hp, hq, if_true]
        omega
      · simp only [hp, hr, if_true]
        omega
    · simp only [Bool.eq_false_iff.mpr hp, Bool.false_eq_true, if_false]
      omega

/-- A claim takes at most one slot, and only where one is free. -/
theorem slotsUsed_claim (h : t.UniqueIds) (hsl : t.WithinSlots) (buildId builder : String)
    (now : Millis) : (t.exec (.claim buildId builder now)).WithinSlots := by
  intro hostId
  by_cases hfr : hostId = builder ∧ t.slotsUsed builder < builderBuildSlots
  · obtain ⟨rfl, _⟩ := hfr
    have hone : (t.exec (.claim buildId hostId now)).slotsUsed hostId ≤ t.slotsUsed hostId + 1 := by
      refine le_trans ?_ (Nat.add_le_add_left (countP_id_le_one h buildId) _)
      rw [Tables.slotsUsed, Tables.exec, Tables.update, List.countP_map]
      refine countP_le_add fun row _ hslot => ?_
      simp only [Function.comp_apply] at hslot
      by_cases hgd : t.claimable buildId hostId row = true
      · simp only [Tables.claimable, Bool.and_eq_true] at hgd
        exact .inr hgd.1.1.1
      · rw [if_neg hgd] at hslot
        exact .inl hslot
    omega
  · refine le_trans (slotsUsed_update_le fun row _ hgd hslot => ?_) (hsl hostId)
    simp only [Tables.claimable, Bool.and_eq_true, decide_eq_true_iff] at hgd
    simp only [BuildRow.holdsSlot, Bool.and_eq_true, decide_eq_true_iff, Option.some_inj] at hslot
    exact absurd ⟨hslot.1.1.symm, hgd.2⟩ hfr

theorem slotsUsed_queueBatch_le {input : QueueInput} {ids : List String}
    (h : queueBatch input t = .ok (t', ids)) : t'.slotsUsed hostId ≤ t.slotsUsed hostId := by
  have hsup : ((t.cleanDesired input).supersede input).slotsUsed hostId ≤ t.slotsUsed hostId := by
    refine slotsUsed_update_le (t := t.cleanDesired input) fun row _ _ hslot => ?_
    simp [BuildRow.holdsSlot, isOnBuilder] at hslot
  refine le_trans ?_ hsup
  rw [queueBatch, Tables.insertOrRequeue] at h
  split at h
  · cases h
    -- a requeued row is on no host
    refine slotsUsed_update_le fun row _ _ hslot => ?_
    simp [BuildRow.holdsSlot, QueueInput.requeued] at hslot
  · split at h
    · cases h
    cases h
    rw [Tables.slotsUsed, List.countP_append]
    simp [Tables.slotsUsed, BuildRow.holdsSlot, QueueInput.newRow]

/-- The updates of the locked sections: only a report leaves a build on its builder. -/
theorem slotsUsed_exec_update_le {update : Update} (h : (Statement.update update).NoReturn t) :
    (t.exec (.update update)).slotsUsed hostId ≤ t.slotsUsed hostId := by
  refine slotsUsed_update_le fun row hrow hgd hslot => ?_
  cases update with
  | retry | requeue => simp [BuildRow.holdsSlot, Update.set] at hslot
  | markStale => simp [BuildRow.holdsSlot, Update.set, isOnBuilder] at hslot
  | report =>
    have hback := h row hrow
    rw [Statement.takesBack, hgd, Bool.true_and] at hback
    simp only [Update.guard, Bool.and_eq_true, decide_eq_true_iff] at hgd
    simp only [BuildRow.holdsSlot, Update.set, Bool.and_eq_true] at hslot
    rw [hslot.2, Bool.true_and, Bool.not_eq_false'] at hback
    simp only [BuildRow.holdsSlot, Bool.and_eq_true, decide_eq_true_iff]
    exact ⟨⟨hgd.1.1.1.2.trans (of_decide_eq_true hslot.1.1), hgd.2⟩, hback⟩

/-- **One statement.** -/
theorem withinSlots_exec (hids : t.UniqueIds) (hsl : t.WithinSlots) {statement : Statement}
    (h : statement.NoReturn t) : (t.exec statement).WithinSlots := by
  cases statement with
  | claim buildId builder now => exact slotsUsed_claim hids hsl buildId builder now
  | update => exact fun hostId => (slotsUsed_exec_update_le h).trans (hsl hostId)
  | none | publish | remove => exact hsl
  | upsertBundle =>
    intro hostId
    simp only [Tables.exec]
    split
    · rename_i hups
      rw [Tables.slotsUsed, (upsertBundle_eq_ok hups).1]
      exact hsl hostId
    · exact hsl hostId
  | queueBatch =>
    intro hostId
    simp only [Tables.exec]
    split
    · rename_i hbat
      exact (slotsUsed_queueBatch_le hbat).trans (hsl hostId)
    · exact hsl hostId
  | clearRetired | retire =>
    intro hostId
    refine le_trans (slotsUsed_update_le fun row _ _ hslot => ?_) (hsl hostId)
    exact hslot
  | revoke =>
    intro hostId
    refine le_trans (slotsUsed_update_le fun row _ _ hslot => ?_) (hsl hostId)
    simp [BuildRow.holdsSlot, isOnBuilder] at hslot

end

/-! ## Runs -/

section

variable (localeCompare : String → String → Ordering)

/-- **The slot cap.**  In every run in which no report takes a build back from publication, a
builder never has more than two assigned or building rows in a phase before it. -/
theorem slotsUsed_le_of_run (t : Tables) (hids : t.UniqueIds) (hslots : t.WithinSlots)
    (ops : List Op)
    (hback : Trace.Along (step localeCompare)
      (fun s op => (s.statement localeCompare op).NoReturn s.tables) (State.rest t) ops)
    (hostId : String) :
    (Trace.run (step localeCompare) (State.rest t) ops).tables.slotsUsed hostId ≤ 2 := by
  have hrun := hback.invariant (P := fun s => s.tables.UniqueIds ∧ s.tables.WithinSlots)
    (fun s op ⟨hids, hslots⟩ hcd => by
      rw [step_tables]
      exact ⟨uniqueIds_exec hids _, withinSlots_exec hids hslots hcd⟩)
    ⟨hids, hslots⟩
  exact hrun.2 hostId

end

namespace Demo

def threeBuilds : Tables := tables [build "b1" "one" "h1", build "b2" "two" "h2", build "b3" "three" "h3"]

/-- A pass gives the builder the first two builds; the first is published, and the third takes its
slot. -/
def filled : List Op :=
  call 0 (assignment 10) 8 ++ call 1 (report (build "b1" "one" "h1") .publishing 20) 5 ++
    call 2 (assignment 30) 5

theorem filled_within_slots :
    (Trace.run (step compare) (State.rest threeBuilds) filled).tables.slotsUsed "builder" = 2 ∧
      (Trace.run (step compare) (State.rest threeBuilds) filled).tables.slotsUsed "builder" ≤ 2 :=
  ⟨by decide +kernel, slotsUsed_le_of_run compare threeBuilds (by decide) (fun hostId => by
    simp [Tables.slotsUsed, threeBuilds, tables, build, BuildRow.holdsSlot]) filled (by decide +kernel)
    "builder"⟩

/-- A report of the first build that was sent before the one of its publication comes late. -/
theorem late_report_exceeds_slots :
    (Trace.run (step compare) (State.rest threeBuilds)
      (filled ++ call 1 (report (build "b1" "one" "h1") .building 40) 5)).tables.slotsUsed "builder" =
        3 := by
  decide +kernel

end Demo

end Intar.Builds
