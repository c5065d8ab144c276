import Mathlib

/-!
# Filling slots by probing

Every name has a list of slots that it tries in turn.  `fill` goes through a list of names and gives
each the first slot of its list that is not taken; a name that was given a slot before keeps it.

`fill_refill` says that a fill is stable: when some of the names already have the slots that a fill
gave them, and these slots are taken, filling again ends in the same assignment.  A slot that was
taken early can only be one that its name would have got anyhow, so no other name is pushed on.
-/

namespace Probing

open Function List Option

variable {ν α : Type*} [DecidableEq ν] [DecidableEq α] (probe : ν → List α)

/-- The first slot of the name that is not taken. -/
def firstFree (taken : List α) (n : ν) : Option α := (probe n).find? fun a => a ∉ taken

/-- Give a slot to every name that has none. -/
def fill : List ν → List α → (ν → Option α) → Option (ν → Option α)
  | [], _, given => some given
  | n :: names, taken, given =>
    if (given n).isSome then fill names taken given
    else (firstFree probe taken n).bind fun a => fill names (a :: taken) (update given n (some a))

variable {probe} {names : List ν} {taken : List α} {given filled : ν → Option α} {n m : ν} {a : α}

omit [DecidableEq ν] in
theorem mem_of_firstFree (h : firstFree probe taken n = some a) : a ∈ probe n ∧ a ∉ taken :=
  ⟨mem_of_find?_eq_some h, by simpa using find?_some h⟩

variable {more : List α} {early : ν → Option α}

omit [DecidableEq ν] in
/-- The same slot is found while it is free, whatever else is taken besides. -/
theorem firstFree_of_subset (hsub : ∀ b ∈ taken, b ∈ more) (h : firstFree probe taken n = some a)
    (hfr : a ∉ more) :
    firstFree probe more n = some a := by
  obtain ⟨-, before, after, hprb, hbef⟩ := find?_eq_some_iff_append.mp h
  refine find?_eq_some_iff_append.mpr ⟨by simpa using hfr, before, after, hprb, ?_⟩
  intro b hb
  have htk : b ∈ taken := by simpa using hbef b hb
  simpa using hsub b htk

omit [DecidableEq α] in
theorem of_update_eq_some {k : ν} {b : α} (h : update given k (some b) n = some a) :
    n = k ∧ b = a ∨ n ≠ k ∧ given n = some a := by
  by_cases hnk : n = k
  · rw [hnk, update_self] at h
    exact .inl ⟨hnk, Option.some.inj h⟩
  · rw [update_of_ne hnk] at h
    exact .inr ⟨hnk, h⟩

omit [DecidableEq α] in
/-- What is given stays among what is taken. -/
theorem mem_cons_of_update {k : ν} {b : α} (htk : ∀ n a, given n = some a → a ∈ taken)
    (h : update given k (some b) n = some a) : a ∈ b :: taken := by
  obtain ⟨-, rfl⟩ | ⟨-, h⟩ := of_update_eq_some h
  · exact mem_cons_self
  · exact mem_cons_of_mem _ (htk n a h)

/-- One step of a fill. -/
theorem fill_cons_eq_some (h : fill probe (n :: names) taken given = some filled) :
    (∃ a, given n = some a ∧ fill probe names taken given = some filled) ∨
      ∃ a, given n = none ∧ firstFree probe taken n = some a ∧
        fill probe names (a :: taken) (update given n (some a)) = some filled := by
  rw [fill] at h
  split_ifs at h with hgv
  · obtain ⟨a, ha⟩ := isSome_iff_exists.mp hgv
    exact .inl ⟨a, ha, h⟩
  · obtain ⟨a, ha, hrs⟩ := bind_eq_some_iff.mp h
    exact .inr ⟨a, not_isSome_iff_eq_none.mp hgv, ha, hrs⟩

section

variable (h : fill probe names taken given = some filled)

include h

theorem fill_of_given (hgv : given n = some a) : filled n = some a := by
  induction names generalizing taken given with
  | nil =>
    cases h
    exact hgv
  | cons _ _ ih =>
    obtain ⟨b, -, hrs⟩ | ⟨b, hno, -, hrs⟩ := fill_cons_eq_some h
    · exact ih hrs hgv
    refine ih hrs ?_
    rw [update_of_ne, hgv]
    rintro rfl
    rw [hno] at hgv
    cases hgv

/-- Every name of the list has a slot afterwards. -/
theorem isSome_fill (hn : n ∈ names) : (filled n).isSome = true := by
  induction names generalizing taken given with
  | nil => cases hn
  | cons _ _ ih =>
    obtain ⟨b, hgv, hrs⟩ | ⟨b, -, -, hrs⟩ := fill_cons_eq_some h
    · rcases mem_cons.mp hn with rfl | hn
      · rw [fill_of_given hrs hgv]
        rfl
      · exact ih hrs hn
    · rcases mem_cons.mp hn with rfl | hn
      · rw [fill_of_given hrs (update_self ..)]
        rfl
      · exact ih hrs hn

/-- A slot is one that was given, or one of the name's own that was free. -/
theorem given_or_free_of_fill
    (hn : filled n = some a) : given n = some a ∨ a ∈ probe n ∧ a ∉ taken := by
  induction names generalizing taken given with
  | nil =>
    cases h
    exact .inl hn
  | cons _ _ ih =>
    obtain ⟨b, -, hrs⟩ | ⟨b, -, hfr, hrs⟩ := fill_cons_eq_some h
    · exact ih hrs
    rcases ih hrs with hgv | ⟨hprb, htk⟩
    · obtain ⟨rfl, rfl⟩ | ⟨-, hgv⟩ := of_update_eq_some hgv
      · exact .inr (mem_of_firstFree hfr)
      · exact .inl hgv
    · exact .inr ⟨hprb, fun hmem => htk (mem_cons_of_mem _ hmem)⟩

/-- No two names get one slot, if none had before and what was given is taken. -/
theorem fill_injective (htk : ∀ n a, given n = some a → a ∈ taken)
    (hgv : ∀ n m a, given n = some a → given m = some a → n = m) (hn : filled n = some a)
    (hm : filled m = some a) : n = m := by
  induction names generalizing taken given with
  | nil =>
    cases h
    exact hgv n m a hn hm
  | cons _ _ ih =>
    obtain ⟨b, -, hrs⟩ | ⟨b, -, hfr, hrs⟩ := fill_cons_eq_some h
    · exact ih hrs htk hgv
    have hnew : ∀ n a, given n = some a → a ≠ b := by
      rintro n a hn rfl
      exact (mem_of_firstFree hfr).2 (htk n a hn)
    refine ih hrs (fun _ _ => mem_cons_of_update htk) fun n m a hn hm => ?_
    obtain ⟨rfl, rfl⟩ | ⟨-, hn⟩ := of_update_eq_some hn <;>
      obtain ⟨hmk, hb⟩ | ⟨-, hm⟩ := of_update_eq_some hm
    · exact hmk.symm
    · exact absurd rfl (hnew m _ hm)
    · exact absurd hb.symm (hnew n _ hn)
    · exact hgv n m a hn hm

end

/-- The induction behind `fill_refill`: the second fill has been given all that the first has, and
otherwise only slots that the first will give. -/
theorem fill_of_ahead (hnm : names.Nodup) (h : fill probe names taken given = some filled)
    (hinjective : ∀ n m a, filled n = some a → filled m = some a → n = m)
    (hely : ∀ n a, early n = some a → filled n = some a)
    (hgv : ∀ n a, given n = some a → early n = some a)
    (houts : ∀ n, n ∉ names → early n = given n) (hsub : ∀ a ∈ taken, a ∈ more)
    (hmore : ∀ a ∈ more, a ∈ taken ∨ ∃ n, given n = none ∧ early n = some a)
    (htk : ∀ n a, early n = some a → a ∈ more) :
    fill probe names more early = some filled := by
  induction names generalizing taken given more early with
  | nil =>
    cases h
    rw [fill, funext fun n => houts n not_mem_nil]
  | cons k names ih =>
    obtain ⟨_, hnm⟩ := nodup_cons.mp hnm
    obtain ⟨b, hgivenk, hrs⟩ | ⟨b, _, hfr, hrs⟩ := fill_cons_eq_some h
    · -- both have a slot for the name
      rw [fill, if_pos (by rw [hgv k b hgivenk]; rfl)]
      refine ih hnm hrs hely hgv (fun n hn => ?_) hsub hmore htk
      by_cases hnk : n = k
      · rw [hnk, hgivenk, hgv k b hgivenk]
      · exact houts n (by simp [hnk, hn])
    · have hfill : filled k = some b := fill_of_given hrs (update_self ..)
      have houts' : ∀ n, n ∉ names → n ≠ k → early n = given n := fun n hn hnk =>
        houts n (by simp [hnk, hn])
      cases hk' : early k with
      | some c =>
        -- the second has the slot that the first finds now
        have hcb : c = b := Option.some.inj ((hely k c hk').symm.trans hfill)
        subst hcb
        rw [fill, if_pos (by rw [hk']; rfl)]
        refine ih hnm hrs hely (fun n a hn => ?_) (fun n hn => ?_) (fun a ha => ?_)
          (fun a ha => ?_) htk
        · obtain ⟨rfl, rfl⟩ | ⟨-, hn⟩ := of_update_eq_some hn
          · exact hk'
          · exact hgv n a hn
        · by_cases hnk : n = k
          · rw [hnk, update_self, hk']
          rw [update_of_ne hnk]
          exact houts' n hn hnk
        · rcases mem_cons.mp ha with rfl | ha
          · exact htk k a hk'
          · exact hsub a ha
        rcases hmore a ha with ha | ⟨n, hn, hna⟩
        · exact .inl (mem_cons_of_mem _ ha)
        by_cases hnk : n = k
        · rw [hnk, hk'] at hna
          cases hna
          exact .inl mem_cons_self
        · exact .inr ⟨n, (update_of_ne hnk ..).trans hn, hna⟩
      | none =>
        -- no early slot is in the way, so both find the same
        have hnotMem : b ∉ more := by
          intro hb
          rcases hmore b hb with hb | ⟨n, -, hn⟩
          · exact (mem_of_firstFree hfr).2 hb
          rw [hinjective n k b (hely n b hn) hfill, hk'] at hn
          cases hn
        rw [fill, if_neg (by rw [hk']; exact Bool.false_ne_true), firstFree_of_subset hsub hfr hnotMem,
          bind_some]
        refine ih hnm hrs (fun n a hn => ?_) (fun n a hn => ?_) (fun n hn => ?_) (fun a ha => ?_)
          (fun a ha => ?_) fun _ _ => mem_cons_of_update htk
        · obtain ⟨rfl, rfl⟩ | ⟨-, hn⟩ := of_update_eq_some hn
          · exact hfill
          · exact hely n a hn
        · obtain ⟨rfl, rfl⟩ | ⟨hnk, hn⟩ := of_update_eq_some hn
          · exact update_self ..
          · exact (update_of_ne hnk ..).trans (hgv n a hn)
        · by_cases hnk : n = k
          · rw [hnk, update_self, update_self]
          rw [update_of_ne hnk, update_of_ne hnk]
          exact houts' n hn hnk
        · rcases mem_cons.mp ha with rfl | ha
          · exact mem_cons_self
          · exact mem_cons_of_mem _ (hsub a ha)
        rcases mem_cons.mp ha with rfl | ha
        · exact .inl mem_cons_self
        rcases hmore a ha with ha | ⟨n, hn, hna⟩
        · exact .inl (mem_cons_of_mem _ ha)
        have hnk : n ≠ k := by
          rintro rfl
          rw [hk'] at hna
          cases hna
        exact .inr ⟨n, (update_of_ne hnk ..).trans hn, (update_of_ne hnk ..).trans hna⟩

/-- **A fill is stable.**  Filling again, when some names already have their slots, gives every name
the slot it had. -/
theorem fill_refill (hnm : names.Nodup) (h : fill probe names taken (fun _ => none) = some filled)
    (hely : ∀ n a, early n = some a → n ∈ names ∧ filled n = some a)
    (hmore : ∀ a, a ∈ more ↔ a ∈ taken ∨ ∃ n, early n = some a) :
    fill probe names more early = some filled := by
  refine fill_of_ahead hnm h (fun n m a hn hm => ?_) (fun n a hn => (hely n a hn).2)
    nofun (fun n hn => ?_) (fun a ha => (hmore a).mpr (.inl ha))
    (fun a ha => ?_) fun n a hn => (hmore a).mpr (.inr ⟨n, hn⟩)
  · exact fill_injective h nofun nofun hn hm
  · exact eq_none_iff_forall_not_mem.mpr fun a ha => hn (hely n a ha).1
  rcases (hmore a).mp ha with ha | ⟨n, hn⟩
  · exact .inl ha
  · exact .inr ⟨n, rfl, hn⟩

end Probing
