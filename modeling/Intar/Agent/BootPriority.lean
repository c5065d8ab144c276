import Mathlib

/-!
# Background work and the boots it waits for

`intar-agent/src/image_cache/priority.rs`: a counter of the boot-critical windows and a `Notify` that
wakes what is parked when the counter gets to zero.  The drop of a guard is two steps, the decrement
and, if it was the last, the wake-up; a wait is one step for the registration, one for the read of the
counter and one for each time it is polled.
-/

namespace Intar.Agent.BootPriority

open Function

/-- Where a caller of `wait_idle` is.  What is `enabled` or `parked` holds a notification, which has
been notified or not. -/
inductive Waiter where
  | outside
  | looping
  | enabled (notified : Bool)
  | parked (notified : Bool)
  | returned

/-- The counter, which is the number of the guards that live, and the drops that took it to zero and
have yet to call `notify_waiters`. -/
structure State where
  (critical waking : ℕ)
  waiters : ℕ → Waiter

inductive Act where
  | begin
  | drop
  | notifyWaiters
  | waitIdle (waiter : ℕ)
  | advance (waiter : ℕ)
  | cancel (waiter : ℕ)

def State.new : State := ⟨0, 0, fun _ => .outside⟩

def State.isCritical (s : State) : Bool := s.critical > 0

def Waiter.notify : Waiter → Waiter
  | enabled _ => enabled true
  | parked _ => parked true
  | waiter => waiter

/-- The next step of the loop in `wait_idle`. -/
def State.resume (s : State) : Waiter → Waiter
  | .looping => .enabled false
  | .enabled notified => if s.isCritical then .parked notified else .returned
  | .parked true => .looping
  | waiter => waiter

def step (s : State) : Act → State
  | .begin => { s with critical := s.critical + 1 }
  | .drop =>
    { s with
      critical := s.critical - 1
      waking := if s.critical = 1 then s.waking + 1 else s.waking }
  | .notifyWaiters =>
    if s.waking = 0 then s
    else { s with waking := s.waking - 1, waiters := fun waiter => (s.waiters waiter).notify }
  | .waitIdle waiter => { s with waiters := update s.waiters waiter .looping }
  | .advance waiter => { s with waiters := update s.waiters waiter (s.resume (s.waiters waiter)) }
  | .cancel waiter => { s with waiters := update s.waiters waiter .outside }

/-- The state after the first steps of a schedule. -/
def after (acts : ℕ → Act) : ℕ → State
  | 0 => .new
  | n + 1 => step (after acts n) (acts n)

variable {s : State} {acts : ℕ → Act} {waiter n : ℕ}

/-- What a step can do to a waiter. -/
theorem waiters_step (s : State) (act : Act) (waiter : ℕ) :
    (act ≠ .advance waiter ∧ (step s act).waiters waiter = s.waiters waiter) ∨
      (step s act).waiters waiter = .looping ∨ (step s act).waiters waiter = .outside ∨
      (act = .notifyWaiters ∧ (step s act).waiters waiter = (s.waiters waiter).notify) ∨
      act = .advance waiter ∧ (step s act).waiters waiter = s.resume (s.waiters waiter) := by
  cases act with
  | begin | drop => exact .inl ⟨nofun, rfl⟩
  | notifyWaiters =>
    rw [step]
    split
    · exact .inl ⟨nofun, rfl⟩
    · exact .inr (.inr (.inr (.inl ⟨rfl, rfl⟩)))
  | waitIdle other | advance other | cancel other =>
    by_cases hw : waiter = other
    · subst hw
      simp [step]
    · exact .inl ⟨by simp [Ne.symm hw], update_of_ne hw ..⟩

variable {act : Act}

/-- A wait is over only with a read of zero. -/
theorem returned_of_step (hnot : s.waiters waiter ≠ .returned)
    (h : (step s act).waiters waiter = .returned) : act = .advance waiter ∧ s.critical = 0 := by
  rcases waiters_step s act waiter with ⟨-, heq⟩ | heq | heq | ⟨-, heq⟩ | ⟨rfl, heq⟩ <;> rw [heq] at h
  · exact absurd h hnot
  · cases h
  · cases h
  · cases hs : s.waiters waiter <;> rw [hs] at h <;> cases h
    exact absurd hs hnot
  · unfold State.resume at h
    split at h
    · cases h
    · split_ifs at h with hcrt
      exact ⟨rfl, by simpa [State.isCritical] using hcrt⟩
    · cases h
    · exact absurd h hnot

/-- While the counter is zero nothing parks, and what has been notified goes on when it is polled. -/
theorem parked_of_step (hzero : s.critical = 0) {notified : Bool}
    (h : (step s act).waiters waiter = .parked notified) :
    ∃ was, s.waiters waiter = .parked was ∧ (was = true → notified = true ∧ act ≠ .advance waiter) := by
  rcases waiters_step s act waiter with ⟨hact, heq⟩ | heq | heq | ⟨rfl, heq⟩ | ⟨rfl, heq⟩ <;>
    rw [heq] at h
  · exact ⟨notified, h, fun hwas => ⟨hwas, hact⟩⟩
  · cases h
  · cases h
  · cases hs : s.waiters waiter <;> rw [hs] at h <;> cases h
    exact ⟨_, rfl, fun _ => ⟨rfl, nofun⟩⟩
  · unfold State.resume at h
    split at h
    · cases h
    · simp [State.isCritical, hzero] at h
    · cases h
    · rename_i hnot
      cases notified with
      | true => exact absurd h hnot
      | false => exact ⟨false, h, nofun⟩

theorem unnotified_of_step (hzero : s.critical = 0) (h : (step s act).waiters waiter = .parked false) :
    s.waiters waiter = .parked false := by
  obtain ⟨was, hwas, hnot⟩ := parked_of_step hzero h
  cases was with
  | true => cases (hnot rfl).1
  | false => exact hwas

/-- Whoever is parked and not notified has a boot to wait for, or a wake-up that is on its way. -/
def Awaited (s : State) : Prop :=
  ∀ waiter, s.waiters waiter = .parked false → 0 < s.critical ∨ 0 < s.waking

theorem awaited_step (h : Awaited s) (act : Act) : Awaited (step s act) := by
  intro waiter hpk
  cases act with
  | begin => exact .inl (Nat.succ_pos _)
  | drop =>
    have := h waiter hpk
    rw [step]
    dsimp only
    split_ifs <;> omega
  | notifyWaiters =>
    rw [step] at hpk ⊢
    split at hpk
    · rw [if_pos ‹_›]
      exact h waiter hpk
    · change (s.waiters waiter).notify = .parked false at hpk
      cases hs : s.waiters waiter <;> rw [hs] at hpk <;> cases hpk
  | waitIdle | advance | cancel =>
    by_cases hzero : s.critical = 0
    · exact h waiter (unnotified_of_step hzero hpk)
    · exact .inl (Nat.pos_of_ne_zero hzero)

theorem awaited_after (acts : ℕ → Act) (n : ℕ) : Awaited (after acts n) := by
  induction n with
  | zero => exact nofun
  | succ n ih => exact awaited_step ih _

/-- **Waiting for idle**, in every schedule.  A wait returns only with a read of zero.  From where the
counter stays zero, a waiter ends up not parked, if the drops get to their wake-up and the waiter is
polled once it is notified. -/
theorem wait_idle (acts : ℕ → Act) (waiter : ℕ) :
    (∀ n, (after acts n).waiters waiter ≠ .returned →
      (after acts (n + 1)).waiters waiter = .returned →
        acts n = .advance waiter ∧ (after acts n).critical = 0) ∧
    ∀ n, (∀ m ≥ n, (after acts m).critical = 0) →
      (∀ m ≥ n, 0 < (after acts m).waking → ∃ k ≥ m, acts k = .notifyWaiters) →
      (∀ m ≥ n, (after acts m).waiters waiter = .parked true → ∃ k ≥ m, acts k = .advance waiter) →
        ∃ m ≥ n, ∀ k ≥ m, ∀ notified, (after acts k).waiters waiter ≠ .parked notified := by
  refine ⟨fun n => returned_of_step, fun n hzero hwake hpoll => ?_⟩
  -- a wake-up finds it
  obtain ⟨m, hm, hwoken⟩ : ∃ m ≥ n, (after acts m).waiters waiter ≠ .parked false := by
    by_contra! hall
    have hwaking : ∀ m ≥ n, 0 < (after acts m).waking := fun m hm =>
      (awaited_after acts m waiter (hall m hm)).resolve_left (by simp [hzero m hm])
    obtain ⟨k, hk, hact⟩ := hwake n (Nat.le_refl _) (hwaking n (Nat.le_refl _))
    have hlater := hall (k + 1) (Nat.le_succ_of_le hk)
    rw [after, hact, step, if_neg (hwaking k hk).ne'] at hlater
    change ((after acts k).waiters waiter).notify = _ at hlater
    rw [hall k hk] at hlater
    cases hlater
  have hstays : ∀ k ≥ m, (after acts k).waiters waiter ≠ .parked false := by
    intro k hk
    induction k, hk using Nat.le_induction with
    | base => exact hwoken
    | succ k hk ih => exact fun hpk => ih (unnotified_of_step (hzero k (Nat.le_trans hm hk)) hpk)
  -- and a poll takes it out of its place
  obtain ⟨l, hl, hgone⟩ : ∃ l ≥ m, ∀ notified, (after acts l).waiters waiter ≠ .parked notified := by
    by_cases hpk : (after acts m).waiters waiter = .parked true
    · obtain ⟨k, hk, hact⟩ := hpoll m hm hpk
      refine ⟨k + 1, Nat.le_succ_of_le hk, fun notified hlater => ?_⟩
      obtain ⟨was, hwas, hnot⟩ := parked_of_step (hzero k (Nat.le_trans hm hk)) hlater
      cases was with
      | true => exact (hnot rfl).2 hact
      | false => exact hstays k hk hwas
    · exact ⟨m, Nat.le_refl _, fun notified => by cases notified <;> assumption⟩
  refine ⟨l, Nat.le_trans hm hl, fun k hk => ?_⟩
  induction k, hk using Nat.le_induction with
  | base => exact hgone
  | succ k hk ih =>
    intro _ hpk
    obtain ⟨was, hwas, -⟩ := parked_of_step (hzero k (Nat.le_trans hm (Nat.le_trans hl hk))) hpk
    exact ih was hwas

namespace Demo

/-- A boot ends while a waiter is parked, and after that there are only wake-ups and polls. -/
def booting (n : ℕ) : Act :=
  [.begin, .waitIdle 0, .advance 0, .advance 0, .drop].getD n
    (if n % 2 = 0 then .notifyWaiters else .advance 0)

theorem wait_idle_boot : ∃ m ≥ 5, ∀ k ≥ m, ∀ notified, (after booting k).waiters 0 ≠ .parked notified := by
  have htail : ∀ m ≥ 5, booting m = if m % 2 = 0 then .notifyWaiters else .advance 0 := by
    intro m hm
    exact List.getD_eq_default _ _ hm
  refine (wait_idle booting 0).2 5 (fun m hm => ?_) (fun m hm _ => ⟨2 * m, by omega, ?_⟩)
    fun m hm _ => ⟨2 * m + 1, by omega, ?_⟩
  · induction m, hm using Nat.le_induction with
    | base => rfl
    | succ m hm ih =>
      rw [after, htail m hm]
      split_ifs
      · rw [step]
        split_ifs <;> exact ih
      · exact ih
  · rw [htail _ (by omega), if_pos (by omega)]
  · rw [htail _ (by omega), if_neg (by omega)]

end Demo

end Intar.Agent.BootPriority
