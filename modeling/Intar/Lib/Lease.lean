import Mathlib

/-!
# A lease with a ledger of its runs

An exclusive lease is kept in two places that are written by different operations: the *gate* says
who holds it and when the holder last signed, and the *ledger* has an entry for every run the lease
was ever granted to, with its own last sign of life and, once the run is over, how it ended.

* A `Move` grants the lease, renews it, notes progress in the ledger alone, ends it, or resolves a
  stalled run from outside; `Lease.apply` is its effect.
* `Lease.Sound` says that the two places agree.  Every move keeps it (`Sound.apply`), except that a
  note must not be older than the last renewal (`InTime`): a resolver that finds the ledger stale
  must find the gate stale as well.
* Ended entries never change (`mem_apply_of_ended`), the epoch counts the grants
  (`epoch_acquire`), and a token that was granted once and lost is never granted again
  (`Past.apply`).
-/

namespace Lease

open List

variable {τ θ ε : Type*}

/-- One run in the ledger: `ended` is `none` while it is running. -/
structure Entry (τ θ ε : Type*) where
  token : τ
  beat : θ
  ended : Option ε

/-- The gate with its holder and the holder's last sign, the number of grants, and the ledger. -/
structure State (τ θ ε : Type*) where
  holder : Option (τ × θ)
  epoch : ℕ
  ledger : List (Entry τ θ ε)

inductive Move (τ θ ε : Type*) where
  /-- The lease is granted. -/
  | acquire (token : τ) (now : θ)
  /-- The holder renews it, at the gate and in the ledger. -/
  | renew (token : τ) (now : θ)
  /-- The run signs the ledger alone. -/
  | note (token : τ) (now : θ)
  /-- The run ends. -/
  | finish (token : τ) (now : θ) (ending : ε)
  /-- Somebody else ends what has not signed since the cutoff. -/
  | resolve (cutoff : θ) (ending : ε)
  | idle

def Entry.isRunning (e : Entry τ θ ε) : Bool := e.ended.isNone

/-- Change the running entries that `p` picks. -/
def updateRunning (p : Entry τ θ ε → Bool) (f : Entry τ θ ε → Entry τ θ ε)
    (ledger : List (Entry τ θ ε)) : List (Entry τ θ ε) :=
  ledger.map fun e => if p e && e.isRunning then f e else e

section

variable [DecidableEq τ] [LE θ] [DecidableLE θ]

/-- The lease can be granted under this token: nobody holds it, no run is running, and the token is
new. -/
def State.Free (l : State τ θ ε) (token : τ) : Prop :=
  l.holder = none ∧ (∀ e ∈ l.ledger, e.isRunning = false) ∧ token ∉ l.ledger.map Entry.token

/-- The effect of a move.  A grant is for a lease that is `Free`. -/
def State.apply (l : State τ θ ε) : Move τ θ ε → State τ θ ε
  | .acquire token now => ⟨some (token, now), l.epoch + 1, l.ledger ++ [⟨token, now, none⟩]⟩
  | .renew token now =>
    { l with
      holder := l.holder.map fun h => if h.1 = token then (token, now) else h
      ledger := updateRunning (·.token = token) (fun e => { e with beat := now }) l.ledger }
  | .note token now =>
    { l with ledger := updateRunning (·.token = token) (fun e => { e with beat := now }) l.ledger }
  | .finish token now ending =>
    { l with
      holder := l.holder.filter fun h => h.1 ≠ token
      ledger := updateRunning (·.token = token)
        (fun e => { e with beat := now, ended := some ending }) l.ledger }
  | .resolve cutoff ending =>
    let ledger := updateRunning (·.beat ≤ cutoff) (fun e => { e with ended := some ending }) l.ledger
    { l with
      holder := l.holder.filter fun h => ¬ h.2 ≤ cutoff || ledger.any Entry.isRunning
      ledger }
  | .idle => l

/-- What a move may not do: grant a lease that is not free. -/
def State.Allows (l : State τ θ ε) : Move τ θ ε → Prop
  | .acquire token _ => l.Free token
  | _ => True

/-- A note is not older than the last renewal. -/
def State.InTime (l : State τ θ ε) : Move τ θ ε → Prop
  | .note token now => ∀ beat, l.holder = some (token, beat) → beat ≤ now
  | _ => True

/-- **Gate and ledger agree.**  The holder is running and has signed the ledger at least as late as
the gate, and who is running is the holder; no token is used twice. -/
structure State.Sound (l : State τ θ ε) : Prop where
  nodup : (l.ledger.map Entry.token).Nodup
  held : ∀ token beat, l.holder = some (token, beat) →
    ∃ e ∈ l.ledger, e.token = token ∧ e.isRunning = true ∧ beat ≤ e.beat
  running : ∀ e ∈ l.ledger, e.isRunning = true → ∃ beat, l.holder = some (e.token, beat)

/-- The lease was granted under this token, and is not held under it any more. -/
def State.Past (l : State τ θ ε) (token : τ) : Prop :=
  token ∈ l.ledger.map Entry.token ∧ ∀ beat, l.holder ≠ some (token, beat)

end

/-! ## The ledger -/

section

variable {p : Entry τ θ ε → Bool} {f : Entry τ θ ε → Entry τ θ ε} {ledger : List (Entry τ θ ε)}
  {e : Entry τ θ ε}

theorem mem_updateRunning : e ∈ updateRunning p f ledger ↔
    ∃ d ∈ ledger, (if p d && d.isRunning then f d else d) = e := by
  rw [updateRunning, mem_map]

theorem map_token_updateRunning (hf : ∀ d, (f d).token = d.token) :
    (updateRunning p f ledger).map Entry.token = ledger.map Entry.token := by
  rw [updateRunning, map_map]
  refine map_congr_left fun d _ => ?_
  dsimp only [Function.comp]
  split_ifs
  · exact hf d
  · rfl

/-- What is running after entries were ended was running before, untouched. -/
theorem running_of_mem_updateRunning (hf : ∀ d, (f d).isRunning = false)
    (he : e ∈ updateRunning p f ledger) (hrun : e.isRunning = true) : e ∈ ledger ∧ p e = false := by
  obtain ⟨d, hd, rfl⟩ := mem_updateRunning.mp he
  split at hrun
  · rw [hf] at hrun
    cases hrun
  rename_i hnot
  rw [if_neg hnot]
  rw [hrun, Bool.and_true, Bool.not_eq_true] at hnot
  exact ⟨hd, hnot⟩

end

/-! ## What every move keeps -/

section

variable [DecidableEq τ] [LE θ] [DecidableLE θ] {l : State τ θ ε} {move : Move τ θ ε} {token : τ}
  {e : Entry τ θ ε}

theorem tokens_apply (move : Move τ θ ε) : (l.apply move).ledger.map Entry.token =
    l.ledger.map Entry.token ++ match move with | .acquire token _ => [token] | _ => [] := by
  cases move with
  | acquire => exact map_append
  | idle => exact (append_nil _).symm
  | renew | note | finish | resolve =>
    rw [append_nil]
    exact map_token_updateRunning fun _ => rfl

theorem epoch_le_apply : l.epoch ≤ (l.apply move).epoch := by
  cases move with
  | acquire => exact Nat.le_succ _
  | idle | renew | note | finish | resolve => exact Nat.le_refl _

@[simp] theorem epoch_acquire (token : τ) (now : θ) :
    (l.apply (.acquire token now)).epoch = l.epoch + 1 := rfl

theorem holder_renew {t : τ} {now beat : θ} :
    (l.apply (.renew token now)).holder = some (t, beat) ↔
      ∃ beat', l.holder = some (t, beat') ∧ beat = if t = token then now else beat' := by
  change l.holder.map _ = _ ↔ _
  cases l.holder with
  | none => simp
  | some h =>
    obtain ⟨t', b⟩ := h
    simp only [Option.map_some, Option.some.injEq]
    by_cases ht : t' = token
    · rw [if_pos ht]
      constructor
      · rintro ⟨⟩
        exact ⟨b, by rw [ht], (if_pos rfl).symm⟩
      · rintro ⟨_, ⟨⟩, rfl⟩
        rw [if_pos ht, ht]
    · rw [if_neg ht]
      constructor
      · rintro ⟨⟩
        exact ⟨beat, rfl, (if_neg ht).symm⟩
      · rintro ⟨_, ⟨⟩, rfl⟩
        rw [if_neg ht]

/-- The holder after a move held the lease before it, or was just granted it. -/
theorem holder_of_apply {beat : θ} (h : (l.apply move).holder = some (token, beat)) :
    (∃ beat', l.holder = some (token, beat') ∧ (beat' = beat ∨ move = .renew token beat)) ∨
      move = .acquire token beat := by
  cases move with
  | acquire =>
    cases h
    exact .inr rfl
  | renew =>
    obtain ⟨beat', hhold, rfl⟩ := holder_renew.mp h
    refine .inl ⟨beat', hhold, ?_⟩
    split_ifs with ht
    · rw [ht]
      exact .inr rfl
    · exact .inl rfl
  | note | idle => exact .inl ⟨beat, h, .inl rfl⟩
  | finish | resolve => exact .inl ⟨beat, (Option.filter_eq_some_iff.mp h).1, .inl rfl⟩

/-- **A lost lease is never granted again** under its token. -/
theorem State.Past.apply (h : l.Past token) (hallows : l.Allows move) :
    (l.apply move).Past token := by
  refine ⟨?_, fun beat hhold => ?_⟩
  · rw [tokens_apply]
    exact mem_append_left _ h.1
  · rcases holder_of_apply hhold with ⟨beat', hbef, -⟩ | rfl
    · exact h.2 beat' hbef
    · exact hallows.2.2 h.1

/-- Ending one's own run settles it: whoever held the lease, it is not held under this token, and
nothing is running under it. -/
theorem finish_settles (token : τ) (now : θ) (ending : ε) :
    (∀ beat, (l.apply (.finish token now ending)).holder ≠ some (token, beat)) ∧
      ∀ e ∈ (l.apply (.finish token now ending)).ledger, e.token = token → e.isRunning = false := by
  refine ⟨fun beat h => ?_, fun e he ht => ?_⟩
  · simpa using (Option.filter_eq_some_iff.mp h).2
  by_contra hrun
  have hpick := (running_of_mem_updateRunning (fun _ => rfl) he (by simpa using hrun)).2
  simp [ht] at hpick

end

/-! ## Gate and ledger agree -/

section

variable [LinearOrder θ] {l : State τ θ ε}

variable {e d : Entry τ θ ε}

theorem State.Sound.eq_of_token (h : l.Sound) (he : e ∈ l.ledger) (hd : d ∈ l.ledger)
    (heq : e.token = d.token) : e = d :=
  inj_on_of_nodup_map h.nodup he hd heq

/-- No two runs are running. -/
theorem State.Sound.eq_of_running (h : l.Sound) (he : e ∈ l.ledger) (hd : d ∈ l.ledger)
    (herun : e.isRunning = true) (hdrun : d.isRunning = true) : e = d := by
  obtain ⟨_, hbeat⟩ := h.running e he herun
  obtain ⟨_, hbeat'⟩ := h.running d hd hdrun
  rw [hbeat, Option.some.injEq, Prod.mk.injEq] at hbeat'
  exact h.eq_of_token he hd hbeat'.1

/-- Ending the running entries that `p` picks, when the gate is left exactly if its run is picked.
-/
private theorem sound_end {p : Entry τ θ ε → Bool} {q : τ × θ → Bool}
    {f : Entry τ θ ε → Entry τ θ ε} (h : l.Sound) (htok : ∀ e, (f e).token = e.token)
    (hend : ∀ e, (f e).isRunning = false)
    (hq : ∀ e ∈ l.ledger, ∀ beat, e.isRunning = true → l.holder = some (e.token, beat) →
      (q (e.token, beat) = true ↔ p e = false)) :
    State.Sound ⟨l.holder.filter q, l.epoch, updateRunning p f l.ledger⟩ where
  nodup := by
    rw [map_token_updateRunning htok]
    exact h.nodup
  held t beat ht := by
    obtain ⟨hhold, hkt⟩ := Option.filter_eq_some_iff.mp ht
    obtain ⟨e, he, rfl, hrun, hle⟩ := h.held t beat hhold
    have hnot := (hq e he beat hrun hhold).mp hkt
    exact ⟨e, mem_updateRunning.mpr ⟨e, he, if_neg (by simp [hnot])⟩, rfl, hrun, hle⟩
  running e he hrun := by
    obtain ⟨hmem, hnot⟩ := running_of_mem_updateRunning hend he hrun
    obtain ⟨beat, hhold⟩ := h.running e hmem hrun
    exact ⟨beat, Option.filter_eq_some_iff.mpr ⟨hhold, (hq e hmem beat hrun hhold).mpr hnot⟩⟩

variable [DecidableEq τ]

/-- Signing the ledger at a time not before the gate's. -/
private theorem sound_sign {token : τ} {now : θ} {holder : Option (τ × θ)} (h : l.Sound)
    (ho : ∀ t beat, t ≠ token → (holder = some (t, beat) ↔ l.holder = some (t, beat)))
    (hsm : (∃ beat, holder = some (token, beat)) ↔ ∃ beat, l.holder = some (token, beat))
    (hnow : ∀ beat, holder = some (token, beat) → beat ≤ now) :
    State.Sound ⟨holder, l.epoch,
      updateRunning (·.token = token) (fun e => { e with beat := now }) l.ledger⟩ where
  nodup := by
    rw [map_token_updateRunning]
    · exact h.nodup
    · exact fun _ => rfl
  held t beat ht := by
    by_cases htoken : t = token
    · subst htoken
      obtain ⟨beat', hbeat'⟩ := hsm.mp ⟨beat, ht⟩
      obtain ⟨e, he, htok, hrun, -⟩ := h.held t beat' hbeat'
      exact ⟨_, mem_updateRunning.mpr ⟨e, he, if_pos (by simp [htok, hrun])⟩, htok, hrun,
        hnow beat ht⟩
    · obtain ⟨e, he, htok, hrun, hle⟩ := h.held t beat ((ho t beat htoken).mp ht)
      exact ⟨e, mem_updateRunning.mpr ⟨e, he, if_neg (by simp [htok, htoken])⟩, htok, hrun, hle⟩
  running e he hrun := by
    obtain ⟨d, hd, rfl⟩ := mem_updateRunning.mp he
    by_cases htoken : d.token = token
    · have hdrun : d.isRunning = true := by
        split_ifs at hrun <;> exact hrun
      rw [if_pos (by simp [htoken, hdrun])]
      subst htoken
      exact hsm.mpr (h.running d hd hdrun)
    · rw [if_neg (by simp [htoken])] at hrun ⊢
      obtain ⟨beat, hbeat⟩ := h.running d hd hrun
      exact ⟨beat, (ho _ _ htoken).mpr hbeat⟩

/-- **Every move keeps gate and ledger in agreement**, if a note is not older than the last
renewal. -/
theorem State.Sound.apply {move : Move τ θ ε} (h : l.Sound) (hallows : l.Allows move)
    (htime : l.InTime move) :
    (l.apply move).Sound := by
  cases move with
  | idle => exact h
  | acquire _ now =>
    obtain ⟨_, hqt, hnew⟩ := hallows
    refine ⟨?_, fun t beat ht => ?_, fun e he hrun => ?_⟩
    · rw [tokens_apply]
      exact nodup_append.mpr ⟨h.nodup, nodup_singleton _, fun a ha b hb hab =>
        hnew (mem_singleton.mp hb ▸ hab ▸ ha)⟩
    · cases ht
      exact ⟨_, mem_concat_self, rfl, rfl, le_rfl⟩
    rcases mem_append.mp he with he | he
    · rw [hqt e he] at hrun
      cases hrun
    · rw [mem_singleton.mp he]
      exact ⟨now, rfl⟩
  | renew _ now =>
    refine sound_sign h (fun t beat ht => holder_renew.trans ?_) ?_ fun beat hbeat => ?_
    · constructor
      · rintro ⟨_, hbeat', heq⟩
        rw [if_neg ht] at heq
        rw [heq, hbeat']
      · exact fun hbeat => ⟨beat, hbeat, (if_neg ht).symm⟩
    · constructor
      · rintro ⟨_, hbeat⟩
        obtain ⟨beat', hbeat', -⟩ := holder_renew.mp hbeat
        exact ⟨beat', hbeat'⟩
      · rintro ⟨beat, hbeat⟩
        exact ⟨now, holder_renew.mpr ⟨beat, hbeat, (if_pos rfl).symm⟩⟩
    · obtain ⟨_, -, heq⟩ := holder_renew.mp hbeat
      rw [heq, if_pos rfl]
  | note => exact sound_sign h (fun _ _ _ => .rfl) .rfl htime
  | finish =>
    refine sound_end h (fun _ => rfl) (fun _ => rfl) fun e _ beat _ _ => ?_
    simp
  | resolve =>
    refine sound_end h (fun _ => rfl) (fun _ => rfl) fun e he beat hrun hhold => ?_
    obtain ⟨d, hd, htok, -, hle⟩ := h.held e.token beat hhold
    obtain rfl := h.eq_of_token hd he htok
    -- the one that runs is the holder, and it is stale in the ledger only if it is at the gate
    simp only [Bool.or_eq_true, decide_eq_true_eq, any_eq_true, decide_eq_false_iff_not]
    constructor
    · rintro (hlate | ⟨c, hc, hcrun⟩)
      · exact fun hstl => hlate (hle.trans hstl)
      obtain ⟨hmem, hlate⟩ := running_of_mem_updateRunning (fun _ => rfl) hc hcrun
      obtain rfl := h.eq_of_running hmem he hcrun hrun
      simpa using hlate
    · intro hlate
      exact .inr ⟨d, mem_updateRunning.mpr ⟨d, hd, if_neg (by simp [hlate])⟩, hrun⟩

end

end Lease
