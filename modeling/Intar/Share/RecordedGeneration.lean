import Intar.Share.Rebuilding

/-!
# The recorded generation

The log of a share is deleted when a rebuild is at its end, and by nothing else.  Viewers are then on
the generation it has published, and this is about what that generation has of the log.

What comes in while the rebuild runs may miss it: a session that is done is not read again, and one
that is new is not read at all.  So this is about what was stored before the rebuild began.  It leaves
out on purpose that writers dropped, since nothing is live after it, and the marker of the cap, which
the head has instead.
-/

namespace Intar.Share

open Trace (run)
open List

/-! ## The end of the log -/

section

variable {s : State} (length : StoredMessage → ℕ)

theorem rebuild_store (r : Rebuild) : (s.rebuild length r).store = s.store := by
  rw [State.rebuild]
  split
  · dsimp only
    split <;> rfl
  · dsimp only
    split <;> rfl
  · split <;> rfl

theorem verify_store (r : Rebuild) (v : Verifying) (artifact : Option Artifact) :
    (s.verify r v artifact).store = s.store := by
  unfold State.verify
  split
  · split <;> rfl
  · rfl
  split
  · rfl
  split
  · rfl
  split
  · rfl
  · split <;> rfl

theorem publish_store : s.publish.store = s.store := by
  rw [State.publish]
  split
  · rfl
  split
  · rfl
  rw [State.flushLive]
  split
  · rfl
  · split <;> rfl

theorem resume_log (work : Work) : (work.resume s).store.log = s.store.log := by
  cases work with
  | segment =>
    rw [Work.resume, State.flushCheckpoint]
    split <;> rfl
  | _ => rfl

/-- Rows of the log are deleted at the end of a rebuild, and by nothing else. -/
theorem log_kept {act : Act} (hact : act.Unstopped) :
    s.store.log <+: (s.step length act).store.log ∨
      ∃ r, s.work = some (.sweeping r) ∧ s.step length act = s.sweep r := by
  have hsm : ∀ {t : State}, t.store.log = s.store.log → s.store.log <+: t.store.log :=
    fun heq => heq ▸ prefix_rfl
  have hgrown : ∀ {t : State}, Grown s.store t.store → s.store.log <+: t.store.log := by
    intro t hg
    rcases hg.log with ⟨hlog, -⟩ | ⟨_, hlog, -⟩
    · exact hsm hlog
    rw [hlog]
    exact prefix_append _ _
  cases act with
  | receive socket frame => exact .inl (hgrown (fed_receive length socket frame).store)
  | gone socket ended resumed cleared =>
    exact .inl (hgrown (fed_gone length socket ended resumed cleared).store)
  | alarm =>
    refine .inl (hsm ?_)
    rw [State.step]
    split
    · rfl
    · rw [publish_store]
  | land =>
    refine .inl (hsm ?_)
    rw [State.step, State.landWork]
    split
    · rfl
    · split <;> rfl
  | settle =>
    rw [State.step, State.settleWork]
    split
    · exact .inl prefix_rfl
    · rename_i r hwk
      split
      · exact .inr ⟨r, hwk, rfl⟩
      · exact .inl prefix_rfl
    split
    · exact .inl prefix_rfl
    refine .inl (hsm ?_)
    split
    · exact resume_log _
    · rfl
    · rfl
    · rfl
  | proceed =>
    refine .inl (hsm ?_)
    rw [State.step, State.proceed]
    split
    · rw [rebuild_store]
    · rw [verify_store]
    · rfl
  | request =>
    refine .inl (hsm ?_)
    rw [State.step]
    split <;> rfl
  | body =>
    refine .inl (hsm ?_)
    rw [State.step]
    split
    · rfl
    rename_i request _
    cases request <;>
    · rw [State.serve]
      split <;> rfl
  | restart => exact .inl prefix_rfl
  | _ => exact hact.elim

end

theorem kept_started (mission : String) : Kept (.started mission) :=
  ⟨rfl, fun _ hrow => (nomatch hrow), fun _ hrow => (nomatch hrow), fun _ _ hid => (nomatch hid),
    fun _ hw => nomatch hw⟩

/-- The files of a generation, in order. -/
def State.Serves (s : State) (generation : ℕ) (parts : List (List StoredMessage)) : Prop :=
  (∃ head, s.bucket .head = some (.head head) ∧ head.recorded = true ∧
    head.generation = generation ∧ head.segment = parts.length) ∧
  ∀ i part, parts[i]? = some part → s.bucket (.segment generation (i + 1)) = some (.lines part)

/-- **The rebuild keeps what was stored before it began.**  When a step deletes a message from the log, a
rebuild is at its end and viewers are on the generation it has published.  If the message was stored
before the rebuild began, belongs to a session and does not say that the writer dropped, then that
generation has every such message of the session, in order, or the messages of a recording of the
session in their place. -/
theorem recorded_generation_complete (length : StoredMessage → ℕ) {mission : String}
    {acts : List Act} {act : Act} (hacts : ∀ a ∈ acts ++ [act], a.Unstopped)
    {s t : State} (hs : s = run (State.step length) (.started mission) acts)
    (ht : t = run (State.step length) (.started mission) (acts ++ [act]))
    {row : StoredMessage} (hrow : row ∈ s.store.log) (hdeleted : row ∉ t.store.log) :
    ∃ r parts, s.work = some (.sweeping r) ∧ t.Serves r.generation parts ∧
      (row.seq ≤ r.began → ∀ id, row.message.session = some id → row.message ≠ .detach id →
        ∃ messages, messages <:+: parts.flatten.map (·.message) ∧
          (row.message ∈ capturedUpTo s.store.log r.began id ∧
              (capturedUpTo s.store.log r.began id).Sublist messages ∨
            ∃ session, session.id = id ∧ Replaces s.store.log r.recordings session messages)) := by
  have hkt : Kept s := by
    rw [hs]
    refine Trace.run_invariant_of_mem (fun s a ha hk => hk.step length (hacts a ?_))
      (kept_started mission)
    exact mem_append_left _ ha
  have hstp : t = s.step length act := by rw [ht, hs, Trace.run_append]; rfl
  rcases log_kept (s := s) length (hacts act (by simp)) with hpre | ⟨r, hwk, hsw⟩
  · rw [hstp] at hdeleted
    exact absurd (hpre.subset hrow) hdeleted
  obtain ⟨⟨-, _, parts, he⟩, ⟨hpd, hsessions, hck⟩, hhe⟩ := hkt.work _ hwk
  have hmsgs := he.messages
  rw [hpd, hck, append_nil, append_nil] at hmsgs
  refine ⟨r, parts, hwk, ⟨⟨r.head, ?_, rfl, rfl, he.count.symm⟩, ?_⟩, ?_⟩
  · rw [hstp, hsw]
    exact hhe
  · intro i part hpart
    rw [hstp, hsw]
    show (if r.generation + 1 = r.generation ∧ _ then none else s.bucket _) = _
    rw [if_neg (fun hno => Nat.succ_ne_self _ hno.1)]
    exact he.files i part hpart
  · intro hle id hid hdetach
    rcases he.covers row hrow hle id hid with ⟨_, hses, -⟩ | ⟨d, hd, hdid⟩
    · rw [hsessions] at hses
      exact nomatch hses
    refine ⟨d.2, ?_, ?_⟩
    · obtain ⟨_, _, hsp⟩ := append_of_mem hd
      rw [hmsgs, hsp, flatMap_append, flatMap_cons]
      exact ⟨_, _, append_assoc _ _ _⟩
    · rcases he.held d hd with hsub | hrepl
      · rw [hdid] at hsub
        exact .inl ⟨mem_capturedUpTo hrow hle hid hdetach, hsub⟩
      · exact .inr ⟨d.1, hdid, hrepl⟩

/-! A terminal whose writer drops, and a rebuild after its VM is archived. -/

namespace Demo

/-- Up to the deletion of the log. -/
def rebuilt : List Act :=
  [start, .gone 0 false false true, .request (.vmComplete "vm"), .body 0, .alarm] ++
    List.replicate 4 (.proceed none) ++ [.land, .settle true, .proceed none, .land, .settle true]

def dropped : StoredMessage := ⟨2, .detach "s"⟩

/-- What a rebuild that deletes the log was made of. -/
def swept : Work → ℕ × ℕ × List (List ShareRecordingInput)
  | .sweeping r => (r.generation, r.began, r.recordings.map (·.sessions))
  | _ => (0, 0, [])

theorem recorded_generation_complete_rebuilt :
    ∃ parts, (run (State.step lineLength) (.started "m") (rebuilt ++ [.settle true])).Serves 2 parts ∧
      ∃ messages, messages <:+: parts.flatten.map (·.message) ∧
        [started.message].Sublist messages := by
  have hacts : ∀ a ∈ rebuilt ++ [.settle true], a.Unstopped := by
    intro a ha
    simp only [rebuilt, start, List.replicate, mem_append, mem_cons, not_mem_nil, or_false] at ha
    rcases ha with (((rfl | rfl | rfl | rfl | rfl) | rfl | rfl | rfl | rfl) |
      rfl | rfl | rfl | rfl | rfl) | rfl <;> trivial
  have hrow : started ∈ (run (State.step lineLength) (.started "m") rebuilt).store.log := by
    decide +kernel
  have hdel : started ∉ (run (State.step lineLength) (.started "m")
      (rebuilt ++ [.settle true])).store.log := by
    decide +kernel
  obtain ⟨r, parts, hwk, hserves, hrs⟩ :=
    recorded_generation_complete lineLength hacts rfl rfl hrow hdel
  have hr : (run (State.step lineLength) (.started "m") rebuilt).work.map swept =
      some (2, 2, [[]]) := by
    decide +kernel
  rw [hwk] at hr
  obtain ⟨hgen, hbg, hrecordings⟩ : r.generation = 2 ∧ r.began = 2 ∧
      r.recordings.map (·.sessions) = [[]] := by
    simpa [swept] using hr
  rw [hgen] at hserves
  refine ⟨parts, hserves, ?_⟩
  obtain ⟨messages, hinfix, hhd⟩ := hrs (by rw [hbg]; decide) "s" rfl (by decide)
  refine ⟨messages, hinfix, ?_⟩
  rcases hhd with ⟨hmem, hsub⟩ | ⟨_, -, -, -, ⟨vm, hvm, -, _, hcand, -⟩, -⟩
  · exact (singleton_sublist.mpr hmem).trans hsub
  -- the VM has no recordings
  have hno : vm.sessions ∈ r.recordings.map (·.sessions) := mem_map.mpr ⟨vm, hvm, rfl⟩
  rw [hrecordings, mem_singleton] at hno
  rw [hno] at hcand
  cases hcand

/-- The message that the writer dropped is not carried over. -/
theorem detach_not_carried_over :
    dropped ∈ (run (State.step lineLength) (.started "m") rebuilt).store.log ∧
      (run (State.step lineLength) (.started "m") (rebuilt ++ [.settle true])).store.log = [] ∧
      (run (State.step lineLength) (.started "m") (rebuilt ++ [.settle true])).bucket .head =
        some (.head ⟨2, 1, 0, 2, false, true⟩) ∧
      (run (State.step lineLength) (.started "m") (rebuilt ++ [.settle true])).bucket (.segment 2 1) =
        some (.lines [started, ⟨2, .ended "s"⟩]) := by
  decide +kernel

end Demo

end Intar.Share
