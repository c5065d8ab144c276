import Intar.Share.LivePublishing

/-!
# Files that a head names

Viewers and caches keep the segments and checkpoints they have read.  This is about what a live share
never takes back: the heads it has published and the messages it has stored, and with them the contents
of every file that a published head names.
-/

namespace Intar.Share

open NumberedLog (slice slice_append_of_lt)
open Trace (run)
open List

variable {s : State} (length : StoredMessage → ℕ)

/-! ## What stays -/

/-- Heads and messages are only added, and new messages have new numbers. -/
structure Extends (s t : State) : Prop where
  mission : t.bucket .mission = s.bucket .mission
  heads : s.heads <+: t.heads
  seq : s.store.seq ≤ t.store.seq
  log : ∃ rows, t.store.log = s.store.log ++ rows ∧ ∀ row ∈ rows, s.store.seq < row.seq

variable {t : State} {segment b : ℕ}

namespace Extends

variable {u : State}

theorem of_eq (hbkt : t.bucket = s.bucket) (hhds : t.heads = s.heads)
    (hseq : t.store.seq = s.store.seq) (hlog : t.store.log = s.store.log) : Extends s t :=
  ⟨by rw [hbkt], hhds ▸ prefix_rfl, le_of_eq hseq.symm, [], by rw [hlog, append_nil],
    nofun⟩

theorem refl (s : State) : Extends s s := of_eq rfl rfl rfl rfl

theorem trans (h : Extends s t) (h' : Extends t u) : Extends s u := by
  obtain ⟨rows, hlog, hrws⟩ := h.log
  obtain ⟨rows', hlog', hrws'⟩ := h'.log
  refine ⟨h'.mission.trans h.mission, h.heads.trans h'.heads, h.seq.trans h'.seq, rows ++ rows', ?_, ?_⟩
  · rw [hlog', hlog, append_assoc]
  intro row hrow
  rcases mem_append.mp hrow with hrow | hrow
  · exact hrws row hrow
  · exact lt_of_le_of_lt h.seq (hrws' row hrow)

theorem of_fed (h : Fed s t) : Extends s t := by
  obtain ⟨hg, hbkt, hhds, -⟩ := h
  rcases hg.log with ⟨hlog, hseq⟩ | ⟨_, hlog, hseq⟩
  · exact of_eq hbkt hhds hseq hlog
  refine ⟨by rw [hbkt], hhds ▸ prefix_rfl, by omega, _, hlog, ?_⟩
  intro _ hrow
  rw [mem_singleton.mp hrow]
  exact Nat.lt_succ_self _

theorem published (h : Extends s t) (hp : Published s.heads segment) :
    Published t.heads segment := by
  obtain ⟨head, hhe, heq⟩ := hp
  exact ⟨head, h.heads.subset hhe, heq⟩

theorem cut_eq (h : Extends s t) (hp : Published s.heads segment) :
    cut t.heads segment = cut s.heads segment := by
  obtain ⟨more, hmore⟩ := h.heads
  rw [← hmore]
  exact cut_append hp more

theorem slice_eq (h : Extends s t) (hb : b ≤ s.store.seq) (a : ℕ) :
    slice (·.seq) t.store.log a b = slice (·.seq) s.store.log a b := by
  obtain ⟨_, hlog, hrws⟩ := h.log
  rw [hlog]
  exact slice_append_of_lt fun row hrow => lt_of_le_of_lt hb (hrws row hrow)

/-- A put lands. -/
theorem of_put {put : Put} (hpt : put.path ≠ .mission) (work : Option Work) :
    Extends s { s.putObject put with work } := by
  refine ⟨?_, ?_, le_rfl, [], (append_nil _).symm, fun _ hrow => by cases hrow⟩
  · exact Function.update_of_ne hpt.symm _ _
  rw [State.putObject]
  dsimp only
  split
  · exact prefix_append _ _
  · exact prefix_rfl

end Extends

namespace Publishing

variable (h : Publishing s)

include h

theorem extends_alarm : Extends s (s.step length .alarm) := by
  rw [State.step]
  split
  · exact .refl s
  rw [State.publish, if_neg (by simp [Store.live, h.mission, h.stopped]),
    if_neg (by simp [h.recordingDue]), State.flushLive, if_neg (by simp [h.recorded])]
  split
  · exact .refl s
  · exact .of_eq rfl rfl rfl rfl

theorem extends_land : Extends s (s.step length .land) := by
  rw [State.step, State.landWork]
  cases hwk : s.work with
  | none => exact .refl s
  | some work =>
    have hw := h.work work hwk
    cases work with
    | segment =>
      obtain ⟨-, landed, rfl, -⟩ := hw
      cases landed with
      | true => exact .refl s
      | false => exact .of_put (by simp) _
    | checkpoint =>
      obtain ⟨-, -, -, -, landed, rfl, -⟩ := hw
      cases landed with
      | true => exact .refl s
      | false => exact .of_put (by simp) _
    | head =>
      obtain ⟨-, -, -, -, landed, _, rfl, -⟩ := hw
      cases landed with
      | true => exact .refl s
      | false => exact .of_put (by simp) _
    | _ => exact hw.elim

theorem extends_settle (ok : Bool) : Extends s (s.step length (.settle ok)) := by
  rw [State.step]
  cases hwk : s.work with
  | none =>
    rw [State.settleWork, hwk]
    exact .refl s
  | some work =>
    have hw := h.work work hwk
    have hcases : ∀ put : Put, work.await = some (.put put) → Extends s (work.resume s) →
        Extends s (s.settleWork ok) := by
      intro _ haw hresm
      rw [settleWork_put hwk haw]
      split_ifs
      · exact .of_eq rfl rfl rfl rfl
      · exact .of_eq rfl rfl rfl rfl
      · exact hresm
      · exact .of_eq rfl rfl rfl rfl
    cases work with
    | segment =>
      obtain ⟨-, _, rfl, -⟩ := hw
      refine hcases _ rfl ?_
      rw [Work.resume, State.flushCheckpoint]
      split <;> exact .of_eq rfl rfl rfl rfl
    | checkpoint =>
      obtain ⟨-, -, -, -, _, rfl, -⟩ := hw
      exact hcases _ rfl (.of_eq rfl rfl rfl rfl)
    | head =>
      obtain ⟨-, -, -, -, _, _, rfl, -⟩ := hw
      exact hcases _ rfl (.of_eq rfl rfl rfl rfl)
    | _ => exact hw.elim

theorem extends_step {act : Act} (hlv : act.Live) : Extends s (s.step length act) := by
  cases act with
  | receive socket frame => exact .of_fed (fed_receive length socket frame)
  | gone socket ended resumed cleared => exact .of_fed (fed_gone length socket ended resumed cleared)
  | alarm => exact h.extends_alarm length
  | land => exact h.extends_land length
  | settle ok => exact h.extends_settle length ok
  | restart => exact .of_eq rfl rfl rfl rfl
  | _ => exact hlv.elim

end Publishing

/-! ## Files that a head names -/

/-- The files a viewer may read once it has seen the head. -/
def ShareHead.Names (head : ShareHead) : Path → Prop
  | .segment generation segment =>
    generation = head.generation ∧ 1 ≤ segment ∧ segment ≤ head.segment
  | .checkpoint generation number =>
    generation = head.generation ∧ 1 ≤ number ∧ number ≤ head.checkpoint
  | _ => False

namespace Publishing

variable {head : ShareHead}

theorem published_of_le (h : Publishing s) (hhe : head ∈ s.heads)
    (hle : segment ≤ head.segment) : Published s.heads segment := by
  have hnx := h.head_le head hhe
  rcases Nat.lt_or_ge s.store.segment segment with _ | hge
  · exact ⟨head, hhe, by omega⟩
  · exact h.published segment hge

/-- What lies between two published cuts is the same in every later state. -/
theorem between_eq (h : Publishing s) (hext : Extends s t) {a : ℕ} (ha : Published s.heads a)
    (hb : Published s.heads b) : t.between a b = s.between a b := by
  rw [State.between, State.between, hext.cut_eq ha, hext.cut_eq hb, hext.slice_eq (h.cut_le_seq hb)]

/-- A file that a head names is the same in every later state. -/
theorem bucket_eq (h : Publishing s) (h' : Publishing t) (hext : Extends s t)
    (hhe : head ∈ s.heads) {path : Path} (hnm : head.Names path) :
    t.bucket path = s.bucket path ∧ (s.bucket path).isSome := by
  cases path with
  | segment _ segment =>
    obtain ⟨hgen, _, hle⟩ := hnm
    rw [hgen, (h.head_live head hhe).1]
    obtain ⟨k, rfl⟩ : ∃ k, segment = k + 1 := ⟨segment - 1, by omega⟩
    have hb := h.published_of_le hhe hle
    have ha := h.published_of_le hhe (show k ≤ head.segment by omega)
    rw [h.segments k hb, h'.segments k (hext.published hb), h.between_eq hext ha hb]
    exact ⟨rfl, rfl⟩
  | checkpoint _ number =>
    obtain ⟨hgen, _, _⟩ := hnm
    rw [hgen, (h.head_live head hhe).1]
    obtain ⟨k, rfl⟩ : ∃ k, number = k + 1 := ⟨number - 1, by omega⟩
    have hchk := h.head_checkpoint head hhe
    have hend : (k + 1) * checkpointSegments ≤ head.segment := by
      simp only [checkpointSegments] at hchk ⊢
      omega
    have hst : k * checkpointSegments ≤ head.segment := by
      simp only [checkpointSegments] at hend ⊢
      omega
    have hb := h.published_of_le hhe hend
    have ha := h.published_of_le hhe hst
    rw [h.checkpoints k hb, h'.checkpoints k (hext.published hb), h.between_eq hext ha hb]
    exact ⟨rfl, rfl⟩
  | mission | head => exact hnm.elim

end Publishing

/-- The steps of a live share that meet the condition. -/
def Act.Orderly (s : State) (act : Act) : Prop := act.Live ∧ act.Recorded s

theorem publishing_run {mission : String} {acts : List Act}
    (h : Trace.Along (State.step length) (fun s act => act.Orderly s) (.started mission) acts) :
    Publishing (run (State.step length) (.started mission) acts) :=
  h.invariant (fun _ _ hs hact => hs.step length hact.1 hact.2) (publishing_started mission)

theorem extends_run {mission : String} {before after : List Act}
    (h : Trace.Along (State.step length) (fun s act => act.Orderly s) (.started mission)
      (before ++ after)) :
    Extends (run (State.step length) (.started mission) before)
      (run (State.step length) (.started mission) (before ++ after)) := by
  induction after using List.reverseRecOn with
  | nil =>
    rw [append_nil]
    exact .refl _
  | append_singleton after act ih =>
    rw [← append_assoc] at h ⊢
    have hbef := h.of_prefix (prefix_append (before ++ after) [act])
    rw [Trace.run_append (State.step length) _ (before ++ after) [act]]
    exact (ih hbef).trans ((publishing_run length hbef).extends_step length h.last.1)

/-- **What a head names is never written anew.**  From the moment some published head names a segment
or a checkpoint, the file is in the bucket and stays as it is, through failed puts and restarts, if
no flush begins with a head that the storage does not know of and messages stored since. -/
theorem named_files_kept {mission : String} {before after : List Act}
    (hlive : ∀ act ∈ before ++ after, act.Live)
    (hrecorded : Trace.Along (State.step length) (fun s act => act.Recorded s) (.started mission)
      (before ++ after))
    {head : ShareHead} (hhead : head ∈ (run (State.step length) (.started mission) before).heads)
    {path : Path} (hnames : head.Names path) :
    (run (State.step length) (.started mission) (before ++ after)).bucket path =
        (run (State.step length) (.started mission) before).bucket path ∧
      ((run (State.step length) (.started mission) before).bucket path).isSome := by
  have h : Trace.Along (State.step length) (fun s act => act.Orderly s) (.started mission)
      (before ++ after) := fun b act a hsp =>
    ⟨hlive act (by rw [hsp]; simp), hrecorded b act a hsp⟩
  exact (publishing_run length (h.of_prefix (prefix_append before after))).bucket_eq
    (publishing_run length h) (extends_run length h) hhead hnames

namespace Demo

theorem named_files_kept_flushed :
    (run (State.step lineLength) (.started "m")
      ([start] ++ flush true ++ ([output] ++ flush true))).bucket (.segment 1 1) =
        (run (State.step lineLength) (.started "m") ([start] ++ flush true)).bucket
          (.segment 1 1) := by
  have hhe : (⟨1, 1, 0, 1, false, false⟩ : ShareHead) ∈
      (run (State.step lineLength) (.started "m") ([start] ++ flush true)).heads := by
    decide +kernel
  have hnm : (⟨1, 1, 0, 1, false, false⟩ : ShareHead).Names (.segment 1 1) := ⟨rfl, le_rfl, le_rfl⟩
  refine (named_files_kept lineLength ?_ ?_ hhe hnm).1
  · intro _ hact
    simp only [flush, start, output, mem_append, mem_cons, not_mem_nil, or_false] at hact
    rcases hact with (rfl | rfl | rfl | rfl | rfl | rfl) | rfl | rfl | rfl | rfl | rfl | rfl <;>
      trivial
  · decide +kernel

/-- The head of the first flush lands and is reported as failed, the terminal prints something, and
the next flush begins. -/
theorem named_segment_rewritten :
    (∃ head ∈ (run (State.step lineLength) (.started "m") ([start] ++ flush false)).heads,
        head = ⟨1, 1, 0, 1, false, false⟩) ∧
      (run (State.step lineLength) (.started "m") ([start] ++ flush false)).bucket (.segment 1 1) =
        some (.lines [started]) ∧
      (run (State.step lineLength) (.started "m")
        ([start] ++ flush false ++ [output, .alarm, .land])).bucket (.segment 1 1) =
          some (.lines [started, printed]) := by
  decide +kernel

end Demo

end Intar.Share
