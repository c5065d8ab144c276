import Intar.Lib.NumberedLog
import Intar.Share.LiveLog

/-!
# The flushes of a live share

Each flush publishes what is new in the log as the next segment, every sixtieth time also a checkpoint,
and then a head that names them.  The heads that have been published say where the segments end
(`cut`), so what a segment or a checkpoint holds is a slice of the log between two cuts.

A head may reach the bucket without the object taking note of it: its put reports an error, or the
object restarts before it stores that it flushed.  The next flush then writes the same segment again.
It writes the same messages only if none came in between, and that is the condition `Act.Recorded`
under which the invariant `Publishing` is kept.
-/

namespace Intar.Share

open Function

open NumberedLog (Ordered slice mem_slice ordered_nil slice_append_of_lt filter_lt_eq_slice)
open List

variable {s : State} (length : StoredMessage → ℕ)

/-! ## Where the segments end -/

/-- The number of the last message up to a segment: what the first head with that segment says. -/
def cut (heads : List ShareHead) (segment : ℕ) : ℕ :=
  ((heads.find? fun head => head.segment = segment).map (·.seq)).getD 0

def Published (heads : List ShareHead) (segment : ℕ) : Prop := ∃ head ∈ heads, head.segment = segment

variable {heads : List ShareHead} {segment : ℕ} {head : ShareHead}

/-- A cut that was published stays. -/
theorem cut_append (h : Published heads segment) (more : List ShareHead) :
    cut (heads ++ more) segment = cut heads segment := by
  obtain ⟨head, hhe, hseg⟩ := h
  obtain ⟨found, hfd⟩ : ∃ found, (heads.find? fun head => head.segment = segment) = some found := by
    rw [← Option.isSome_iff_exists, find?_isSome]
    exact ⟨head, hhe, decide_eq_true hseg⟩
  rw [cut, cut, find?_append, hfd, Option.some_or]

/-- The first head with a segment says where it ends. -/
theorem cut_concat (h : ¬ Published heads head.segment) :
    cut (heads ++ [head]) head.segment = head.seq := by
  have hno : (heads.find? fun x => x.segment = head.segment) = none := by
    rw [find?_eq_none]
    intro x hx hseg
    exact h ⟨x, hx, of_decide_eq_true hseg⟩
  rw [cut, find?_append, hno, Option.none_or]
  simp

theorem published_concat :
    Published (heads ++ [head]) segment ↔ Published heads segment ∨ head.segment = segment := by
  simp only [Published, mem_append, mem_singleton]
  constructor
  · rintro ⟨x, hx | rfl, hseg⟩
    · exact .inl ⟨x, hx, hseg⟩
    · exact .inr hseg
  · rintro (⟨x, hx, hseg⟩ | hseg)
    · exact ⟨x, .inl hx, hseg⟩
    · exact ⟨head, .inr rfl, hseg⟩

/-- The messages between two cuts. -/
def State.between (s : State) (a b : ℕ) : List StoredMessage :=
  slice (·.seq) s.store.log (cut s.heads a) (cut s.heads b)

/-! ## The invariant -/

/-- What a flush under way has read is what is new, and agrees with the heads published for its
segment. -/
structure FlushOk (store : Store) (heads : List ShareHead) (flush : Flush) : Prop where
  segment : flush.segment = store.segment + 1
  rows : flush.rows = slice (·.seq) store.log store.flushedSeq flush.lastSeq
  lt : store.flushedSeq < flush.lastSeq
  le : flush.lastSeq ≤ store.seq
  agrees : ∀ head ∈ heads, head.segment = flush.segment → head.seq = flush.lastSeq

/-- The segment of the flush is in the bucket. -/
def SegmentThere (bucket : Path → Option File) (flush : Flush) : Prop :=
  bucket (.segment 1 flush.segment) = some (.lines flush.rows)

def checkpointLines (store : Store) (flush : Flush) : File :=
  .lines (slice (·.seq) store.log store.checkpointSeq flush.lastSeq)

def CheckpointThere (store : Store) (bucket : Path → Option File) (flush : Flush) : Prop :=
  flush.segment % checkpointSegments = 0 →
    bucket (.checkpoint 1 (store.checkpoint + 1)) = some (checkpointLines store flush)

/-- The await is the put of the head of a flush. -/
def PuttingHead (heads : List ShareHead) (await : Await) (flush : Flush) (number : ℕ) : Prop :=
  ∃ landed truncated, await = .put ⟨.head,
      .head ⟨1, flush.segment, number, flush.lastSeq, truncated, false⟩, landed⟩ ∧
    (landed = true → Published heads flush.segment)

def WorkOk (store : Store) (bucket : Path → Option File) (heads : List ShareHead) : Work → Prop
  | .segment flush await => FlushOk store heads flush ∧
      Putting bucket await (.segment 1 flush.segment) (.lines flush.rows)
  | .checkpoint flush number await => FlushOk store heads flush ∧ SegmentThere bucket flush ∧
      flush.segment % checkpointSegments = 0 ∧ number = store.checkpoint + 1 ∧
      Putting bucket await (.checkpoint 1 number) (checkpointLines store flush)
  | .head flush number await => FlushOk store heads flush ∧ SegmentThere bucket flush ∧
      CheckpointThere store bucket flush ∧ number = flush.segment / checkpointSegments ∧
      PuttingHead heads await flush number
  | _ => False

structure Publishing (s : State) : Prop where
  shared : s.store.shared = true
  mission : s.store.mission = true
  stopped : s.store.stopped = false
  recordingDue : s.store.recordingDue = false
  recorded : s.store.recorded = false
  ordered : Ordered (·.seq) s.store.log
  le_seq : ∀ row ∈ s.store.log, row.seq ≤ s.store.seq
  top : s.store.seq ≠ 0 → ∃ row ∈ s.store.log, row.seq = s.store.seq
  checkpoint : s.store.checkpoint = s.store.segment / checkpointSegments
  -- the heads
  head_live : ∀ head ∈ s.heads, head.generation = 1 ∧ head.recorded = false
  head_checkpoint : ∀ head ∈ s.heads, head.checkpoint = head.segment / checkpointSegments
  head_seq : ∀ head ∈ s.heads, head.seq = cut s.heads head.segment
  head_le : ∀ head ∈ s.heads, head.segment ≤ s.store.segment + 1
  seq_le : ∀ head ∈ s.heads, head.seq ≤ s.store.seq
  sorted : s.heads.Pairwise fun x y => x.segment ≤ y.segment
  published : ∀ segment ≤ s.store.segment, Published s.heads segment
  newest : ∃ head ∈ s.heads, s.bucket .head = some (.head head) ∧
    ∀ other ∈ s.heads, other.segment ≤ head.segment
  cut_zero : cut s.heads 0 = 0
  cut_flushed : cut s.heads s.store.segment = s.store.flushedSeq
  cut_checkpoint : cut s.heads (s.store.checkpoint * checkpointSegments) = s.store.checkpointSeq
  cut_le : ∀ segment, Published s.heads (segment + 1) →
    cut s.heads segment ≤ cut s.heads (segment + 1)
  -- the files they name
  segments : ∀ segment, Published s.heads (segment + 1) →
    s.bucket (.segment 1 (segment + 1)) = some (.lines (s.between segment (segment + 1)))
  checkpoints : ∀ number, Published s.heads ((number + 1) * checkpointSegments) →
    s.bucket (.checkpoint 1 (number + 1)) = some (.lines
      (s.between (number * checkpointSegments) ((number + 1) * checkpointSegments)))
  work : ∀ work, s.work = some work → WorkOk s.store s.bucket s.heads work

variable {flush : Flush} {path : Path}

namespace Publishing

variable {t : State}

theorem cut_le_seq (h : Publishing s) {segment : ℕ} (hp : Published s.heads segment) :
    cut s.heads segment ≤ s.store.seq := by
  obtain ⟨head, hhe, rfl⟩ := hp
  rw [← h.head_seq head hhe]
  exact h.seq_le head hhe

theorem slice_grown (hg : Grown s.store t.store) {b : ℕ} (hb : b ≤ s.store.seq) (a : ℕ) :
    slice (·.seq) t.store.log a b = slice (·.seq) s.store.log a b := by
  rcases hg.log with ⟨hlog, -⟩ | ⟨_, hlog, -⟩
  · rw [hlog]
  rw [hlog]
  refine slice_append_of_lt fun row hrow => ?_
  rw [mem_singleton.mp hrow]
  show b < s.store.seq + 1
  omega

theorem flushOk_grown (hg : Grown s.store t.store)
    (hf : FlushOk s.store s.heads flush) : FlushOk t.store s.heads flush where
  segment := by rw [hf.segment, hg.segment]
  rows := by rw [hg.flushedSeq, slice_grown hg hf.le, hf.rows]
  lt := by rw [hg.flushedSeq]; exact hf.lt
  le := by
    have hle := hf.le
    rcases hg.log with ⟨-, _⟩ | ⟨-, -, _⟩ <;> omega
  agrees := hf.agrees

theorem workOk_grown (hg : Grown s.store t.store) {work : Work}
    (hw : WorkOk s.store s.bucket s.heads work) : WorkOk t.store s.bucket s.heads work := by
  have hlns : ∀ {flush : Flush}, FlushOk s.store s.heads flush →
      checkpointLines t.store flush = checkpointLines s.store flush := by
    intro _ hf
    rw [checkpointLines, checkpointLines, hg.checkpointSeq, slice_grown hg hf.le]
  cases work with
  | segment => exact ⟨flushOk_grown hg hw.1, hw.2⟩
  | checkpoint =>
    obtain ⟨hf, hseg, hmod, hnum, hput⟩ := hw
    exact ⟨flushOk_grown hg hf, hseg, hmod, by rw [hnum, hg.checkpoint],
      by rw [hlns hf]; exact hput⟩
  | head =>
    obtain ⟨hf, hseg, hchk, hnum, hput⟩ := hw
    refine ⟨flushOk_grown hg hf, hseg, ?_, hnum, hput⟩
    rw [CheckpointThere, hg.checkpoint, hlns hf]
    exact hchk
  | _ => exact hw

variable (h : Publishing s)

include h

/-- A log that grows keeps the invariant. -/
theorem fed (hf : Fed s t) : Publishing t := by
  obtain ⟨store, _, _, work, _, _, _, _, _, _⟩ := t
  obtain ⟨hg, rfl, rfl, rfl, -⟩ := hf
  dsimp only at hg
  have hseq : s.store.seq ≤ store.seq := by
    rcases hg.log with ⟨-, _⟩ | ⟨-, -, _⟩ <;> omega
  have hbtw : ∀ a b, Published s.heads b →
      slice (·.seq) store.log (cut s.heads a) (cut s.heads b) = s.between a b :=
    fun a b hb => slice_grown (t := { s with store }) hg (h.cut_le_seq hb) _
  refine { h with
    shared := hg.shared.trans h.shared, mission := hg.mission.trans h.mission
    stopped := hg.stopped.trans h.stopped, recordingDue := hg.recordingDue.trans h.recordingDue
    recorded := hg.recorded.trans h.recorded
    ordered := ?_, le_seq := ?_, top := ?_
    checkpoint := by rw [hg.checkpoint, hg.segment, h.checkpoint]
    head_le := by rw [hg.segment]; exact h.head_le
    seq_le := fun head hhe => (h.seq_le head hhe).trans hseq
    published := by rw [hg.segment]; exact h.published
    cut_flushed := by rw [hg.segment, hg.flushedSeq]; exact h.cut_flushed
    cut_checkpoint := by rw [hg.checkpoint, hg.checkpointSeq]; exact h.cut_checkpoint
    segments := ?_, checkpoints := ?_
    work := fun w hw => workOk_grown (t := { s with store }) hg (h.work w hw) }
  · rcases hg.log with ⟨hlog, -⟩ | ⟨_, hlog, -⟩
    · rw [hlog]
      exact h.ordered
    · rw [hlog]
      exact h.ordered.concat fun row hrow => Nat.lt_succ_of_le (h.le_seq row hrow)
  · rcases hg.log with ⟨hlog, -⟩ | ⟨_, hlog, hseq'⟩
    · rw [hlog]
      exact fun row hrow => (h.le_seq row hrow).trans hseq
    rw [hlog, hseq']
    intro row hrow
    rcases mem_append.mp hrow with hrow | hrow
    · exact (h.le_seq row hrow).trans (Nat.le_succ _)
    · rw [mem_singleton.mp hrow]
  · rcases hg.log with ⟨hlog, hseq'⟩ | ⟨_, hlog, hseq'⟩
    · rw [hlog, hseq']
      exact h.top
    · rw [hlog, hseq']
      exact fun _ => ⟨_, mem_concat_self, rfl⟩
  · intro segment hp
    rw [State.between, hbtw _ _ hp]
    exact h.segments segment hp
  · intro number hp
    rw [State.between, hbtw _ _ hp]
    exact h.checkpoints number hp

/-! ## The start of a flush -/

theorem setWork {work : Option Work} (hw : ∀ w, work = some w → WorkOk s.store s.bucket s.heads w) :
    Publishing { s with work } :=
  { h with work := hw }

theorem stop : Publishing { s with work := none } := h.setWork fun _ hw => nomatch hw

theorem writable : s.store.writable = true := by
  rw [Store.writable, h.shared, h.stopped]
  rfl

theorem issue {work : Await → Work} {file : File}
    (hw : WorkOk s.store s.bucket s.heads (work (.put ⟨path, file, false⟩))) :
    Publishing (s.issue work path file) := by
  rw [State.issue, if_pos h.writable]
  refine h.setWork fun w hsm => ?_
  rw [← Option.some.inj hsm]
  exact hw

/-- A flush reads everything up to the last message. -/
theorem lastSeq_eq
    (hrws : (s.store.log.filter fun row => s.store.flushedSeq < row.seq) = flush.rows) :
    flush.lastSeq = s.store.seq ∧ s.store.flushedSeq < s.store.seq ∧
      flush.rows = slice (·.seq) s.store.log s.store.flushedSeq s.store.seq := by
  have hslc := filter_lt_eq_slice (a := s.store.flushedSeq) h.le_seq
  rw [hrws] at hslc
  obtain ⟨last, hls⟩ : ∃ last, last = flush.rows.getLast (cons_ne_nil _ _) := ⟨_, rfl⟩
  have hseqLast : flush.lastSeq = last.seq := by rw [hls]; rfl
  have hmem : last ∈ flush.rows := hls ▸ getLast_mem (cons_ne_nil _ _)
  rw [hslc, mem_slice] at hmem
  have hlt : s.store.flushedSeq < s.store.seq := lt_of_lt_of_le hmem.2.1 hmem.2.2
  obtain ⟨row, hrow, hseq⟩ := h.top (by omega)
  have hrow' : row ∈ flush.rows := by
    rw [hslc, mem_slice]
    exact ⟨hrow, by omega, by omega⟩
  have hord : Ordered (·.seq) flush.rows := by
    rw [hslc]
    exact h.ordered.slice _ _
  have hle := hord.le_getLast (cons_ne_nil _ _) hrow'
  rw [hseqLast]
  refine ⟨le_antisymm hmem.2.2 ?_, hlt, hslc⟩
  rw [← hseq, hls]
  exact hle

end Publishing

/-- The head in the bucket is one the storage knows of, or nothing was stored since it was
published.  Only asked when no flush is under way. -/
def headRecorded (store : Store) : Option Work → Option File → Bool
  | none, some (.head head) => head.segment ≤ store.segment || head.seq = store.seq
  | _, _ => true

/-- No flush begins with a head that the storage does not know of and messages stored since. -/
def Act.Recorded (s : State) : Act → Prop
  | .alarm => headRecorded s.store s.work (s.bucket .head) = true
  | _ => True

instance (s : State) : ∀ act : Act, Decidable (act.Recorded s)
  | .alarm => inferInstanceAs (Decidable (_ = true))
  | .receive _ _ | .gone _ _ _ _ | .land | .settle _ | .proceed _ | .request _ | .body _ | .init _
  | .initLand _ | .initSettle _ _ | .wipe | .wipeProceed _ _ | .restart =>
    inferInstanceAs (Decidable True)

namespace Publishing

theorem alarm (h : Publishing s) (hcd : Act.Recorded s .alarm) :
    Publishing (s.step length .alarm) := by
  rw [State.step]
  by_cases hwk : s.work.isSome
  · rw [if_pos hwk]
    exact h
  rw [if_neg hwk]
  have hlv : s.store.live = true := by
    rw [Store.live, h.mission, h.stopped]
    rfl
  rw [State.publish, if_neg (by simp [hlv]), if_neg (by simp [h.recordingDue]), State.flushLive,
    if_neg (by simp [h.recorded])]
  split
  · exact h
  rename_i first rest hrws
  obtain ⟨hls, hlt, hslc⟩ :=
    h.lastSeq_eq (show _ = (Flush.mk first rest (s.store.segment + 1)).rows from hrws)
  refine h.issue ⟨⟨rfl, ?_, ?_, ?_, ?_⟩, false, rfl, fun hno => (nomatch hno)⟩
  · rw [hls]
    exact hslc
  · rw [hls]
    exact hlt
  · exact le_of_eq hls
  -- a head published for this segment is the newest one, and nothing came since
  intro head hhe hsegment
  replace hsegment : head.segment = s.store.segment + 1 := hsegment
  obtain ⟨newest, hnewest, hbkt, hmax⟩ := h.newest
  have hseg : newest.segment = s.store.segment + 1 :=
    le_antisymm (h.head_le newest hnewest) (hsegment ▸ hmax head hhe)
  have hnn : s.work = none := Option.not_isSome_iff_eq_none.mp hwk
  rw [Act.Recorded, hnn, hbkt, headRecorded, Bool.or_eq_true, decide_eq_true_eq,
    decide_eq_true_eq] at hcd
  rcases hcd with _ | hseq
  · omega
  · rw [hls, ← hseq, h.head_seq head hhe, h.head_seq newest hnewest, hseg, hsegment]

/-! ## Puts that land -/

/-- A put of messages lands, and repeats what a head names if one does. -/
theorem landLines (h : Publishing s) {lines : List StoredMessage} {work : Work}
    (hhe : path ≠ .head)
    (hseg : ∀ segment, path = .segment 1 (segment + 1) → Published s.heads (segment + 1) →
      lines = s.between segment (segment + 1))
    (hchk : ∀ number, path = .checkpoint 1 (number + 1) →
      Published s.heads ((number + 1) * checkpointSegments) →
        lines = s.between (number * checkpointSegments) ((number + 1) * checkpointSegments))
    (hw : WorkOk s.store (update s.bucket path (some (.lines lines))) s.heads work) :
    Publishing { s with
      bucket := update s.bucket path (some (.lines lines)), work := some work } := by
  refine { h with newest := ?_, segments := ?_, checkpoints := ?_, work := ?_ }
  · obtain ⟨head, hmem, hbkt, hmax⟩ := h.newest
    refine ⟨head, hmem, ?_, hmax⟩
    show update s.bucket path _ .head = _
    rw [update_of_ne hhe.symm]
    exact hbkt
  · intro segment hp
    show update s.bucket path _ _ = some (.lines (s.between segment (segment + 1)))
    by_cases hpt : path = .segment 1 (segment + 1)
    · rw [← hpt, update_self, hseg segment hpt hp]
    rw [update_of_ne (Ne.symm hpt)]
    exact h.segments segment hp
  · intro number hp
    show update s.bucket path _ _ = some (.lines (s.between _ _))
    by_cases hpt : path = .checkpoint 1 (number + 1)
    · rw [← hpt, update_self, hchk number hpt hp]
    rw [update_of_ne (Ne.symm hpt)]
    exact h.checkpoints number hp
  · intro w hsm
    rw [← Option.some.inj hsm]
    exact hw

variable {number : ℕ}

variable (h : Publishing s)

include h

section

variable (hf : FlushOk s.store s.heads flush)

include hf

/-- A segment that a head names ends where the flush ends. -/
theorem cut_flush
    (hp : Published s.heads flush.segment) : cut s.heads flush.segment = flush.lastSeq := by
  obtain ⟨head, hhe, hseg⟩ := hp
  rw [← hseg, ← h.head_seq head hhe]
  exact hf.agrees head hhe hseg

/-- A checkpoint that is due ends with the segment of the flush. -/
theorem checkpoint_succ (hmod : flush.segment % checkpointSegments = 0) :
    (s.store.checkpoint + 1) * checkpointSegments = flush.segment := by
  have hseg := hf.segment
  have hchk := h.checkpoint
  simp only [checkpointSegments] at hmod hchk ⊢
  omega

theorem checkpoint_same (hmod : flush.segment % checkpointSegments ≠ 0) :
    s.store.checkpoint = flush.segment / checkpointSegments := by
  have hseg := hf.segment
  have hchk := h.checkpoint
  simp only [checkpointSegments] at hmod hchk ⊢
  omega

/-- What a flush has read is what lies between the cuts, if a head names its segment. -/
theorem rows_eq_between {segment : ℕ}
    (hseg : flush.segment = segment + 1) (hp : Published s.heads (segment + 1)) :
    flush.rows = s.between segment (segment + 1) := by
  have hstr : segment = s.store.segment := by
    have := hf.segment
    omega
  rw [← hseg] at hp ⊢
  rw [State.between, h.cut_flush hf hp, hf.rows, hstr, h.cut_flushed]

theorem landSegment :
    Publishing { s with
      bucket := update s.bucket (.segment 1 flush.segment) (some (.lines flush.rows))
      work := some (.segment flush
        (.put ⟨.segment 1 flush.segment, .lines flush.rows, true⟩)) } := by
  refine h.landLines (fun heq => nomatch heq) ?_ (fun _ heq => nomatch heq)
    ⟨hf, true, rfl, fun _ => update_self ..⟩
  intro _ hpt hp
  exact h.rows_eq_between hf (Path.segment.inj hpt).2 hp

theorem landCheckpoint (hth : SegmentThere s.bucket flush)
    (hmod : flush.segment % checkpointSegments = 0) (hnum : number = s.store.checkpoint + 1) :
    Publishing { s with
      bucket := update s.bucket (.checkpoint 1 number) (some (checkpointLines s.store flush))
      work := some (.checkpoint flush number
        (.put ⟨.checkpoint 1 number, checkpointLines s.store flush, true⟩)) } := by
  refine h.landLines (fun heq => nomatch heq) (fun _ heq => nomatch heq) ?_ ?_
  · intro n hpt hp
    -- the checkpoint ends with the segment of the flush
    have hn : n = s.store.checkpoint := by
      have := (Path.checkpoint.inj hpt).2
      omega
    rw [hn, h.checkpoint_succ hf hmod] at hp
    rw [State.between, hn, h.checkpoint_succ hf hmod, h.cut_flush hf hp, h.cut_checkpoint]
  · refine ⟨hf, ?_, hmod, hnum, true, rfl, fun _ => update_self ..⟩
    exact (update_of_ne (by simp) _ _).trans hth

/-- The head of a flush lands. -/
theorem landHead {head : ShareHead} {truncated : Bool}
    (hdef : head = ⟨1, flush.segment, number, flush.lastSeq, truncated, false⟩)
    (hth : SegmentThere s.bucket flush) (hchk : CheckpointThere s.store s.bucket flush)
    (hnum : number = flush.segment / checkpointSegments) :
    Publishing { s with
      bucket := update s.bucket .head (some (.head head))
      heads := s.heads ++ [head]
      work := some (.head flush number (.put ⟨.head, .head head, true⟩)) } := by
  have hseg : head.segment = flush.segment := by rw [hdef]
  have hseq : head.seq = flush.lastSeq := by rw [hdef]
  have hstr := hf.segment
  have hcat : ∀ {P : ShareHead → Prop}, (∀ other ∈ s.heads, P other) → P head →
      ∀ other ∈ s.heads ++ [head], P other :=
    fun hold hnew => forall_mem_append.mpr ⟨hold, forall_mem_singleton.mpr hnew⟩
  -- the cuts that were there stay, and the new one is where the flush ends
  have hold : ∀ k, Published s.heads k → cut (s.heads ++ [head]) k = cut s.heads k :=
    fun k hk => cut_append hk [head]
  have hnew : cut (s.heads ++ [head]) flush.segment = flush.lastSeq := by
    by_cases hp : Published s.heads flush.segment
    · rw [hold _ hp, h.cut_flush hf hp]
    rw [← hseg] at hp ⊢
    rw [cut_concat hp, hseq]
  have hflsh : cut (s.heads ++ [head]) s.store.segment = s.store.flushedSeq := by
    rw [hold _ (h.published _ le_rfl), h.cut_flushed]
  have hle : s.store.checkpoint * checkpointSegments ≤ s.store.segment := by
    rw [h.checkpoint]
    exact Nat.div_mul_le_self _ _
  have hchkd : cut (s.heads ++ [head]) (s.store.checkpoint * checkpointSegments) =
      s.store.checkpointSeq := by
    rw [hold _ (h.published _ hle), h.cut_checkpoint]
  have hbelow : ∀ k, Published s.heads (k + 1) → Published s.heads k := by
    rintro k ⟨other, ho, _⟩
    have := h.head_le other ho
    exact h.published k (by omega)
  have hlns : ∀ path, path ≠ .head →
      update s.bucket .head (some (.head head)) path = s.bucket path :=
    fun path hpt => update_of_ne hpt _ _
  refine { h with
    head_live := ?_, head_checkpoint := ?_, head_seq := ?_, head_le := ?_, seq_le := ?_
    sorted := ?_, published := ?_, newest := ?_, cut_zero := ?_, cut_flushed := hflsh
    cut_checkpoint := hchkd, cut_le := ?_, segments := ?_, checkpoints := ?_, work := ?_ }
  · refine hcat h.head_live ?_
    rw [hdef]
    exact ⟨rfl, rfl⟩
  · refine hcat h.head_checkpoint ?_
    rw [hdef]
    exact hnum
  · refine hcat (fun other ho => ?_) ?_
    · exact (h.head_seq other ho).trans (hold _ ⟨other, ho, rfl⟩).symm
    rw [hseg, hseq]
    exact hnew.symm
  · refine hcat h.head_le ?_
    rw [hseg, hstr]
  · refine hcat h.seq_le ?_
    rw [hseq]
    exact hf.le
  · refine pairwise_append.mpr ⟨h.sorted, pairwise_singleton _ _, ?_⟩
    intro other ho _ hnew
    rw [mem_singleton.mp hnew, hseg, hstr]
    exact h.head_le other ho
  · exact fun k hk => published_concat.mpr (.inl (h.published k hk))
  · have hput : update s.bucket .head (some (.head head)) .head = some (.head head) :=
      update_self ..
    refine ⟨head, mem_concat_self, hput, hcat ?_ le_rfl⟩
    rw [hseg, hstr]
    exact h.head_le
  · exact (hold 0 (h.published 0 (Nat.zero_le _))).trans h.cut_zero
  · intro k hp
    show cut (s.heads ++ [head]) k ≤ cut (s.heads ++ [head]) (k + 1)
    rcases published_concat.mp hp with hp | heq
    · rw [hold _ hp, hold _ (hbelow k hp)]
      exact h.cut_le k hp
    · have hk : k = s.store.segment := by omega
      rw [← heq, hseg, hnew, hk, hflsh]
      exact le_of_lt hf.lt
  · intro k hp
    refine (hlns (.segment 1 (k + 1)) (by simp)).trans ?_
    show s.bucket _ = some (.lines (slice (·.seq) s.store.log
      (cut (s.heads ++ [head]) k) (cut (s.heads ++ [head]) (k + 1))))
    rcases published_concat.mp hp with hp | heq
    · rw [hold _ hp, hold _ (hbelow k hp)]
      exact h.segments k hp
    · have hk : k = s.store.segment := by omega
      rw [← heq, hseg, hnew, hk, hflsh, ← hf.rows]
      exact hth
  · intro n hp
    refine (hlns (.checkpoint 1 (n + 1)) (by simp)).trans ?_
    show s.bucket _ = some (.lines (slice (·.seq) s.store.log
      (cut (s.heads ++ [head]) (n * checkpointSegments))
      (cut (s.heads ++ [head]) ((n + 1) * checkpointSegments))))
    have hcheck := h.checkpoint
    rcases published_concat.mp hp with hp | heq
    · have hfst : Published s.heads (n * checkpointSegments) := by
        obtain ⟨other, ho, heq⟩ := hp
        have := h.head_le other ho
        refine h.published _ ?_
        simp only [checkpointSegments] at heq ⊢
        omega
      rw [hold _ hp, hold _ hfst]
      exact h.checkpoints n hp
    · have hn : n = s.store.checkpoint := by
        simp only [checkpointSegments] at heq hcheck
        omega
      have hmod : flush.segment % checkpointSegments = 0 := by
        rw [← hseg, heq]
        exact Nat.mul_mod_left _ _
      rw [← heq, hseg, hnew, hn, hchkd]
      exact hchk hmod
  · intro w hsm
    rw [← Option.some.inj hsm]
    refine ⟨⟨hstr, hf.rows, hf.lt, hf.le, hcat hf.agrees fun _ => hseq⟩, ?_, ?_, hnum, true,
      truncated, ?_, ?_⟩
    · exact (hlns _ (by simp)).trans hth
    · exact fun hmod => (hlns _ (by simp)).trans (hchk hmod)
    · rw [hdef]
    · exact fun _ => published_concat.mpr (.inr hseg)

end

theorem land : Publishing (s.step length .land) := by
  rw [State.step, State.landWork]
  cases hwk : s.work with
  | none => exact h
  | some work =>
    have hw := h.work work hwk
    cases work with
    | segment =>
      obtain ⟨hf, landed, rfl, -⟩ := hw
      cases landed with
      | true => exact h
      | false => exact h.landSegment hf
    | checkpoint =>
      obtain ⟨hf, hth, hmod, hnum, landed, rfl, -⟩ := hw
      cases landed with
      | true => exact h
      | false => exact h.landCheckpoint hf hth hmod hnum
    | head =>
      obtain ⟨hf, hth, hchk, hnum, landed, _, rfl, -⟩ := hw
      cases landed with
      | true => exact h
      | false => exact h.landHead hf rfl hth hchk hnum
    | _ => exact hw.elim

/-! ## Puts that settle -/

section

variable (hf : FlushOk s.store s.heads flush)

include hf

theorem flushHead
    (hth : SegmentThere s.bucket flush) (hchk : CheckpointThere s.store s.bucket flush)
    (hnum : number = flush.segment / checkpointSegments) :
    Publishing (s.flushHead flush number) :=
  h.issue ⟨hf, hth, hchk, hnum, false, s.store.truncated, rfl,
    fun hno => (nomatch hno)⟩

theorem flushCheckpoint
    (hth : SegmentThere s.bucket flush) : Publishing (s.flushCheckpoint flush) := by
  rw [State.flushCheckpoint]
  by_cases hmod : flush.segment % checkpointSegments = 0
  · rw [if_pos hmod]
    exact h.issue ⟨hf, hth, hmod, rfl, false, rfl, fun hno => (nomatch hno)⟩
  · rw [if_neg hmod]
    exact h.flushHead hf hth (fun hzero => absurd hzero hmod) (h.checkpoint_same hf hmod)

/-- The object takes note of the flush, whose head is published. -/
theorem flushDone
    (hnum : number = flush.segment / checkpointSegments) (hp : Published s.heads flush.segment) :
    Publishing (s.flushDone flush number) := by
  have hstr := hf.segment
  have hcut := h.cut_flush hf hp
  refine { h with
    checkpoint := ?_, head_le := ?_, published := ?_, cut_flushed := hcut, cut_checkpoint := ?_
    work := fun _ hw => nomatch hw }
  · show (if flush.segment % checkpointSegments = 0 then number else s.store.checkpoint) = _
    split
    · exact hnum
    rename_i hmod
    exact h.checkpoint_same hf hmod
  · intro head hhe
    have hle := h.head_le head hhe
    show head.segment ≤ flush.segment + 1
    omega
  · intro k hk
    replace hk : k ≤ flush.segment := hk
    rcases Nat.lt_or_eq_of_le hk with _ | rfl
    · exact h.published k (by omega)
    · exact hp
  · show cut s.heads ((if flush.segment % checkpointSegments = 0 then number
      else s.store.checkpoint) * checkpointSegments) =
        if flush.segment % checkpointSegments = 0 then flush.lastSeq else s.store.checkpointSeq
    by_cases hmod : flush.segment % checkpointSegments = 0
    · rw [if_pos hmod, if_pos hmod, hnum, Nat.div_mul_cancel (Nat.dvd_of_mod_eq_zero hmod), hcut]
    rw [if_neg hmod, if_neg hmod]
    exact h.cut_checkpoint

end

theorem settle (ok : Bool) : Publishing (s.step length (.settle ok)) := by
  rw [State.step]
  cases hwk : s.work with
  | none =>
    rw [State.settleWork, hwk]
    exact h
  | some work =>
    have hw := h.work work hwk
    cases work with
    | segment =>
      obtain ⟨hf, _, rfl, hput⟩ := hw
      refine settleWork_of_put hwk rfl rfl h.writable h h.stop (fun hln => ?_) ok
      exact h.flushCheckpoint hf (hput hln)
    | checkpoint =>
      obtain ⟨hf, hth, hmod, hnum, _, rfl, hput⟩ := hw
      refine settleWork_of_put hwk rfl rfl h.writable h h.stop (fun hln => ?_) ok
      refine h.flushHead hf hth (fun _ => ?_) ?_
      · rw [← hnum]
        exact hput hln
      · rw [hnum, ← h.checkpoint_succ hf hmod, Nat.mul_div_cancel _ (by decide)]
    | head =>
      obtain ⟨hf, _, _, hnum, _, _, rfl, hput⟩ := hw
      refine settleWork_of_put hwk rfl rfl h.writable h h.stop (fun hln => ?_) ok
      exact h.flushDone hf hnum (hput hln)
    | _ => exact hw.elim

/-- **The invariant of a live share** is kept by every step that meets the condition. -/
theorem step {act : Act} (hlv : act.Live) (hcd : act.Recorded s) :
    Publishing (s.step length act) := by
  cases act with
  | receive socket frame => exact h.fed (fed_receive length socket frame)
  | gone socket ended resumed cleared => exact h.fed (fed_gone length socket ended resumed cleared)
  | alarm => exact h.alarm length hcd
  | land => exact h.land length
  | settle ok => exact h.settle length ok
  | restart =>
    exact { h with work := fun _ hw => nomatch hw }
  | _ => exact hlv.elim

end Publishing

theorem publishing_started (mission : String) : Publishing (.started mission) where
  shared := rfl
  mission := rfl
  stopped := rfl
  recordingDue := rfl
  recorded := rfl
  ordered := ordered_nil
  le_seq _ hrow := nomatch hrow
  top hne := absurd rfl hne
  checkpoint := by simp [State.started]
  head_live := by simp [State.started, State.firstHead]
  head_checkpoint := by simp [State.started, State.firstHead]
  head_seq := by simp [State.started, State.firstHead, cut]
  head_le := by simp [State.started, State.firstHead]
  seq_le := by simp [State.started, State.firstHead]
  sorted := pairwise_singleton _ _
  published segment hle := ⟨State.firstHead, mem_singleton_self _, (Nat.le_zero.mp hle).symm⟩
  newest := ⟨State.firstHead, mem_singleton_self _, rfl,
    fun other ho => le_of_eq (congrArg _ (mem_singleton.mp ho))⟩
  cut_zero := rfl
  cut_flushed := rfl
  cut_checkpoint := rfl
  cut_le segment hp := by simp [State.started, State.firstHead, Published] at hp
  segments segment hp := by simp [State.started, State.firstHead, Published] at hp
  checkpoints number hp := by
    simp [State.started, State.firstHead, Published, checkpointSegments] at hp
  work _ hw := nomatch hw

end Intar.Share
