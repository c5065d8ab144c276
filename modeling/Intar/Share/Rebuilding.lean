import Intar.Share.LiveLog

/-!
# The rebuild of a share

Once the recordings are archived, the share is republished as the next generation.  The rebuild goes
through the sessions that were known when it began.  It copies what was captured of each, or puts a
verified recording in its place, and then deletes the log.  All the while frames come in and are stored.

What the rebuild has emitted is the files it has written, the chunk it is filling and what is pending,
and it is the messages of the sessions that are done, one after another (`Emitted`).  A session that
is done has everything that was stored of it before the rebuild began, except that its writer had
dropped, or it was replaced (`Held`).
-/

namespace Intar.Share

open Function List

/-- What happens to a share that is set up and not stopped. -/
def Act.Unstopped : Act → Prop
  | .init _ | .initLand _ | .initSettle _ _ | .wipe | .wipeProceed _ _ => False
  | _ => True

/-! ## What is stored of a session -/

/-- The messages of a session, in order. -/
def sessionLog (log : List StoredMessage) (id : SessionId) : List Message :=
  (log.map (·.message)).filter fun message => message.session = some id

/-- The messages of a session up to a number, without those that say that its writer dropped. -/
def capturedUpTo (log : List StoredMessage) (began : ℕ) (id : SessionId) : List Message :=
  (sessionLog (log.filter fun row => row.seq ≤ began) id).filter fun message => message ≠ .detach id

variable {row : StoredMessage} {id : SessionId}

section

variable {log : List StoredMessage} {began : ℕ}

theorem capturedUpTo_sublist (log : List StoredMessage) (began : ℕ) (id : SessionId) :
    (capturedUpTo log began id).Sublist
      ((sessionLog log id).filter fun message => message ≠ .detach id) :=
  ((filter_sublist.map _).filter _).filter _

theorem capturedUpTo_concat (h : began < row.seq) :
    capturedUpTo (log ++ [row]) began id = capturedUpTo log began id := by
  rw [capturedUpTo, filter_append, filter_cons_of_neg (by simpa using h), filter_nil,
    append_nil, capturedUpTo]

theorem sessionLog_isPrefix_concat (log : List StoredMessage) (row : StoredMessage) (id : SessionId) :
    sessionLog log id <+: sessionLog (log ++ [row]) id := by
  rw [sessionLog, sessionLog, map_append, filter_append]
  exact prefix_append _ _

theorem mem_capturedUpTo (hrow : row ∈ log) (hle : row.seq ≤ began)
    (hses : row.message.session = some id) (hdetach : row.message ≠ .detach id) :
    row.message ∈ capturedUpTo log began id := by
  rw [capturedUpTo, sessionLog, mem_filter, mem_filter, mem_map]
  refine ⟨⟨⟨row, mem_filter.mpr ⟨hrow, decide_eq_true hle⟩, rfl⟩, ?_⟩, ?_⟩
  · exact decide_eq_true hses
  · exact decide_eq_true hdetach

end

/-! ## What the rebuild has done -/

/-- The messages are those of a recording of the session: its capture has a hole but began with the
session, and one of the recordings of its VM near its start says what was shared before the hole. -/
def Replaces (log : List StoredMessage) (recordings : List VmRecordings) (session : LiveSession)
    (messages : List Message) : Prop :=
  session.incomplete = true ∧ session.midSession = false ∧
    (∃ vm ∈ recordings, vm.vmId = session.vmId ∧ ∃ candidate ∈ vm.sessions,
      session.atMs ≤ candidate.startMs + recordingEarlyMs ∧
      candidate.startMs ≤ session.atMs + recordingLateMs) ∧
    (∃ cast, castMessages cast session = some messages) ∧
    ∃ captured, captured <+: sessionLog log session.id ∧
      minVerifiedOutput ≤ (comparableOutput (outputBeforeHole [] captured)).length ∧
      sharedMatchesRecording (comparableOutput (outputBeforeHole [] captured))
        (recordedOutput messages (comparableOutput (outputBeforeHole [] captured)).length) = true

/-- A session that is done, with the messages emitted for it. -/
def Held (log : List StoredMessage) (r : Rebuild) (done : LiveSession × List Message) : Prop :=
  (capturedUpTo log r.began done.1.id).Sublist done.2 ∨ Replaces log r.recordings done.1 done.2

/-- The rebuild has written the files `parts` and is through with the sessions `done`. -/
structure Emitted (log : List StoredMessage) (bucket : Path → Option File) (r : Rebuild)
    (todo : List LiveSession) (done : List (LiveSession × List Message))
    (parts : List (List StoredMessage)) : Prop where
  count : parts.length = r.segment
  files : ∀ i part, parts[i]? = some part →
    bucket (.segment r.generation (i + 1)) = some (.lines part)
  messages : (parts.flatten ++ r.chunk).map (·.message) ++ r.pending = done.flatMap (·.2)
  covers : ∀ row ∈ log, row.seq ≤ r.began → ∀ id, row.message.session = some id →
    (∃ session ∈ todo, session.id = id) ∨ ∃ d ∈ done, d.1.id = id
  held : ∀ d ∈ done, Held log r d

def Rebuilding (log : List StoredMessage) (seq : ℕ) (bucket : Path → Option File) (r : Rebuild)
    (todo : List LiveSession) : Prop :=
  r.began ≤ seq ∧ ∃ done parts, Emitted log bucket r todo done parts

/-- Everything is emitted and written. -/
def Rebuild.Done (r : Rebuild) : Prop := r.pending = [] ∧ r.sessions = [] ∧ r.chunk = []

/-- The head that viewers are switched to. -/
def Rebuild.head (r : Rebuild) : ShareHead :=
  { generation := r.generation, segment := r.segment, checkpoint := 0, seq := r.seq,
    truncated := r.truncated, recorded := true }

/-- What `verifiedRecording` knows of its session. -/
structure Checking (log : List StoredMessage) (r : Rebuild) (v : Verifying) : Prop where
  pending : r.pending = []
  incomplete : v.session.incomplete = true
  midSession : v.session.midSession = false
  shared : ∃ captured, captured <+: sessionLog log v.session.id ∧
    v.shared = comparableOutput (outputBeforeHole [] captured)
  enough : minVerifiedOutput ≤ v.shared.length
  candidates : ∀ candidate ∈ v.candidates,
    ∃ vm ∈ r.recordings, vm.vmId = v.session.vmId ∧ candidate ∈ vm.sessions ∧
      v.session.atMs ≤ candidate.startMs + recordingEarlyMs ∧
      candidate.startMs ≤ v.session.atMs + recordingLateMs
  winner : ∀ winner, v.winner = some winner → Replaces log r.recordings v.session winner.messages

def WorkKept (log : List StoredMessage) (seq : ℕ) (bucket : Path → Option File) : Work → Prop
  | .rebuilding r => Rebuilding log seq bucket r r.sessions
  | .verifying r v => Rebuilding log seq bucket r (v.session :: r.sessions) ∧ Checking log r v
  | .writing r await => Rebuilding log seq bucket r r.sessions ∧
      Putting bucket await (.segment r.generation (r.segment + 1)) (.lines r.chunk)
  | .finishing r await => Rebuilding log seq bucket r r.sessions ∧ r.Done ∧
      Putting bucket await .head (.head r.head)
  | .sweeping r => Rebuilding log seq bucket r r.sessions ∧ r.Done ∧
      bucket .head = some (.head r.head)
  | .segment _ _ | .checkpoint _ _ _ | .head _ _ _ => True

/-- Every message that is stored belongs to a session of the table. -/
def Known (log : List StoredMessage) (sessions : List LiveSession) : Prop :=
  ∀ row ∈ log, ∀ id, row.message.session = some id → ∃ session ∈ sessions, session.id = id

structure Kept (s : State) : Prop where
  writable : s.store.writable = true
  le_seq : ∀ row ∈ s.store.log, row.seq ≤ s.store.seq
  known : Known s.store.log s.store.sessions
  attached : ∀ socket id, s.attachments socket = some id → ∃ session ∈ s.store.sessions, session.id = id
  work : ∀ work, s.work = some work → WorkKept s.store.log s.store.seq s.bucket work

/-! ## A log that grows under a rebuild -/

variable {seq : ℕ} {bucket : Path → Option File} {r : Rebuild} {todo : List LiveSession}
  {v : Verifying} {work : Work}

section

variable {log : List StoredMessage}
 

theorem Replaces.concat {recordings : List VmRecordings} {session : LiveSession}
    {messages : List Message} (h : Replaces log recordings session messages) :
    Replaces (log ++ [row]) recordings session messages := by
  obtain ⟨hincomplete, hmid, hvm, hcast, captured, hpre, hmt⟩ := h
  exact ⟨hincomplete, hmid, hvm, hcast, captured, hpre.trans (sessionLog_isPrefix_concat log row _), hmt⟩

theorem Rebuilding.concat (h : Rebuilding log seq bucket r todo) (hrow : row.seq = seq + 1) :
    Rebuilding (log ++ [row]) (seq + 1) bucket r todo := by
  obtain ⟨hbg, done, parts, he⟩ := h
  have hlt : r.began < row.seq := by omega
  refine ⟨hbg.trans (Nat.le_succ _), done, parts, { he with covers := ?_, held := ?_ }⟩
  · intro x hx hle
    rcases mem_append.mp hx with hx | hx
    · exact he.covers x hx hle
    rw [mem_singleton.mp hx] at hle
    omega
  · intro d hd
    rcases he.held d hd with hsub | hrepl
    · refine .inl ?_
      rw [capturedUpTo_concat hlt]
      exact hsub
    · exact .inr hrepl.concat

theorem Checking.concat (h : Checking log r v) : Checking (log ++ [row]) r v := by
  obtain ⟨captured, hpre, hshr⟩ := h.shared
  exact { h with
    shared := ⟨captured, hpre.trans (sessionLog_isPrefix_concat log row _), hshr⟩
    winner := fun winner hwin => (h.winner winner hwin).concat }

theorem WorkKept.concat (h : WorkKept log seq bucket work) (hrow : row.seq = seq + 1) :
    WorkKept (log ++ [row]) (seq + 1) bucket work := by
  cases work with
  | rebuilding => exact Rebuilding.concat h hrow
  | verifying => exact ⟨h.1.concat hrow, h.2.concat⟩
  | writing | finishing | sweeping => exact ⟨h.1.concat hrow, h.2⟩
  | _ => trivial

end

/-! ### Frames -/

def HasSession (sessions : List LiveSession) (id : SessionId) : Prop :=
  ∃ session ∈ sessions, session.id = id

/-- What a frame does to the storage: a session stays in the table, and a message that is stored
belongs to one. -/
structure Stored (s t : Store) : Prop where
  writable : t.writable = s.writable
  sessions : ∀ id, HasSession s.sessions id → HasSession t.sessions id
  log : (t.log = s.log ∧ t.seq = s.seq) ∨
    ∃ message, t.log = s.log ++ [⟨s.seq + 1, message⟩] ∧ t.seq = s.seq + 1 ∧
      ∀ id, message.session = some id → HasSession t.sessions id

theorem hasSession_markIncomplete (s : Store) (session : SessionId)
    (reason : LiveSession → LiveSession) (hreason : ∀ row, (reason row).id = row.id)
    (h : HasSession s.sessions id) : HasSession (s.markIncomplete session reason).sessions id := by
  obtain ⟨row, hrow, hid⟩ := h
  refine ⟨_, mem_map.mpr ⟨row, hrow, rfl⟩, ?_⟩
  split
  · exact (hreason row).trans hid
  · exact hid

variable {message : Message} {s : Store} {log : List StoredMessage} {session : LiveSession}
  {sessions : List LiveSession}

theorem stored_append (s : Store) (length : StoredMessage → ℕ)
    (h : ∀ id, message.session = some id → HasSession s.sessions id) :
    Stored s (s.append length message) := by
  have hkeep : ∀ total, Stored s (s.store message total) := fun total =>
    ⟨rfl, fun _ hid => hid, .inr ⟨message, rfl, rfl, h⟩⟩
  rw [Store.append]
  split
  · exact ⟨rfl, fun _ hid => hid, .inl ⟨rfl, rfl⟩⟩
  cases message with
  | events session =>
    dsimp only
    split
    · exact ⟨rfl, fun _ => hasSession_markIncomplete s session ({ · with truncated := true })
        fun _ => rfl, .inl ⟨rfl, rfl⟩⟩
    split
    · exact ⟨rfl, fun _ => hasSession_markIncomplete s session ({ · with truncated := true })
        fun _ => rfl, .inr ⟨.truncated, rfl, rfl, fun _ hno => by cases hno⟩⟩
    · exact hkeep _
  | gap session bytes =>
    have hmark : ∀ id, HasSession s.sessions id →
        HasSession (s.markIncomplete session ({ · with gap := true })).sessions id :=
      fun _ => hasSession_markIncomplete s session ({ · with gap := true }) fun _ => rfl
    exact ⟨rfl, hmark, .inr ⟨.gap session bytes, rfl, rfl, fun id hid => hmark id (h id hid)⟩⟩
  | _ => exact hkeep _

/-- A message of a frame belongs to a session of the table, if the session of the socket does. -/
theorem hasSession_toViewerMessage {t : Store} {attachment : Option SessionId} {frame : Frame}
    (h : s.toViewerMessage attachment frame = some (message, t))
    (hatd : ∀ id, attachment = some id → HasSession s.sessions id) :
    (∀ id, HasSession s.sessions id → HasSession t.sessions id) ∧
      ∀ id, message.session = some id → HasSession t.sessions id := by
  cases frame with
  | start =>
    simp only [Store.toViewerMessage] at h
    split at h
    · cases h
    split at h
    · cases h
    obtain ⟨rfl, rfl⟩ := Prod.mk.inj (Option.some.inj h)
    split
    · rename_i hkn
      refine ⟨fun _ hid => hid, fun id hid => ?_⟩
      obtain ⟨row, hrow, hrid⟩ := any_eq_true.mp hkn
      exact ⟨row, hrow, (of_decide_eq_true hrid).trans (Option.some.inj hid)⟩
    · refine ⟨?_, fun _ hid => ⟨_, mem_concat_self, Option.some.inj hid⟩⟩
      rintro id ⟨row, hrow, hrid⟩
      exact ⟨row, mem_append_left _ hrow, hrid⟩
  | gap =>
    cases attachment with
    | none => cases h
    | some =>
      simp only [Store.toViewerMessage] at h
      split at h
      · obtain ⟨rfl, rfl⟩ := Prod.mk.inj (Option.some.inj h)
        exact ⟨fun _ hid => hid, fun id hid => hatd id hid⟩
      · cases h
  | events =>
    cases attachment with
    | none => cases h
    | some =>
      obtain ⟨_, -, heq⟩ := Option.map_eq_some_iff.mp h
      obtain ⟨rfl, rfl⟩ := Prod.mk.inj heq
      exact ⟨fun _ hid => hid, fun id hid => hatd id hid⟩

namespace Kept

variable {s t : State} (length : StoredMessage → ℕ)

theorem stored (h : Kept s) (hst : Stored s.store t.store) (hbkt : t.bucket = s.bucket)
    (hwk : t.work = s.work)
    (hatd : ∀ socket id, t.attachments socket = some id →
      s.attachments socket = some id ∨ HasSession t.store.sessions id) : Kept t where
  writable := hst.writable.trans h.writable
  le_seq := by
    rcases hst.log with ⟨hlog, hseq⟩ | ⟨_, hlog, hseq, -⟩
    · rw [hlog, hseq]
      exact h.le_seq
    rw [hlog, hseq]
    intro row hrow
    rcases mem_append.mp hrow with hrow | hrow
    · exact (h.le_seq row hrow).trans (Nat.le_succ _)
    · rw [mem_singleton.mp hrow]
  known := by
    rcases hst.log with ⟨hlog, -⟩ | ⟨_, hlog, -, hmsg⟩
    · rw [hlog]
      exact fun row hrow id hid => hst.sessions id (h.known row hrow id hid)
    rw [hlog]
    intro row hrow id hid
    rcases mem_append.mp hrow with hrow | hrow
    · exact hst.sessions id (h.known row hrow id hid)
    rw [mem_singleton.mp hrow] at hid
    exact hmsg id hid
  attached socket id hid := by
    rcases hatd socket id hid with hold | hnew
    · exact hst.sessions id (h.attached socket id hold)
    · exact hnew
  work work hw := by
    rw [hwk] at hw
    rw [hbkt]
    have hkt := h.work work hw
    rcases hst.log with ⟨hlog, hseq⟩ | ⟨_, hlog, hseq, -⟩
    · rw [hlog, hseq]
      exact hkt
    · rw [hlog, hseq]
      exact hkt.concat rfl

theorem receive (h : Kept s) (socket : ℕ) (frame : Frame) : Kept (s.receive length socket frame) := by
  rw [State.receive]
  split
  · exact h
  rename_i message _ hstr
  obtain ⟨hsessions, hmsg⟩ := hasSession_toViewerMessage hstr (h.attached socket)
  obtain ⟨sessions, rfl⟩ := toViewerMessage_store hstr
  have happend := stored_append { s.store with sessions } length hmsg
  refine h.stored (t := State.append _ length message) ?_ rfl rfl ?_
  · exact ⟨happend.writable, fun id hid => happend.sessions id (hsessions id hid), happend.log⟩
  intro other id hid
  cases message with
  | start session =>
    replace hid : update s.attachments socket (some session) other = some id := hid
    by_cases ho : other = socket
    · rw [ho, update_self] at hid
      exact .inr (happend.sessions id (hmsg id hid))
    · rw [update_of_ne ho] at hid
      exact .inl hid
  | _ => exact .inl hid

theorem gone (h : Kept s) (socket : ℕ) (ended resumed cleared : Bool) :
    Kept (s.gone length socket ended resumed cleared) := by
  rw [State.gone]
  split
  · exact h
  rename_i session hses
  have hclr : Kept (if cleared then
      { s with attachments := update s.attachments socket none } else s) := by
    split
    · refine h.stored ⟨rfl, fun _ hid => hid, .inl ⟨rfl, rfl⟩⟩ rfl rfl fun other id hid => ?_
      replace hid : update s.attachments socket none other = some id := hid
      by_cases ho : other = socket
      · rw [ho, update_self] at hid
        cases hid
      · rw [update_of_ne ho] at hid
        exact .inl hid
    · exact h
  have hhas : HasSession (if cleared then
      { s with attachments := update s.attachments socket none } else s).store.sessions
        session := by
    split <;> exact h.attached socket session hses
  dsimp only
  split
  · exact hclr
  refine hclr.stored (stored_append _ length fun id hid => ?_) rfl rfl fun _ _ hid => .inl hid
  have : id = session := by
    split at hid <;> exact (Option.some.inj hid).symm
  rw [this]
  exact hhas

end Kept

/-! ## The steps of a rebuild -/

/-- A session is done: the messages for it are pending. -/
theorem Emitted.finish {done : List (LiveSession × List Message)}
    {parts : List (List StoredMessage)} (h : Emitted log bucket r (session :: sessions) done parts)
    (r' : Rebuild) (hpd : r.pending = []) (hseg : r'.segment = r.segment)
    (hgen : r'.generation = r.generation) (hck : r'.chunk = r.chunk)
    (hbg : r'.began = r.began) (hrecordings : r'.recordings = r.recordings)
    (hhd : Held log r (session, r'.pending)) :
    Emitted log bucket r' sessions (done ++ [(session, r'.pending)]) parts where
  count := h.count.trans hseg.symm
  files := by rw [hgen]; exact h.files
  messages := by
    have hmsgs := h.messages
    rw [hpd, append_nil] at hmsgs
    rw [hck, hmsgs, flatMap_append, flatMap_singleton]
  covers row hrow hle id hid := by
    rw [hbg] at hle
    rcases h.covers row hrow hle id hid with ⟨other, ho, hoid⟩ | ⟨d, hd, hdid⟩
    · rcases mem_cons.mp ho with rfl | ho
      · exact .inr ⟨_, mem_concat_self, hoid⟩
      · exact .inl ⟨other, ho, hoid⟩
    · exact .inr ⟨d, mem_append_left _ hd, hdid⟩
  held d hd := by
    rw [Held, hbg, hrecordings]
    rcases mem_append.mp hd with hd | hd
    · exact h.held d hd
    rw [mem_singleton.mp hd]
    exact hhd

theorem Rebuilding.setSessions
    (h : Rebuilding log seq bucket r todo) (sessions : List LiveSession) :
    Rebuilding log seq bucket { r with sessions } todo := by
  obtain ⟨hbg, done, parts, he⟩ := h
  exact ⟨hbg, done, parts, { he with held := he.held }⟩

theorem Rebuilding.capture (h : Rebuilding s.log s.seq bucket r (session :: sessions))
    (hpd : r.pending = []) :
    Rebuilding s.log s.seq bucket (r.capture s session) sessions := by
  obtain ⟨hbg, _, parts, he⟩ := h
  refine ⟨hbg, _, parts, he.finish (r.capture s session) hpd rfl rfl rfl rfl rfl ?_⟩
  refine .inl ((capturedUpTo_sublist s.log r.began session.id).trans ?_)
  exact sublist_append_left _ _

namespace Kept

variable {s : State} (length : StoredMessage → ℕ)

section

variable (h : Kept s)

include h

theorem setWork (hw : WorkKept s.store.log s.store.seq s.bucket work) : Kept { s with work := some work } :=
  { h with work := fun _ hsm => Option.some.inj hsm ▸ hw }

theorem stop : Kept { s with work := none } :=
  { h with work := fun _ hw => nomatch hw }

theorem issue {work : Await → Work} {path : Path} {file : File}
    (hw : WorkKept s.store.log s.store.seq s.bucket (work (.put ⟨path, file, false⟩))) :
    Kept (s.issue work path file) := by
  rw [State.issue, if_pos h.writable]
  exact h.setWork hw

theorem rebuild (hr : Rebuilding s.store.log s.store.seq s.bucket r r.sessions) :
    Kept (s.rebuild length r) := by
  have hwriting : Kept (s.issue (.writing r) (.segment r.generation (r.segment + 1))
      (.lines r.chunk)) := h.issue ⟨hr, false, rfl, fun hno => (nomatch hno)⟩
  rw [State.rebuild]
  split
  · rename_i hpd
    dsimp only
    split
    · exact hwriting
    obtain ⟨hbg, done, parts, he⟩ := hr
    refine h.setWork ⟨hbg, done, parts, { he with messages := ?_ }⟩
    have hmsgs := he.messages
    rw [hpd] at hmsgs
    simpa using hmsgs
  · rename_i session sessions hpd hsessions
    rw [hsessions] at hr
    dsimp only
    split
    · rename_i hcd
      refine h.setWork ⟨hr.setSessions sessions, hpd, hcd.1, hcd.2.1, ⟨_, prefix_rfl, rfl⟩, hcd.2.2, ?_,
        fun _ hno => nomatch hno⟩
      intro _ hcand
      obtain ⟨hmem, hnear⟩ := mem_filter.mp hcand
      obtain ⟨-, hely, hlate⟩ := of_decide_eq_true hnear
      cases hfind : r.recordings.find? fun vm => vm.vmId = session.vmId with
      | none =>
        rw [hfind] at hmem
        exact nomatch hmem
      | some vm =>
        rw [hfind] at hmem
        have hid := find?_some hfind
        exact ⟨vm, mem_of_find?_eq_some hfind, of_decide_eq_true hid, hmem, hely, hlate⟩
    · exact h.setWork ((hr.setSessions sessions).capture hpd)
  · rename_i hpd hsessions
    split
    · exact hwriting
    rename_i hck
    have hdn : r.Done := ⟨hpd, hsessions, not_not.mp hck⟩
    exact h.issue ⟨hr, hdn, false, rfl, fun hno => (nomatch hno)⟩

theorem verify (hr : Rebuilding s.store.log s.store.seq s.bucket r (v.session :: r.sessions))
    (hv : Checking s.store.log r v) (artifact : Option Artifact) :
    Kept (s.verify r v artifact) := by
  have hcapt : Kept { s with work := some (.rebuilding (r.capture s.store v.session)) } :=
    h.setWork (hr.capture hv.pending)
  unfold State.verify
  split
  · split
    · rename_i winner hwin
      obtain ⟨hbg, _, parts, he⟩ := hr
      exact h.setWork ⟨hbg, _, parts, he.finish (r.replace winner) hv.pending rfl rfl rfl rfl
        rfl (.inr (hv.winner winner hwin))⟩
    · exact hcapt
  · exact hcapt
  rename_i candidate candidates object hcands
  have hrs : ∀ x ∈ candidates, x ∈ v.candidates := by
    rw [hcands]
    exact fun x hx => mem_cons_of_mem _ hx
  split
  · exact hcapt
  split
  · exact hcapt
  rename_i hcast
  split
  · exact h.setWork ⟨hr, { hv with candidates := fun x hx => hv.candidates x (hrs x hx) }⟩
  rename_i hmt
  split
  · exact hcapt
  refine h.setWork ⟨hr, { hv with
    candidates := fun x hx => hv.candidates x (hrs x hx), winner := ?_ }⟩
  intro _ hwin
  rw [← Option.some.inj hwin]
  obtain ⟨vm, hvm, hid, hmem, hely, hlate⟩ := hv.candidates candidate (by
    rw [hcands]
    exact mem_cons_self)
  obtain ⟨captured, hpre, hshr⟩ := hv.shared
  refine ⟨hv.incomplete, hv.midSession, ⟨vm, hvm, hid, candidate, hmem, hely, hlate⟩,
    ⟨object.cast, hcast⟩, captured, hpre, ?_, ?_⟩
  · rw [← hshr]
    exact hv.enough
  · rw [← hshr]
    exact Bool.eq_true_of_not_eq_false hmt

theorem publishRecording : Kept s.publishRecording := by
  refine h.setWork ⟨le_rfl, [], [], rfl, fun _ _ hno => (nomatch hno), rfl, ?_, fun _ hno => nomatch hno⟩
  intro row hrow _ id hid
  obtain ⟨session, hses, hsid⟩ := h.known row hrow id hid
  exact .inl ⟨session, mem_mergeSort.mpr hses, hsid⟩

theorem alarm : Kept (s.step length .alarm) := by
  rw [State.step]
  split
  · exact h
  rw [State.publish]
  split
  · exact h
  split
  · exact h.publishRecording
  rw [State.flushLive]
  split
  · exact h
  split
  · exact h
  · exact h.issue trivial

end

/-- The files that are written are not touched. -/
theorem rebuilding_put {log : List StoredMessage} {path : Path} {file : Option File}
    (h : Rebuilding log seq bucket r todo)
    (hpt : ∀ n ≤ r.segment, path ≠ .segment r.generation n) :
    Rebuilding log seq (update bucket path file) r todo := by
  obtain ⟨hbg, done, parts, he⟩ := h
  refine ⟨hbg, done, parts, { he with files := fun i part hpart => ?_ }⟩
  have hlt := (List.getElem?_eq_some_iff.mp hpart).1
  have hcn := he.count
  rw [update_of_ne (hpt (i + 1) (by omega)).symm]
  exact he.files i part hpart

variable (h : Kept s)

include h

/-- A put that lands keeps the rest of the state. -/
theorem landed {put : Put}
    (hw : WorkKept s.store.log s.store.seq (update s.bucket put.path (some put.file)) work) :
    Kept { s.putObject put with work := some work } :=
  { h with work := fun _ hsm => Option.some.inj hsm ▸ hw }

theorem land : Kept (s.step length .land) := by
  rw [State.step, State.landWork]
  cases hwk : s.work with
  | none => exact h
  | some work =>
    have hw := h.work work hwk
    cases work with
    | writing =>
      obtain ⟨hr, landed, rfl, -⟩ := hw
      cases landed with
      | true => exact h
      | false =>
        refine h.landed ⟨rebuilding_put hr fun n hn => ?_, true, rfl, fun _ => update_self ..⟩
        simp only [ne_eq, Path.segment.injEq, true_and]
        omega
    | finishing =>
      obtain ⟨hr, hdn, landed, rfl, -⟩ := hw
      cases landed with
      | true => exact h
      | false =>
        exact h.landed ⟨rebuilding_put hr fun n _ => by simp, hdn, true, rfl,
          fun _ => update_self ..⟩
    | rebuilding | verifying | sweeping => exact h
    | segment | checkpoint | head =>
      dsimp only
      split
      · exact h
      · exact h.landed trivial

/-- A flush goes on, fails, or takes note of what it did. -/
theorem settleFlush {await : Await} (hwk : s.work = some work) (haw : work.await = some await)
    (hset : ∀ a, WorkKept s.store.log s.store.seq s.bucket (work.setAwait a))
    (hresm : Kept (work.resume s)) (ok : Bool) : Kept (s.settleWork ok) := by
  cases await with
  | put =>
    rw [settleWork_put hwk haw]
    split
    · exact h.stop
    split
    · exact h.setWork (hset _)
    split
    · exact hresm
    · exact h.setWork (hset _)
  | delete path =>
    have hdel : Kept { s.deleteObject path with work := none } :=
      { h with work := fun _ hw => nomatch hw }
    cases work with
    | rebuilding | verifying | sweeping => cases haw
    | _ =>
      simp only [State.settleWork, hwk, haw, Await.settle]
      exact hdel

theorem flushHead (flush : Flush) (number : ℕ) : Kept (s.flushHead flush number) := h.issue trivial

theorem settle (ok : Bool) : Kept (s.step length (.settle ok)) := by
  rw [State.step]
  cases hwk : s.work with
  | none =>
    rw [State.settleWork, hwk]
    exact h
  | some work =>
    have hw := h.work work hwk
    cases work with
    | writing r =>
      obtain ⟨⟨hbg, done, parts, he⟩, _, rfl, hput⟩ := hw
      refine settleWork_of_put hwk rfl rfl h.writable h h.stop (fun hln => ?_) ok
      refine h.setWork ⟨hbg, done, parts ++ [r.chunk], ?_⟩
      refine { he with count := ?_, files := ?_, messages := ?_ }
      · rw [length_append, he.count]
        rfl
      · intro i part hpart
        rcases Nat.lt_or_ge i parts.length with hlt | _
        · rw [getElem?_append_left hlt] at hpart
          exact he.files i part hpart
        have hi : i = r.segment := by
          have hlt := (List.getElem?_eq_some_iff.mp hpart).1
          rw [length_append, he.count] at hlt
          have := he.count
          simp only [length_singleton] at hlt
          omega
        rw [hi, ← he.count, getElem?_concat_length] at hpart
        rw [hi, ← Option.some.inj hpart]
        exact hput hln
      · have hmsgs := he.messages
        simpa using hmsgs
    | finishing =>
      obtain ⟨hr, hdn, _, rfl, hput⟩ := hw
      refine settleWork_of_put hwk rfl rfl h.writable h h.stop (fun hln => ?_) ok
      exact h.setWork ⟨hr, hdn, hput hln⟩
    | sweeping =>
      rw [State.settleWork, hwk]
      dsimp only
      split
      · exact ⟨h.writable, fun _ hrow => absurd hrow not_mem_nil,
          fun _ hrow => absurd hrow not_mem_nil, h.attached, fun _ hw => by cases hw⟩
      · exact h.stop
    | rebuilding | verifying =>
      rw [State.settleWork, hwk]
      exact h
    | segment flush =>
      refine h.settleFlush hwk rfl (fun _ => trivial) ?_ ok
      rw [Work.resume, State.flushCheckpoint]
      split
      · exact h.issue trivial
      · exact h.flushHead flush _
    | checkpoint flush number =>
      exact h.settleFlush hwk rfl (fun _ => trivial) (h.flushHead flush number) ok
    | head =>
      exact h.settleFlush hwk rfl (fun _ => trivial)
        ⟨h.writable, h.le_seq, h.known, h.attached, fun _ hw => by cases hw⟩ ok

theorem proceed (artifact : Option Artifact) : Kept (s.step length (.proceed artifact)) := by
  rw [State.step, State.proceed]
  split
  · rename_i hwk
    exact h.rebuild length (h.work _ hwk)
  · rename_i hwk
    obtain ⟨hr, hv⟩ := h.work _ hwk
    exact h.verify hr hv artifact
  · exact h

theorem serve (request : Request) : Kept (s.serve request) := by
  cases request with
  | recording | vmComplete =>
    rw [State.serve]
    split
    · exact h
    · exact { h with work := h.work }

/-- **The invariant of a rebuild** is kept by everything that may happen to a share that is not
stopped. -/
theorem step {act : Act} (hact : act.Unstopped) : Kept (s.step length act) := by
  cases act with
  | receive socket frame => exact h.receive length socket frame
  | gone socket ended resumed cleared => exact h.gone length socket ended resumed cleared
  | alarm => exact h.alarm length
  | land => exact h.land length
  | settle ok => exact h.settle length ok
  | proceed artifact => exact h.proceed length artifact
  | request =>
    rw [State.step]
    split
    · exact h
    · exact { h with work := h.work }
  | body index =>
    rw [State.step]
    split
    · exact h
    rename_i request _
    exact Kept.serve (s := { s with requests := s.requests.eraseIdx index })
      { h with work := h.work } request
  | restart => exact { h with work := fun _ hw => nomatch hw }
  | _ => exact hact.elim

end Kept

end Intar.Share
