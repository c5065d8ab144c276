import Intar.Share.Object

/-!
# A share that is live

What can happen to a share that is neither stopped nor rebuilt, and what the frames of its producers
do to its storage: the log grows by a message with the next number, or stays as it is, and everything
that the flushes keep account of is left alone.
-/

namespace Intar.Share

open Trace (run)

/-! ## A live share -/

/-- What happens to a share that is neither stopped nor rebuilt. -/
def Act.Live : Act → Prop
  | .receive _ _ | .gone _ _ _ _ | .alarm | .land | .settle _ | .restart => True
  | _ => False

/-- The share after its set-up. -/
def State.started (mission : String) : State :=
  { store := { shared := true, mission := true }
    bucket := Function.update (Function.update (fun _ => none) .mission (some (.mission mission))) .head
      (some (.head firstHead))
    heads := [firstHead] }

/-! ## A log that grows -/

/-- What a frame or the end of a socket does to the storage of a live share. -/
structure Grown (s t : Store) : Prop where
  shared : t.shared = s.shared
  mission : t.mission = s.mission
  stopped : t.stopped = s.stopped
  recordingDue : t.recordingDue = s.recordingDue
  recorded : t.recorded = s.recorded
  segment : t.segment = s.segment
  flushedSeq : t.flushedSeq = s.flushedSeq
  checkpoint : t.checkpoint = s.checkpoint
  checkpointSeq : t.checkpointSeq = s.checkpointSeq
  log : (t.log = s.log ∧ t.seq = s.seq) ∨
    ∃ message, t.log = s.log ++ [⟨s.seq + 1, message⟩] ∧ t.seq = s.seq + 1

theorem grown_of_sessions (s : Store) (sessions : List LiveSession) (truncated : Bool) :
    Grown s { s with sessions, truncated } :=
  ⟨rfl, rfl, rfl, rfl, rfl, rfl, rfl, rfl, rfl, .inl ⟨rfl, rfl⟩⟩

theorem grown_store (s : Store) (sessions : List LiveSession) (truncated : Bool) (message : Message)
    (total : ℕ) :
    Grown s ({ s with sessions, truncated }.store message total) :=
  ⟨rfl, rfl, rfl, rfl, rfl, rfl, rfl, rfl, rfl, .inr ⟨message, rfl, rfl⟩⟩

theorem grown_append (s : Store) (length : StoredMessage → ℕ) (message : Message) :
    Grown s (s.append length message) := by
  rw [Store.append]
  split
  · exact grown_of_sessions s s.sessions s.truncated
  cases message with
  | events =>
    dsimp only
    split
    · exact grown_of_sessions s _ s.truncated
    split
    · exact grown_store s _ true .truncated _
    · exact grown_store s s.sessions s.truncated _ _
  | gap => exact grown_store s _ s.truncated _ _
  | _ => exact grown_store s s.sessions s.truncated _ _

/-- A session that is new to the table changes nothing of the log. -/
theorem toViewerMessage_store {s t : Store} {attachment : Option SessionId} {frame : Frame}
    {message : Message} (h : s.toViewerMessage attachment frame = some (message, t)) :
    ∃ sessions, t = { s with sessions } := by
  cases frame with
  | start =>
    simp only [Store.toViewerMessage] at h
    split at h
    · cases h
    split at h
    · cases h
    obtain ⟨-, rfl⟩ := Prod.mk.inj (Option.some.inj h)
    split
    · exact ⟨s.sessions, rfl⟩
    · exact ⟨_, rfl⟩
  | gap =>
    cases attachment with
    | none => cases h
    | some =>
      simp only [Store.toViewerMessage] at h
      split at h
      · obtain ⟨-, rfl⟩ := Prod.mk.inj (Option.some.inj h)
        exact ⟨s.sessions, rfl⟩
      · cases h
  | events =>
    cases attachment with
    | none => cases h
    | some =>
      obtain ⟨_, -, heq⟩ := Option.map_eq_some_iff.mp h
      obtain ⟨-, rfl⟩ := Prod.mk.inj heq
      exact ⟨s.sessions, rfl⟩

/-- What frames and lost sockets leave alone. -/
structure Fed (s t : State) : Prop where
  store : Grown s.store t.store
  bucket : t.bucket = s.bucket
  heads : t.heads = s.heads
  work : t.work = s.work
  inits : t.inits = s.inits
  wipes : t.wipes = s.wipes
  wiped : t.wiped = s.wiped

variable {s : State} (length : StoredMessage → ℕ)

theorem fed_receive (socket : ℕ) (frame : Frame) : Fed s (s.receive length socket frame) := by
  rw [State.receive]
  split
  · exact ⟨grown_of_sessions s.store s.store.sessions s.store.truncated, rfl, rfl, rfl, rfl, rfl, rfl⟩
  rename_i message _ hstr
  obtain ⟨sessions, rfl⟩ := toViewerMessage_store hstr
  obtain ⟨h₁, h₂, h₃, h₄, h₅, h₆, h₇, h₈, h₉, hlog⟩ :=
    grown_append { s.store with sessions } length message
  exact ⟨⟨h₁, h₂, h₃, h₄, h₅, h₆, h₇, h₈, h₉, hlog⟩, rfl, rfl, rfl, rfl, rfl, rfl⟩

theorem fed_gone (socket : ℕ) (ended resumed cleared : Bool) :
    Fed s (s.gone length socket ended resumed cleared) := by
  have hsm : Grown s.store s.store := grown_of_sessions s.store s.store.sessions s.store.truncated
  rw [State.gone]
  split
  · exact ⟨hsm, rfl, rfl, rfl, rfl, rfl, rfl⟩
  dsimp only
  split <;> split
  · exact ⟨hsm, rfl, rfl, rfl, rfl, rfl, rfl⟩
  · exact ⟨hsm, rfl, rfl, rfl, rfl, rfl, rfl⟩
  · exact ⟨grown_append s.store length _, rfl, rfl, rfl, rfl, rfl, rfl⟩
  · exact ⟨grown_append s.store length _, rfl, rfl, rfl, rfl, rfl, rfl⟩

/-- The await is a put of the file, which is in the bucket if it landed. -/
def Putting (bucket : Path → Option File) (await : Await) (path : Path) (file : File) : Prop :=
  ∃ landed, await = .put ⟨path, file, landed⟩ ∧ (landed = true → bucket path = some file)

variable {work : Work} {put : Put}

/-- The publish after its put has settled. -/
theorem settleWork_put (hwk : s.work = some work) (haw : work.await = some (.put put))
    (ok : Bool) :
    s.settleWork ok =
      if ok = false then { s with work := none }
      else if put.landed = false then { s with work := some (work.setAwait (.put put)) }
      else if s.store.writable then work.resume s
      else { s with work := some (work.setAwait (.delete put.path)) } := by
  cases work with
  | rebuilding | verifying | sweeping => cases haw
  | _ =>
    simp only [State.settleWork, hwk, haw, Await.settle]
    split_ifs <;> rfl

/-- What holds after the put of a publish that may write: it was lost, is still waited for, or is there
to stay. -/
theorem settleWork_of_put {P : State → Prop} (hwk : s.work = some work)
    (haw : work.await = some (.put put)) (hset : work.setAwait (.put put) = work)
    (hwritable : s.store.writable = true) (h : P s) (hstp : P { s with work := none })
    (hresm : put.landed = true → P (work.resume s)) (ok : Bool) : P (s.settleWork ok) := by
  rw [settleWork_put hwk haw, if_pos hwritable]
  split
  · exact hstp
  split
  · rw [hset, ← hwk]
    exact h
  · rename_i hln
    exact hresm (Bool.not_eq_false _ ▸ hln)

/-! A session of one terminal. -/

namespace Demo

/-- Every line counts as long as any other. -/
def lineLength (_ : StoredMessage) : ℕ := 10

def start : Act := .receive 0 (.start "s" "vm" .browser 80 24 0 false)

def output : Act := .receive 0 (.events [⟨1, "o", "x"⟩])

/-- A flush, whose head lands and is reported as such or not. -/
def flush (reported : Bool) : List Act := [.alarm, .land, .settle true, .land, .settle reported]

def started : StoredMessage := ⟨1, .start "s" "vm" .browser 80 24 0 false false⟩

def printed : StoredMessage := ⟨2, .events "s" [⟨1, .output, "x"⟩]⟩

end Demo

end Intar.Share
