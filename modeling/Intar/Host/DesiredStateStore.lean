import Mathlib
import Intar.Lib.Versioned
import Intar.Host.DesiredState

/-!
# The desired state store

`lib/desired-state-store.ts`: one row per host, and any number of concurrent
`mutateStoredHostDesiredState` calls on it.

A call loads the document, applies its mutator and writes the result with an `UPDATE` that is
conditional on the version it read; when the row has moved on it starts over, five times at most.
Between two of its database statements other calls run.  So a call is a `Phase` that says which
statement it is about to send, and `step` runs one statement of one call, atomically.

The system remembers more than the database does: every write that was committed, in order, and the
document it all started from.  Nothing in a call reads these two.
-/

namespace Intar.Host

open Trace List

/-! ## Calls -/

def maxAttempts : Nat := 5

/-- What a load reads of `agent_hosts`. -/
structure AgentHost where
  scope : Option HostScope
  (ownerUserId organizationId : Option String)
  role : String
deriving DecidableEq

/-- The scope and the owner a document of this host must have. -/
def enrolledOwner (host : Option AgentHost) : Except String (HostScope × String) :=
  match host with
  | none => .error "host ownership is not enrolled"
  | some host =>
    match host.scope, host.ownerUserId.filter (· ≠ "") with
    | some scope, some owner =>
      if scope = .organization ∧ (host.organizationId.filter (· ≠ "") = none ∨ host.role ≠ "agent")
      then .error "invalid organization host"
      else .ok (scope, owner)
    | _, _ => .error "host ownership is not enrolled"

/-- A row of `host_desired_state`. -/
structure DesiredRow where
  version : Nat
  doc : DesiredState
deriving DecidableEq

/-- The statement a call is about to send; the numbers count the attempts of the mutation and of the
load inside it. -/
inductive Phase where
  | loadingHost (attempt : Nat)
  | selecting (attempt loadAttempt : Nat) (scope : HostScope) (owner : String)
  | inserting (attempt loadAttempt : Nat) (scope : HostScope) (owner : String)
  | updating (attempt : Nat) (current next : DesiredState)
  | assertingGuard (attempt : Nat)
  | returned (doc : DesiredState)
  | threw (error : String)
deriving DecidableEq

structure Call where
  mutator : Mutator
  nowUnixMs : Millis
  /-- A write guard was passed. -/
  guarded : Bool
  phase : Phase

/-- A committed write. -/
structure Commit where
  id : Nat
  mutator : Mutator
  nowUnixMs : Millis

/-- What the outside answers a statement: the host row, whether the condition of the guard holds
now, and what its assertion throws. -/
structure Answer where
  host : Option AgentHost
  guardHolds : Bool
  guardError : Option String
deriving DecidableEq

structure StoreState where
  row : Option DesiredRow
  calls : Nat → Option Call
  /-- The first document of the row, and the writes since. -/
  base : Option DesiredState
  commits : List Commit

inductive StoreAct where
  /-- A call begins; it may be handed a document that a load or a call returned before. -/
  | start (id : Nat) (mutator : Mutator) (nowUnixMs : Millis) (guarded : Bool)
      (initialState : Option DesiredState)
  /-- The call sends its next statement. -/
  | advance (id : Nat) (answer : Answer)
  /-- The statement fails and the call throws. -/
  | fail (id : Nat) (error : String)

section

variable (localeCompare : String → String → Ordering) (hostId : String)

/-- Apply the mutator to the document of this attempt. -/
def attemptWith (call : Call) (attempt : Nat) (current : DesiredState) : Phase :=
  match mutateDesiredState localeCompare current call.mutator call.nowUnixMs with
  | .error e => .threw e
  | .ok none => .returned current
  | .ok (some next) => .updating attempt current next

/-- The row has moved on: load it again, unless that was the last attempt. -/
def retry (attempt : Nat) : Phase :=
  if attempt + 1 < maxAttempts then .loadingHost (attempt + 1)
  else .threw ("desired-state mutation for host " ++ hostId ++ " lost 5 version races")

/-- The stored document, if it is valid and of the owner. -/
def checkLoaded (row : DesiredRow) (scope : HostScope) (owner : String) :
    Except String DesiredState := do
  let desired ← validateStoredHostDesiredState row.doc hostId row.version
  if desired.scope ≠ scope ∨ desired.ownerUserId ≠ owner then
    .error "stored desired state has wrong host owner"
  else return desired

/-- One committed write of a row. -/
def applyCommit (doc : DesiredState) (commit : Commit) : DesiredState :=
  match mutateDesiredState localeCompare doc commit.mutator commit.nowUnixMs with
  | .ok (some next) => next
  | _ => doc

/-- The documents the row has held, oldest first. -/
def StoreState.held (s : StoreState) : List DesiredState :=
  s.base.toList.flatMap fun base => s.commits.inits.map (run (applyCommit localeCompare) base)

def StoreState.setPhase (s : StoreState) (id : Nat) (call : Call) (phase : Phase) : StoreState :=
  { s with calls := Function.update s.calls id (some { call with phase }) }

/-- The row becomes the next document, and the call returns it. -/
def StoreState.commitWrite (s : StoreState) (id : Nat) (call : Call) (next : DesiredState) :
    StoreState :=
  { s.setPhase id call (.returned next) with
    row := some ⟨next.version, next⟩
    commits := s.commits ++ [⟨id, call.mutator, call.nowUnixMs⟩] }

/-- The row begins with `doc`, on which the call goes on. -/
def StoreState.createRow (s : StoreState) (id : Nat) (call : Call) (attempt : Nat)
    (doc : DesiredState) : StoreState :=
  { s.setPhase id call (attemptWith localeCompare call attempt doc) with
    row := some ⟨doc.version, doc⟩
    base := some doc }

/-- One statement of a call. -/
def advanceCall (s : StoreState) (id : Nat) (call : Call) (answer : Answer) : StoreState :=
  match call.phase with
  | .loadingHost attempt =>
    match enrolledOwner answer.host with
    | .error e => s.setPhase id call (.threw e)
    | .ok (scope, owner) => s.setPhase id call (.selecting attempt 0 scope owner)
  | .selecting attempt loadAttempt scope owner =>
    match s.row with
    | none => s.setPhase id call (.inserting attempt loadAttempt scope owner)
    | some row =>
      match checkLoaded hostId row scope owner with
      | .error e => s.setPhase id call (.threw e)
      | .ok desired => s.setPhase id call (attemptWith localeCompare call attempt desired)
  | .inserting attempt loadAttempt scope owner =>
    match s.row with
    | none =>
      s.createRow localeCompare id call attempt
        (createEmptyHostDesiredState hostId scope owner call.nowUnixMs)
    | some _ =>
      s.setPhase id call <|
        if loadAttempt + 1 < maxAttempts then .selecting attempt (loadAttempt + 1) scope owner
        else .threw ("desired-state load for host " ++ hostId ++ " lost 5 version races")
  | .updating attempt current next =>
    if s.row.map DesiredRow.version = some current.version ∧
        (call.guarded = true → answer.guardHolds = true) then
      s.commitWrite id call next
    else if call.guarded then s.setPhase id call (.assertingGuard attempt)
    else s.setPhase id call (retry hostId attempt)
  | .assertingGuard attempt =>
    match answer.guardError with
    | some e => s.setPhase id call (.threw e)
    | none => s.setPhase id call (retry hostId attempt)
  | .returned _ => s
  | .threw _ => s

/-- The first phase of a call: the document it was handed is used if it is of this host. -/
def startPhase (call : Call) (initialState : Option DesiredState) : Phase :=
  match initialState with
  | some doc => if doc.hostId = hostId then attemptWith localeCompare call 0 doc else .loadingHost 0
  | none => .loadingHost 0

def storeStep (s : StoreState) : StoreAct → StoreState
  | .start id mutator nowUnixMs guarded initialState =>
    let call : Call := ⟨mutator, nowUnixMs, guarded, .loadingHost 0⟩
    if s.calls id = none ∧ ∀ doc ∈ initialState, doc ∈ s.held localeCompare then
      s.setPhase id call (startPhase localeCompare hostId call initialState)
    else s
  | .advance id answer =>
    match s.calls id with
    | some call => advanceCall localeCompare hostId s id call answer
    | none => s
  | .fail id error =>
    match s.calls id with
    | some call =>
      match call.phase with
      | .returned _ => s
      | .threw _ => s
      | _ => s.setPhase id call (.threw error)
    | none => s

end

/-- No calls yet, on the row as it is. -/
def StoreState.init (row : Option DesiredRow) : StoreState :=
  ⟨row, fun _ => none, row.map DesiredRow.doc, []⟩

variable {localeCompare : String → String → Ordering} {hostId : String} {s s' : StoreState}
  {id attempt : Nat} {call : Call} {phase : Phase} {doc current : DesiredState}
  {row₀ : Option DesiredRow}

/-! ## The log -/

variable {base next : DesiredState}

section

variable {commits : List Commit} {c : Commit}

/-- Every committed write changed the document it met. -/
def Effective (localeCompare : String → String → Ordering) (base : DesiredState)
    (commits : List Commit) : Prop :=
  Along (applyCommit localeCompare)
    (fun doc commit => Changes localeCompare doc (applyCommit localeCompare doc commit)) base commits

theorem changes_applyCommit
    (h : mutateDesiredState localeCompare doc c.mutator c.nowUnixMs = .ok (some next)) :
    applyCommit localeCompare doc c = next ∧
      Changes localeCompare doc (applyCommit localeCompare doc c) := by
  have hnx : applyCommit localeCompare doc c = next := by rw [applyCommit, h]
  exact ⟨hnx, hnx ▸ changes_of_mutateDesiredState h⟩

theorem Effective.bumps (h : Effective localeCompare base commits) :
    Versioned.Bumps (applyCommit localeCompare) DesiredState.version base commits :=
  Along.imp h fun _ _ hchge => hchge.version

/-- Host and owner are those of the first document. -/
theorem Effective.owner (h : Effective localeCompare base commits) :
    (run (applyCommit localeCompare) base commits).hostId = base.hostId ∧
      (run (applyCommit localeCompare) base commits).scope = base.scope ∧
      (run (applyCommit localeCompare) base commits).ownerUserId = base.ownerUserId := by
  induction commits using List.reverseRecOn with
  | nil => exact ⟨rfl, rfl, rfl⟩
  | append_singleton _ _ ih =>
    have hchge := Along.last h
    obtain ⟨hho, hsc, hown⟩ := ih (Along.of_prefix h (prefix_append _ _))
    rw [run_append, run_cons, run_nil]
    exact ⟨hchge.hostId.trans hho, hchge.scope.trans hsc, hchge.ownerUserId.trans hown⟩

theorem mem_held (hbase : s.base = some base) :
    doc ∈ s.held localeCompare ↔ Versioned.Held (applyCommit localeCompare) base s.commits doc := by
  simp only [StoreState.held, hbase, Option.toList_some, flatMap_cons, flatMap_nil,
    append_nil, mem_map, mem_inits, Versioned.Held]
  constructor
  · rintro ⟨before, hpre, rfl⟩
    exact ⟨before, hpre, rfl⟩
  · rintro ⟨before, hpre, rfl⟩
    exact ⟨before, hpre, rfl⟩

end

/-! ## What a step does -/

variable {scope : HostScope} {owner : String}

section

/-- What a phase claims about the past of the row: the document it works on was held, and its mutator
makes of it what the phase says. -/
def PhaseHolds (localeCompare : String → String → Ordering) (s : StoreState) (call : Call) :
    Phase → Prop
  | .updating _ current next => current ∈ s.held localeCompare ∧
      mutateDesiredState localeCompare current call.mutator call.nowUnixMs = .ok (some next)
  | .returned doc => doc ∈ s.held localeCompare ∧
      mutateDesiredState localeCompare doc call.mutator call.nowUnixMs = .ok none
  | _ => True

/-- The call is new, or has not returned. -/
def Unreturned (s : StoreState) (id : Nat) : Prop :=
  ∀ call, s.calls id = some call → ∀ doc, call.phase ≠ .returned doc

/-- Everything one step can do to the store. -/
inductive StoreEffect (localeCompare : String → String → Ordering) (hostId : String)
    (s : StoreState) : StoreState → Prop where
  | same : StoreEffect localeCompare hostId s s
  /-- A call moves on; the row stays. -/
  | move (id : Nat) (call : Call) (phase : Phase) (hid : Unreturned s id)
      (hphase : PhaseHolds localeCompare s call phase) :
      StoreEffect localeCompare hostId s (s.setPhase id call phase)
  /-- A load creates the row. -/
  | create (id : Nat) (call : Call) (attempt : Nat) (scope : HostScope) (owner : String)
      (hid : Unreturned s id) (hrow : s.row = none) :
      StoreEffect localeCompare hostId s (s.createRow localeCompare id call attempt
        (createEmptyHostDesiredState hostId scope owner call.nowUnixMs))
  /-- A call commits its write. -/
  | commit (id : Nat) (call : Call) (attempt : Nat) (current next : DesiredState)
      (hcall : s.calls id = some call) (hphase : call.phase = .updating attempt current next)
      (hrow : s.row.map DesiredRow.version = some current.version) :
      StoreEffect localeCompare hostId s (s.commitWrite id call next)

theorem phaseHolds_attemptWith (attempt : Nat) (h : doc ∈ s.held localeCompare) :
    PhaseHolds localeCompare s call (attemptWith localeCompare call attempt doc) := by
  rw [attemptWith]
  split
  · trivial
  · rename_i hno
    exact ⟨h, hno⟩
  · rename_i hsm
    exact ⟨h, hsm⟩

theorem phaseHolds_retry (attempt : Nat) :
    PhaseHolds localeCompare s call (retry hostId attempt) := by
  rw [retry]
  split
  · trivial
  · trivial

/-- A loaded document is the one in the row, under its own version. -/
theorem checkLoaded_eq_ok {row : DesiredRow}
    (h : checkLoaded hostId row scope owner = .ok doc) : row = ⟨doc.version, doc⟩ := by
  rw [checkLoaded] at h
  obtain ⟨desired, hval, h⟩ := Fallible.bind_eq_ok.mp h
  have hdes : row = ⟨desired.version, desired⟩ := by
    rw [validateStoredHostDesiredState] at hval
    split at hval
    · cases hval
    rename_i hident
    simp only [not_or, not_not] at hident
    split at hval
    · cases hval
      obtain ⟨_, _⟩ := row
      rw [hident.2.1]
    · cases hval
  split at h
  · cases h
  cases h
  exact hdes

theorem unreturned_of_phase (hcall : s.calls id = some call)
    (hphase : ∀ doc, call.phase ≠ .returned doc) : Unreturned s id := by
  intro _ hcall' doc
  rw [hcall] at hcall'
  cases hcall'
  exact hphase doc

variable (hhd : ∀ row, s.row = some row → row.doc ∈ s.held localeCompare)

include hhd

/-- Every statement of a call is one of the effects, given that the row's document is one it has
held. -/
theorem advanceCall_effect (hcall : s.calls id = some call) (answer : Answer) :
    StoreEffect localeCompare hostId s (advanceCall localeCompare hostId s id call answer) := by
  rw [advanceCall]
  split
  · rename_i hphase
    have hid := unreturned_of_phase hcall (by simp [hphase])
    split
    · exact .move id call _ hid trivial
    · exact .move id call _ hid trivial
  · rename_i attempt _ _ _ hphase
    have hid := unreturned_of_phase hcall (by simp [hphase])
    split
    · exact .move id call _ hid trivial
    rename_i row hrow
    split
    · exact .move id call _ hid trivial
    rename_i hok
    have hhd' := hhd row hrow
    rw [checkLoaded_eq_ok hok] at hhd'
    exact .move id call _ hid (phaseHolds_attemptWith attempt hhd')
  · rename_i attempt _ scope owner hphase
    have hid := unreturned_of_phase hcall (by simp [hphase])
    split
    · rename_i hrow
      exact .create id call attempt scope owner hid hrow
    refine .move id call _ hid ?_
    split
    · trivial
    · trivial
  · rename_i attempt current next hphase
    have hid := unreturned_of_phase hcall (by simp [hphase])
    split
    · rename_i hcd
      exact .commit id call attempt current next hcall hphase hcd.1
    · split
      · exact .move id call _ hid trivial
      · exact .move id call _ hid (phaseHolds_retry attempt)
  · rename_i attempt hphase
    have hid := unreturned_of_phase hcall (by simp [hphase])
    split
    · exact .move id call _ hid trivial
    · exact .move id call _ hid (phaseHolds_retry attempt)
  · exact .same
  · exact .same

theorem storeStep_effect (act : StoreAct) :
    StoreEffect localeCompare hostId s (storeStep localeCompare hostId s act) := by
  cases act with
  | start id _ _ _ initialState =>
    rw [storeStep]
    split
    · rename_i hcd
      obtain ⟨hfr, hinit⟩ := hcd
      refine .move id _ _ (fun call hcall => by rw [hfr] at hcall; cases hcall) ?_
      cases initialState with
      | none => trivial
      | some doc =>
        rw [startPhase]
        split
        · exact phaseHolds_attemptWith 0 (hinit doc rfl)
        · trivial
    · exact .same
  | advance _ answer =>
    rw [storeStep]
    split
    · rename_i hcall
      exact advanceCall_effect hhd hcall answer
    · exact .same
  | fail id =>
    rw [storeStep]
    split
    · rename_i call hcall
      split
      · exact .same
      · exact .same
      rename_i hret _
      exact .move id call _ (unreturned_of_phase hcall hret) trivial
    · exact .same

end

/-! ## The invariant -/

/-- Where the log starts: at the row the system began with, or at the empty document that a load
created. -/
def IsBase (hostId : String) (row₀ : Option DesiredRow) (base : DesiredState) : Prop :=
  match row₀ with
  | some row => base = row.doc
  | none => ∃ scope owner now, base = createEmptyHostDesiredState hostId scope owner now

/-- A call returned a document of the row: its own write, or one its mutator had nothing to add
to. -/
def Accounted (localeCompare : String → String → Ordering) (s : StoreState) (id : Nat) (call : Call) :
    Phase → Prop
  | .returned doc => doc ∈ s.held localeCompare ∧
      (mutateDesiredState localeCompare doc call.mutator call.nowUnixMs = .ok none ∨
        ∃ c ∈ s.commits, c.id = id)
  | phase => PhaseHolds localeCompare s call phase

structure StoreInv (localeCompare : String → String → Ordering) (hostId : String)
    (row₀ : Option DesiredRow) (s : StoreState) : Prop where
  store : (s.row = none ∧ s.base = none ∧ s.commits = [] ∧ row₀ = none) ∨
    ∃ base, s.base = some base ∧ IsBase hostId row₀ base ∧
      Effective localeCompare base s.commits ∧
      s.row = some ⟨(run (applyCommit localeCompare) base s.commits).version,
        run (applyCommit localeCompare) base s.commits⟩
  calls : ∀ id call, s.calls id = some call → Accounted localeCompare s id call call.phase
  committed : ∀ c ∈ s.commits, ∃ call doc, s.calls c.id = some call ∧ call.phase = .returned doc ∧
    call.mutator = c.mutator ∧ call.nowUnixMs = c.nowUnixMs
  once : (s.commits.map Commit.id).Nodup

section

theorem StoreInv.row_held (h : StoreInv localeCompare hostId row₀ s) (row : DesiredRow)
    (hrow : s.row = some row) : row.doc ∈ s.held localeCompare := by
  rcases h.store with ⟨hno, -⟩ | ⟨_, hbase, -, -, hsm⟩
  · rw [hrow] at hno
    cases hno
  · rw [hrow] at hsm
    cases hsm
    exact (mem_held hbase).mpr Versioned.held_run

/-- A step keeps what the phases of the other calls claim, as long as everything held stays held and
every commit stays. -/
theorem Accounted.mono (hhd : ∀ doc ∈ s.held localeCompare, doc ∈ s'.held localeCompare)
    (hcms : ∀ c ∈ s.commits, c ∈ s'.commits) (h : Accounted localeCompare s id call phase) :
    Accounted localeCompare s' id call phase := by
  cases phase with
  | returned doc =>
    refine ⟨hhd doc h.1, h.2.imp_right ?_⟩
    rintro ⟨c, hc, hid⟩
    exact ⟨c, hcms c hc, hid⟩
  | updating _ current => exact ⟨hhd current h.1, h.2⟩
  | _ => trivial

theorem accounted_of_phaseHolds (h : PhaseHolds localeCompare s call phase) :
    Accounted localeCompare s id call phase := by
  cases phase with
  | returned => exact ⟨h.1, .inl h.2⟩
  | updating => exact h
  | _ => trivial

theorem setPhase_calls_self (s : StoreState) (id : Nat) (call : Call) (phase : Phase) :
    (s.setPhase id call phase).calls id = some { call with phase } :=
  Function.update_self _ _ _

theorem setPhase_calls_of_ne {j : Nat} (h : j ≠ id) (call : Call) (phase : Phase) :
    (s.setPhase id call phase).calls j = s.calls j :=
  Function.update_of_ne h _ _

section

variable (h : StoreInv localeCompare hostId row₀ s)

include h

/-- The calls that committed are not the one that moves. -/
theorem StoreInv.committed_setPhase (hid : Unreturned s id) (call : Call) (phase : Phase) :
    ∀ c ∈ s.commits, ∃ call' doc, (s.setPhase id call phase).calls c.id = some call' ∧
      call'.phase = .returned doc ∧ call'.mutator = c.mutator ∧ call'.nowUnixMs = c.nowUnixMs := by
  intro c hc
  obtain ⟨call', doc, hcl', hphase, hm⟩ := h.committed c hc
  have hne : c.id ≠ id := by
    rintro rfl
    exact hid call' hcl' doc hphase
  exact ⟨call', doc, by rw [setPhase_calls_of_ne hne, hcl'], hphase, hm⟩

/-- Every call is accounted for after a step in which one moved and nothing held was lost. -/
theorem StoreInv.calls_setPhase (hhd : ∀ doc ∈ s.held localeCompare, doc ∈ s'.held localeCompare)
    (hcms : ∀ c ∈ s.commits, c ∈ s'.commits)
    (hcalls : s'.calls = (s.setPhase id call phase).calls)
    (hphase : Accounted localeCompare s' id call phase) :
    ∀ j call', s'.calls j = some call' → Accounted localeCompare s' j call' call'.phase := by
  intro j call' hj
  rw [hcalls] at hj
  by_cases hjid : j = id
  · subst hjid
    rw [setPhase_calls_self, Option.some.injEq] at hj
    subst hj
    cases phase with
    | returned | updating => exact hphase
    | _ => trivial
  · rw [setPhase_calls_of_ne hjid] at hj
    exact (h.calls j call' hj).mono hhd hcms

theorem StoreInv.move (hid : Unreturned s id) (hphase : PhaseHolds localeCompare s call phase) :
    StoreInv localeCompare hostId row₀ (s.setPhase id call phase) where
  store := h.store
  calls := h.calls_setPhase (fun _ hd => hd) (fun _ hc => hc) rfl (accounted_of_phaseHolds hphase)
  committed := h.committed_setPhase hid call phase
  once := h.once

theorem StoreInv.create (hid : Unreturned s id) (hrow : s.row = none) :
    StoreInv localeCompare hostId row₀ (s.createRow localeCompare id call attempt
      (createEmptyHostDesiredState hostId scope owner call.nowUnixMs)) := by
  set doc := createEmptyHostDesiredState hostId scope owner call.nowUnixMs
  rcases h.store with ⟨-, hbase, hcms, hrow₀⟩ | ⟨_, -, -, -, hsm⟩
  · have hcms' : (s.createRow localeCompare id call attempt doc).commits = [] := hcms
    refine ⟨.inr ⟨doc, rfl, ?_, ?_, ?_⟩, h.calls_setPhase ?_ (fun _ hc => hc) rfl ?_,
      h.committed_setPhase hid call _, h.once⟩
    · rw [hrow₀]
      exact ⟨scope, owner, call.nowUnixMs, rfl⟩
    · rw [hcms']
      exact along_nil
    · rw [hcms']
      rfl
    · intro d hd
      simp [StoreState.held, hbase] at hd
    · refine accounted_of_phaseHolds (phaseHolds_attemptWith attempt ?_)
      rw [mem_held rfl]
      exact ⟨[], nil_prefix, rfl⟩
  · rw [hrow] at hsm
    cases hsm

/-- The write of a call meets the document the call has read: the row still has its version, and the
version identifies the document. -/
theorem StoreInv.current_eq (hbase : s.base = some base) (hhd : current ∈ s.held localeCompare)
    (hrow : s.row.map DesiredRow.version = some current.version) :
    Effective localeCompare base s.commits ∧
      current = run (applyCommit localeCompare) base s.commits := by
  rcases h.store with ⟨-, hno, -⟩ | ⟨_, hbase', -, heft, hsm⟩
  · rw [hbase] at hno
    cases hno
  rw [hbase] at hbase'
  cases hbase'
  refine ⟨heft, heft.bumps.eq_run_of_version_eq ((mem_held hbase).mp hhd) ?_⟩
  rw [hsm] at hrow
  exact (Option.some.inj hrow).symm

theorem StoreInv.commit
    (hcall : s.calls id = some call) (hphase : call.phase = .updating attempt current next)
    (hrow : s.row.map DesiredRow.version = some current.version) :
    StoreInv localeCompare hostId row₀ (s.commitWrite id call next) := by
  have hid : Unreturned s id := unreturned_of_phase hcall (by simp [hphase])
  have hhld := h.calls id call hcall
  rw [hphase] at hhld
  obtain ⟨hhd, hnx⟩ := hhld
  rcases h.store with ⟨hno, -⟩ | ⟨base, hbase, hisBase, -, -⟩
  · rw [hno] at hrow
    cases hrow
  obtain ⟨heft, hcur⟩ := h.current_eq hbase hhd hrow
  rw [hcur] at hnx
  set commit : Commit := ⟨id, call.mutator, call.nowUnixMs⟩
  obtain ⟨happly, hchanges⟩ := changes_applyCommit (c := commit) hnx
  have hrun : run (applyCommit localeCompare) base (s.commits ++ [commit]) = next := by
    rw [run_append, run_cons, run_nil, happly]
  have hhd' : ∀ {doc}, doc ∈ (s.commitWrite id call next).held localeCompare ↔
      Versioned.Held (applyCommit localeCompare) base (s.commits ++ [commit]) doc :=
    mem_held (s := s.commitWrite id call next) hbase
  refine ⟨.inr ⟨base, hbase, hisBase, Along.concat heft hchanges, ?_⟩,
    h.calls_setPhase ?_ (fun _ hc => mem_append_left _ hc) rfl ?_, ?_, ?_⟩
  · rw [StoreState.commitWrite, hrun]
  · intro _ hdoc
    exact hhd'.mpr ((mem_held hbase).mp hdoc).concat
  · refine ⟨hhd'.mpr ?_, .inr ⟨commit, mem_append_right _ mem_cons_self, rfl⟩⟩
    rw [← hrun]
    exact Versioned.held_run
  · intro c hc
    rcases mem_append.mp hc with hc | hc
    · exact h.committed_setPhase hid call _ c hc
    rw [mem_singleton] at hc
    subst hc
    exact ⟨_, next, setPhase_calls_self s id call _, rfl, rfl, rfl⟩
  · have hfr : id ∉ s.commits.map Commit.id := by
      intro hmem
      obtain ⟨c, hc, rfl⟩ := mem_map.mp hmem
      obtain ⟨call', doc, hcall', hret, -⟩ := h.committed c hc
      exact hid call' hcall' doc hret
    rw [StoreState.commitWrite, map_append, nodup_append]
    refine ⟨h.once, nodup_singleton _, fun a ha b hb hab => ?_⟩
    have haid : a = id := hab.trans (mem_singleton.mp hb)
    exact hfr (haid ▸ ha)

end

theorem storeInv_init (hrow₀ : ∀ row ∈ row₀, row.version = row.doc.version) :
    StoreInv localeCompare hostId row₀ (.init row₀) where
  store := by
    cases row₀ with
    | none => exact .inl ⟨rfl, rfl, rfl, rfl⟩
    | some row =>
      refine .inr ⟨row.doc, rfl, rfl, along_nil, ?_⟩
      have hrow : row = ⟨row.doc.version, row.doc⟩ := by rw [← hrow₀ row rfl]
      exact congrArg some hrow
  calls := by
    intro _ _ hcall
    cases hcall
  committed := by
    intro c hc
    cases hc
  once := nodup_nil

theorem storeInv_step (h : StoreInv localeCompare hostId row₀ s) (act : StoreAct) :
    StoreInv localeCompare hostId row₀ (storeStep localeCompare hostId s act) := by
  have heff : StoreEffect localeCompare hostId s (storeStep localeCompare hostId s act) :=
    storeStep_effect h.row_held act
  generalize storeStep localeCompare hostId s act = s' at heff
  cases heff with
  | same => exact h
  | move _ _ _ hid hphase => exact h.move hid hphase
  | create _ _ _ _ _ hid hrow => exact h.create hid hrow
  | commit _ _ _ _ _ hcall hphase hrow => exact h.commit hcall hphase hrow

theorem storeInv_run (hrow₀ : ∀ row ∈ row₀, row.version = row.doc.version) (acts : List StoreAct) :
    StoreInv localeCompare hostId row₀ (run (storeStep localeCompare hostId) (.init row₀) acts) :=
  run_invariant (P := StoreInv localeCompare hostId row₀) (fun _ act h => storeInv_step h act)
    (storeInv_init hrow₀) acts

end

/-! ## Serial writes -/

/-- What the store is for: it is a versioned document that the successful calls change one after the
other. -/
structure Serialized (localeCompare : String → String → Ordering) (hostId : String)
    (row₀ : Option DesiredRow) (s : StoreState) : Prop where
  /-- There is no row yet, or the row is the run of the committed mutators, each of which changed
  the content and raised the version by one. -/
  row : (s.row = none ∧ s.commits = [] ∧ row₀ = none) ∨
    ∃ base row, s.row = some row ∧ IsBase hostId row₀ base ∧
      row.doc = run (applyCommit localeCompare) base s.commits ∧
      Effective localeCompare base s.commits ∧
      row.version = row.doc.version ∧ row.version = base.version + s.commits.length ∧
      row.doc.hostId = base.hostId ∧ row.doc.scope = base.scope ∧
      row.doc.ownerUserId = base.ownerUserId
  /-- A call commits once, and has then returned. -/
  once : (s.commits.map Commit.id).Nodup
  committed : ∀ c ∈ s.commits, ∃ call doc, s.calls c.id = some call ∧
    call.phase = .returned doc ∧ call.mutator = c.mutator ∧ call.nowUnixMs = c.nowUnixMs
  /-- A call that returned has committed, or its mutator left the document it was given as it
  was. -/
  returned : ∀ id call doc, s.calls id = some call → call.phase = .returned doc →
    doc ∈ s.held localeCompare ∧
      (mutateDesiredState localeCompare doc call.mutator call.nowUnixMs = .ok none ∨
        ∃ c ∈ s.commits, c.id = id)
  /-- A call that threw has not. -/
  threw : ∀ id call e, s.calls id = some call → call.phase = .threw e → ∀ c ∈ s.commits, c.id ≠ id

/-- What a step does to the row: nothing, or it creates the row with the empty document, or it
commits the write of a call, which returns. -/
def RowStep (hostId : String) (s s' : StoreState) : Prop :=
  (s'.row = s.row ∧ s'.commits = s.commits) ∨
  (s.row = none ∧ s'.commits = s.commits ∧ ∃ scope owner now,
    s'.row = some ⟨0, createEmptyHostDesiredState hostId scope owner now⟩) ∨
  ∃ c call doc, s'.commits = s.commits ++ [c] ∧ s'.row = some ⟨doc.version, doc⟩ ∧
    s'.calls c.id = some call ∧ call.phase = .returned doc

section

theorem StoreInv.serialized (h : StoreInv localeCompare hostId row₀ s) :
    Serialized localeCompare hostId row₀ s where
  row := by
    rcases h.store with ⟨hrow, -, hcms, hrow₀⟩ | ⟨base, -, hisBase, heft, hrow⟩
    · exact .inl ⟨hrow, hcms, hrow₀⟩
    exact .inr ⟨base, _, hrow, hisBase, rfl, heft, rfl, heft.bumps.version_run, heft.owner⟩
  once := h.once
  committed := h.committed
  returned := by
    intro id call _ hcall hphase
    have haccd := h.calls id call hcall
    rw [hphase] at haccd
    exact haccd
  threw := by
    rintro _ _ _ hcall hphase c hc rfl
    obtain ⟨_, _, hcall', hret, -⟩ := h.committed c hc
    rw [hcall] at hcall'
    cases hcall'
    rw [hphase] at hret
    cases hret

theorem StoreEffect.rowStep (h : StoreEffect localeCompare hostId s s') : RowStep hostId s s' := by
  cases h with
  | same | move => exact .inl ⟨rfl, rfl⟩
  | create _ call _ scope owner _ hrow =>
    exact .inr (.inl ⟨hrow, rfl, scope, owner, call.nowUnixMs, rfl⟩)
  | commit id call _ _ next =>
    exact .inr (.inr ⟨_, _, next, rfl, rfl, setPhase_calls_self s id call _, rfl⟩)

end

/-- **No update is lost.**  However the calls interleave, the row is the run of the committed
mutators in commit order, and no step of any call touches it except to create it empty or to commit
the call. -/
theorem mutateStoredHostDesiredState_serialized (localeCompare : String → String → Ordering)
    (hostId : String) (row₀ : Option DesiredRow)
    (hrow₀ : ∀ row ∈ row₀, row.version = row.doc.version) (acts : List StoreAct) :
    let s := run (storeStep localeCompare hostId) (.init row₀) acts
    Serialized localeCompare hostId row₀ s ∧
      ∀ act, RowStep hostId s (storeStep localeCompare hostId s act) := by
  intro s
  have hinv : StoreInv localeCompare hostId row₀ s := storeInv_run hrow₀ acts
  exact ⟨hinv.serialized, fun act => (storeStep_effect hinv.row_held act).rowStep⟩

/-- A host with no work, and a call that asks it for a compile. -/
def idleRow : DesiredRow := ⟨0, createEmptyHostDesiredState "h" .platform "p" 0⟩

def startCompile (id : Nat) (compileId : String) : StoreAct :=
  .start id (fun doc => .ok { doc with
    sourceCompiles := doc.sourceCompiles ++ [⟨compileId, 0, "r", false, .x86_64⟩] }) 1 false
    (some idleRow.doc)

def platformHost : Answer := ⟨some ⟨some .platform, some "p", none, "agent"⟩, true, none⟩

/-- Two calls are handed the same document; the second loses the race, loads again and commits. -/
theorem mutateStoredHostDesiredState_serialized_race :
    let s := run (storeStep compare "h") (.init (some idleRow))
      [startCompile 0 "a", startCompile 1 "b", .advance 1 platformHost, .advance 0 platformHost,
        .advance 0 platformHost, .advance 0 platformHost, .advance 0 platformHost]
    Serialized compare "h" (some idleRow) s ∧ s.commits.map Commit.id = [1, 0] ∧
      s.row.map DesiredRow.version = some 2 :=
  ⟨(mutateStoredHostDesiredState_serialized compare "h" (some idleRow) (by decide) _).1,
    by decide +kernel, by decide +kernel⟩

/-- A call that fails can leave a row where there was none: its load creates the row before its
mutator, here one that changes the owner, is refused. -/
theorem failed_call_creates_row :
    let s := run (storeStep compare "h") (.init none)
      [.start 0 (fun doc => .ok { doc with ownerUserId := "q" }) 1 false none,
        .advance 0 platformHost, .advance 0 platformHost, .advance 0 platformHost]
    (s.calls 0).map Call.phase = some (.threw "host desired-state ownership is immutable") ∧
      s.row = some ⟨0, createEmptyHostDesiredState "h" .platform "p" 1⟩ := by
  decide +kernel

end Intar.Host
