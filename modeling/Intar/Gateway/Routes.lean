import Intar.Lib.Trace

/-!
# Terminal routes and their targets

`stargate-gateway/src/store.rs`: the tables `routes` and `terminal_route_targets`.  A route has at
most one target.  It is born with one (a native route) or gets it in two calls of the control plane,
which stage a target and then activate the attachment that the first call answered with.  Both calls
repeat the identity of the route, and only an active target is served.

The calls hold one mutex, so a run is a sequence of calls; each carries the clock it reads.  The
history keeps every call with its answer, and `Issued`, `Staged` and `Ready` say what a history
shows about a route since it was last issued.

A target is opaque here: what is written is read back as it was.
-/

namespace Intar.Gateway

open Function Trace Option

/-! ## Tables -/

/-- Seconds since the epoch. -/
abbrev Seconds := Int

structure RouteMetadata where
  (hostId runId vmId userId : String)
deriving DecidableEq

inductive TerminalSessionMode where
  | browser
  | native
deriving DecidableEq

inductive StoredTarget (τ : Type) where
  | missing
  | staged (attachmentId : String) (target : τ)
  | active (attachmentId : String) (target : τ)
deriving DecidableEq

/-- `StoredTerminalRoute`. -/
structure TerminalRoute (τ : Type) where
  (routeUsername generation : String)
  expiresAt : Seconds
  mode : TerminalSessionMode
  metadata : RouteMetadata
  target : StoredTarget τ
  (createdAt updatedAt : Seconds)
deriving DecidableEq

/-- What a stage or an activate call repeats of the route. -/
structure RouteIdentity where
  (generation runId vmId userId : String)
deriving DecidableEq

/-- A row of `routes`, without its key. -/
structure RouteRow where
  generation : String
  mode : TerminalSessionMode
  expiresAt : Seconds
  metadata : RouteMetadata
  (createdAt updatedAt : Seconds)
deriving DecidableEq

/-- A row of `terminal_route_targets`, without its key; a row that is not activated is staged. -/
structure TargetRow (τ : Type) where
  attachmentId : String
  activatedAt : Option Seconds
  target : τ
  updatedAt : Seconds
deriving DecidableEq

def identityOf (generation : String) (metadata : RouteMetadata) : RouteIdentity :=
  ⟨generation, metadata.runId, metadata.vmId, metadata.userId⟩

def RouteRow.identity (row : RouteRow) : RouteIdentity := identityOf row.generation row.metadata

/-- The two tables by their primary keys; a target has a route. -/
structure Store (τ : Type) where
  routes : String → Option RouteRow
  targets : String → Option (TargetRow τ)
  foreignKey : ∀ username, (targets username).isSome = true → (routes username).isSome = true

namespace Store

variable {τ : Type}

def empty : Store τ := ⟨fun _ => none, fun _ => none, fun _ h => by cases h⟩

/-- `DELETE FROM routes WHERE …`, and `ON DELETE CASCADE`. -/
def deleteWhere (store : Store τ) (p : String → RouteRow → Bool) : Store τ where
  routes username := (store.routes username).filter fun row => !p username row
  targets username := if (store.routes username).any (p username) then none
    else store.targets username
  foreignKey username h := by
    split_ifs at h with hdeleted
    · cases h
    have hroute := store.foreignKey username h
    obtain ⟨row, hrow⟩ := isSome_iff_exists.mp hroute
    rw [hrow] at hdeleted ⊢
    simpa [Option.filter] using hdeleted

/-- Write the route, and the target it comes with in the place of the one it had. -/
def upsertRoute (store : Store τ) (route : TerminalRoute τ) (now : Seconds) : Store τ where
  routes := update store.routes route.routeUsername (some
    { generation := route.generation
      mode := route.mode
      expiresAt := route.expiresAt
      metadata := route.metadata
      createdAt := ((store.routes route.routeUsername).map RouteRow.createdAt).getD now
      updatedAt := now })
  targets := update store.targets route.routeUsername
    (match route.target with
      | .active attachmentId target => some ⟨attachmentId, some now, target, now⟩
      | _ => none)
  foreignKey username h := by
    by_cases hname : username = route.routeUsername
    · rw [hname, update_self]
      rfl
    · rw [update_of_ne hname] at h ⊢
      exact store.foreignKey username h

/-- Write a target row; the route is there when a call does so. -/
def setTarget (store : Store τ) (username : String) (row : TargetRow τ) : Store τ where
  routes := store.routes
  targets other := if other = username && (store.routes other).isSome then some row
    else store.targets other
  foreignKey other h := by
    split_ifs at h with hset
    · rw [Bool.and_eq_true] at hset
      exact hset.2
    · exact store.foreignKey other h

/-! ## Calls -/

/-- The route row, while it is live. -/
def liveRoute (store : Store τ) (username : String) (now : Seconds) : Option RouteRow :=
  (store.routes username).filter fun row => row.expiresAt > now

/-- `row_to_target`. -/
def storedTarget (store : Store τ) (username : String) : StoredTarget τ :=
  match store.targets username with
  | none => .missing
  | some row =>
    if row.activatedAt.isSome then .active row.attachmentId row.target
    else .staged row.attachmentId row.target

/-- `load_route`: without a bound, expired routes too. -/
def loadRoute (store : Store τ) (username : String) (liveAfter : Option Seconds) :
    Option (TerminalRoute τ) :=
  ((store.routes username).filter fun row => liveAfter.all fun now => row.expiresAt > now).map
    fun row =>
      { routeUsername := username
        generation := row.generation
        expiresAt := row.expiresAt
        mode := row.mode
        metadata := row.metadata
        target := store.storedTarget username
        createdAt := row.createdAt
        updatedAt := row.updatedAt }

def getRoute (store : Store τ) (username : String) (now : Seconds) : Option (TerminalRoute τ) :=
  store.loadRoute username (some now)

end Store

def StoredTarget.attachmentId {τ : Type} : StoredTarget τ → Option String
  | .missing => none
  | .staged attachmentId _ => some attachmentId
  | .active attachmentId _ => some attachmentId

inductive StageOutcome where
  | staged (attachmentId : String)
  | alreadyStaged (attachmentId : String)
  | targetConflict
  | identityMismatch
  | routeNotFound
deriving DecidableEq

inductive ActivateOutcome where
  | activated
  | alreadyActive
  | staleAttachment
  | nothingStaged
  | identityMismatch
  | routeNotFound
deriving DecidableEq

inductive GenerationDeleteOutcome where
  | deleted
  | generationMismatch
  | missing
deriving DecidableEq

namespace Store

variable {τ : Type}

/-- Stage a target under a fresh attachment id, unless the route has one. -/
def stageRouteTarget [DecidableEq τ] (store : Store τ) (username : String)
    (identity : RouteIdentity) (target : τ) (newAttachmentId : String) (now : Seconds) :
    Store τ × StageOutcome :=
  match store.liveRoute username now with
  | none => (store, .routeNotFound)
  | some row =>
    if row.identity ≠ identity then (store, .identityMismatch)
    else match store.targets username with
      | some existing =>
        if existing.target = target then (store, .alreadyStaged existing.attachmentId)
        else (store, .targetConflict)
      | none =>
        (store.setTarget username ⟨newAttachmentId, none, target, now⟩, .staged newAttachmentId)

/-- Activate the attachment that is named.  `later` is the clock of the read that tells a repeated
call from one that names another attachment. -/
def activateRouteTarget (store : Store τ) (username : String) (identity : RouteIdentity)
    (attachmentId : String) (now later : Seconds) : Store τ × ActivateOutcome :=
  match store.liveRoute username now with
  | none => (store, .routeNotFound)
  | some row =>
    if row.identity ≠ identity then (store, .identityMismatch)
    else match store.targets username with
      | none => (store, .nothingStaged)
      | some existing =>
        if existing.attachmentId = attachmentId && existing.activatedAt.isNone then
          (store.setTarget username { existing with activatedAt := some now }, .activated)
        else if existing.activatedAt.isNone then (store, .staleAttachment)
        else if ((store.getRoute username later).bind fun route => route.target.attachmentId) =
            some attachmentId then
          (store, .alreadyActive)
        else (store, .staleAttachment)

def deleteRoute (store : Store τ) (username : String) : Store τ × Bool :=
  (store.deleteWhere fun name _ => name = username, (store.routes username).isSome)

def deleteRouteIfGeneration (store : Store τ) (username generation : String) :
    Store τ × GenerationDeleteOutcome :=
  (store.deleteWhere fun name row => name = username && row.generation = generation,
    match store.routes username with
    | none => .missing
    | some row => if row.generation = generation then .deleted else .generationMismatch)

def deleteExpiredRoutes (store : Store τ) (now : Seconds) : Store τ :=
  store.deleteWhere fun _ row => row.expiresAt ≤ now

end Store

/-! ## Histories -/

inductive Call (τ : Type) where
  | upsertRoute (route : TerminalRoute τ) (now : Seconds)
  | stageRouteTarget (username : String) (identity : RouteIdentity) (target : τ)
      (newAttachmentId : String) (now : Seconds)
  | activateRouteTarget (username : String) (identity : RouteIdentity) (attachmentId : String)
      (now later : Seconds)
  | deleteRoute (username : String)
  | deleteRouteIfGeneration (username generation : String)
  | deleteExpiredRoutes (now : Seconds)

inductive Answer where
  | done
  | staged (outcome : StageOutcome)
  | activated (outcome : ActivateOutcome)
  | deleted (outcome : GenerationDeleteOutcome)
deriving DecidableEq

/-- The store, and the calls so far with their answers, the newest first. -/
structure Gateway (τ : Type) where
  store : Store τ
  history : List (Call τ × Answer)

section

variable {τ : Type} [DecidableEq τ]

def Store.call (store : Store τ) : Call τ → Store τ × Answer
  | .upsertRoute route now => (store.upsertRoute route now, .done)
  | .stageRouteTarget username identity target newAttachmentId now =>
    let (staged, outcome) := store.stageRouteTarget username identity target newAttachmentId now
    (staged, .staged outcome)
  | .activateRouteTarget username identity attachmentId now later =>
    let (activated, outcome) := store.activateRouteTarget username identity attachmentId now later
    (activated, .activated outcome)
  | .deleteRoute username => ((store.deleteRoute username).1, .done)
  | .deleteRouteIfGeneration username generation =>
    let (rest, outcome) := store.deleteRouteIfGeneration username generation
    (rest, .deleted outcome)
  | .deleteExpiredRoutes now => (store.deleteExpiredRoutes now, .done)

def step (s : Gateway τ) (call : Call τ) : Gateway τ :=
  ⟨(s.store.call call).1, (call, (s.store.call call).2) :: s.history⟩

end

section

variable {τ : Type}

def Gateway.empty : Gateway τ := ⟨.empty, []⟩

/-- The call issues the route anew. -/
def Call.issues (username : String) : Call τ → Bool
  | .upsertRoute route _ => route.routeUsername = username
  | _ => false

def TerminalRoute.identity (route : TerminalRoute τ) : RouteIdentity :=
  identityOf route.generation route.metadata

/-- The route was last issued with this identity. -/
inductive Issued (username : String) (identity : RouteIdentity) : List (Call τ × Answer) → Prop
  | issued {older : List (Call τ × Answer)} {route : TerminalRoute τ} {now : Seconds}
      (hname : route.routeUsername = username) (hidentity : route.identity = identity) :
      Issued username identity ((.upsertRoute route now, .done) :: older)
  | later {older : List (Call τ × Answer)} {event : Call τ × Answer}
      (hnot : event.1.issues username = false) (h : Issued username identity older) :
      Issued username identity (event :: older)

/-- Since then, the target was staged under this attachment by a call with this identity. -/
inductive Staged (username : String) (identity : RouteIdentity) (attachmentId : String) (target : τ) :
    List (Call τ × Answer) → Prop
  | staged {older : List (Call τ × Answer)} {now : Seconds} (h : Issued username identity older) :
      Staged username identity attachmentId target
        ((.stageRouteTarget username identity target attachmentId now,
          .staged (.staged attachmentId)) :: older)
  | later {older : List (Call τ × Answer)} {event : Call τ × Answer}
      (hnot : event.1.issues username = false)
      (h : Staged username identity attachmentId target older) :
      Staged username identity attachmentId target (event :: older)

/-- Since the route was last issued, it was created with this active target, or the attachment was
staged and then activated, by calls with its identity. -/
inductive Ready (username : String) (identity : RouteIdentity) (attachmentId : String) (target : τ) :
    List (Call τ × Answer) → Prop
  | created {older : List (Call τ × Answer)} {route : TerminalRoute τ} {now : Seconds}
      (hname : route.routeUsername = username) (hidentity : route.identity = identity)
      (htarget : route.target = .active attachmentId target) :
      Ready username identity attachmentId target ((.upsertRoute route now, .done) :: older)
  | activated {older : List (Call τ × Answer)} {now readAt : Seconds}
      (h : Staged username identity attachmentId target older) :
      Ready username identity attachmentId target
        ((.activateRouteTarget username identity attachmentId now readAt,
          .activated .activated) :: older)
  | later {older : List (Call τ × Answer)} {event : Call τ × Answer}
      (hnot : event.1.issues username = false)
      (h : Ready username identity attachmentId target older) :
      Ready username identity attachmentId target (event :: older)

end

/-! ## What a call does to a route -/

section

variable {τ : Type} {store : Store τ} {username : String}

/-- **The effect of a call** on the rows of one route: it issues it, stages or activates its target,
removes it, or leaves it alone. -/
inductive Effect (store : Store τ) (username : String) :
    Call τ → Answer → Option RouteRow → Option (TargetRow τ) → Prop
  | issues {route : TerminalRoute τ} {now : Seconds} {row : RouteRow}
      (hname : route.routeUsername = username) (hidentity : row.identity = route.identity) :
      Effect store username (.upsertRoute route now) .done (some row)
        (match route.target with
          | .active attachmentId target => some ⟨attachmentId, some now, target, now⟩
          | _ => none)
  | stages {identity : RouteIdentity} {target : τ} {attachmentId : String} {now : Seconds}
      {row : RouteRow} (hrow : store.routes username = some row) (hidentity : row.identity = identity)
      (hnone : store.targets username = none) :
      Effect store username (.stageRouteTarget username identity target attachmentId now)
        (.staged (.staged attachmentId)) (some row) (some ⟨attachmentId, none, target, now⟩)
  | activates {identity : RouteIdentity} {attachmentId : String} {now later : Seconds}
      {row : RouteRow} {staged : TargetRow τ} (hrow : store.routes username = some row)
      (hidentity : row.identity = identity) (hstaged : store.targets username = some staged)
      (hattachment : staged.attachmentId = attachmentId) (hnone : staged.activatedAt = none) :
      Effect store username (.activateRouteTarget username identity attachmentId now later)
        (.activated .activated) (some row) (some { staged with activatedAt := some now })
  | removes {call : Call τ} {answer : Answer} (hnot : call.issues username = false) :
      Effect store username call answer none none
  | keeps {call : Call τ} {answer : Answer} (hnot : call.issues username = false) :
      Effect store username call answer (store.routes username) (store.targets username)

variable {p : String → RouteRow → Bool} {row : TargetRow τ}

theorem deleteWhere_of_any (h : (store.routes username).any (p username) = true) :
    (store.deleteWhere p).routes username = none ∧ (store.deleteWhere p).targets username = none := by
  obtain ⟨_, hrow, hp⟩ := (any_eq_true _ _).mp h
  refine ⟨?_, if_pos h⟩
  simp only [Store.deleteWhere, hrow, filter_some, hp]
  rfl

theorem deleteWhere_of_not_any (h : (store.routes username).any (p username) = false) :
    (store.deleteWhere p).routes username = store.routes username ∧
      (store.deleteWhere p).targets username = store.targets username := by
  refine ⟨?_, if_neg (by rw [h]; exact Bool.false_ne_true)⟩
  cases hrow : store.routes username with
  | none => simp only [Store.deleteWhere, hrow, filter_none]
  | some =>
    rw [hrow, any_some] at h
    simp only [Store.deleteWhere, hrow, filter_some, h]
    rfl

theorem effect_deleteWhere (p : String → RouteRow → Bool) {call : Call τ} (answer : Answer)
    (hnot : call.issues username = false) :
    Effect store username call answer ((store.deleteWhere p).routes username)
      ((store.deleteWhere p).targets username) := by
  cases h : (store.routes username).any (p username) with
  | true =>
    rw [(deleteWhere_of_any h).1, (deleteWhere_of_any h).2]
    exact .removes hnot
  | false =>
    rw [(deleteWhere_of_not_any h).1, (deleteWhere_of_not_any h).2]
    exact .keeps hnot

theorem targets_setTarget_self (h : (store.routes username).isSome = true) :
    (store.setTarget username row).targets username = some row := by
  simp [Store.setTarget, h]

theorem targets_setTarget_of_ne {other : String} (h : other ≠ username) :
    (store.setTarget username row).targets other = store.targets other := by
  simp [Store.setTarget, h]

theorem liveRoute_eq_some {now : Seconds} {row : RouteRow} :
    store.liveRoute username now = some row ↔
      store.routes username = some row ∧ row.expiresAt > now := by
  simp [Store.liveRoute, filter_eq_some_iff]

theorem effect_upsertRoute (route : TerminalRoute τ) (now : Seconds) :
    Effect store username (.upsertRoute route now) .done
      ((store.upsertRoute route now).routes username)
      ((store.upsertRoute route now).targets username) := by
  by_cases hname : route.routeUsername = username
  · subst hname
    simp only [Store.upsertRoute, update_self]
    exact .issues rfl rfl
  · have hne : username ≠ route.routeUsername := Ne.symm hname
    simp only [Store.upsertRoute, update_of_ne hne]
    exact .keeps (decide_eq_false hname)

theorem effect_setTarget {name : String} {call : Call τ} {answer : Answer} {route : RouteRow}
    (hnot : call.issues username = false) (hrow : store.routes name = some route)
    (heff : Effect store name call answer (some route) (some row)) :
    Effect store username call answer ((store.setTarget name row).routes username)
      ((store.setTarget name row).targets username) := by
  by_cases hname : username = name
  · subst hname
    rw [targets_setTarget_self (by rw [hrow]; rfl),
      show (store.setTarget username _).routes username = some route from hrow]
    exact heff
  · rw [targets_setTarget_of_ne hname]
    exact .keeps hnot

variable {name attachmentId : String} {identity : RouteIdentity} {now : Seconds}

theorem effect_activateRouteTarget {later : Seconds} {result : Store τ × ActivateOutcome}
    (h : store.activateRouteTarget name identity attachmentId now later = result) :
    Effect store username (.activateRouteTarget name identity attachmentId now later)
      (.activated result.2) (result.1.routes username) (result.1.targets username) := by
  subst h
  rw [Store.activateRouteTarget]
  split
  · exact .keeps rfl
  rename_i hlv
  have hrow := (liveRoute_eq_some.mp hlv).1
  split
  · exact .keeps rfl
  rename_i hidentity
  split
  · exact .keeps rfl
  rename_i hstaged
  split
  · rename_i hacts
    rw [Bool.and_eq_true, decide_eq_true_iff] at hacts
    exact effect_setTarget rfl hrow (.activates hrow (not_not.mp hidentity) hstaged hacts.1
      (isNone_iff_eq_none.mp hacts.2))
  · split
    · exact .keeps rfl
    split
    · exact .keeps rfl
    · exact .keeps rfl

variable [DecidableEq τ]

theorem effect_stageRouteTarget {target : τ} {result : Store τ × StageOutcome}
    (h : store.stageRouteTarget name identity target attachmentId now = result) :
    Effect store username (.stageRouteTarget name identity target attachmentId now)
      (.staged result.2) (result.1.routes username) (result.1.targets username) := by
  subst h
  rw [Store.stageRouteTarget]
  split
  · exact .keeps rfl
  rename_i hlv
  have hrow := (liveRoute_eq_some.mp hlv).1
  split_ifs with hidentity
  · exact .keeps rfl
  split
  · split_ifs
    · exact .keeps rfl
    · exact .keeps rfl
  rename_i hnone
  exact effect_setTarget rfl hrow (.stages hrow (not_not.mp hidentity) hnone)

theorem effect_call (store : Store τ) (call : Call τ) (username : String) :
    Effect store username call (store.call call).2 ((store.call call).1.routes username)
      ((store.call call).1.targets username) := by
  cases call with
  | upsertRoute route now => exact effect_upsertRoute route now
  | stageRouteTarget => exact effect_stageRouteTarget rfl
  | activateRouteTarget => exact effect_activateRouteTarget rfl
  | _ =>
    exact effect_deleteWhere _ _ rfl

end

/-! ## What the rows show -/

/-- The history shows what the rows of a route say. -/
structure Shown {τ : Type} (history : List (Call τ × Answer)) (username : String)
    (route : Option RouteRow) (target : Option (TargetRow τ)) : Prop where
  issued : ∀ row, route = some row → Issued username row.identity history
  staged : ∀ row staged, route = some row → target = some staged → staged.activatedAt = none →
    Staged username row.identity staged.attachmentId staged.target history
  ready : ∀ row active, route = some row → target = some active → active.activatedAt.isSome = true →
    Ready username row.identity active.attachmentId active.target history

section

variable {τ : Type} {store : Store τ} {username : String}

/-- **One call.** -/
theorem Shown.effect {history : List (Call τ × Answer)} {call : Call τ} {answer : Answer}
    {route : Option RouteRow} {target : Option (TargetRow τ)}
    (h : Shown history username (store.routes username) (store.targets username))
    (heff : Effect store username call answer route target) :
    Shown ((call, answer) :: history) username route target := by
  cases heff with
  | @issues issue _ _ hname hidentity =>
    refine ⟨fun r hr => ?_, fun r t hr ht hstaged => ?_, fun r t hr ht _ => ?_⟩
    · cases hr
      exact .issued hname hidentity.symm
    · -- what comes with the route is active
      cases hisu : issue.target with
      | active =>
        rw [hisu] at ht
        cases ht
        cases hstaged
      | missing | staged =>
        rw [hisu] at ht
        cases ht
    · cases hr
      cases hisu : issue.target with
      | active =>
        rw [hisu] at ht
        cases ht
        exact .created hname hidentity.symm hisu
      | missing | staged =>
        rw [hisu] at ht
        cases ht
  | stages hrow hidentity =>
    refine ⟨fun r hr => ?_, fun r t hr ht _ => ?_, fun r t hr ht hact => ?_⟩
    · cases hr
      exact .later rfl (h.issued _ hrow)
    · cases hr
      cases ht
      subst hidentity
      exact .staged (h.issued _ hrow)
    · cases ht
      cases hact
  | activates hrow hidentity hstaged hattachment hnone =>
    refine ⟨fun r hr => ?_, fun r t hr ht hnot => ?_, fun r t hr ht _ => ?_⟩
    · cases hr
      exact .later rfl (h.issued _ hrow)
    · cases ht
      cases hnot
    cases hr
    cases ht
    subst hidentity hattachment
    have hshw := h.staged _ _ hrow hstaged hnone
    exact .activated hshw
  | removes =>
    exact ⟨nofun, nofun, nofun⟩
  | keeps hnot =>
    exact ⟨fun r hr => .later hnot (h.issued r hr), fun r t hr ht hs => .later hnot (h.staged r t hr ht hs),
      fun r t hr ht hs => .later hnot (h.ready r t hr ht hs)⟩

variable {target : τ} {liveAfter : Option Seconds} {now : Seconds}

theorem loadRoute_eq_some {route : TerminalRoute τ}
    (h : store.loadRoute username liveAfter = some route) :
    ∃ row, store.routes username = some row ∧ route.identity = row.identity ∧
      route.target = store.storedTarget username := by
  obtain ⟨row, hrow, rfl⟩ := map_eq_some_iff.mp h
  exact ⟨row, (filter_eq_some_iff.mp hrow).1, rfl, rfl⟩

theorem storedTarget_eq_active {attachmentId : String} :
    store.storedTarget username = .active attachmentId target ↔
      ∃ row, store.targets username = some row ∧ row.activatedAt.isSome = true ∧
        row.attachmentId = attachmentId ∧ row.target = target := by
  rw [Store.storedTarget]
  split
  · rename_i hnone
    simp [hnone]
  rename_i hrow
  split_ifs with hact
  · simp [hrow, hact]
  · simp [hrow, hact]

/-- A reissue has the target it came with, and no other. -/
theorem target_upsertRoute {route stored : TerminalRoute τ}
    (h : (store.upsertRoute route now).loadRoute route.routeUsername liveAfter = some stored) :
    stored.target = match route.target with
      | .active attachmentId target => .active attachmentId target
      | _ => .missing := by
  obtain ⟨_, -, -, htarget⟩ := loadRoute_eq_some h
  rw [htarget, Store.storedTarget, Store.upsertRoute]
  simp only [update_self]
  cases route.target <;> rfl

variable [DecidableEq τ]

theorem shown_run (calls : List (Call τ)) (username : String) :
    Shown (run step Gateway.empty calls).history username
      ((run step (Gateway.empty : Gateway τ) calls).store.routes username)
      ((run step (Gateway.empty : Gateway τ) calls).store.targets username) := by
  refine run_invariant (P := fun s : Gateway τ => Shown s.history username
    (s.store.routes username) (s.store.targets username)) (fun s call h => ?_) ?_ calls
  · exact h.effect (effect_call s.store call username)
  · exact ⟨nofun, nofun, nofun⟩

/-- A ready target was created with the route, or staged and activated, since the route was last
issued. -/
theorem ready_of_getRoute (calls : List (Call τ)) {route : TerminalRoute τ} {attachmentId : String}
    (h : (run step Gateway.empty calls).store.getRoute username now = some route)
    (htarget : route.target = .active attachmentId target) :
    Ready username route.identity attachmentId target (run step Gateway.empty calls).history := by
  obtain ⟨row, hrow, hidentity, hsto⟩ := loadRoute_eq_some h
  obtain ⟨active, hact, hsm, rfl, rfl⟩ := storedTarget_eq_active.mp (hsto ▸ htarget)
  rw [hidentity]
  exact (shown_run calls username).ready row active hrow hact hsm

/-! ## A target stays until the route is issued anew -/

/-- The route is gone, or its target is the one it had. -/
def HasOnly (store : Store τ) (username : String) (attachmentId : String) (target : τ) : Prop :=
  store.routes username = none ∨
    ∃ row, store.targets username = some row ∧ row.attachmentId = attachmentId ∧ row.target = target

theorem hasOnly_call {call : Call τ} {attachmentId : String} (hnot : call.issues username = false)
    (h : HasOnly store username attachmentId target) :
    HasOnly (store.call call).1 username attachmentId target := by
  have heff := effect_call store call username
  rw [HasOnly]
  generalize (store.call call).1.routes username = routes' at heff ⊢
  generalize (store.call call).1.targets username = targets' at heff ⊢
  generalize (store.call call).2 = answer at heff
  cases heff with
  | issues hname =>
    rw [Call.issues, decide_eq_false_iff_not] at hnot
    exact absurd hname hnot
  | stages hrow _ hnone =>
    rcases h with hgone | ⟨_, htarget, -⟩
    · rw [hgone] at hrow
      cases hrow
    · rw [hnone] at htarget
      cases htarget
  | activates hrow _ hstaged =>
    rcases h with hgone | ⟨_, htarget, hsm⟩
    · rw [hgone] at hrow
      cases hrow
    · rw [htarget] at hstaged
      cases hstaged
      exact .inr ⟨_, rfl, hsm⟩
  | removes => exact .inl rfl
  | keeps => exact h

theorem targets_of_run {s : Gateway τ} {calls : List (Call τ)}
    (hnot : ∀ call ∈ calls, call.issues username = false) {before after : TargetRow τ}
    (hbef : s.store.targets username = some before)
    (haft : (run step s calls).store.targets username = some after) :
    after.attachmentId = before.attachmentId ∧ after.target = before.target := by
  have honly : HasOnly (run step s calls).store username before.attachmentId before.target :=
    run_invariant_of_mem
      (P := fun s : Gateway τ => HasOnly s.store username before.attachmentId before.target)
      (fun s call hcl h => hasOnly_call (hnot call hcl) h) (.inr ⟨before, hbef, rfl, rfl⟩)
  rcases honly with hgone | ⟨_, hrow, hsm⟩
  · -- without its route the target could not be there
    have hroute := (run step s calls).store.foreignKey username (by rw [haft]; rfl)
    rw [hgone] at hroute
    cases hroute
  · rw [hrow] at haft
    cases haft
    exact hsm

end

/-! ## Calls that are repeated -/

section

variable {τ : Type} {store : Store τ} {username : String}

/-- The route is there and has not expired. -/
def Store.IsLive (store : Store τ) (username : String) (now : Seconds) : Prop :=
  (store.liveRoute username now).isSome = true

/-- The rows behind a call that found or made its attachment. -/
structure Store.Attached (store : Store τ) (username : String) (identity : RouteIdentity)
    (row : TargetRow τ) : Prop where
  route : ∃ route, store.routes username = some route ∧ route.identity = identity
  target : store.targets username = some row

variable {identity : RouteIdentity} {target : τ} {newId attachmentId : String}
  {now later : Seconds} {row : TargetRow τ} {after : Store τ} {outcome : ActivateOutcome}

theorem getRoute_attachmentId (htarget : store.targets username = some row)
    (hlv : store.IsLive username later) :
    ((store.getRoute username later).bind fun route => route.target.attachmentId) =
      some row.attachmentId := by
  obtain ⟨route, hroute⟩ := isSome_iff_exists.mp hlv
  have hfilt : (store.routes username).filter (fun row => (some later).all fun now =>
      row.expiresAt > now) = some route := hroute
  rw [Store.getRoute, Store.loadRoute, hfilt, map_some, bind_some, Store.storedTarget, htarget]
  dsimp only
  split <;> rfl

theorem attached_of_activate
    (hcl : store.activateRouteTarget username identity attachmentId now later = (after, outcome))
    (h : outcome = .activated ∨ outcome = .alreadyActive) :
    ∃ row, after.Attached username identity row ∧ row.attachmentId = attachmentId ∧
      row.activatedAt.isSome = true := by
  rw [Store.activateRouteTarget] at hcl
  split at hcl
  · cases hcl
    simp at h
  rename_i route hlv
  have hroute := (liveRoute_eq_some.mp hlv).1
  split at hcl
  · cases hcl
    simp at h
  rename_i hidentity
  rw [not_not] at hidentity
  split at hcl
  · cases hcl
    simp at h
  rename_i existing hexi
  split at hcl
  · rename_i hacts
    cases hcl
    rw [Bool.and_eq_true, decide_eq_true_iff] at hacts
    exact ⟨_, ⟨⟨route, hroute, hidentity⟩, targets_setTarget_self (by rw [hroute]; rfl)⟩,
      hacts.1, rfl⟩
  split at hcl
  · cases hcl
    simp at h
  rename_i hact
  split at hcl
  · rename_i hrd
    cases hcl
    refine ⟨existing, ⟨⟨route, hroute, hidentity⟩, hexi⟩, ?_,
      isSome_iff_ne_none.mpr (by simpa using hact)⟩
    obtain ⟨_, hsto, hattachment⟩ := bind_eq_some_iff.mp hrd
    obtain ⟨-, -, -, htarget⟩ := loadRoute_eq_some hsto
    rw [htarget, Store.storedTarget, hexi] at hattachment
    dsimp only at hattachment
    split at hattachment
    · exact Option.some.inj hattachment
    · exact Option.some.inj hattachment
  · cases hcl
    simp at h

theorem Store.Attached.live (h : store.Attached username identity row)
    (hlv : store.IsLive username now) :
    ∃ route, store.liveRoute username now = some route ∧ route.identity = identity := by
  obtain ⟨route, hroute⟩ := isSome_iff_exists.mp hlv
  obtain ⟨stored, hsto, hidentity⟩ := h.route
  have hsm : stored = route := Option.some.inj (hsto.symm.trans (liveRoute_eq_some.mp hroute).1)
  exact ⟨route, hroute, hsm ▸ hidentity⟩

/-- A call that activated its attachment, or found it active, finds it active again. -/
theorem activate_of_attached (h : store.Attached username identity row)
    (hact : row.activatedAt.isSome = true) (hlv : store.IsLive username now)
    (hlat : store.IsLive username later) :
    store.activateRouteTarget username identity row.attachmentId now later =
      (store, .alreadyActive) := by
  obtain ⟨_, hroute, hidentity⟩ := h.live hlv
  have hnot : row.activatedAt.isNone = false := by simpa using hact
  simp [Store.activateRouteTarget, hroute, hidentity, h.target, hnot,
    getRoute_attachmentId h.target hlat]

variable [DecidableEq τ]

theorem attached_of_stage {outcome : StageOutcome}
    (hcl : store.stageRouteTarget username identity target newId now = (after, outcome))
    (h : outcome = .staged attachmentId ∨ outcome = .alreadyStaged attachmentId) :
    ∃ row, after.Attached username identity row ∧ row.attachmentId = attachmentId ∧
      row.target = target := by
  rw [Store.stageRouteTarget] at hcl
  split at hcl
  · cases hcl
    simp at h
  rename_i route hlv
  have hroute := (liveRoute_eq_some.mp hlv).1
  split at hcl
  · cases hcl
    simp at h
  rename_i hidentity
  rw [not_not] at hidentity
  split at hcl
  · rename_i existing hexi
    split_ifs at hcl with hsm
    · cases hcl
      rcases h with h | h <;> cases h
      exact ⟨existing, ⟨⟨route, hroute, hidentity⟩, hexi⟩, rfl, hsm⟩
    · cases hcl
      simp at h
  · cases hcl
    rcases h with h | h <;> cases h
    exact ⟨_, ⟨⟨route, hroute, hidentity⟩, targets_setTarget_self (by rw [hroute]; rfl)⟩, rfl, rfl⟩

/-- A call that staged a target, or found it staged, finds it again. -/
theorem stage_of_attached (h : store.Attached username identity row)
    (newId : String) (hlv : store.IsLive username now) :
    store.stageRouteTarget username identity row.target newId now =
      (store, .alreadyStaged row.attachmentId) := by
  obtain ⟨_, hroute, hidentity⟩ := h.live hlv
  simp [Store.stageRouteTarget, hroute, hidentity, h.target]

/-- **Targets of terminal routes**, after every sequence of calls.  A route serves a target only if
that attachment was created with the route, or staged and activated under its identity, since it was
last issued; a reissue has no target but the one it comes with; until then an attached target is not
replaced by another; and a stage or activate call that succeeded can be repeated while the route is
live. -/
theorem terminal_route_targets (calls : List (Call τ)) :
    (∀ username now route attachmentId target,
      (run step Gateway.empty calls).store.getRoute username now = some route →
        route.target = .active attachmentId target →
          Ready username route.identity attachmentId target
            (run step Gateway.empty calls).history) ∧
    (∀ (route stored : TerminalRoute τ) now liveAfter,
      ((run step Gateway.empty calls).store.upsertRoute route now).loadRoute
          route.routeUsername liveAfter = some stored →
        stored.target = match route.target with
          | .active attachmentId target => .active attachmentId target
          | _ => .missing) ∧
    (∀ username more, (∀ call ∈ more, call.issues username = false) → ∀ before after,
      (run step Gateway.empty calls).store.targets username = some before →
        (run step Gateway.empty (calls ++ more)).store.targets username = some after →
          after.attachmentId = before.attachmentId ∧ after.target = before.target) ∧
    (∀ username identity target newId now attachmentId (staged : Store τ) outcome,
      (run step Gateway.empty calls).store.stageRouteTarget username identity target newId
          now = (staged, outcome) →
        (outcome = .staged attachmentId ∨ outcome = .alreadyStaged attachmentId) →
          ∀ newId' now', staged.IsLive username now' →
            staged.stageRouteTarget username identity target newId' now' =
              (staged, .alreadyStaged attachmentId)) ∧
    (∀ username identity attachmentId now later (activated : Store τ) outcome,
      (run step Gateway.empty calls).store.activateRouteTarget username identity attachmentId
          now later = (activated, outcome) →
        (outcome = .activated ∨ outcome = .alreadyActive) →
          ∀ now' later', activated.IsLive username now' → activated.IsLive username later' →
            activated.activateRouteTarget username identity attachmentId now' later' =
              (activated, .alreadyActive)) := by
  refine ⟨fun _ _ _ _ _ => ready_of_getRoute calls, fun _ _ _ _ => target_upsertRoute,
    fun username more hnot before after hbef haft => ?_,
    fun username identity target newId now attachmentId staged outcome h hout newId' now' hlv =>
      ?_,
    fun username identity attachmentId now later activated outcome h hout now' later' hlv
      hlat => ?_⟩
  · rw [run_append] at haft
    exact targets_of_run hnot hbef haft
  · obtain ⟨_, hatd, rfl, rfl⟩ := attached_of_stage h hout
    exact stage_of_attached hatd newId' hlv
  · obtain ⟨_, hatd, rfl, hact⟩ := attached_of_activate h hout
    exact activate_of_attached hatd hact hlv hlat

end

namespace Demo

def metadata : RouteMetadata := ⟨"host", "run-01", "vm", "user"⟩

def route (target : StoredTarget String) : TerminalRoute String :=
  ⟨"run-01-web", "exec-01:7", 100, .native, metadata, target, 0, 0⟩

/-- A route is issued twice in one generation, the second time with another target. -/
def reissued : List (Call String) :=
  [.upsertRoute (route (.active "first" "one")) 10, .upsertRoute (route (.active "second" "two")) 20]

def staged : Store String :=
  (Store.empty.upsertRoute (route .missing) 10).setTarget "run-01-web" ⟨"first", none, "one", 50⟩

/-- The target is another one in the same generation; and a stage call whose answer was lost finds
the route expired when it is repeated. -/
theorem reissue_replaces_target :
    ((run step Gateway.empty (reissued.take 1)).store.getRoute "run-01-web" 15).map
        (fun route => (route.generation, route.target)) =
      some ("exec-01:7", .active "first" "one") ∧
    ((run step Gateway.empty reissued).store.getRoute "run-01-web" 25).map
        (fun route => (route.generation, route.target)) =
      some ("exec-01:7", .active "second" "two") ∧
    ((Store.empty.upsertRoute (route .missing) 10).stageRouteTarget "run-01-web"
        ⟨"exec-01:7", "run-01", "vm", "user"⟩ "one" "first" 50) = (staged, .staged "first") ∧
    (staged.stageRouteTarget "run-01-web" ⟨"exec-01:7", "run-01", "vm", "user"⟩ "one" "other" 150).2 =
      .routeNotFound := by
  refine ⟨by decide +kernel, by decide +kernel, ?_, by decide +kernel⟩
  rfl

end Demo

end Intar.Gateway
