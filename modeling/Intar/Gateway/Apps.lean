import Mathlib
import Intar.Gateway.Routes

/-!
# Workspace apps and their browser sessions

`stargate-gateway/src/store.rs`: the tables `workspace_app_routes` and
`workspace_app_browser_sessions`.  A route is issued with a bootstrap token.  The browser exchanges
it once for a session, and the session opens the route until either of them expires.  Issuing a
route anew drops its sessions, and so does removing it, by the foreign key.

Tokens are stored as digests.  As for terminal routes, a run is a sequence of calls with the clocks
they read, and `Issued` and `Exchanged` say what a history shows about a route since it was last
issued or removed.
-/

namespace Intar.Gateway.Apps

open Function List Option Bool

/-! ## Tables -/

/-- `OffsetDateTime`, in nanoseconds. -/
abbrev Instant := Int

def unixTimestamp (instant : Instant) : Seconds := instant / 1000000000

def ofTimestamp (seconds : Seconds) : Instant := seconds * 1000000000

/-- `RegisteredWorkspaceAppRoute`: `app` is the target, the protocol, the upstream and the
metadata. -/
structure RegisteredRoute (ρ : Type) where
  routeId : String
  createOnly : Bool
  app : ρ
  expiresAt : Seconds

/-- A row of `workspace_app_routes`, without its key. -/
structure AppRow (ρ : Type) where
  app : ρ
  expiresAt : Seconds
  bootstrapTokenSha256 : Option String
  bootstrapExpiresAt : Option Seconds
  (createdAt updatedAt : Seconds)

/-- A row of `workspace_app_browser_sessions`, without its key. -/
structure BrowserSession where
  (expiresAt createdAt : Seconds)
deriving DecidableEq

/-- The two tables by their primary keys; a session has a route. -/
structure Store (ρ : Type) where
  routes : String → Option (AppRow ρ)
  sessions : String → String → Option BrowserSession
  foreignKey : ∀ routeId token, (sessions routeId token).isSome = true →
    (routes routeId).isSome = true

inductive IssueOutcome where
  | issued
  | alreadyExists
deriving DecidableEq

namespace Store

variable {ρ : Type}

def empty : Store ρ := ⟨fun _ => none, fun _ _ => none, fun _ _ h => by cases h⟩

/-- `DELETE FROM workspace_app_routes WHERE …`, and `ON DELETE CASCADE`. -/
def deleteWhere (store : Store ρ) (p : String → AppRow ρ → Bool) : Store ρ where
  routes routeId := (store.routes routeId).filter fun row => !p routeId row
  sessions routeId token := if (store.routes routeId).any (p routeId) then none
    else store.sessions routeId token
  foreignKey routeId token h := by
    split_ifs at h with hdeleted
    · cases h
    obtain ⟨row, hrow⟩ := isSome_iff_exists.mp (store.foreignKey routeId token h)
    rw [hrow] at hdeleted ⊢
    simpa [Option.filter] using hdeleted

/-- Write a route row and drop the sessions of the route. -/
def writeRoute (store : Store ρ) (routeId : String) (row : AppRow ρ) : Store ρ where
  routes := update store.routes routeId (some row)
  sessions := update store.sessions routeId fun _ => none
  foreignKey other token h := by
    by_cases hid : other = routeId
    · rw [hid, update_self]
      rfl
    · rw [update_of_ne hid] at h ⊢
      exact store.foreignKey other token h

/-- A route that is only to be created is refused if it exists; where it does not, it has no
sessions. -/
def upsertWorkspaceAppRoute (store : Store ρ) (route : RegisteredRoute ρ)
    (bootstrapTokenSha256 : String) (bootstrapExpiresAt : Instant) (now : Seconds) :
    Store ρ × IssueOutcome :=
  let row : AppRow ρ :=
    { app := route.app
      expiresAt := route.expiresAt
      bootstrapTokenSha256 := some bootstrapTokenSha256
      bootstrapExpiresAt := some (unixTimestamp bootstrapExpiresAt)
      createdAt := ((store.routes route.routeId).map AppRow.createdAt).getD now
      updatedAt := now }
  if route.createOnly && (store.routes route.routeId).isSome then (store, .alreadyExists)
  else (store.writeRoute route.routeId row, .issued)

/-- The route that the bootstrap token opens. -/
def bootstrapRoute (store : Store ρ) (routeId bootstrapTokenSha256 : String) (now : Seconds) :
    Option (AppRow ρ) :=
  (store.routes routeId).filter fun row =>
    row.bootstrapTokenSha256 = some bootstrapTokenSha256 &&
      row.bootstrapExpiresAt.any (· > now) && row.expiresAt > now

/-- Consume the bootstrap token of a route and add a session. -/
def addSession (store : Store ρ) (routeId token : String) (row : AppRow ρ)
    (session : BrowserSession) : Store ρ where
  routes := update store.routes routeId
    (some { row with bootstrapTokenSha256 := none, bootstrapExpiresAt := none })
  sessions := update store.sessions routeId
    (update (store.sessions routeId) token (some session))
  foreignKey other token h := by
    by_cases hid : other = routeId
    · rw [hid, update_self]
      rfl
    · rw [update_of_ne hid] at h ⊢
      exact store.foreignKey other token h

/-- The transaction is rolled back when the session would be over, or its key is taken. -/
def exchangeWorkspaceAppBootstrap (store : Store ρ)
    (routeId bootstrapTokenSha256 browserSessionTokenSha256 : String)
    (requestedSessionExpiresAt now : Instant) : Store ρ × Option Instant :=
  match store.bootstrapRoute routeId bootstrapTokenSha256 (unixTimestamp now) with
  | none => (store, none)
  | some row =>
    let expiresAt := min requestedSessionExpiresAt (ofTimestamp row.expiresAt)
    if expiresAt ≤ now then (store, none)
    else if (store.sessions routeId browserSessionTokenSha256).isSome then (store, none)
    else
      (store.addSession routeId browserSessionTokenSha256 row
        ⟨unixTimestamp expiresAt, unixTimestamp now⟩, some expiresAt)

/-- The route, if the session is one of its own and both are live. -/
def getAuthorizedWorkspaceAppRoute (store : Store ρ) (routeId browserSessionTokenSha256 : String)
    (now : Seconds) : Option (AppRow ρ × Seconds) :=
  match store.routes routeId, store.sessions routeId browserSessionTokenSha256 with
  | some row, some session =>
    if row.expiresAt > now && session.expiresAt > now then some (row, session.expiresAt) else none
  | _, _ => none

def deleteWorkspaceAppRoute (store : Store ρ) (routeId : String) : Store ρ :=
  store.deleteWhere fun id _ => id = routeId

def deleteExpiredWorkspaceAppRoutes (store : Store ρ) (now : Seconds) : Store ρ :=
  store.deleteWhere fun _ row => row.expiresAt ≤ now

def deleteExpiredBrowserSessions (store : Store ρ) (now : Seconds) : Store ρ where
  routes := store.routes
  sessions routeId token := (store.sessions routeId token).filter fun session =>
    session.expiresAt > now
  foreignKey routeId token h := by
    refine store.foreignKey routeId token ?_
    obtain ⟨session, hsession⟩ := isSome_iff_exists.mp h
    rw [(filter_eq_some_iff.mp hsession).1]
    rfl

end Store

/-! ## Histories -/

inductive Call (ρ : Type) where
  | upsert (route : RegisteredRoute ρ) (bootstrapTokenSha256 : String) (bootstrapExpiresAt : Instant)
      (now : Seconds)
  | exchange (routeId bootstrapTokenSha256 browserSessionTokenSha256 : String)
      (requestedSessionExpiresAt now : Instant)
  | delete (routeId : String)
  | deleteExpiredRoutes (now : Seconds)
  | deleteExpiredSessions (now : Seconds)

inductive Answer where
  | done
  | issue (outcome : IssueOutcome)
  | exchange (expiresAt : Option Instant)
deriving DecidableEq

/-- The store, and the calls so far with their answers, the newest first. -/
structure State (ρ : Type) where
  store : Store ρ
  history : List (Call ρ × Answer)

variable {ρ : Type}

def Store.call (store : Store ρ) : Call ρ → Store ρ × Answer
  | .upsert route token expiresAt now =>
    let (issued, outcome) := store.upsertWorkspaceAppRoute route token expiresAt now
    (issued, .issue outcome)
  | .exchange routeId bootstrap token requested now =>
    let (exchanged, expiresAt) :=
      store.exchangeWorkspaceAppBootstrap routeId bootstrap token requested now
    (exchanged, .exchange expiresAt)
  | .delete routeId => (store.deleteWorkspaceAppRoute routeId, .done)
  | .deleteExpiredRoutes now => (store.deleteExpiredWorkspaceAppRoutes now, .done)
  | .deleteExpiredSessions now => (store.deleteExpiredBrowserSessions now, .done)

def step (s : State ρ) (call : Call ρ) : State ρ :=
  ⟨(s.store.call call).1, (call, (s.store.call call).2) :: s.history⟩

def State.empty : State ρ := ⟨.empty, []⟩

/-- The bootstrap token was issued for the route. -/
def issuesToken (routeId token : String) : Call ρ × Answer → Bool
  | (.upsert route issued _ _, .issue .issued) => route.routeId = routeId && issued = token
  | _ => false

/-- The bootstrap token of the route was exchanged for a session. -/
def exchangesToken (routeId token : String) : Call ρ × Answer → Bool
  | (.exchange id presented _ _ _, .exchange (some _)) => id = routeId && presented = token
  | _ => false

/-- A route with this expiry is issued anew, deleted, or cleaned up. -/
def ends (routeId : String) (expiresAt : Seconds) : Call ρ × Answer → Bool
  | (.upsert route _ _ _, .issue .issued) => route.routeId = routeId
  | (.delete id, _) => id = routeId
  | (.deleteExpiredRoutes now, _) => expiresAt ≤ now
  | _ => false

/-- The route was last issued with this app, expiry and bootstrap token, and is still there. -/
inductive Issued (routeId : String) (app : ρ) (expiresAt : Seconds) (token : String) :
    List (Call ρ × Answer) → Prop
  | issued {older : List (Call ρ × Answer)} {createOnly : Bool} {bootstrapExpiresAt : Instant}
      {now : Seconds} :
      Issued routeId app expiresAt token
        ((.upsert ⟨routeId, createOnly, app, expiresAt⟩ token bootstrapExpiresAt now,
          .issue .issued) :: older)
  | later {older : List (Call ρ × Answer)} {event : Call ρ × Answer}
      (hnot : ends routeId expiresAt event = false) (h : Issued routeId app expiresAt token older) :
      Issued routeId app expiresAt token (event :: older)

/-- Since then, its bootstrap token was exchanged for this session. -/
inductive Exchanged (routeId : String) (app : ρ) (expiresAt : Seconds) (session : String)
    (sessionExpiresAt : Seconds) : List (Call ρ × Answer) → Prop
  | exchanged {older : List (Call ρ × Answer)} {token : String} {requested now endsAt : Instant}
      (hissued : Issued routeId app expiresAt token older)
      (huntil : unixTimestamp endsAt = sessionExpiresAt) (hroute : endsAt ≤ ofTimestamp expiresAt) :
      Exchanged routeId app expiresAt session sessionExpiresAt
        ((.exchange routeId token session requested now, .exchange (some endsAt)) :: older)
  | later {older : List (Call ρ × Answer)} {event : Call ρ × Answer}
      (hnot : ends routeId expiresAt event = false)
      (h : Exchanged routeId app expiresAt session sessionExpiresAt older) :
      Exchanged routeId app expiresAt session sessionExpiresAt (event :: older)

/-! ## What one call does to one route -/

section

variable {store : Store ρ} {routeId : String}

/-- **The effect of a call** on the row and the sessions of one route. -/
inductive Effect (store : Store ρ) (routeId : String) :
    Call ρ × Answer → Option (AppRow ρ) → (String → Option BrowserSession) → Prop
  | issues {createOnly : Bool} {token : String} {bootstrapExpiresAt : Instant} {now : Seconds}
      {row : AppRow ρ} (htoken : row.bootstrapTokenSha256 = some token) :
      Effect store routeId
        (.upsert ⟨routeId, createOnly, row.app, row.expiresAt⟩ token bootstrapExpiresAt now,
          .issue .issued) (some row) fun _ => none
  | exchanges {bootstrap token : String} {requested now endsAt : Instant} {row : AppRow ρ}
      (hrow : store.routes routeId = some row) (htoken : row.bootstrapTokenSha256 = some bootstrap)
      (huntil : endsAt ≤ ofTimestamp row.expiresAt) :
      Effect store routeId (.exchange routeId bootstrap token requested now, .exchange (some endsAt))
        (some { row with bootstrapTokenSha256 := none, bootstrapExpiresAt := none })
        (update (store.sessions routeId) token
          (some ⟨unixTimestamp endsAt, unixTimestamp now⟩))
  | removes {event : Call ρ × Answer} (hissue : ∀ token, issuesToken routeId token event = false)
      (hexchange : ∀ token, exchangesToken routeId token event = false) :
      Effect store routeId event none fun _ => none
  | keeps {event : Call ρ × Answer} {sessions : String → Option BrowserSession}
      (hissue : ∀ token, issuesToken routeId token event = false)
      (hexchange : ∀ token, exchangesToken routeId token event = false)
      (hends : ∀ row, store.routes routeId = some row → ends routeId row.expiresAt event = false)
      (hsessions : ∀ token session, sessions token = some session →
        store.sessions routeId token = some session) :
      Effect store routeId event (store.routes routeId) sessions

theorem sessions_eq_none (h : store.routes routeId = none) :
    store.sessions routeId = fun _ => none := by
  funext token
  by_contra hsm
  have hroute := store.foreignKey routeId token (isSome_iff_ne_none.mpr hsm)
  rw [h] at hroute
  cases hroute

theorem effect_deleteWhere {p : String → AppRow ρ → Bool} {event : Call ρ × Answer}
    (hissue : ∀ token, issuesToken routeId token event = false)
    (hexchange : ∀ token, exchangesToken routeId token event = false)
    (hends : ∀ row, p routeId row = false → ends routeId row.expiresAt event = false) :
    Effect store routeId event ((store.deleteWhere p).routes routeId)
      ((store.deleteWhere p).sessions routeId) := by
  cases hrow : store.routes routeId with
  | none =>
    have hrtes : (store.deleteWhere p).routes routeId = none := by
      simp [Store.deleteWhere, hrow]
    rw [hrtes, sessions_eq_none hrtes]
    exact .removes hissue hexchange
  | some row =>
    by_cases hp : p routeId row = true
    · have hrtes : (store.deleteWhere p).routes routeId = none := by
        simp only [Store.deleteWhere, hrow, filter_some, hp, Bool.not_true]
        rfl
      rw [hrtes, sessions_eq_none hrtes]
      exact .removes hissue hexchange
    · rw [not_eq_true] at hp
      have hrtes : (store.deleteWhere p).routes routeId = store.routes routeId := by
        simp [Store.deleteWhere, hrow, hp]
      rw [hrtes]
      refine .keeps hissue hexchange (fun other ho => ?_) fun token session hsession => ?_
      · rw [hrow] at ho
        cases ho
        exact hends row hp
      · simpa only [Store.deleteWhere, hrow, any_some, hp, false_eq_true, if_false] using hsession

theorem effect_upsert {route : RegisteredRoute ρ} {token : String} {bootstrapExpiresAt : Instant}
    {now : Seconds} {result : Store ρ × IssueOutcome}
    (h : store.upsertWorkspaceAppRoute route token bootstrapExpiresAt now = result) :
    Effect store routeId (.upsert route token bootstrapExpiresAt now, .issue result.2)
      (result.1.routes routeId) (result.1.sessions routeId) := by
  subst h
  rw [Store.upsertWorkspaceAppRoute]
  split
  · exact .keeps (fun _ => rfl) (fun _ => rfl) (fun _ _ => rfl) fun _ _ h => h
  dsimp only [Store.writeRoute]
  by_cases hid : routeId = route.routeId
  · rw [hid, update_self, update_self]
    obtain ⟨_, createOnly, app, expiresAt⟩ := route
    exact @Effect.issues _ _ _ createOnly token bootstrapExpiresAt now
      ⟨app, expiresAt, _, _, _, _⟩ rfl
  · have hne : decide (route.routeId = routeId) = false := decide_eq_false (Ne.symm hid)
    rw [update_of_ne hid, update_of_ne hid]
    exact .keeps (fun _ => by rw [issuesToken, hne, Bool.false_and]) (fun _ => rfl)
      (fun _ _ => by rw [ends, hne]) fun _ _ h => h

theorem effect_exchange {id bootstrap token : String} {requested now : Instant}
    {result : Store ρ × Option Instant}
    (h : store.exchangeWorkspaceAppBootstrap id bootstrap token requested now = result) :
    Effect store routeId (.exchange id bootstrap token requested now, .exchange result.2)
      (result.1.routes routeId) (result.1.sessions routeId) := by
  subst h
  have hkp : Effect store routeId (.exchange id bootstrap token requested now, .exchange none)
      (store.routes routeId) (store.sessions routeId) :=
    .keeps (fun _ => rfl) (fun _ => rfl) (fun _ _ => rfl) fun _ _ h => h
  rw [Store.exchangeWorkspaceAppBootstrap]
  split
  · exact hkp
  rename_i hrow
  dsimp only
  split
  · exact hkp
  split
  · exact hkp
  dsimp only [Store.addSession]
  by_cases hid : routeId = id
  · obtain ⟨hroute, hboot⟩ := filter_eq_some_iff.mp hrow
    rw [and_eq_true, and_eq_true, decide_eq_true_iff] at hboot
    subst hid
    rw [update_self, update_self]
    exact .exchanges hroute hboot.1.1 (min_le_right _ _)
  · have hne : decide (id = routeId) = false := decide_eq_false (Ne.symm hid)
    rw [update_of_ne hid, update_of_ne hid]
    exact .keeps (fun _ => rfl) (fun _ => by rw [exchangesToken, hne, Bool.false_and])
      (fun _ _ => rfl) fun _ _ h => h

theorem effect_call (store : Store ρ) (call : Call ρ) (routeId : String) :
    Effect store routeId (call, (store.call call).2) ((store.call call).1.routes routeId)
      ((store.call call).1.sessions routeId) := by
  cases call with
  | upsert => exact effect_upsert rfl
  | exchange => exact effect_exchange rfl
  | delete =>
    refine effect_deleteWhere (fun _ => rfl) (fun _ => rfl) fun row hp => ?_
    rw [decide_eq_false_iff_not] at hp
    exact decide_eq_false (Ne.symm hp)
  | deleteExpiredRoutes =>
    exact effect_deleteWhere (fun _ => rfl) (fun _ => rfl) fun row hp => hp
  | deleteExpiredSessions =>
    refine .keeps (fun _ => rfl) (fun _ => rfl) (fun _ _ => rfl) fun token session hsession => ?_
    exact (filter_eq_some_iff.mp hsession).1

end

/-! ## What the rows show -/

/-- One if the bootstrap token still waits in the row. -/
def waiting (token : String) (route : Option (AppRow ρ)) : Nat :=
  if route.bind AppRow.bootstrapTokenSha256 = some token then 1 else 0

/-- What the history shows about the row and the sessions of a route. -/
structure Shown (history : List (Call ρ × Answer)) (routeId : String) (route : Option (AppRow ρ))
    (sessions : String → Option BrowserSession) : Prop where
  /-- A token that waits was issued once more often than it was exchanged. -/
  spent : ∀ token, history.countP (exchangesToken routeId token) + waiting token route ≤
    history.countP (issuesToken routeId token)
  issued : ∀ row token, route = some row → row.bootstrapTokenSha256 = some token →
    Issued routeId row.app row.expiresAt token history
  exchanged : ∀ row token session, route = some row → sessions token = some session →
    Exchanged routeId row.app row.expiresAt token session.expiresAt history

section

variable {store : Store ρ} {routeId : String}

/-- **One call.** -/
theorem Shown.effect {history : List (Call ρ × Answer)} {event : Call ρ × Answer}
    {route : Option (AppRow ρ)} {sessions : String → Option BrowserSession}
    (h : Shown history routeId (store.routes routeId) (store.sessions routeId))
    (heff : Effect store routeId event route sessions) :
    Shown (event :: history) routeId route sessions := by
  cases heff with
  | @issues _ _ _ _ _ htoken =>
    refine ⟨fun other => ?_, fun r t hr ht => ?_, nofun⟩
    · have hspt := h.spent other
      rw [countP_cons, countP_cons, exchangesToken, issuesToken]
      · simp only [waiting, bind_some, htoken, Option.some.injEq, decide_true, Bool.true_and,
          decide_eq_true_eq, false_eq_true, if_false]
        split_ifs <;> omega
      · nofun
    · cases hr
      rw [htoken] at ht
      cases ht
      exact .issued
  | @exchanges bootstrap token _ _ _ row hrow htoken huntil =>
    refine ⟨fun other => ?_, fun r t hr ht => ?_, fun r t session hr hs => ?_⟩
    · have hspt := h.spent other
      rw [hrow] at hspt
      rw [countP_cons, countP_cons, exchangesToken, issuesToken]
      · simp only [waiting, bind_some, htoken, Option.some.injEq, decide_true, Bool.true_and,
          decide_eq_true_eq, false_eq_true, if_false, reduceCtorEq] at hspt ⊢
        omega
      · nofun
    · cases hr
      cases ht
    cases hr
    by_cases ht : t = token
    · subst ht
      rw [update_self] at hs
      cases hs
      exact .exchanged (h.issued row bootstrap hrow htoken) rfl huntil
    · rw [update_of_ne ht] at hs
      exact .later rfl (h.exchanged row t session hrow hs)
  | removes hissue hexchange =>
    refine ⟨fun other => ?_, nofun, nofun⟩
    have hspt := h.spent other
    rw [countP_cons_of_neg (by simp [hexchange]), countP_cons_of_neg (by simp [hissue])]
    exact Nat.le_trans (Nat.le_add_right _ _) hspt
  | keeps hissue hexchange hends hsessions =>
    refine ⟨fun other => ?_, fun r t hr ht => .later (hends r hr) (h.issued r t hr ht),
      fun r t session hr hs => .later (hends r hr) (h.exchanged r t session hr (hsessions t session hs))⟩
    rw [countP_cons_of_neg (by simp [hexchange]), countP_cons_of_neg (by simp [hissue])]
    exact h.spent other

theorem shown_run (calls : List (Call ρ)) (routeId : String) :
    Shown (Trace.run step State.empty calls).history routeId
      ((Trace.run step (State.empty : State ρ) calls).store.routes routeId)
      ((Trace.run step (State.empty : State ρ) calls).store.sessions routeId) := by
  refine Trace.run_invariant (P := fun s : State ρ => Shown s.history routeId
    (s.store.routes routeId) (s.store.sessions routeId)) (fun s call h => ?_) ?_ calls
  · exact h.effect (effect_call s.store call routeId)
  · exact ⟨fun _ => le_rfl, nofun, nofun⟩

theorem authorized_eq_some {token : String} {now sessionExpiresAt : Seconds} {row : AppRow ρ}
    (h : store.getAuthorizedWorkspaceAppRoute routeId token now = some (row, sessionExpiresAt)) :
    store.routes routeId = some row ∧ now < row.expiresAt ∧ now < sessionExpiresAt ∧
      ∃ session, store.sessions routeId token = some session ∧ session.expiresAt = sessionExpiresAt := by
  rw [Store.getAuthorizedWorkspaceAppRoute] at h
  split at h
  · rename_i session hrow hsession
    split_ifs at h with hlv
    · cases h
      rw [and_eq_true, decide_eq_true_iff, decide_eq_true_iff] at hlv
      exact ⟨hrow, hlv.1, hlv.2, session, hsession, rfl⟩
  · cases h

end

/-- **Browser sessions.**  However routes are issued, exchanged, deleted and cleaned up, the
bootstrap token of a route is exchanged no more often than it was issued.  A session that opens a
route was exchanged for that route since it was last issued, and no later issue, deletion or cleanup
of the route lies between.  It opens what that issue named, and both its own expiry and the
route's are ahead. -/
theorem browser_sessions (calls : List (Call ρ)) (routeId : String) :
    let reached := Trace.run step State.empty calls
    (∀ bootstrap, reached.history.countP (exchangesToken routeId bootstrap) ≤
      reached.history.countP (issuesToken routeId bootstrap)) ∧
    ∀ token now row sessionExpiresAt,
      reached.store.getAuthorizedWorkspaceAppRoute routeId token now =
        some (row, sessionExpiresAt) →
      now < sessionExpiresAt ∧ now < row.expiresAt ∧
        Exchanged routeId row.app row.expiresAt token sessionExpiresAt reached.history := by
  intro _
  have hshw := shown_run calls routeId
  refine ⟨fun bootstrap => Nat.le_trans (Nat.le_add_right _ _) (hshw.spent bootstrap), ?_⟩
  intro token _ row _ hauthorized
  obtain ⟨hrow, hroute, hsession, session, hsto, rfl⟩ := authorized_eq_some hauthorized
  exact ⟨hsession, hroute, hshw.exchanged row token session hrow hsto⟩

end Intar.Gateway.Apps
