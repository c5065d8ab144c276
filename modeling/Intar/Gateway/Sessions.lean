import Intar.Lib.Trace

/-!
# The session registry of the gateway

Every connection to a route holds a *lease*: an entry in the registry and a cancellation token.  A
lease can register children, which are leases of the same route.  `terminate_username` cancels all
leases of a route; afterwards none of them may get a child, although the connection that holds it
may be about to ask for one.

A route counts its terminations in `generation`, and it is forgotten, together with the count, when
its last entry goes.  What fences off a stale parent across such removals is its token: it is
cancelled while the route is locked, and it is looked at again under the lock.

Each access to the map is a step of its own: a child is registered in two (the first look at the
token and the locked section), and a lease is dropped in two (`retain` and `remove_if`).  Lease ids
are fresh, and a token is known by the id of its lease.
-/

namespace Intar.Gateway.Sessions

open Trace List

structure RouteSessions where
  generation : UInt64
  entries : List ℕ
  deriving DecidableEq

/-- `parent` is not kept by the gateway: it is the lease that registered this one. -/
structure SessionLease where
  id : ℕ
  username : String
  generation : UInt64
  parent : Option ℕ
  deriving DecidableEq

/-- The map, and the leases with what became of them: which tokens are cancelled, which leases are
dropped, and which `terminate_username` has taken out of the map.  `checked` are the parents of the
`register_child` calls that have passed the first look, `unregistering` the routes of the drops that
are between their two accesses. -/
structure Registry where
  routes : String → Option RouteSessions
  issued : List SessionLease
  (cancelled dropped revoked checked : List ℕ)
  unregistering : List String

def Registry.empty : Registry := ⟨fun _ => none, [], [], [], [], [], []⟩

namespace Registry

variable (s : Registry)

/-- `routes.entry(username).or_default()`. -/
def entry (username : String) : RouteSessions := (s.routes username).getD ⟨0, []⟩

def setRoute (username : String) (route : Option RouteSessions) : Registry :=
  { s with routes := Function.update s.routes username route }

def Used (id : ℕ) : Prop := ∃ lease ∈ s.issued, lease.id = id

instance (id : ℕ) : Decidable (s.Used id) := inferInstanceAs (Decidable (∃ _ ∈ _, _))

/-- The lease of the id, while somebody holds it. -/
def held (id : ℕ) : Option SessionLease :=
  if id ∈ s.dropped then none else s.issued.find? (·.id = id)

/-- The entry is pushed and the lease handed out. -/
def issue (lease : SessionLease) : Registry :=
  let route := s.entry lease.username
  { s.setRoute lease.username (some { route with entries := route.entries ++ [lease.id] }) with
    issued := lease :: s.issued }

def register (id : ℕ) (username : String) : Registry :=
  if s.Used id then s else s.issue ⟨id, username, (s.entry username).generation, none⟩

/-- `register_child` up to the lock. -/
def checkChild (parent : ℕ) : Registry :=
  if (s.held parent).isSome ∧ parent ∉ s.cancelled then { s with checked := parent :: s.checked }
  else s

/-- `register_child` under the lock. -/
def pushChild (id parent : ℕ) : Registry :=
  match s.held parent with
  | some lease =>
    if parent ∈ s.checked ∧ ¬s.Used id then
      let s := { s with checked := s.checked.erase parent }
      let route := s.entry lease.username
      if parent ∈ s.cancelled ∨ route.generation ≠ lease.generation then
        s.setRoute lease.username (some route)
      else s.issue ⟨id, lease.username, lease.generation, some parent⟩
    else s
  | none => s

/-- The locked section of `terminate_username`. -/
def terminateUsername (username : String) : Registry :=
  let route := s.entry username
  { s.setRoute username (some ⟨route.generation + 1, []⟩) with
    cancelled := route.entries ++ s.cancelled
    revoked := route.entries ++ s.revoked }

/-- `SessionLease::terminate`. -/
def terminate (id : ℕ) : Registry :=
  if (s.held id).isSome then { s with cancelled := id :: s.cancelled } else s

/-- The first access of a drop, which no call of `register_child` on the lease outlives. -/
def retain (id : ℕ) : Registry :=
  match s.held id with
  | some lease =>
    if id ∈ s.checked then s
    else
      { s.setRoute lease.username ((s.routes lease.username).map fun route =>
          { route with entries := route.entries.filter (· ≠ id) }) with
        dropped := id :: s.dropped
        unregistering := lease.username :: s.unregistering }
  | none => s

/-- The second access of a drop. -/
def removeIf (username : String) : Registry :=
  if username ∈ s.unregistering then
    let s := { s with unregistering := s.unregistering.erase username }
    if (s.entry username).entries = [] then s.setRoute username none else s
  else s

end Registry

inductive Op
  | register (id : ℕ) (username : String)
  | checkChild (parent : ℕ)
  | pushChild (id parent : ℕ)
  | terminateUsername (username : String)
  | terminate (id : ℕ)
  | retain (id : ℕ)
  | removeIf (username : String)

def step (s : Registry) : Op → Registry
  | .register id username => s.register id username
  | .checkChild parent => s.checkChild parent
  | .pushChild id parent => s.pushChild id parent
  | .terminateUsername username => s.terminateUsername username
  | .terminate id => s.terminate id
  | .retain id => s.retain id
  | .removeIf username => s.removeIf username

/-! ## What a step can do -/

section

variable {s t : Registry} {op : Op} {id : ℕ} {username : String} {lease : SessionLease}

theorem held_eq_some (h : s.held id = some lease) :
    lease ∈ s.issued ∧ lease.id = id ∧ id ∉ s.dropped := by
  rw [Registry.held] at h
  split_ifs at h with hdropped
  exact ⟨mem_of_find?_eq_some h, by simpa using find?_some h, hdropped⟩

@[simp] theorem entry_setRoute (route : Option RouteSessions) (other : String) :
    (s.setRoute username route).entry other =
      if other = username then route.getD ⟨0, []⟩ else s.entry other := by
  by_cases h : other = username <;> simp [Registry.entry, Registry.setRoute, h]

/-- What a step of the registry can do, with what it has checked. -/
inductive Effect (s : Registry) : Op → Registry → Prop
  /-- No lease is touched: at most an empty route comes, goes or is counted anew. -/
  | quiet {op : Op} {t : Registry} (hissued : t.issued = s.issued) 
      (hcancelled : t.cancelled = s.cancelled) (hdropped : t.dropped = s.dropped)
      (hrevoked : t.revoked = s.revoked)
      (hentries : ∀ u, (t.entry u).entries = (s.entry u).entries)
      (hgeneration : ∀ u, (s.entry u).entries ≠ [] →
        (t.entry u).generation = (s.entry u).generation) : Effect s op t
  | issue {op : Op} (lease : SessionLease) (hfresh : ¬s.Used lease.id)
      (hgeneration : (s.entry lease.username).generation = lease.generation)
      (hparent : ∀ parent ∈ lease.parent, parent ∉ s.cancelled ∧ parent ∉ s.dropped ∧
        ∃ old ∈ s.issued, old.id = parent ∧ old.username = lease.username)
      (checked : List ℕ) : Effect s op { s.issue lease with checked }
  | terminateUsername (username : String) :
      Effect s (.terminateUsername username) (s.terminateUsername username)
  | terminate (lease : SessionLease) (hlease : lease ∈ s.issued) :
      Effect s (.terminate lease.id) { s with cancelled := lease.id :: s.cancelled }
  | retain {op : Op} {t : Registry} (lease : SessionLease) (hlease : lease ∈ s.issued)
      (hissued : t.issued = s.issued) (hcancelled : t.cancelled = s.cancelled)
      (hdropped : t.dropped = lease.id :: s.dropped) (hrevoked : t.revoked = s.revoked)
      (hentries : ∀ u, (t.entry u).entries = if u = lease.username then
        (s.entry u).entries.filter (· ≠ lease.id) else (s.entry u).entries)
      (hgeneration : ∀ u, (t.entry u).generation = (s.entry u).generation) : Effect s op t

theorem Effect.refl (s : Registry) (op : Op) : Effect s op s :=
  .quiet rfl rfl rfl rfl (fun _ => rfl) fun _ _ => rfl

theorem effect_pushChild (s : Registry) (id parent : ℕ) :
    Effect s (.pushChild id parent) (s.pushChild id parent) := by
  rw [Registry.pushChild]
  split
  · rename_i lease hhd
    obtain ⟨hlease, hid, hdropped⟩ := held_eq_some hhd
    split_ifs with hcl
    · dsimp only
      split_ifs with hstl
      · -- the route may come into being, empty
        refine .quiet rfl rfl rfl rfl (fun u => ?_) fun u _ => ?_ <;>
          · rw [entry_setRoute]
            split_ifs with hu <;> simp [hu, Registry.entry]
      · obtain ⟨hcancelled, hgeneration⟩ := not_or.mp hstl
        refine .issue ⟨id, lease.username, lease.generation, some parent⟩ hcl.2
          (not_not.mp hgeneration) ?_ _
        rintro p ⟨⟩
        exact ⟨hcancelled, hdropped, lease, hlease, hid, rfl⟩
    · exact .refl s _
  · exact .refl s _

theorem effect_retain (s : Registry) (id : ℕ) : Effect s (.retain id) (s.retain id) := by
  rw [Registry.retain]
  split
  · rename_i lease hhd
    obtain ⟨hlease, rfl, -⟩ := held_eq_some hhd
    split_ifs
    · exact .refl s _
    refine .retain lease hlease rfl rfl rfl rfl (fun u => ?_) fun u => ?_ <;>
      · by_cases hu : u = lease.username
        · subst hu
          cases hrt : s.routes lease.username <;>
            simp [Registry.entry, Registry.setRoute, hrt]
        · simp [Registry.entry, Registry.setRoute, hu]
  · exact .refl s _

theorem effect_removeIf (s : Registry) (username : String) :
    Effect s (.removeIf username) (s.removeIf username) := by
  rw [Registry.removeIf]
  split_ifs with hcl
  · dsimp only
    split_ifs with hemp
    · refine .quiet rfl rfl rfl rfl (fun u => ?_) fun u hu => ?_ <;> rw [entry_setRoute]
      · split_ifs with heq
        · rw [heq]
          exact hemp.symm
        · rfl
      · rw [if_neg]
        · rfl
        rintro rfl
        exact hu hemp
    · exact .quiet rfl rfl rfl rfl (fun _ => rfl) fun _ _ => rfl
  · exact .refl s _

theorem effect_step (s : Registry) (op : Op) : Effect s op (step s op) := by
  cases op with
  | register id username =>
    simp only [step, Registry.register]
    split_ifs with hused
    · exact .refl s _
    · exact .issue ⟨id, username, _, none⟩ hused rfl (by simp) s.checked
  | checkChild =>
    simp only [step, Registry.checkChild]
    split_ifs
    · exact .quiet rfl rfl rfl rfl (fun _ => rfl) fun _ _ => rfl
    · exact .refl s _
  | pushChild id parent => exact effect_pushChild s id parent
  | terminateUsername username => exact .terminateUsername username
  | terminate =>
    simp only [step, Registry.terminate]
    split_ifs with hhd
    · obtain ⟨lease, hlease⟩ := Option.isSome_iff_exists.mp hhd
      obtain ⟨hmem, rfl, -⟩ := held_eq_some hlease
      exact .terminate lease hmem
    · exact .refl s _
  | retain id => exact effect_retain s id
  | removeIf username => exact effect_removeIf s username

/-! ## What only grows -/

structure Grows (s t : Registry) : Prop where
  issued : s.issued ⊆ t.issued
  cancelled : s.cancelled ⊆ t.cancelled
  dropped : s.dropped ⊆ t.dropped

theorem Effect.grows (h : Effect s op t) : Grows s t := by
  cases h with
  | quiet | retain =>
    constructor <;> simp [*]
  | issue => exact ⟨subset_cons_self _ _, List.Subset.refl _, List.Subset.refl _⟩
  | terminateUsername =>
    exact ⟨List.Subset.refl _, subset_append_right _ _, List.Subset.refl _⟩
  | terminate => exact ⟨List.Subset.refl _, subset_cons_self _ _, List.Subset.refl _⟩

theorem grows_run (s : Registry) (ops : List Op) : Grows s (run step s ops) := by
  refine run_rel (fun s => ?_) (fun h h' => ?_) (fun s op => (effect_step s op).grows) s ops
  · exact ⟨List.Subset.refl _, List.Subset.refl _, List.Subset.refl _⟩
  exact ⟨List.Subset.trans h.issued h'.issued, List.Subset.trans h.cancelled h'.cancelled,
    List.Subset.trans h.dropped h'.dropped⟩

/-! ## The invariant -/

/-- The lease was neither dropped nor taken out by `terminate_username`. -/
def Registry.Files (s : Registry) (lease : SessionLease) : Prop :=
  lease ∈ s.issued ∧ lease.id ∉ s.dropped ∧ lease.id ∉ s.revoked

structure Inv (s : Registry) : Prop where
  unique : ∀ lease ∈ s.issued, ∀ other ∈ s.issued, lease.id = other.id → lease = other
  used : ∀ id, id ∈ s.cancelled ∨ id ∈ s.dropped ∨ id ∈ s.revoked → s.Used id
  entries : ∀ username id, id ∈ (s.entry username).entries ↔
    ∃ lease, s.Files lease ∧ lease.id = id ∧ lease.username = username
  generation : ∀ lease, s.Files lease → (s.entry lease.username).generation = lease.generation
  revoked : s.revoked ⊆ s.cancelled
  parent : ∀ lease ∈ s.issued, ∀ parent ∈ lease.parent,
    ∃ old ∈ s.issued, old.id = parent ∧ old.username = lease.username

theorem inv_empty : Inv .empty := by
  constructor <;> simp [Registry.empty, Registry.Files, Registry.entry]

/-- A filed lease has an entry in its route. -/
theorem Inv.mem_entries (h : Inv s) (hfs : s.Files lease) :
    lease.id ∈ (s.entry lease.username).entries :=
  (h.entries _ _).mpr ⟨lease, hfs, rfl, rfl⟩

/-- An entry in any route is a lease of that route. -/
theorem Inv.username_of_entry (h : Inv s) (hlease : lease ∈ s.issued)
    (hid : lease.id ∈ (s.entry username).entries) : lease.username = username := by
  obtain ⟨filed, hfs, hsm, rfl⟩ := (h.entries _ _).mp hid
  rw [h.unique lease hlease filed hfs.1 hsm.symm]

theorem Inv.issue (h : Inv s) (hfresh : ¬s.Used lease.id)
    (hgeneration : (s.entry lease.username).generation = lease.generation)
    (hparent : ∀ parent ∈ lease.parent, parent ∉ s.cancelled ∧ parent ∉ s.dropped ∧
      ∃ old ∈ s.issued, old.id = parent ∧ old.username = lease.username)
    (checked : List ℕ) : Inv { s.issue lease with checked } := by
  have hne : ∀ old ∈ s.issued, old.id ≠ lease.id := fun old hold hid => hfresh ⟨old, hold, hid⟩
  have hunus := fun hid => hfresh (h.used lease.id hid)
  have hfs (l : SessionLease) :
      ({ s.issue lease with checked } : Registry).Files l ↔ l = lease ∨ s.Files l := by
    simp only [Registry.Files, Registry.issue, Registry.setRoute, mem_cons]
    constructor
    · rintro ⟨rfl | hl, hrs⟩
      · exact .inl rfl
      · exact .inr ⟨hl, hrs⟩
    · rintro (rfl | ⟨hl, hrs⟩)
      · exact ⟨.inl rfl, fun hd => hunus (.inr (.inl hd)), fun hr => hunus (.inr (.inr hr))⟩
      · exact ⟨.inr hl, hrs⟩
  have hent (u : String) : ({ s.issue lease with checked } : Registry).entry u =
      if u = lease.username then ⟨(s.entry u).generation, (s.entry u).entries ++ [lease.id]⟩
      else s.entry u := by
    change (s.setRoute _ _).entry u = _
    rw [entry_setRoute]
    split_ifs with hu <;> simp [hu]
  refine ⟨?_, ?_, fun u id => ?_, fun l hl => ?_, h.revoked, ?_⟩
  · intro l hl other ho hid
    rcases mem_cons.mp hl with rfl | hl' <;> rcases mem_cons.mp ho with rfl | ho'
    · rfl
    · exact absurd hid.symm (hne other ho')
    · exact absurd hid (hne l hl')
    · exact h.unique l hl' other ho' hid
  · intro id hid
    obtain ⟨old, hold, hold_id⟩ := h.used id hid
    exact ⟨old, mem_cons_of_mem _ hold, hold_id⟩
  · have hold := h.entries u id
    simp only [hent, hfs]
    split_ifs with hu
    · simp only [mem_append, hold, mem_singleton]
      constructor
      · rintro (⟨l, hl⟩ | rfl)
        · exact ⟨l, .inr hl.1, hl.2⟩
        · exact ⟨lease, .inl rfl, rfl, hu.symm⟩
      · rintro ⟨l, rfl | hl, hid, hnm⟩
        · exact .inr hid.symm
        · exact .inl ⟨l, hl, hid, hnm⟩
    · rw [hold]
      constructor
      · rintro ⟨l, hl⟩
        exact ⟨l, .inr hl.1, hl.2⟩
      · rintro ⟨l, rfl | hl, hid, hnm⟩
        · exact absurd hnm.symm hu
        · exact ⟨l, hl, hid, hnm⟩
  · rw [hent]
    rcases (hfs l).mp hl with rfl | hl
    · simpa using hgeneration
    · split_ifs <;> exact h.generation l hl
  intro l hl parent hp
  rcases mem_cons.mp hl with rfl | hl
  · obtain ⟨-, -, old, hold, hrs⟩ := hparent parent hp
    exact ⟨old, mem_cons_of_mem _ hold, hrs⟩
  · obtain ⟨old, hold, hrs⟩ := h.parent l hl parent hp
    exact ⟨old, mem_cons_of_mem _ hold, hrs⟩

theorem Inv.terminateUsername (h : Inv s) (username : String) :
    Inv (s.terminateUsername username) := by
  have hfs (l : SessionLease) :
      (s.terminateUsername username).Files l ↔ s.Files l ∧ l.username ≠ username := by
    simp only [Registry.Files, Registry.terminateUsername, Registry.setRoute, mem_append, not_or]
    constructor
    · rintro ⟨hl, hdropped, hent, hrevoked⟩
      refine ⟨⟨hl, hdropped, hrevoked⟩, ?_⟩
      rintro rfl
      exact hent (h.mem_entries ⟨hl, hdropped, hrevoked⟩)
    · rintro ⟨⟨hl, hdropped, hrevoked⟩, hnm⟩
      exact ⟨hl, hdropped, fun hent => hnm (h.username_of_entry hl hent), hrevoked⟩
  have hent (u : String) : (s.terminateUsername username).entry u =
      if u = username then ⟨(s.entry username).generation + 1, []⟩ else s.entry u :=
    entry_setRoute _ u
  refine ⟨h.unique, ?_, fun u id => ?_, fun l hl => ?_, ?_, h.parent⟩
  · intro id hid
    have hold : ∀ id ∈ (s.entry username).entries, s.Used id := fun id hid => by
      obtain ⟨l, hl, hid, -⟩ := (h.entries _ _).mp hid
      exact ⟨l, hl.1, hid⟩
    simp only [Registry.terminateUsername, Registry.setRoute, mem_append] at hid
    rcases hid with (hid | hid) | hid | hid | hid
    · exact hold id hid
    · exact h.used id (.inl hid)
    · exact h.used id (.inr (.inl hid))
    · exact hold id hid
    · exact h.used id (.inr (.inr hid))
  · simp only [hent, hfs]
    split_ifs with hu
    · subst hu
      simp +contextual
    rw [h.entries]
    constructor
    · rintro ⟨l, hl, hid, rfl⟩
      exact ⟨l, ⟨hl, hu⟩, hid, rfl⟩
    · rintro ⟨l, ⟨hl, -⟩, hrs⟩
      exact ⟨l, hl, hrs⟩
  · obtain ⟨hl, hnm⟩ := (hfs l).mp hl
    rw [hent, if_neg hnm]
    exact h.generation l hl
  · intro _ hid
    rcases mem_append.mp hid with hid | hid
    · exact mem_append_left _ hid
    · exact mem_append_right _ (h.revoked hid)

/-- The map after a drop, or after a step that leaves the leases alone. -/
theorem Inv.of_entries (h : Inv s) (gone : List ℕ) (hgone : ∀ id ∈ gone, s.Used id)
    (hissued : t.issued = s.issued) (hcancelled : t.cancelled = s.cancelled)
    (hdropped : t.dropped = gone ++ s.dropped) (hrevoked : t.revoked = s.revoked)
    (hentries : ∀ u id, id ∈ (t.entry u).entries ↔ id ∈ (s.entry u).entries ∧ id ∉ gone)
    (hgeneration : ∀ u, (t.entry u).entries ≠ [] →
      (t.entry u).generation = (s.entry u).generation) : Inv t := by
  have hfs (l : SessionLease) : t.Files l ↔ s.Files l ∧ l.id ∉ gone := by
    simp only [Registry.Files, hissued, hdropped, hrevoked, mem_append]
    tauto
  have hused (id : ℕ) : t.Used id ↔ s.Used id := by rw [Registry.Used, Registry.Used, hissued]
  have hent (u : String) (id : ℕ) : id ∈ (t.entry u).entries ↔
      ∃ l, t.Files l ∧ l.id = id ∧ l.username = u := by
    simp only [hentries, hfs, h.entries]
    constructor
    · rintro ⟨⟨l, hl, rfl, hnm⟩, hid⟩
      exact ⟨l, ⟨hl, hid⟩, rfl, hnm⟩
    · rintro ⟨l, ⟨hl, hid⟩, rfl, hnm⟩
      exact ⟨⟨l, hl, rfl, hnm⟩, hid⟩
  refine ⟨by rw [hissued]; exact h.unique, fun id hid => ?_, hent, fun l hl => ?_,
    by rw [hrevoked, hcancelled]; exact h.revoked, by rw [hissued]; exact h.parent⟩
  · rw [hcancelled, hdropped, hrevoked, mem_append] at hid
    rw [hused]
    rcases hid with hid | (hid | hid) | hid
    · exact h.used id (.inl hid)
    · exact hgone id hid
    · exact h.used id (.inr (.inl hid))
    · exact h.used id (.inr (.inr hid))
  · rw [hgeneration _ (ne_nil_of_mem ((hent _ _).mpr ⟨l, hl, rfl, rfl⟩))]
    exact h.generation l ((hfs l).mp hl).1

theorem Effect.inv (heff : Effect s op t) (h : Inv s) : Inv t := by
  cases heff with
  | quiet hissued hcancelled hdropped hrevoked hentries hgeneration =>
    refine h.of_entries [] (by simp) hissued hcancelled hdropped hrevoked (fun u id => ?_) ?_
    · simp [hentries]
    · exact fun u hu => hgeneration u (hentries u ▸ hu)
  | issue _ hfresh hgeneration hparent => exact h.issue hfresh hgeneration hparent _
  | terminateUsername username => exact h.terminateUsername username
  | terminate lease hlease =>
    refine ⟨h.unique, ?_, h.entries, h.generation, ?_, h.parent⟩
    · rintro id (hid | hid)
      · rcases mem_cons.mp hid with rfl | hid
        · exact ⟨lease, hlease, rfl⟩
        · exact h.used id (.inl hid)
      · exact h.used id (.inr hid)
    · exact fun id hid => mem_cons_of_mem _ (h.revoked hid)
  | retain lease hlease hissued hcancelled hdropped hrevoked hentries hgeneration =>
    refine h.of_entries [lease.id] ?_ hissued hcancelled hdropped hrevoked (fun u id => ?_)
      fun u _ => hgeneration u
    · rintro _ hid
      exact ⟨lease, hlease, (mem_singleton.mp hid).symm⟩
    rw [hentries, mem_singleton]
    split_ifs with hu
    · simp
    -- another route has no entry of this lease
    refine ⟨fun hid => ⟨hid, ?_⟩, And.left⟩
    rintro rfl
    exact hu (h.username_of_entry hlease hid).symm

theorem inv_run (ops : List Op) : Inv (run step .empty ops) :=
  run_invariant (fun s op h => (effect_step s op).inv h) inv_empty ops

/-! ## Revocation -/

theorem Inv.held_eq (h : Inv s) (hlease : lease ∈ s.issued) (hdropped : lease.id ∉ s.dropped) :
    s.held lease.id = some lease := by
  rw [Registry.held, if_neg hdropped]
  cases hfind : s.issued.find? (·.id = lease.id) with
  | none => simpa using find?_eq_none.mp hfind lease hlease
  | some other =>
    have hid : other.id = lease.id := by simpa using find?_some hfind
    rw [h.unique other (mem_of_find?_eq_some hfind) lease hlease hid]

/-- An uncancelled lease that nobody has dropped is filed. -/
theorem Inv.files (h : Inv s) (hlease : lease ∈ s.issued) (hdropped : lease.id ∉ s.dropped)
    (hcancelled : lease.id ∉ s.cancelled) : s.Files lease :=
  ⟨hlease, hdropped, fun hrevoked => hcancelled (h.revoked hrevoked)⟩

theorem mem_issued_pushChild (h : Inv s) (hlease : lease ∈ s.issued)
    (hdropped : lease.id ∉ s.dropped) (hcancelled : lease.id ∉ s.cancelled)
    (hchkd : lease.id ∈ s.checked) {child : ℕ} (hchild : ¬s.Used child) :
    ⟨child, lease.username, lease.generation, some lease.id⟩ ∈
      (s.pushChild child lease.id).issued := by
  have hgeneration := h.generation lease (h.files hlease hdropped hcancelled)
  rw [Registry.pushChild, h.held_eq hlease hdropped]
  dsimp only
  rw [if_pos ⟨hchkd, hchild⟩, if_neg]
  · exact mem_cons_self
  · exact not_or.mpr ⟨hcancelled, not_not.mpr hgeneration⟩

theorem mem_cancelled_terminateUsername (h : Inv s) (hlease : lease ∈ s.issued)
    (hdropped : lease.id ∉ s.dropped) :
    lease.id ∈ (s.terminateUsername lease.username).cancelled := by
  by_cases hcancelled : lease.id ∈ s.cancelled
  · exact mem_append_right _ hcancelled
  · exact mem_append_left _ (h.mem_entries (h.files hlease hdropped hcancelled))

/-- `child` comes from `lease` through a chain of `register_child`. -/
inductive Descends (s : Registry) (lease : SessionLease) : SessionLease → Prop
  | child {child : SessionLease} (hmem : child ∈ s.issued)
      (hparent : child.parent = some lease.id) : Descends s lease child
  | step {middle child : SessionLease} (hmiddle : Descends s lease middle) (hmem : child ∈ s.issued)
      (hparent : child.parent = some middle.id) : Descends s lease child

/-- Since the termination of the route of `t`, none of its leases has got a child. -/
structure Fenced (t : Registry) (username : String) (s : Registry) : Prop where
  issued : t.issued ⊆ s.issued
  stale : ∀ lease ∈ t.issued, lease.username = username →
    lease.id ∈ s.cancelled ∨ lease.id ∈ s.dropped
  child : ∀ lease ∈ s.issued, lease ∉ t.issued → ∀ old ∈ t.issued, old.username = username →
    lease.parent ≠ some old.id

theorem fenced_terminateUsername (h : Inv t) (username : String) :
    Fenced t username (t.terminateUsername username) := by
  refine ⟨List.Subset.refl _, ?_, fun lease hlease hnew => absurd hlease hnew⟩
  rintro lease hlease rfl
  by_cases hdropped : lease.id ∈ t.dropped
  · exact .inr hdropped
  · exact .inl (mem_cancelled_terminateUsername h hlease hdropped)

/-- Only the lease that is handed out is new, and its parent was looked at under the lock. -/
theorem Effect.parent (heff : Effect s op t) (hlease : lease ∈ t.issued) :
    lease ∈ s.issued ∨ ∀ parent ∈ lease.parent, parent ∉ s.cancelled ∧ parent ∉ s.dropped := by
  cases heff with
  | quiet hissued | retain _ _ hissued => exact .inl (hissued ▸ hlease)
  | issue _ _ _ hparent =>
    rcases mem_cons.mp hlease with rfl | hlease
    · exact .inr fun parent hp => ⟨(hparent parent hp).1, (hparent parent hp).2.1⟩
    · exact .inl hlease
  | terminateUsername | terminate => exact .inl hlease

theorem Fenced.step (h : Fenced t username s) (op : Op) : Fenced t username (step s op) := by
  have hgrw := (effect_step s op).grows
  refine ⟨List.Subset.trans h.issued hgrw.issued, fun old hold hnm => ?_, ?_⟩
  · exact (h.stale old hold hnm).imp (hgrw.cancelled ·) (hgrw.dropped ·)
  intro lease hlease hnew old hold hnm hparent
  rcases (effect_step s op).parent hlease with hlease | hlease
  · exact h.child lease hlease hnew old hold hnm hparent
  obtain ⟨hcancelled, hdropped⟩ := hlease old.id hparent
  exact (h.stale old hold hnm).elim hcancelled hdropped

/-- The fence holds along chains: they stay in the route, and in what `t` has handed out. -/
theorem Fenced.descends (h : Fenced t username s) (hinv : Inv s) {child : SessionLease}
    (hlease : lease ∈ t.issued) (hnm : lease.username = username)
    (hchn : Descends s lease child) : child ∈ t.issued ∧ child.username = username := by
  have hlk (old child : SessionLease) (hold : old ∈ t.issued ∧ old.username = username)
      (hmem : child ∈ s.issued) (hparent : child.parent = some old.id) :
      child ∈ t.issued ∧ child.username = username := by
    refine ⟨by_contra fun hnew => h.child child hmem hnew old hold.1 hold.2 hparent, ?_⟩
    obtain ⟨parent, hparent', hid, hsm⟩ := hinv.parent child hmem old.id hparent
    rw [← hsm, hinv.unique parent hparent' old (h.issued hold.1) hid, hold.2]
  induction hchn with
  | child hmem hparent => exact hlk lease _ ⟨hlease, hnm⟩ hmem hparent
  | step _ hmem hparent ih => exact hlk _ _ ih hmem hparent

/-- A token is cancelled by a termination of its route or of its lease only. -/
theorem Effect.not_mem_cancelled (heff : Effect s op t) (h : Inv s)
    (huser : op ≠ .terminateUsername lease.username) (hterm : op ≠ .terminate lease.id)
    (hold : lease ∈ s.issued → lease.id ∉ s.cancelled) (hlease : lease ∈ t.issued) :
    lease.id ∉ t.cancelled := by
  cases heff with
  | quiet hissued hcancelled | retain _ _ hissued hcancelled =>
    simpa [hcancelled] using hold (hissued ▸ hlease)
  | issue _ hfresh =>
    rcases mem_cons.mp hlease with rfl | hlease
    · exact fun hid => hfresh (h.used _ (.inl hid))
    · exact hold hlease
  | terminateUsername =>
    refine fun hmem => (mem_append.mp hmem).elim (fun hent => huser ?_) (hold hlease)
    rw [h.username_of_entry hlease hent]
  | terminate =>
    refine fun hmem => (mem_cons.mp hmem).elim (fun hid => hterm ?_) (hold hlease)
    rw [hid]

/-- **Revocation is final and exact.**  After any interleaving the map holds the leases that were
neither dropped nor taken out by `terminate_username`, and a lease that is not cancelled gets the
child it asks for.  Once a route was terminated, all leases it had are cancelled, every lease that
descends from one of them is among them, and a later lease keeps its token and its entry until it
is terminated itself. -/
theorem terminateUsername_revokes (ops : List Op) :
    let s := run step Registry.empty ops
    (∀ username id, id ∈ (s.entry username).entries ↔
      ∃ lease, s.Files lease ∧ lease.id = id ∧ lease.username = username) ∧
    (∀ lease ∈ s.issued, lease.id ∉ s.dropped → lease.id ∉ s.cancelled →
      lease.id ∈ (step s (.checkChild lease.id)).checked ∧
      ∀ child, lease.id ∈ s.checked → ¬s.Used child →
        ⟨child, lease.username, lease.generation, some lease.id⟩ ∈
          (step s (.pushChild child lease.id)).issued) ∧
    ∀ before username after, ops = before ++ .terminateUsername username :: after →
      let t := run step Registry.empty before
      (∀ lease ∈ t.issued, lease.username = username →
        (lease.id ∉ t.dropped → lease.id ∈ s.cancelled) ∧
        ∀ child, Descends s lease child → child ∈ t.issued) ∧
      ∀ lease ∈ s.issued, lease ∉ t.issued → .terminateUsername lease.username ∉ after →
        .terminate lease.id ∉ after → lease.id ∉ s.cancelled ∧
          (lease.id ∉ s.dropped → lease.id ∈ (s.entry lease.username).entries) := by
  intro s
  have hinv : Inv s := inv_run ops
  refine ⟨hinv.entries, fun lease hlease hdropped hcancelled => ⟨?_, fun child hchkd hchild => ?_⟩,
    fun before username after hops => ?_⟩
  · simp [step, Registry.checkChild, hinv.held_eq hlease hdropped, hcancelled]
  · exact mem_issued_pushChild hinv hlease hdropped hcancelled hchkd hchild
  intro t
  have ht : Inv t := inv_run before
  have hs : s = run step (t.terminateUsername username) after := by
    rw [show s = run step .empty ops from rfl, hops, run_append]
    rfl
  refine ⟨fun lease hlease hnm => ⟨fun hdropped => ?_, fun child hchn => ?_⟩,
    fun lease hlease hnew huser hterm => ?_⟩
  · subst hnm
    rw [hs]
    exact (grows_run _ after).cancelled (mem_cancelled_terminateUsername ht hlease hdropped)
  · have hfenced : Fenced t username s := by
      rw [hs]
      exact run_invariant (fun s op h => h.step op) (fenced_terminateUsername ht username) after
    exact (hfenced.descends hinv hlease hnm hchn).1
  · have hrun : Inv s ∧ (lease ∈ s.issued → lease.id ∉ s.cancelled) := by
      rw [hs]
      refine run_invariant_of_mem
        (P := fun r => Inv r ∧ (lease ∈ r.issued → lease.id ∉ r.cancelled)) (fun r op hop hr => ?_)
        ⟨ht.terminateUsername username, fun hmem => absurd hmem hnew⟩
      refine ⟨(effect_step r op).inv hr.1, (effect_step r op).not_mem_cancelled hr.1 ?_ ?_ hr.2⟩
      · rintro rfl
        exact huser hop
      · rintro rfl
        exact hterm hop
    refine ⟨hrun.2 hlease, fun hdropped => ?_⟩
    exact hinv.mem_entries (hinv.files hlease hdropped (hrun.2 hlease))

end

end Intar.Gateway.Sessions
