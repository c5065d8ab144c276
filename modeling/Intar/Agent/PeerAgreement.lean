import Intar.Agent.VmCreate
import Intar.Lib.Trace

/-!
# The VMs of a run agree on their addresses

Every create of a run fills in the addresses of all its VMs anew, with those kept that are recorded.
The first create of the run fixes the outcome: by the stability of `Probing.fill`, each later one
comes to the same addresses, whichever VMs were created before it.
-/

namespace Intar.Agent

open Fallible SortedTable List

/-- The creates of a run one after another, with what came of them. -/
structure Session where
  states : States
  created : List Created

/-- One create; a refused one changes nothing. -/
def Session.create (stableU64 : String → Nat) (pool : Pool) (s : Session) (request : CreateRequest) :
    Session :=
  match createVm stableU64 pool s.states request with
  | .ok (states, created) => ⟨states, created :: s.created⟩
  | .error _ => s

/-- The request is for a VM of the run, without a network of its own, and its peer list names the
whole set. -/
structure CreateRequest.NamesAll (request : CreateRequest) (runId : String) (names : List String) :
    Prop where
  run : trim request.runId = runId
  automatic : request.network = none
  peers : ∀ name, name ∈ names ↔
    name = trim request.name ∨ name ∈ request.peerVmNames.map trim ∧ name ≠ ""

section

variable {stableU64 : String → Nat} {pool : Pool} {runId : String} {names : List String}
  {start : States} {subnet : Nat} {filled : String → Option Nat}

/-- The VM was given its address of `filled`, and was told those of the others. -/
structure Created.Follows (created : Created) (runId : String) (names : List String) (subnet : Nat)
    (filled : String → Option Nat) : Prop where
  run : created.create.runId = runId
  automatic : created.create.network = none
  name : created.create.name ∈ names
  network : ∃ ip, filled created.create.name = some ip ∧
    created.network = ⟨.v4 ip, runSubnetPrefixLength, .v4 (subnet + 1)⟩
  peers : ∀ name ∈ names, name ≠ created.create.name → created.addressOf name = filled name

/-- `filled` is what the first create of the run filled in. -/
structure Outcome (stableU64 : String → Nat) (start : States) (names : List String) (subnet : Nat)
    (filled : String → Option Nat) : Prop where
  aligned : subnet % 16 = 0
  within : subnet + 15 ≤ u32Max
  fill : Probing.fill (guestCandidates stableU64 subnet runSubnetPrefixLength (subnet + 1)) names
    (start.vms.filterMap VmState.ipv4) (fun _ => none) = some filled

/-- The states are those of the start and the VMs created since, all of which follow `filled`. -/
structure Session.Agrees (s : Session) (start : States) (runId : String) (names : List String)
    (subnet : Nat) (filled : String → Option Nat) : Prop where
  vms : ∀ vm, vm ∈ s.states.vms ↔ vm ∈ start.vms ∨ ∃ created ∈ s.created, vm = created.vmState
  follows : ∀ created ∈ s.created, created.Follows runId names subnet filled

/-! ## What a create reads -/

variable {vmName : String} {ip : Nat} {s : Session} {topology : PeerTopology}
  {peers : List (String × Nat)}

variable {name : String} {created : Created}
 

theorem Outcome.bounds (h : Outcome stableU64 start names subnet filled)
    (hip : filled name = some ip) : ip ≠ subnet + 1 ∧ subnet + 2 ≤ ip ∧ ip ≤ subnet + 14 := by
  rcases Probing.given_or_free_of_fill h.fill hip with hno | ⟨hprb, -⟩
  · cases hno
  · exact mem_guestCandidates h.aligned h.within hprb

theorem Outcome.network (h : Outcome stableU64 start names subnet filled)
    (hip : filled name = some ip) : ipv4Network ip runSubnetPrefixLength = subnet := by
  obtain ⟨-, _, _⟩ := h.bounds hip
  have hali := h.aligned
  rw [ipv4Network_run]
  omega

theorem Created.Follows.ipv4 (h : created.Follows runId names subnet filled) :
    created.vmState.ipv4 = filled created.create.name := by
  obtain ⟨_, hip, hnet⟩ := h.network
  rw [Created.vmState, hnet, hip]
  rfl

theorem Created.Follows.runNetwork (h : created.Follows runId names subnet filled)
    (hout : Outcome stableU64 start names subnet filled) :
    created.vmState.runNetwork runId = some (subnet, runSubnetPrefixLength, subnet + 1) := by
  obtain ⟨ip, hip, hnet⟩ := h.network
  have hrd : created.vmState.runNetwork runId =
      if some created.create.runId = some runId then
        some (ipv4Network ip runSubnetPrefixLength, runSubnetPrefixLength, subnet + 1)
      else none := by
    rw [Created.vmState, hnet]
    rfl
  rw [hrd, if_pos (congrArg some h.run), hout.network hip]

section

variable (h : s.Agrees start runId names subnet filled)

include h

theorem existingRunNetwork_of_agrees (hout : Outcome stableU64 start names subnet filled)
    (hst : ∀ vm ∈ start.vms, vm.runId ≠ some runId) (hcrtd : s.created ≠ []) :
    (networkUse pool.network pool.prefixLength runId s.states).existingRunNetwork =
      some (subnet, runSubnetPrefixLength, subnet + 1) := by
  have hall : ∀ network ∈ s.states.vms.filterMap (VmState.runNetwork runId),
      network = (subnet, runSubnetPrefixLength, subnet + 1) := by
    intro _ hmem
    obtain ⟨vm, hvm, hnet⟩ := mem_filterMap.mp hmem
    rcases (h.vms vm).mp hvm with hold | ⟨created, hmade, rfl⟩
    · rw [VmState.runNetwork] at hnet
      split at hnet
      · rw [if_neg (hst vm hold)] at hnet
        cases hnet
      · cases hnet
    · rw [(h.follows created hmade).runNetwork hout] at hnet
      exact (Option.some.inj hnet).symm
  obtain ⟨created, hmade⟩ := exists_mem_of_ne_nil _ hcrtd
  have hmem : (subnet, runSubnetPrefixLength, subnet + 1) ∈
      s.states.vms.filterMap (VmState.runNetwork runId) :=
    mem_filterMap.mpr ⟨created.vmState, (h.vms _).mpr (.inr ⟨created, hmade, rfl⟩),
      (h.follows created hmade).runNetwork hout⟩
  have hne := ne_nil_of_mem hmem
  have hls := hall _ (getLast_mem hne)
  rw [networkUse, getLast?_eq_some_getLast hne, hls]

theorem existingRunGuestIps_of_agrees (hst : ∀ vm ∈ start.vms, vm.runId ≠ some runId) :
    (networkUse pool.network pool.prefixLength runId s.states).existingRunGuestIps name = some ip ↔
      ∃ created ∈ s.created, created.create.name = name ∧ filled name = some ip := by
  constructor
  · intro hexi
    obtain ⟨vm, hget, hip⟩ := Option.bind_eq_some_iff.mp hexi
    split_ifs at hip with hrun
    rcases (h.vms vm).mp (mem_of_get hget) with hold | ⟨created, hmade, rfl⟩
    · exact absurd hrun (hst vm hold)
    have hnm : created.vmState.name = name := key_of_get hget
    change created.create.name = name at hnm
    rw [(h.follows created hmade).ipv4, hnm] at hip
    exact ⟨created, hmade, hnm, hip⟩
  · rintro ⟨created, hmade, rfl, hip⟩
    have huq : Unique VmState.name s.states.vms :=
      fun x hx y hy heq => inj_on_of_nodup_map s.states.unique hx hy heq
    have hget := get_eq_some huq ((h.vms _).mpr (.inr ⟨created, hmade, rfl⟩))
    have hfol := h.follows created hmade
    refine Option.bind_eq_some_iff.mpr ⟨created.vmState, hget, ?_⟩
    have hrun : created.vmState.runId = some runId := congrArg some hfol.run
    rw [if_pos hrun, hfol.ipv4, hip]

theorem usedIps_of_agrees :
    ip ∈ s.states.vms.filterMap VmState.ipv4 ↔
      ip ∈ start.vms.filterMap VmState.ipv4 ∨
        ∃ created ∈ s.created, filled created.create.name = some ip := by
  constructor
  · intro hmem
    obtain ⟨vm, hvm, hip⟩ := mem_filterMap.mp hmem
    rcases (h.vms vm).mp hvm with hold | ⟨created, hmade, rfl⟩
    · exact .inl (mem_filterMap.mpr ⟨vm, hold, hip⟩)
    rw [(h.follows created hmade).ipv4] at hip
    exact .inr ⟨created, hmade, hip⟩
  · rintro (hmem | ⟨created, hmade, hip⟩)
    · obtain ⟨vm, hvm, hip⟩ := mem_filterMap.mp hmem
      exact mem_filterMap.mpr ⟨vm, (h.vms vm).mpr (.inl hvm), hip⟩
    · refine mem_filterMap.mpr ⟨created.vmState, (h.vms _).mpr (.inr ⟨created, hmade, rfl⟩), ?_⟩
      rw [(h.follows created hmade).ipv4, hip]

/-! ## One create -/

end

/-- The first create fills in an outcome. -/
theorem outcome_of_first (hst : ∀ vm ∈ start.vms, vm.runId ≠ some runId)
    {network : CreateVmNetwork}
    (h : allocateRunNetwork stableU64 pool start runId vmName topology = .ok (network, peers)) :
    ∃ subnet filled ip,
      Outcome stableU64 start (runAllocationVmNames vmName topology.peerVmNames) subnet filled ∧
      filled vmName = some ip ∧ network = ⟨.v4 ip, runSubnetPrefixLength, .v4 (subnet + 1)⟩ ∧
      peerGuestIps topology vmName filled topology.peerVmNames [] = .ok peers := by
  have hagr : (Session.mk start []).Agrees start runId [] 0 fun _ => none :=
    ⟨fun vm => by simp, fun _ hmade => absurd hmade not_mem_nil⟩
  have hguests : (networkUse pool.network pool.prefixLength runId start).existingRunGuestIps =
      fun _ => none := by
    funext name
    rw [Option.eq_none_iff_forall_ne_some]
    intro _ hip
    obtain ⟨_, hmade, -⟩ := (existingRunGuestIps_of_agrees hagr hst).mp hip
    exact not_mem_nil hmade
  obtain ⟨hpool, subnet, _, _, filled, ip, hwh, hfill, hip, hpe, rfl⟩ :=
    allocateRunNetwork_eq_ok rfl h
  rcases hwh with hexi | ⟨-, hsub, rfl, rfl⟩
  · -- no VM of the run is there to take a network over from
    obtain ⟨vm, hvm, hnet⟩ := mem_filterMap.mp (mem_of_getLast? hexi)
    rw [VmState.runNetwork] at hnet
    split at hnet
    · rw [if_neg (hst vm hvm)] at hnet
      cases hnet
    · cases hnet
  · obtain ⟨hali, hwithin, -, -⟩ := findRunSubnet_eq_some hpool hsub
    have hgw : saturatingAdd subnet 1 = subnet + 1 := min_eq_left (by omega)
    rw [hgw] at hfill ⊢
    refine ⟨subnet, filled, ip, ⟨hali, hwithin, ?_⟩, hip, rfl, hpe⟩
    rw [allocateRunGuestIps, allocateInTurn_eq_fill, hguests] at hfill
    simpa [networkUse] using hfill

/-- What is recorded changes nothing of what a later create fills in. -/
theorem refill_of_agrees (h : s.Agrees start runId names subnet filled)
    (hout : Outcome stableU64 start names subnet filled) (hnm : names.Nodup)
    (hst : ∀ vm ∈ start.vms, vm.runId ≠ some runId) :
    allocateRunGuestIps stableU64 subnet runSubnetPrefixLength (subnet + 1)
      (networkUse pool.network pool.prefixLength runId s.states).usedIps
      (networkUse pool.network pool.prefixLength runId s.states).existingRunGuestIps names =
        some filled := by
  rw [allocateRunGuestIps, allocateInTurn_eq_fill]
  refine Probing.fill_refill hnm hout.fill (fun name ip hely => ?_) fun ip => ?_
  · split_ifs at hely with hnam
    obtain ⟨_, -, -, hfill⟩ := (existingRunGuestIps_of_agrees h hst).mp hely
    exact ⟨hnam, hfill⟩
  rw [mem_append, mem_filterMap]
  constructor
  · rintro (⟨name, hnam, hexi⟩ | hused)
    · exact .inr ⟨name, by rw [if_pos hnam]; exact hexi⟩
    rcases (usedIps_of_agrees h).mp hused with hold | ⟨created, hmade, hfill⟩
    · exact .inl hold
    refine .inr ⟨created.create.name, ?_⟩
    rw [if_pos (h.follows created hmade).name]
    exact (existingRunGuestIps_of_agrees h hst).mpr ⟨created, hmade, rfl, hfill⟩
  · rintro (hold | ⟨name, hely⟩)
    · exact .inr ((usedIps_of_agrees h).mpr (.inl hold))
    split_ifs at hely with hnam
    exact .inl ⟨name, hnam, hely⟩

/-- Every later create fills in the same. -/
theorem outcome_of_later (h : s.Agrees start runId names subnet filled)
    (hout : Outcome stableU64 start names subnet filled) (hnm : names.Nodup)
    (hst : ∀ vm ∈ start.vms, vm.runId ≠ some runId) (hcrtd : s.created ≠ [])
    {network : CreateVmNetwork} (hsm : runAllocationVmNames vmName topology.peerVmNames = names)
    (hok : allocateRunNetwork stableU64 pool s.states runId vmName topology = .ok (network, peers)) :
    ∃ ip, filled vmName = some ip ∧
      network = ⟨.v4 ip, runSubnetPrefixLength, .v4 (subnet + 1)⟩ ∧
      peerGuestIps topology vmName filled topology.peerVmNames [] = .ok peers := by
  obtain ⟨-, _, _, _, _, ip, hwh, hfill, hip, hpe, rfl⟩ :=
    allocateRunNetwork_eq_ok rfl hok
  rw [existingRunNetwork_of_agrees h hout hst hcrtd] at hwh
  rcases hwh with hwh | ⟨hno, -⟩
  · cases hwh
    rw [hsm, refill_of_agrees h hout hnm hst] at hfill
    cases hfill
    exact ⟨ip, hip, rfl, hpe⟩
  · cases hno

/-- A VM that was created with the outcome follows it. -/
theorem follows_of_outcome {create : VmCreate}
    (hout : Outcome stableU64 start names subnet filled) (hrun : create.runId = runId)
    (haut : create.network = none)
    (hnm : ∀ name, name ∈ names ↔ name = create.name ∨ name ∈ create.topology.peerVmNames)
    (hip : filled create.name = some ip)
    (hpe : peerGuestIps create.topology create.name filled create.topology.peerVmNames [] =
      .ok peers) :
    (Created.mk create ⟨.v4 ip, runSubnetPrefixLength, .v4 (subnet + 1)⟩ peers).Follows runId names
      subnet filled := by
  refine ⟨hrun, haut, (hnm _).mpr (.inl rfl), ⟨ip, hip, rfl⟩, fun name hnam hne => ?_⟩
  obtain ⟨other, ho⟩ := Option.isSome_iff_exists.mp (Probing.isSome_fill hout.fill hnam)
  rw [ho]
  exact (lookup_peerGuestIps hpe).2 name (((hnm name).mp hnam).resolve_left hne) hne other ho

/-- What the creates of the run so far have come to. -/
def Session.Settled (stableU64 : String → Nat) (start : States) (runId : String)
    (names : List String) (s : Session) : Prop :=
  s = ⟨start, []⟩ ∨ s.created ≠ [] ∧ ∃ subnet filled,
    Outcome stableU64 start names subnet filled ∧ s.Agrees start runId names subnet filled

/-- All creates of the run list the same names, in the same order. -/
theorem allocationNames_eq {request : CreateRequest} {create : VmCreate}
    (hreq : request.NamesAll runId names) (h : admitVmCreate request = .ok create) :
    runAllocationVmNames create.name create.topology.peerVmNames =
      names.dedup.insertionSort (· ≤ ·) := by
  refine insertionSort_dedup_eq fun name => ?_
  have hmem := mem_allocationNames h name
  rw [runAllocationVmNames, mem_insertionSort, mem_dedup] at hmem
  rw [hmem, hreq.peers]

/-- **One create.** -/
theorem Session.Settled.create (hst : ∀ vm ∈ start.vms, vm.runId ≠ some runId)
    {request : CreateRequest} (hreq : request.NamesAll runId names)
    (h : s.Settled stableU64 start runId (names.dedup.insertionSort (· ≤ ·))) :
    (s.create stableU64 pool request).Settled stableU64 start runId
      (names.dedup.insertionSort (· ≤ ·)) := by
  rw [Session.create]
  split
  · rename_i created hok
    obtain ⟨create, hadmit, hok⟩ := bind_eq_ok.mp hok
    obtain ⟨_, -, hok⟩ := bind_eq_ok.mp hok
    obtain ⟨⟨network, peers⟩, hchos, hok⟩ := bind_eq_ok.mp hok
    obtain ⟨_, -, hok⟩ := bind_eq_ok.mp hok
    obtain ⟨_, -, hok⟩ := bind_eq_ok.mp hok
    split at hok
    · cases hok
    rename_i hrsv
    cases hok
    obtain ⟨-, hvms⟩ := reserveVmState_eq_some hrsv
    obtain ⟨-, hrun, hnet, -, hsafe, -⟩ := admitVmCreate_eq_ok hadmit
    rw [hreq.run] at hrun
    rw [hreq.automatic] at hnet
    have hsm := allocationNames_eq hreq hadmit
    have hnm : ∀ name, name ∈ names.dedup.insertionSort (· ≤ ·) ↔
        name = create.name ∨ name ∈ create.topology.peerVmNames := fun name => by
      rw [← hsm, mem_runAllocationVmNames hsafe]
    have halc : allocateRunNetwork stableU64 pool s.states runId create.name
        create.topology = .ok (network, peers) := by
      rw [chooseNetwork, hnet, hrun] at hchos
      exact hchos
    refine .inr ⟨cons_ne_nil _ _, ?_⟩
    rcases h with rfl | ⟨hcrtd, subnet, filled, hout, hagr⟩
    · obtain ⟨subnet, filled, _, hout, hip, rfl, hpe⟩ := outcome_of_first hst halc
      rw [hsm] at hout
      refine ⟨subnet, filled, hout, fun vm => ?_, fun created hmade => ?_⟩
      · rw [hvms, or_comm]
        simp [Created.vmState]
      · rw [mem_singleton.mp hmade]
        exact follows_of_outcome hout hrun hnet hnm hip hpe
    · have hnd : (names.dedup.insertionSort (· ≤ ·)).Nodup :=
        (perm_insertionSort _ _).nodup_iff.mpr (nodup_dedup names)
      obtain ⟨_, hip, rfl, hpe⟩ := outcome_of_later hagr hout hnd hst hcrtd hsm halc
      have hfol := follows_of_outcome hout hrun hnet hnm hip hpe
      refine ⟨subnet, filled, hout, fun vm => ?_, fun created hmade => ?_⟩
      · rw [hvms, hagr.vms]
        simp only [mem_cons, exists_eq_or_imp, Created.vmState]
        exact or_left_comm
      · rcases mem_cons.mp hmade with rfl | hmade
        · exact hfol
        · exact hagr.follows created hmade
  · exact h

end

/-- **The VMs of a run agree.**  Whatever order the VMs of a run are created in, when each create
names all of them: their addresses lie in one /28, none is its network, gateway or broadcast
address, no two are equal, and each VM's address is the one that every other VM was given for it. -/
theorem run_addresses_agree (stableU64 : String → Nat) (pool : Pool) (runId : String)
    (names : List String) (start : States) (hstart : ∀ vm ∈ start.vms, vm.runId ≠ some runId)
    (requests : List CreateRequest)
    (hrequests : ∀ request ∈ requests, request.NamesAll runId names) :
    let created := (Trace.run (Session.create stableU64 pool) ⟨start, []⟩ requests).created
    ∃ subnet,
      (∀ vm ∈ created, ∃ ip gateway,
        vm.network = ⟨.v4 ip, runSubnetPrefixLength, .v4 gateway⟩ ∧
        ipv4InPrefix ip subnet runSubnetPrefixLength = true ∧
        ip ≠ subnet ∧ ip ≠ gateway ∧ ip ≠ subnet + 15) ∧
      ∀ vm ∈ created, ∀ other ∈ created, vm.create.name ≠ other.create.name →
        vm.network.guestIp ≠ other.network.guestIp ∧
        (other.addressOf vm.create.name).map IpAddr.v4 = some vm.network.guestIp := by
  intro created
  have hsettled : (Trace.run (Session.create stableU64 pool) ⟨start, []⟩ requests).Settled stableU64
      start runId (names.dedup.insertionSort (· ≤ ·)) :=
    Trace.run_invariant_of_mem (fun _ request hmem h => h.create hstart (hrequests request hmem))
      (.inl rfl)
  rcases hsettled with hno | ⟨-, subnet, _, hout, hagr⟩
  · have hemp : created = [] := congrArg Session.created hno
    rw [hemp]
    exact ⟨0, fun _ hvm => absurd hvm not_mem_nil, fun _ hvm => absurd hvm not_mem_nil⟩
  refine ⟨subnet, fun vm hvm => ?_, fun vm hvm other ho hne => ?_⟩
  · obtain ⟨ip, hip, hnet⟩ := (hagr.follows vm hvm).network
    obtain ⟨hgw, _, _⟩ := hout.bounds hip
    exact ⟨ip, subnet + 1, hnet, decide_eq_true (hout.network hip), by omega, hgw, by omega⟩
  have hfol := hagr.follows vm hvm
  obtain ⟨_, hip, hnet⟩ := hfol.network
  obtain ⟨_, hip', hnet'⟩ := (hagr.follows other ho).network
  rw [hnet, hnet']
  refine ⟨?_, ?_⟩
  · rintro heq
    cases heq
    exact hne (Probing.fill_injective hout.fill nofun
      nofun hip hip')
  · rw [(hagr.follows other ho).peers vm.create.name hfol.name hne, hip]
    rfl

namespace Demo

/-- Where the hashes of the demo names begin. -/
def stableU64 (text : String) : Nat := text.length

theorem pool_lt : 0x0A4D0000 < 2 ^ 32 := by decide

def pool : Pool := ⟨0x0A4D0000, 16, pool_lt⟩

/-- A VM of another run, in the subnet that the run would get. -/
def start : States :=
  States.empty.insert ⟨"other", some "run-0", some (.v4 0x0A4D0052),
    some (.v4 0x0A4D0052, 28), some (.v4 0x0A4D0051), true⟩

def request (name : String) (peers : List String) (aliases : List (String × String)) : CreateRequest :=
  ⟨name, "run-1", none, peers, aliases⟩

def requests : List CreateRequest :=
  [request "web" ["db", "app"] [("db", "database")], request "app" ["web", "db"] [],
    request "db" ["app", "web"] []]

theorem three_vms_agree :
    let created := (Trace.run (Session.create stableU64 pool) ⟨start, []⟩ requests).created
    created.map (fun vm => (vm.create.name, vm.network.guestIp)) =
        [("db", .v4 0x0A4D0064), ("app", .v4 0x0A4D0065), ("web", .v4 0x0A4D0066)] ∧
      ∃ subnet,
        (∀ vm ∈ created, ∃ ip gateway,
          vm.network = ⟨.v4 ip, runSubnetPrefixLength, .v4 gateway⟩ ∧
          ipv4InPrefix ip subnet runSubnetPrefixLength = true ∧
          ip ≠ subnet ∧ ip ≠ gateway ∧ ip ≠ subnet + 15) ∧
        ∀ vm ∈ created, ∀ other ∈ created, vm.create.name ≠ other.create.name →
          vm.network.guestIp ≠ other.network.guestIp ∧
          (other.addressOf vm.create.name).map IpAddr.v4 = some vm.network.guestIp := by
  refine ⟨by decide +kernel, run_addresses_agree stableU64 pool "run-1" ["app", "db", "web"] start
    (by decide +kernel) requests fun request hmem => ?_⟩
  have hrun : trim "run-1" = "run-1" := by decide +kernel
  have hweb : trim "web" = "web" := by decide +kernel
  have happ : trim "app" = "app" := by decide +kernel
  have hdb : trim "db" = "db" := by decide +kernel
  rcases mem_cons.mp hmem with rfl | hmem
  · exact ⟨hrun, rfl, fun name => by
      simp [Demo.request, hweb, happ, hdb]; grind⟩
  rcases mem_cons.mp hmem with rfl | hmem
  · exact ⟨hrun, rfl, fun name => by
      simp [Demo.request, hweb, happ, hdb]; grind⟩
  · rw [mem_singleton.mp hmem]
    exact ⟨hrun, rfl, fun name => by
      simp [Demo.request, hweb, happ, hdb]; grind⟩

end Demo

end Intar.Agent
