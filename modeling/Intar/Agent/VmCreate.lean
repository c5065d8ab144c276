import Intar.Agent.Addresses

/-!
# Creating a VM

`queue_vm_create` in `intar-agent/src/vm/manager/api.rs`, up to the point where the new VM stands in
the map of the states: the request is checked, a network is chosen from what the map holds, the
guest address is looked up in the map once more, and the state is entered if its name is still free.
The agent awaits between these, so each is a function of its own; `createVm` is a create that
nothing comes between.
-/

namespace Intar.Agent

open Fallible

/-- `CreateScenarioVmRuntimeNetwork`: a network that the request names. -/
structure RuntimeNetwork where
  guestIp : IpAddr
  prefixLength : Nat
  gateway : Option IpAddr
deriving DecidableEq

/-- `CreateScenarioVmRequest`, as far as names and the network go. -/
structure CreateRequest where
  (name runId : String)
  network : Option RuntimeNetwork
  peerVmNames : List String
  peerVmAliases : List (String × String)

/-- A request that passed the checks. -/
structure VmCreate where
  (name runId : String)
  network : Option RuntimeNetwork
  topology : PeerTopology
deriving DecidableEq

def admitVmCreate (request : CreateRequest) : Except ApiError VmCreate := do
  let topology ← normalizePeerVmTopology request.name request.peerVmNames request.peerVmAliases
  let name := trim request.name
  ensure (name ≠ "") (.badRequest "name must not be empty")
  ensure (isSafeKey name = true) (.badRequest "name must match [A-Za-z0-9_-]+")
  let runId := trim request.runId
  ensure (runId ≠ "") (.badRequest "run_id must not be empty")
  ensure (isSafeKey runId = true) (.badRequest "run_id must match [A-Za-z0-9_-]+")
  return ⟨name, runId, request.network, topology⟩

def gatewayForGuestCidr (guestIp : IpAddr) (prefixLength : Nat) : Except ApiError IpAddr :=
  match guestIp with
  | .v4 address =>
    if prefixLength > 30 then
      .error (.badRequest
        "invalid scenario runtime network: network.guest_ip_cidr prefix must leave room for a gateway")
    else .ok (.v4 (saturatingAdd (ipv4Network address prefixLength) 1))
  | .v6 _ =>
    .error (.badRequest
      "invalid scenario runtime network: network.guest_ip_cidr must use an IPv4 address")

/-- The network that the request names, or one of the pool. -/
def chooseNetwork (stableU64 : String → Nat) (pool : Pool) (states : States) (create : VmCreate) :
    Except ApiError (CreateVmNetwork × List (String × Nat)) :=
  match create.network with
  | some network => do
    let gateway ← match network.gateway with
      | some gateway => .ok gateway
      | none => gatewayForGuestCidr network.guestIp network.prefixLength
    return (⟨network.guestIp, network.prefixLength, gateway⟩, [])
  | none => allocateRunNetwork stableU64 pool states create.runId create.name create.topology

/-- `validate_network`: the length fits the address, and the gateway is of the same family. -/
def validateNetwork (network : CreateVmNetwork) : Bool :=
  match network.guestIp, network.gateway with
  | .v4 _, .v4 _ => network.prefixLength ≤ 32
  | .v6 _, .v6 _ => network.prefixLength ≤ 128
  | _, _ => false

def ensureGuestIpAvailable (states : States) (guestIp : IpAddr) : Bool :=
  states.vms.all fun vm => vm.guestIp ≠ some guestIp

/-- The state a VM is entered with. -/
def VmCreate.vmState (create : VmCreate) (network : CreateVmNetwork) : VmState where
  name := create.name
  runId := some create.runId
  guestIp := some network.guestIp
  guestIpCidr := some (network.guestIp, network.prefixLength)
  gateway := some network.gateway
  automatic := create.network.isNone

def reserveVmState (states : States) (status : VmState) : Option States :=
  if states.contains status.name then none else some (states.insert status)

/-- A VM that was entered, with what it is told about its peers. -/
structure Created where
  create : VmCreate
  network : CreateVmNetwork
  peerGuestIps : List (String × Nat)
deriving DecidableEq

def Created.vmState (created : Created) : VmState := created.create.vmState created.network

/-- The address that the VM was given for a VM of its run. -/
def Created.addressOf (created : Created) (name : String) : Option Nat :=
  created.peerGuestIps.lookup (created.create.topology.logicalName name)

/-- A create from start to end. -/
def createVm (stableU64 : String → Nat) (pool : Pool) (states : States) (request : CreateRequest) :
    Except ApiError (States × Created) := do
  let create ← admitVmCreate request
  ensure (states.contains create.name = false)
    (.conflict ("vm " ++ quoted create.name ++ " already exists"))
  let chosen ← chooseNetwork stableU64 pool states create
  ensure (validateNetwork chosen.1 = true) (.internal "invalid network")
  ensure (ensureGuestIpAvailable states chosen.1.guestIp = true)
    (.conflict "guest IP is already in use")
  match reserveVmState states (create.vmState chosen.1) with
  | none => .error (.conflict ("vm " ++ quoted create.name ++ " already exists"))
  | some reserved => return (reserved, ⟨create, chosen.1, chosen.2⟩)

/-! ## Facts -/

variable {states : States} {request : CreateRequest} {create : VmCreate}

theorem contains_eq_true {name : String} :
    states.contains name = true ↔ ∃ vm ∈ states.vms, vm.name = name := by
  rw [States.contains, List.any_eq_true]
  simp

/-- An entered state is new, and the others stay. -/
theorem reserveVmState_eq_some {reserved : States} {status : VmState}
    (h : reserveVmState states status = some reserved) :
    states.contains status.name = false ∧
      ∀ vm, vm ∈ reserved.vms ↔ vm = status ∨ vm ∈ states.vms := by
  rw [reserveVmState] at h
  split_ifs at h with hcont
  cases h
  rw [Bool.not_eq_true] at hcont
  refine ⟨hcont, fun vm => ?_⟩
  have hmem : vm ∈ (states.insert status).vms ↔
      vm = status ∨ vm ∈ states.vms ∧ vm.name ≠ status.name := SortedTable.mem_insert
  rw [hmem]
  refine or_congr_right (and_iff_left_of_imp fun hvm hnm => ?_)
  rw [contains_eq_true.mpr ⟨vm, hvm, hnm⟩] at hcont
  cases hcont

/-- A request that passes names the VM and the run as they are safe to use, and its peers are those
it lists. -/
theorem admitVmCreate_eq_ok (h : admitVmCreate request = .ok create) :
    create.name = trim request.name ∧ create.runId = trim request.runId ∧
      create.network = request.network ∧ isSafeKey create.name = true ∧
      (∀ name ∈ create.topology.peerVmNames, isSafeKey name = true) ∧
      ∀ name, name ∈ create.topology.peerVmNames ↔
        name ∈ request.peerVmNames.map trim ∧ name ≠ "" ∧ name ≠ request.name := by
  obtain ⟨_, htopology, h⟩ := bind_eq_ok.mp h
  obtain ⟨_, -, h⟩ := bind_eq_ok.mp h
  obtain ⟨_, hsafe, h⟩ := bind_eq_ok.mp h
  obtain ⟨_, -, h⟩ := bind_eq_ok.mp h
  obtain ⟨_, -, h⟩ := bind_eq_ok.mp h
  cases h
  obtain ⟨_, hnm, h⟩ := bind_eq_ok.mp htopology
  obtain ⟨_, -, h⟩ := bind_eq_ok.mp h
  obtain ⟨_, -, h⟩ := bind_eq_ok.mp h
  cases h
  obtain ⟨hnm, hiff⟩ := collectPeerNames_eq_ok (fun _ hnam => absurd hnam List.not_mem_nil) hnm
  refine ⟨rfl, rfl, rfl, ensure_eq_ok.mp hsafe, hnm, fun name => ?_⟩
  rw [hiff, or_iff_right List.not_mem_nil]

/-- The names a create gives addresses to are its own and those that it lists. -/
theorem mem_allocationNames (h : admitVmCreate request = .ok create) (name : String) :
    name ∈ runAllocationVmNames create.name create.topology.peerVmNames ↔
      name = trim request.name ∨ name ∈ request.peerVmNames.map trim ∧ name ≠ "" := by
  obtain ⟨hnm, -, -, -, hpe, hiff⟩ := admitVmCreate_eq_ok h
  rw [mem_runAllocationVmNames hpe, hiff, ← hnm]
  constructor
  · rintro (rfl | ⟨hmem, hne, -⟩)
    · exact .inl rfl
    · exact .inr ⟨hmem, hne⟩
  rintro (rfl | ⟨hmem, hne⟩)
  · exact .inl rfl
  by_cases hself : name = request.name
  · -- a peer of the name that it was called by is the VM itself
    obtain ⟨_, -, rfl⟩ := List.mem_map.mp hmem
    exact .inl (by rw [hnm, ← hself, trim_trim])
  · exact .inr ⟨hmem, hne, hself⟩

end Intar.Agent
