import Mathlib
import Intar.Lib.Fallible
import Intar.Lib.Probing
import Intar.Lib.SortedTable

/-!
# Guest addresses

`intar-agent/src/vm/manager/network_allocation.rs`: the agent gives the VMs of a run addresses in
one subnet.  A run that has none yet gets the first /28 of the pool, from a place that the hash of
its id names, that no VM uses.  Each VM of the run gets the first free address from a place that the
hash of its own name gives.

A create computes the addresses of all VMs of its run at once, in the order of their names, with
those that are recorded already kept.  The addresses of the others are what it tells the VM about
its peers, long before these are created themselves.

An IPv4 address is its number.  SHA-256 is a parameter: `stableU64` is any function.
-/

namespace Intar.Agent

open Fallible List

inductive ApiError where
  | badRequest (message : String)
  | conflict (message : String)
  | internal (message : String)

/-! ## Names -/

/-- `char::is_whitespace`. -/
def isWhitespace (c : Char) : Bool :=
  (9 ≤ c.toNat && c.toNat ≤ 13) || (0x2000 ≤ c.toNat && c.toNat ≤ 0x200A) ||
    c.toNat ∈ [0x20, 0x85, 0xA0, 0x1680, 0x2028, 0x2029, 0x202F, 0x205F, 0x3000]

/-- `str::trim`. -/
def trim (s : String) : String :=
  String.ofList ((s.toList.dropWhile isWhitespace).rdropWhile isWhitespace)

def isSafeChar (c : Char) : Bool := c.isAlphanum || c = '-' || c = '_'

def isSafeKey (s : String) : Bool := s ≠ "" && s.toList.all isSafeChar

/-- `{:?}` of a name. -/
def quoted (name : String) : String := "\"" ++ name ++ "\""

def peerEnvNameIdentity (peerName : String) : String :=
  String.ofList (peerName.toList.map fun c => if c.isAlphanum then c.toUpper else '_')

/-- The peers of a VM and the names it calls them by. -/
structure PeerTopology where
  peerVmNames : List String
  peerVmAliases : List (String × String)
deriving DecidableEq

/-- The logical name of a peer. -/
def PeerTopology.logicalName (topology : PeerTopology) (runtimeName : String) : String :=
  (topology.peerVmAliases.lookup runtimeName).getD runtimeName

/-- The loop over the peer names. -/
def collectPeerNames (currentVmName : String) :
    List String → List String → Except ApiError (List String)
  | [], names => .ok names
  | raw :: rest, names =>
    let peerName := trim raw
    if peerName = "" ∨ peerName = currentVmName then collectPeerNames currentVmName rest names
    else if !isSafeKey peerName then
      .error (.badRequest "runtime.peer_vm_names entries must match [A-Za-z0-9_-]+")
    else
      collectPeerNames currentVmName rest (if peerName ∈ names then names else names ++ [peerName])

/-- The loop over the aliases. -/
def collectPeerAliases (known : List String) :
    List (String × String) → List (String × String) → Except ApiError (List (String × String))
  | [], aliases => .ok aliases
  | (rawRuntime, rawLogical) :: rest, aliases => do
    let runtimeName := trim rawRuntime
    let logicalName := trim rawLogical
    ensure (isSafeKey runtimeName = true)
      (.badRequest "runtime.peer_vm_aliases keys must match [A-Za-z0-9_-]+")
    ensure (runtimeName ∈ known)
      (.badRequest ("runtime.peer_vm_aliases key " ++ quoted runtimeName ++
        " does not name a runtime peer"))
    ensure (isSafeKey logicalName = true)
      (.badRequest "runtime.peer_vm_aliases values must match [A-Za-z0-9_-]+")
    ensure (runtimeName ∉ aliases.map Prod.fst)
      (.badRequest ("runtime.peer_vm_aliases contains duplicate normalized key " ++
        quoted runtimeName))
    collectPeerAliases known rest (aliases ++ [(runtimeName, logicalName)])

/-- The loop that checks that the logical names differ, also as environment variables. -/
def checkLogicalNames (topology : PeerTopology) :
    List String → List String → List String → Except ApiError Unit
  | [], _, _ => .ok ()
  | runtimeName :: rest, logicalNames, envNames => do
    let logicalName := topology.logicalName runtimeName
    ensure (logicalName ∉ logicalNames)
      (.badRequest ("runtime peer aliases produce duplicate logical peer name " ++
        quoted logicalName))
    let envName := peerEnvNameIdentity logicalName
    ensure (envName ∉ envNames)
      (.badRequest ("runtime peer aliases produce duplicate environment peer name " ++
        quoted envName))
    checkLogicalNames topology rest (logicalName :: logicalNames) (envName :: envNames)

def normalizePeerVmTopology (currentVmName : String) (rawPeerVmNames : List String)
    (rawPeerVmAliases : List (String × String)) : Except ApiError PeerTopology := do
  let peerVmNames ← collectPeerNames currentVmName rawPeerVmNames []
  let peerVmAliases ← collectPeerAliases peerVmNames rawPeerVmAliases []
  checkLogicalNames ⟨peerVmNames, peerVmAliases⟩ peerVmNames [] []
  return ⟨peerVmNames, peerVmAliases⟩

/-- The names that a create gives addresses to, in the order of a `BTreeSet`. -/
def runAllocationVmNames (vmName : String) (peerVmNames : List String) : List String :=
  (vmName :: (peerVmNames.map trim).filter (· ≠ "")).dedup.insertionSort (· ≤ ·)

/-! ## States -/

inductive IpAddr where
  | v4 (address : Nat)
  | v6 (address : Nat)
deriving DecidableEq

/-- `VmStatusResponse` with its `VmDetails`, as far as addresses go.  A detail that is missing or
does not parse is `none`.  `automatic` is not stored by the agent: it says that the network was not
in the request. -/
structure VmState where
  name : String
  runId : Option String
  guestIp : Option IpAddr
  guestIpCidr : Option (IpAddr × Nat)
  gateway : Option IpAddr
  automatic : Bool

namespace VmState

/-- `guest_ip.parse::<Ipv4Addr>()`. -/
def ipv4 (vm : VmState) : Option Nat :=
  match vm.guestIp with
  | some (.v4 address) => some address
  | _ => none

/-- `parse_ipv4_cidr`. -/
def ipv4Cidr (vm : VmState) : Option (Nat × Nat) :=
  match vm.guestIpCidr with
  | some (.v4 address, prefixLength) => if prefixLength ≤ 32 then some (address, prefixLength) else none
  | _ => none

def ipv4Gateway (vm : VmState) : Option Nat :=
  match vm.gateway with
  | some (.v4 address) => some address
  | _ => none

end VmState

/-- The map of the states, by name. -/
structure States where
  vms : List VmState
  unique : (vms.map VmState.name).Nodup

namespace States

def empty : States := ⟨[], nodup_nil⟩

def contains (states : States) (name : String) : Bool := states.vms.any (·.name = name)

def insert (states : States) (vm : VmState) : States :=
  ⟨SortedTable.insert VmState.name vm states.vms, SortedTable.nodup_insert states.unique⟩

def remove (states : States) (name : String) : States :=
  ⟨SortedTable.erase VmState.name name states.vms, SortedTable.nodup_erase states.unique⟩

end States

/-! ## Allocation -/

/-- `RUN_SUBNET_PREFIX`. -/
def runSubnetPrefixLength : Nat := 28

def u32Max : Nat := 2 ^ 32 - 1

def saturatingAdd (a b : Nat) : Nat := min (a + b) u32Max

def saturatingMul (a b : Nat) : Nat := min (a * b) u32Max

/-- `ipv4_network_u32`: the low bits are masked out. -/
def ipv4Network (address prefixLength : Nat) : Nat := address - address % 2 ^ (32 - prefixLength)

def ipv4InPrefix (address network prefixLength : Nat) : Bool :=
  ipv4Network address prefixLength = network

/-- `CreateVmNetwork`, without the servers for names. -/
structure CreateVmNetwork where
  guestIp : IpAddr
  prefixLength : Nat
  gateway : IpAddr
deriving DecidableEq

/-- What a create reads from the states. -/
structure NetworkUse where
  (usedIps usedRunSubnets : List Nat)
  existingRunNetwork : Option (Nat × Nat × Nat)
  existingRunGuestIps : String → Option Nat

/-- The network of a VM of the run, as later VMs of the run take it over. -/
def VmState.runNetwork (runId : String) (vm : VmState) : Option (Nat × Nat × Nat) :=
  match vm.ipv4Cidr, vm.ipv4Gateway with
  | some (address, prefixLength), some gateway =>
    if vm.runId = some runId then some (ipv4Network address prefixLength, prefixLength, gateway)
    else none
  | _, _ => none

/-- The loop over the states; the network of the run is that of the last VM that has one. -/
def networkUse (poolNetwork poolLength : Nat) (runId : String) (states : States) : NetworkUse where
  usedIps := states.vms.filterMap VmState.ipv4
  usedRunSubnets := (states.vms.filterMap VmState.ipv4Cidr).map
      (fun cidr => ipv4Network cidr.1 runSubnetPrefixLength) |>.filter
    fun subnet => ipv4InPrefix subnet poolNetwork poolLength
  existingRunNetwork := (states.vms.filterMap (VmState.runNetwork runId)).getLast?
  existingRunGuestIps name := (SortedTable.get VmState.name name states.vms).bind fun vm =>
    if vm.runId = some runId then vm.ipv4 else none

/-- `vm_defaults.network`: the pool. -/
structure Pool where
  (address prefixLength : Nat)
  address_lt : address < 2 ^ 32

def Pool.network (pool : Pool) : Nat := ipv4Network pool.address pool.prefixLength

def Pool.subnetCount (pool : Pool) : Nat := 2 ^ (runSubnetPrefixLength - pool.prefixLength)

section

variable (stableU64 : String → Nat)

/-- The addresses that a VM tries in a subnet, in turn.  A shift by 32 bits is one by none. -/
def guestCandidates (network prefixLength gateway : Nat) (vmName : String) : List Nat :=
  if prefixLength > 30 then []
  else
    let capacity := if prefixLength = 0 then 1 else 2 ^ (32 - prefixLength)
    let firstGuestOffset := 2
    if capacity < 2 then []
    else
      let lastGuestOffset := capacity - 2
      if lastGuestOffset < firstGuestOffset then []
      else
        let candidateCount := lastGuestOffset - firstGuestOffset + 1
        let start := stableU64 vmName % candidateCount
        ((List.range candidateCount).map fun offset =>
          saturatingAdd network (firstGuestOffset + (start + offset) % candidateCount)).filter
            (· ≠ gateway)

def allocateGuestIpInSubnet (network prefixLength : Nat) (vmName : String) (usedIps : List Nat)
    (gateway : Nat) : Option Nat :=
  (guestCandidates stableU64 network prefixLength gateway vmName).find? fun candidate =>
    candidate ∉ usedIps

/-- The loop over the names: what is recorded is kept, the others get addresses in turn. -/
def allocateInTurn (network prefixLength gateway : Nat) :
    List String → List Nat → (String → Option Nat) → Option (String → Option Nat)
  | [], _, allocations => some allocations
  | name :: names, reserved, allocations =>
    if (allocations name).isSome then
      allocateInTurn network prefixLength gateway names reserved allocations
    else
      (allocateGuestIpInSubnet stableU64 network prefixLength name reserved gateway).bind
        fun guestIp => allocateInTurn network prefixLength gateway names (guestIp :: reserved)
          (Function.update allocations name (some guestIp))

def allocateRunGuestIps (network prefixLength gateway : Nat) (usedIps : List Nat)
    (existingRunGuestIps : String → Option Nat) (allocationNames : List String) :
    Option (String → Option Nat) :=
  allocateInTurn stableU64 network prefixLength gateway allocationNames
    (allocationNames.filterMap existingRunGuestIps ++ usedIps)
    fun name => if name ∈ allocationNames then existingRunGuestIps name else none

end

/-- The addresses of the peers under their logical names. -/
def peerGuestIps (topology : PeerTopology) (currentVmName : String)
    (allocations : String → Option Nat) :
    List String → List (String × Nat) → Except ApiError (List (String × Nat))
  | [], peers => .ok peers
  | runtimeName :: rest, peers =>
    if runtimeName = currentVmName then peerGuestIps topology currentVmName allocations rest peers
    else
      match allocations runtimeName with
      | none => peerGuestIps topology currentVmName allocations rest peers
      | some ip =>
        let logicalName := topology.logicalName runtimeName
        if logicalName ∈ peers.map Prod.fst then
          .error (.badRequest ("runtime peer aliases produce duplicate logical peer name " ++
            quoted logicalName))
        else
          peerGuestIps topology currentVmName allocations rest (peers ++ [(logicalName, ip)])

/-- The first /28 of the pool that is not in use, from the place of the run on. -/
def findRunSubnet (stableU64 : String → Nat) (pool : Pool) (usedRunSubnets : List Nat)
    (runId : String) : Option Nat :=
  let start := stableU64 runId % pool.subnetCount
  ((List.range pool.subnetCount).map fun offset =>
    saturatingAdd pool.network (saturatingMul ((start + offset) % pool.subnetCount)
      (2 ^ (32 - runSubnetPrefixLength)))).find? fun subnet => subnet ∉ usedRunSubnets

/-- Allocate in a subnet, and pick out the address of the VM and those of its peers. -/
def allocateInSubnet (stableU64 : String → Nat) (use : NetworkUse) (network prefixLength gateway : Nat)
    (vmName : String) (topology : PeerTopology) (exhausted : String) :
    Except ApiError (CreateVmNetwork × List (String × Nat)) :=
  match allocateRunGuestIps stableU64 network prefixLength gateway use.usedIps
      use.existingRunGuestIps (runAllocationVmNames vmName topology.peerVmNames) with
  | none => .error (.conflict exhausted)
  | some allocations =>
    match allocations vmName with
    | none => .error (.conflict exhausted)
    | some guestIp => do
      let peers ← peerGuestIps topology vmName allocations topology.peerVmNames []
      return (⟨.v4 guestIp, prefixLength, .v4 gateway⟩, peers)

def allocateRunNetwork (stableU64 : String → Nat) (pool : Pool) (states : States)
    (runId vmName : String) (topology : PeerTopology) :
    Except ApiError (CreateVmNetwork × List (String × Nat)) :=
  if pool.prefixLength > runSubnetPrefixLength then
    .error (.internal
      "vm_defaults.network.guest_cidr prefix must be <= 28 for per-run /28 allocation")
  else
    let use := networkUse pool.network pool.prefixLength runId states
    match use.existingRunNetwork with
    | some (network, prefixLength, gateway) =>
      allocateInSubnet stableU64 use network prefixLength gateway vmName topology
        ("run " ++ runId ++ " guest subnet exhausted")
    | none =>
      match findRunSubnet stableU64 pool use.usedRunSubnets runId with
      | none => .error (.conflict "per-run guest subnet pool exhausted")
      | some subnet =>
        allocateInSubnet stableU64 use subnet runSubnetPrefixLength (saturatingAdd subnet 1) vmName
          topology "guest IP pool exhausted"

/-! ## Facts about names -/

theorem not_isWhitespace_of_isSafeChar {c : Char} (h : isSafeChar c = true) :
    isWhitespace c = false := by
  simp only [isSafeChar, Char.isAlphanum, Char.isAlpha, Char.isUpper, Char.isLower, Char.isDigit,
    Bool.or_eq_true, Bool.and_eq_true, decide_eq_true_eq] at h
  have hrng : 45 ≤ c.toNat ∧ c.toNat ≤ 122 := by
    rcases h with ((h | h) | rfl) | rfl
    · rcases h with h | h
      · exact ⟨le_trans (by decide) h.1, le_trans h.2 (by decide)⟩
      · exact ⟨le_trans (by decide) h.1, le_trans h.2 (by decide)⟩
    · exact ⟨le_trans (by decide) h.1, le_trans h.2 (by decide)⟩
    · decide
    · decide
  simp only [isWhitespace, mem_cons, not_mem_nil, or_false, decide_eq_false_iff_not,
    Bool.or_eq_false_iff, Bool.and_eq_false_iff]
  omega

variable {name currentVmName : String} {names : List String}

theorem trim_of_isSafeKey (h : isSafeKey name = true) : trim name = name := by
  rw [isSafeKey, Bool.and_eq_true, all_eq_true] at h
  have hclear : ∀ c ∈ name.toList, ¬ isWhitespace c = true := fun c hc => by
    rw [not_isWhitespace_of_isSafeChar (h.2 c hc)]
    exact Bool.false_ne_true
  have hdp : name.toList.dropWhile isWhitespace = name.toList := by
    rw [dropWhile_eq_self_iff]
    exact fun hlen => hclear _ (getElem_mem hlen)
  have hrdrop : name.toList.rdropWhile isWhitespace = name.toList := by
    rw [rdropWhile_eq_self_iff]
    exact fun hne => hclear _ (getLast_mem hne)
  rw [trim, hdp, hrdrop, String.ofList_toList]

theorem trim_trim (s : String) : trim (trim s) = trim s := by
  let dropped := s.toList.dropWhile isWhitespace
  have hdp : (dropped.rdropWhile isWhitespace).dropWhile isWhitespace =
      dropped.rdropWhile isWhitespace := by
    rw [dropWhile_eq_self_iff]
    intro hlen
    have hpre := rdropWhile_prefix isWhitespace dropped
    rw [hpre.getElem hlen]
    exact dropWhile_eq_self_iff.mp (dropWhile_idempotent _ _) (lt_of_lt_of_le hlen hpre.length_le)
  rw [trim, trim, String.toList_ofList, hdp, rdropWhile_idempotent]

/-- The names that the loop collects, all of them safe. -/
theorem collectPeerNames_eq_ok {raw collected : List String}
    (hsafe : ∀ name ∈ names, isSafeKey name = true)
    (h : collectPeerNames currentVmName raw names = .ok collected) :
    (∀ name ∈ collected, isSafeKey name = true) ∧
      ∀ name, name ∈ collected ↔
        name ∈ names ∨ name ∈ raw.map trim ∧ name ≠ "" ∧ name ≠ currentVmName := by
  induction raw generalizing names with
  | nil =>
    cases h
    exact ⟨hsafe, fun name => by simp⟩
  | cons _ _ ih =>
    rw [collectPeerNames] at h
    split_ifs at h with hskip hunsafe hmem
    · obtain ⟨hcoll, hiff⟩ := ih hsafe h
      refine ⟨hcoll, fun name => ?_⟩
      rw [hiff, map_cons, mem_cons]
      refine or_congr_right ⟨fun hnm => ⟨.inr hnm.1, hnm.2⟩, fun hnm => ⟨?_, hnm.2⟩⟩
      refine hnm.1.resolve_left ?_
      rintro rfl
      exact hskip.elim hnm.2.1 hnm.2.2
    · obtain ⟨hcoll, hiff⟩ := ih hsafe h
      refine ⟨hcoll, fun name => ?_⟩
      rw [hiff, map_cons, mem_cons]
      constructor
      · rintro (hnm | hnm)
        · exact .inl hnm
        · exact .inr ⟨.inr hnm.1, hnm.2⟩
      · rintro (hnm | ⟨rfl | hnm, hne⟩)
        · exact .inl hnm
        · exact .inl hmem
        · exact .inr ⟨hnm, hne⟩
    · rw [Bool.not_eq_true, Bool.not_eq_false'] at hunsafe
      obtain ⟨hcoll, hiff⟩ := ih (fun name hnm => by
        rcases mem_append.mp hnm with hnm | hnm
        · exact hsafe name hnm
        rw [mem_singleton.mp hnm]
        exact hunsafe) h
      refine ⟨hcoll, fun name => ?_⟩
      rw [hiff, map_cons, mem_cons, mem_append, mem_singleton]
      rw [not_or] at hskip
      constructor
      · rintro ((hnm | rfl) | hnm)
        · exact .inl hnm
        · exact .inr ⟨.inl rfl, hskip⟩
        · exact .inr ⟨.inr hnm.1, hnm.2⟩
      · rintro (hnm | ⟨rfl | hnm, hne⟩)
        · exact .inl (.inl hnm)
        · exact .inl (.inr rfl)
        · exact .inr ⟨hnm, hne⟩

theorem mem_runAllocationVmNames {vmName : String} {peers : List String}
    (hsafe : ∀ name ∈ peers, isSafeKey name = true) :
    name ∈ runAllocationVmNames vmName peers ↔ name = vmName ∨ name ∈ peers := by
  have htrim : peers.map trim = peers :=
    (map_congr_left fun name hmem => trim_of_isSafeKey (hsafe name hmem)).trans (map_id' _)
  have hnonempty : name ∈ peers → name ≠ "" := by
    rintro hmem rfl
    exact absurd (hsafe "" hmem) (by decide)
  rw [runAllocationVmNames, mem_insertionSort, mem_dedup, mem_cons, mem_filter,
    decide_eq_true_iff, htrim, and_iff_left_of_imp hnonempty]

/-- A `BTreeSet` is its elements. -/
theorem insertionSort_dedup_eq {names' : List String} (h : ∀ name, name ∈ names ↔ name ∈ names') :
    names.dedup.insertionSort (· ≤ ·) = names'.dedup.insertionSort (· ≤ ·) := by
  have hnd : ∀ l : List String, (l.dedup.insertionSort (· ≤ ·)).Nodup := fun l =>
    (perm_insertionSort _ _).nodup_iff.mpr (nodup_dedup l)
  have hperm := (perm_ext_iff_of_nodup (hnd names) (hnd names')).mpr fun name => by
    rw [mem_insertionSort, mem_insertionSort, mem_dedup, mem_dedup, h]
  exact hperm.eq_of_pairwise (fun _ _ _ _ hab hba => le_antisymm hab hba)
    (pairwise_insertionSort _ _) (pairwise_insertionSort _ _)

/-! ## Facts about allocation -/

variable {topology : PeerTopology} {peers : List (String × Nat)}

section

variable {stableU64 : String → Nat}

variable {address subnet : Nat} {vmName runId : String} {pool : Pool}

theorem ipv4Network_run : ipv4Network address runSubnetPrefixLength = address - address % 16 := rfl

/-- The addresses between the gateway and the broadcast address of a run's subnet. -/
theorem mem_guestCandidates {gateway : Nat} (hali : subnet % 16 = 0)
    (hmax : subnet + 15 ≤ u32Max)
    (h : address ∈ guestCandidates stableU64 subnet runSubnetPrefixLength gateway vmName) :
    address ≠ gateway ∧ subnet + 2 ≤ address ∧ address ≤ subnet + 14 := by
  have hcands : guestCandidates stableU64 subnet runSubnetPrefixLength gateway vmName =
      ((List.range 13).map fun offset =>
        saturatingAdd subnet (2 + (stableU64 vmName % 13 + offset) % 13)).filter (· ≠ gateway) := rfl
  rw [hcands, mem_filter, decide_eq_true_iff] at h
  obtain ⟨hmem, hgw⟩ := h
  obtain ⟨offset, -, rfl⟩ := mem_map.mp hmem
  have hlt : (stableU64 vmName % 13 + offset) % 13 < 13 := Nat.mod_lt _ (by decide)
  refine ⟨hgw, ?_⟩
  rw [saturatingAdd, min_eq_left (by omega)]
  omega

theorem allocateInTurn_eq_fill (network prefixLength gateway : Nat) (names : List String)
    (reserved : List Nat) (allocations : String → Option Nat) :
    allocateInTurn stableU64 network prefixLength gateway names reserved allocations =
      Probing.fill (guestCandidates stableU64 network prefixLength gateway) names reserved
        allocations := by
  induction names generalizing reserved allocations with
  | nil => rfl
  | cons _ _ ih =>
    rw [allocateInTurn, Probing.fill]
    simp only [ih]
    rfl

/-- A run's subnet is a /28 of the pool that no VM uses. -/
theorem findRunSubnet_eq_some {usedRunSubnets : List Nat}
    (hpool : pool.prefixLength ≤ runSubnetPrefixLength)
    (h : findRunSubnet stableU64 pool usedRunSubnets runId = some subnet) :
    subnet % 16 = 0 ∧ subnet + 15 ≤ u32Max ∧
      ipv4InPrefix subnet pool.network pool.prefixLength = true ∧ subnet ∉ usedRunSubnets := by
  have hunus : subnet ∉ usedRunSubnets := by simpa using find?_some h
  obtain ⟨offset, -, rfl⟩ := mem_map.mp (mem_of_find?_eq_some h)
  have hpos : 0 < pool.subnetCount := Nat.two_pow_pos _
  generalize hix : (stableU64 runId % pool.subnetCount + offset) % pool.subnetCount = index at *
  have hlt : index < pool.subnetCount := hix ▸ Nat.mod_lt _ hpos
  have hsz : pool.subnetCount * 16 = 2 ^ (32 - pool.prefixLength) := by
    rw [Pool.subnetCount, show (16 : Nat) = 2 ^ 4 from rfl, ← Nat.pow_add]
    congr 1
    rw [runSubnetPrefixLength] at hpool ⊢
    omega
  have hdvd : 2 ^ (32 - pool.prefixLength) ∣ pool.network := by
    rw [Pool.network, ipv4Network]
    exact Nat.dvd_sub_mod _
  -- the pool ends within the addresses
  have hend : pool.network + pool.subnetCount * 16 ≤ 2 ^ 32 := by
    have hpow : 2 ^ (32 - pool.prefixLength) ∣ 2 ^ 32 := Nat.pow_dvd_pow 2 (Nat.sub_le _ _)
    have hnet : pool.network < 2 ^ 32 := lt_of_le_of_lt (Nat.sub_le _ _) pool.address_lt
    obtain ⟨k, hk⟩ := hdvd
    obtain ⟨m, hm⟩ := hpow
    rw [hsz, hk, hm, ← Nat.mul_succ]
    rw [hk, hm] at hnet
    exact Nat.mul_le_mul_left _ (Nat.lt_of_mul_lt_mul_left hnet)
  have hmul : saturatingMul index (2 ^ (32 - runSubnetPrefixLength)) = index * 16 :=
    min_eq_left (by rw [u32Max]; change index * 16 ≤ _; omega)
  have hadd : saturatingAdd pool.network (index * 16) = pool.network + index * 16 :=
    min_eq_left (by rw [u32Max]; omega)
  rw [hmul, hadd] at hunus ⊢
  refine ⟨?_, by rw [u32Max]; omega, ?_, hunus⟩
  · obtain ⟨k, hk⟩ := hdvd
    rw [hk, ← hsz]
    have hmultiple : pool.subnetCount * 16 * k + index * 16 =
        (pool.subnetCount * k + index) * 16 := by ring
    rw [hmultiple, Nat.mul_mod_left]
  · rw [ipv4InPrefix, decide_eq_true_iff, ipv4Network, Nat.add_mod, Nat.mod_eq_zero_of_dvd hdvd,
      Nat.zero_add, Nat.mod_mod, Nat.mod_eq_of_lt (by omega)]
    omega

/-- **What an allocation is**: in the network of the run, or in a new subnet, the addresses of all
its VMs, and among them that of this VM. -/
theorem allocateRunNetwork_eq_ok {states : States} {network : CreateVmNetwork} {use : NetworkUse}
    (huse : networkUse pool.network pool.prefixLength runId states = use)
    (h : allocateRunNetwork stableU64 pool states runId vmName topology = .ok (network, peers)) :
    pool.prefixLength ≤ runSubnetPrefixLength ∧ ∃ subnet prefixLength gateway allocations guestIp,
      (use.existingRunNetwork = some (subnet, prefixLength, gateway) ∨
        use.existingRunNetwork = none ∧
          findRunSubnet stableU64 pool use.usedRunSubnets runId = some subnet ∧
          prefixLength = runSubnetPrefixLength ∧ gateway = saturatingAdd subnet 1) ∧
      allocateRunGuestIps stableU64 subnet prefixLength gateway use.usedIps
        use.existingRunGuestIps (runAllocationVmNames vmName topology.peerVmNames) =
          some allocations ∧
      allocations vmName = some guestIp ∧
      peerGuestIps topology vmName allocations topology.peerVmNames [] = .ok peers ∧
      network = ⟨.v4 guestIp, prefixLength, .v4 gateway⟩ := by
  have hinn : ∀ {subnet prefixLength gateway : Nat} {exhausted : String},
      allocateInSubnet stableU64 use subnet prefixLength gateway vmName topology exhausted =
        .ok (network, peers) →
      ∃ allocations guestIp, allocateRunGuestIps stableU64 subnet prefixLength gateway use.usedIps
          use.existingRunGuestIps (runAllocationVmNames vmName topology.peerVmNames) =
            some allocations ∧
        allocations vmName = some guestIp ∧
        peerGuestIps topology vmName allocations topology.peerVmNames [] = .ok peers ∧
        network = ⟨.v4 guestIp, prefixLength, .v4 gateway⟩ := by
    intro _ _ _ _ h
    rw [allocateInSubnet] at h
    split at h
    · cases h
    rename_i allocations hallocations
    split at h
    · cases h
    rename_i guestIp hguestIp
    obtain ⟨_, hpe, heq⟩ := bind_eq_ok.mp h
    cases heq
    exact ⟨allocations, guestIp, hallocations, hguestIp, hpe, rfl⟩
  rw [allocateRunNetwork, huse] at h
  split_ifs at h with hpool
  refine ⟨not_lt.mp hpool, ?_⟩
  dsimp only at h
  split at h
  · rename_i subnet prefixLength gateway hexi
    obtain ⟨allocations, guestIp, hfct⟩ := hinn h
    exact ⟨subnet, prefixLength, gateway, allocations, guestIp, .inl hexi, hfct⟩
  rename_i hexi
  split at h
  · cases h
  rename_i subnet hsub
  obtain ⟨allocations, guestIp, hfct⟩ := hinn h
  exact ⟨subnet, _, _, allocations, guestIp, .inr ⟨hexi, hsub, rfl, rfl⟩, hfct⟩

end

/-- Every peer with an address is listed with it. -/
theorem lookup_peerGuestIps {allocations : String → Option Nat} {before : List (String × Nat)}
    (h : peerGuestIps topology currentVmName allocations names before = .ok peers) :
    (∀ name ip, before.lookup name = some ip → peers.lookup name = some ip) ∧
      ∀ name ∈ names, name ≠ currentVmName → ∀ ip, allocations name = some ip →
        peers.lookup (topology.logicalName name) = some ip := by
  induction names generalizing before with
  | nil =>
    cases h
    exact ⟨fun _ _ h => h, fun _ hnam => absurd hnam not_mem_nil⟩
  | cons _ _ ih =>
    rw [peerGuestIps] at h
    split at h
    · rename_i hcur
      obtain ⟨hbef, hnm⟩ := ih h
      refine ⟨hbef, fun name hnam hne => ?_⟩
      rcases mem_cons.mp hnam with rfl | hnam
      · exact absurd hcur hne
      · exact hnm name hnam hne
    split at h
    · rename_i hno
      obtain ⟨hbef, hnm⟩ := ih h
      refine ⟨hbef, fun name hnam hne ip hip => ?_⟩
      rcases mem_cons.mp hnam with rfl | hnam
      · rw [hno] at hip
        cases hip
      · exact hnm name hnam hne ip hip
    · rename_i ip hip
      dsimp only at h
      split at h
      · cases h
      rename_i hnew
      obtain ⟨hbef, hnm⟩ := ih h
      refine ⟨fun name ip hnam => hbef name ip ?_, fun name hnam hne ip' hip' => ?_⟩
      · rw [lookup_append, hnam, Option.some_or]
      rcases mem_cons.mp hnam with rfl | hnam
      · rw [hip] at hip'
        cases hip'
        refine hbef _ ip ?_
        have hno : before.lookup (topology.logicalName name) = none := by
          rw [lookup_eq_none_iff]
          intro pair hpr
          rw [bne_iff_ne]
          intro heq
          exact hnew (mem_map.mpr ⟨pair, hpr, heq.symm⟩)
        rw [lookup_append, hno, Option.none_or, lookup_cons_self]
      · exact hnm name hnam hne ip' hip'

end Intar.Agent
