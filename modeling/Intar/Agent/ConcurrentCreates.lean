import Intar.Agent.VmCreate
import Intar.Lib.Trace

/-!
# Concurrent creates

Up to eight creates are under way at a time, each with a permit of `create_sem`.  A create chooses
its network from the map of the states, looks its guest address up there, and enters its VM later,
after more awaits; no lock is held from the choice to the entry.

Two VMs that are in the map together have different addresses, and automatic networks of different
runs are different subnets, as long as two things hold of every step: no VM is entered between the
moment a create reads the map for its address and the moment it enters its own, and no VM gets an
automatic network while its run has a VM whose request named one.  `Quiet` says so of a step.
-/

namespace Intar.Agent

open Function Trace List Option

/-! ## Steps -/

/-- How far a create has come.  `readAt` is the number of states entered before it read the map for
its address. -/
inductive Stage where
  | admitted (create : VmCreate)
  | chosen (create : VmCreate) (network : CreateVmNetwork) (readAt : Nat)
  | checked (create : VmCreate) (network : CreateVmNetwork) (readAt : Nat)
  | launching
deriving DecidableEq

/-- The states, the permits with the creates that hold them, and the number of states entered so
far, which the agent does not keep. -/
structure Manager where
  states : States
  creates : Fin 8 → Option Stage
  entered : Nat

inductive Op where
  | begin (permit : Fin 8) (request : CreateRequest)
  | choose (permit : Fin 8)
  | check (permit : Fin 8)
  | reserve (permit : Fin 8)
  /-- The create fails, is given up, or its launch ends. -/
  | finish (permit : Fin 8)
  /-- A VM is cleaned up. -/
  | remove (name : String)

namespace Manager

def empty : Manager := ⟨States.empty, fun _ => none, 0⟩

def set (s : Manager) (permit : Fin 8) (stage : Option Stage) : Manager :=
  { s with creates := update s.creates permit stage }

end Manager

def step (stableU64 : String → Nat) (pool : Pool) (s : Manager) : Op → Manager
  | .begin permit request =>
    match s.creates permit, admitVmCreate request with
    | none, .ok create =>
      if s.states.contains create.name then s else s.set permit (some (.admitted create))
    | _, _ => s
  | .choose permit =>
    match s.creates permit with
    | some (.admitted create) =>
      match chooseNetwork stableU64 pool s.states create with
      | .ok (network, _) =>
        if validateNetwork network then s.set permit (some (.chosen create network s.entered))
        else s.set permit none
      | .error _ => s.set permit none
    | _ => s
  | .check permit =>
    match s.creates permit with
    | some (.chosen create network readAt) =>
      if ensureGuestIpAvailable s.states network.guestIp then
        -- a create with a network of its own reads the map here for the first time
        s.set permit (some (.checked create network
          (if create.network.isSome then s.entered else readAt)))
      else s.set permit none
    | _ => s
  | .reserve permit =>
    match s.creates permit with
    | some (.checked create network _) =>
      match reserveVmState s.states (create.vmState network) with
      | none => s.set permit none
      | some reserved =>
        ⟨reserved, update s.creates permit (some .launching), s.entered + 1⟩
    | _ => s
  | .finish permit => s.set permit none
  | .remove name => { s with states := s.states.remove name }

/-- The step comes at a quiet moment: a VM is entered when none was since its create read the map,
and an automatic network is chosen while no VM of the run has one of its own. -/
def Quiet (s : Manager) : Op → Prop
  | .choose permit =>
    match s.creates permit with
    | some (.admitted create) => create.network = none →
      ∀ vm ∈ s.states.vms, vm.runId = some create.runId → vm.automatic = true
    | _ => True
  | .reserve permit =>
    match s.creates permit with
    | some (.checked _ _ readAt) => readAt = s.entered
    | _ => True
  | _ => True

instance (s : Manager) : (op : Op) → Decidable (Quiet s op)
  | .choose permit =>
    match h : s.creates permit with
    | some (.admitted create) => decidable_of_iff
        (create.network = none →
          ∀ vm ∈ s.states.vms, vm.runId = some create.runId → vm.automatic = true)
        (by rw [Quiet, h])
    | some (.chosen ..) => isTrue (by rw [Quiet, h]; trivial)
    | some (.checked ..) => isTrue (by rw [Quiet, h]; trivial)
    | some .launching => isTrue (by rw [Quiet, h]; trivial)
    | none => isTrue (by rw [Quiet, h]; trivial)
  | .reserve permit =>
    match h : s.creates permit with
    | some (.checked _ _ readAt) => decidable_of_iff (readAt = s.entered) (by rw [Quiet, h])
    | some (.chosen ..) => isTrue (by rw [Quiet, h]; trivial)
    | some (.admitted ..) => isTrue (by rw [Quiet, h]; trivial)
    | some .launching => isTrue (by rw [Quiet, h]; trivial)
    | none => isTrue (by rw [Quiet, h]; trivial)
  | .begin .. => isTrue trivial
  | .check _ => isTrue trivial
  | .finish _ => isTrue trivial
  | .remove _ => isTrue trivial

/-! ## Addresses that do not clash -/

/-- The /28 that the guest address lies in. -/
def VmState.runSubnet (vm : VmState) : Option Nat :=
  vm.ipv4.map fun address => ipv4Network address runSubnetPrefixLength

/-- Two VMs have different guest addresses, and when they are of different runs with automatic
networks, they are in different subnets. -/
def VmState.Apart (vm other : VmState) : Prop :=
  (vm.guestIp = none ∨ vm.guestIp ≠ other.guestIp) ∧
    (vm.automatic = true → other.automatic = true → vm.runId ≠ other.runId →
      vm.runSubnet = none ∨ vm.runSubnet ≠ other.runSubnet)

instance (vm other : VmState) : Decidable (vm.Apart other) := inferInstanceAs (Decidable (_ ∧ _))

def States.Disjoint (states : States) : Prop :=
  ∀ vm ∈ states.vms, ∀ other ∈ states.vms, vm.name ≠ other.name → vm.Apart other

instance (states : States) : Decidable states.Disjoint :=
  inferInstanceAs (Decidable (∀ vm ∈ states.vms, ∀ other ∈ states.vms, _))

/-- The details of an automatic network. -/
def VmState.Regular (vm : VmState) : Prop :=
  ∃ ip gateway, vm.guestIp = some (.v4 ip) ∧
    vm.guestIpCidr = some (.v4 ip, runSubnetPrefixLength) ∧ vm.gateway = some (.v4 gateway) ∧
    ip ≤ u32Max

/-- The automatic network fits into the map. -/
structure Fits (states : States) (create : VmCreate) (network : CreateVmNetwork) : Prop where
  regular : ∃ ip gateway, network = ⟨.v4 ip, runSubnetPrefixLength, .v4 gateway⟩ ∧ ip ≤ u32Max
  unused : ∀ vm ∈ states.vms, vm.name ≠ create.name → vm.guestIp ≠ some network.guestIp
  apart : ∀ vm ∈ states.vms, vm.automatic = true → vm.runId ≠ some create.runId →
    vm.runSubnet ≠ (create.vmState network).runSubnet

theorem VmState.Apart.symm {vm other : VmState} (h : vm.Apart other) : other.Apart vm := by
  refine ⟨?_, fun ho hvm hrun => ?_⟩
  · rcases h.1 with hno | hne
    · cases hip : other.guestIp with
      | none => exact .inl rfl
      | some ip => exact .inr (by rw [hno]; exact some_ne_none ip)
    · exact .inr hne.symm
  · rcases h.2 hvm ho hrun.symm with hno | hne
    · cases hsub : other.runSubnet with
      | none => exact .inl rfl
      | some subnet => exact .inr (by rw [hno]; exact some_ne_none subnet)
    · exact .inr hne.symm

theorem VmState.Regular.runSubnet {vm : VmState} (h : vm.Regular) :
    ∃ ip, vm.ipv4 = some ip ∧ vm.ipv4Cidr = some (ip, runSubnetPrefixLength) ∧
      vm.runSubnet = some (ipv4Network ip runSubnetPrefixLength) ∧ ip ≤ u32Max := by
  obtain ⟨ip, _, hip, hcidr, -, hmax⟩ := h
  have hipv4 : vm.ipv4 = some ip := by rw [VmState.ipv4, hip]
  refine ⟨ip, hipv4, ?_, ?_, hmax⟩
  · rw [VmState.ipv4Cidr, hcidr]
    rfl
  · rw [VmState.runSubnet, hipv4, map_some]

theorem VmState.Regular.runNetwork {vm : VmState} (h : vm.Regular) {runId : String}
    (hrun : vm.runId = some runId) :
    ∃ gateway, ∃ subnet, vm.runNetwork runId = some (subnet, runSubnetPrefixLength, gateway) ∧
      vm.runSubnet = some subnet ∧ subnet % 16 = 0 ∧ subnet + 15 ≤ u32Max := by
  obtain ⟨_, -, hcidr, hsub, hmax⟩ := h.runSubnet
  obtain ⟨_, gateway, -, -, hgw, -⟩ := h
  have hipv4Gateway : vm.ipv4Gateway = some gateway := by rw [VmState.ipv4Gateway, hgw]
  refine ⟨gateway, _, ?_, hsub, ?_, ?_⟩
  · rw [VmState.runNetwork, hcidr, hipv4Gateway]
    exact if_pos hrun
  · rw [ipv4Network_run]
    omega
  · rw [ipv4Network_run]
    rw [u32Max] at hmax ⊢
    omega

/-! ## Choosing -/

variable {stableU64 : String → Nat} {pool : Pool} {states : States} {create : VmCreate}
  {network : CreateVmNetwork}

section

/-- The address is that of a VM of the run which is there under the name already, or a free one of
the subnet. -/
theorem recorded_or_free {runId vmName : String} {names : List String}
    {subnet prefixLength gateway ip : Nat} {allocations : String → Option Nat}
    (h : allocateRunGuestIps stableU64 subnet prefixLength gateway
      (networkUse pool.network pool.prefixLength runId states).usedIps
      (networkUse pool.network pool.prefixLength runId states).existingRunGuestIps names =
        some allocations) (hip : allocations vmName = some ip) :
    (∃ vm ∈ states.vms, vm.name = vmName ∧ vm.runId = some runId ∧ vm.ipv4 = some ip) ∨
      ip ∈ guestCandidates stableU64 subnet prefixLength gateway vmName ∧
        ∀ vm ∈ states.vms, vm.ipv4 ≠ some ip := by
  rw [allocateRunGuestIps, allocateInTurn_eq_fill] at h
  rcases Probing.given_or_free_of_fill h hip with hgv | ⟨hprb, hfr⟩
  · split_ifs at hgv
    obtain ⟨vm, hget, hrd⟩ := bind_eq_some_iff.mp hgv
    split_ifs at hrd with hrun
    exact .inl ⟨vm, SortedTable.mem_of_get hget, SortedTable.key_of_get hget, hrun, hrd⟩
  · refine .inr ⟨hprb, fun vm hvm hused => hfr (mem_append_right _ ?_)⟩
    exact mem_filterMap.mpr ⟨vm, hvm, hused⟩

variable {ip : Nat} {vm : VmState}

theorem ne_of_ipv4_ne (h : vm.ipv4 ≠ some ip) : vm.guestIp ≠ some (.v4 ip) := by
  intro hip
  rw [VmState.ipv4, hip] at h
  exact h rfl

theorem guestIp_of_ipv4 (h : vm.ipv4 = some ip) : vm.guestIp = some (.v4 ip) := by
  rw [VmState.ipv4] at h
  split at h
  · rename_i hip
    cases h
    exact hip
  · cases h

/-- **An automatic network fits** when it is chosen, if the map is in order and the run has no
network of its own. -/
theorem fits_of_allocate {peers : List (String × Nat)} (hdisj : states.Disjoint)
    (hregular : ∀ vm ∈ states.vms, vm.automatic = true → vm.Regular)
    (hrun : ∀ vm ∈ states.vms, vm.runId = some create.runId → vm.automatic = true)
    (h : allocateRunNetwork stableU64 pool states create.runId create.name create.topology =
      .ok (network, peers)) : Fits states create network := by
  obtain ⟨hpool, subnet, prefixLength, gateway, _, ip, hwh, halc, hip, -, rfl⟩ :=
    allocateRunNetwork_eq_ok rfl h
  have hap : ∀ own ∈ states.vms, own.runId = some create.runId → ∀ net, own.runSubnet = some net →
      ∀ vm ∈ states.vms, vm.automatic = true → vm.runId ≠ some create.runId →
        vm.runSubnet ≠ some net := by
    intro own hown hownRun _ hnet vm hvm hvaut ho
    have hne : own.runId ≠ vm.runId := by rw [hownRun]; exact Ne.symm ho
    have hnm : own.name ≠ vm.name := fun heq =>
      hne (congrArg VmState.runId (inj_on_of_nodup_map states.unique hown hvm heq))
    rcases (hdisj own hown vm hvm hnm).2 (hrun own hown hownRun) hvaut hne with hno | hap
    · rw [hnet] at hno
      cases hno
    · rw [hnet] at hap
      exact Ne.symm hap
  -- the subnet is that of a VM of the run, or one that no VM is in
  have hsub : prefixLength = runSubnetPrefixLength ∧ subnet % 16 = 0 ∧ subnet + 15 ≤ u32Max ∧
      ∀ vm ∈ states.vms, vm.automatic = true → vm.runId ≠ some create.runId →
        vm.runSubnet ≠ some subnet := by
    rcases hwh with hexi | ⟨-, hfd, rfl, rfl⟩
    · obtain ⟨first, hfst, hnet⟩ := mem_filterMap.mp (mem_of_getLast? hexi)
      have hfirstRun : first.runId = some create.runId := by
        rw [VmState.runNetwork] at hnet
        split at hnet
        · split_ifs at hnet with hsm
          exact hsm
        · cases hnet
      obtain ⟨_, _, hrd, hrunSubnet, hali, hmax⟩ :=
        (hregular first hfst (hrun first hfst hfirstRun)).runNetwork hfirstRun
      rw [hrd] at hnet
      cases hnet
      exact ⟨rfl, hali, hmax, hap first hfst hfirstRun _ hrunSubnet⟩
    · obtain ⟨hali, hmax, hinPool, hunus⟩ := findRunSubnet_eq_some hpool hfd
      refine ⟨rfl, hali, hmax, fun vm hvm hvaut _ heq => hunus ?_⟩
      obtain ⟨ip', -, hcidr, hvmSubnet, -⟩ := (hregular vm hvm hvaut).runSubnet
      rw [hvmSubnet] at heq
      refine mem_filter.mpr ⟨mem_map.mpr ⟨(ip', runSubnetPrefixLength), ?_, ?_⟩, hinPool⟩
      · exact mem_filterMap.mpr ⟨vm, hvm, hcidr⟩
      · exact Option.some.inj heq
  obtain ⟨rfl, hali, hmax, hoths⟩ := hsub
  have hrunSubnet : (create.vmState ⟨.v4 ip, runSubnetPrefixLength, .v4 gateway⟩).runSubnet =
      some (ipv4Network ip runSubnetPrefixLength) := rfl
  rcases recorded_or_free halc hip with ⟨own, hown, hnam, hownRun, hownIp⟩ | ⟨hprb, hfr⟩
  · obtain ⟨_, hip', -, hownSubnet, hownMax⟩ :=
      (hregular own hown (hrun own hown hownRun)).runSubnet
    rw [hownIp] at hip'
    cases hip'
    refine ⟨⟨ip, gateway, rfl, hownMax⟩, fun vm hvm hne hsm => ?_,
      hap own hown hownRun _ hownSubnet⟩
    rcases (hdisj own hown vm hvm (by rw [hnam]; exact Ne.symm hne)).1 with hno | hne
    · rw [guestIp_of_ipv4 hownIp] at hno
      cases hno
    · rw [guestIp_of_ipv4 hownIp, hsm] at hne
      exact hne rfl
  · obtain ⟨-, _, _⟩ := mem_guestCandidates hali hmax hprb
    have hnet : ipv4Network ip runSubnetPrefixLength = subnet := by
      rw [ipv4Network_run]
      omega
    refine ⟨⟨ip, gateway, rfl, by omega⟩, fun vm hvm _ => ne_of_ipv4_ne (hfr vm hvm),
      fun vm hvm hvaut ho => ?_⟩
    rw [hrunSubnet, hnet]
    exact hoths vm hvm hvaut ho

end

/-! ## The invariant -/

/-- What a create may rely on, while no state was entered since it read the map. -/
def Stage.Holds (states : States) (entered : Nat) : Stage → Prop
  | .admitted _ => True
  | .chosen create network readAt => readAt ≤ entered ∧
    (create.network = none → readAt = entered → Fits states create network)
  | .checked create network readAt => readAt ≤ entered ∧
    (readAt = entered → (create.network = none → Fits states create network) ∧
      (create.network ≠ none → ensureGuestIpAvailable states network.guestIp = true))
  | .launching => True

structure Manager.Sound (s : Manager) : Prop where
  regular : ∀ vm ∈ s.states.vms, vm.automatic = true → vm.Regular
  disjoint : s.states.Disjoint
  creates : ∀ permit stage, s.creates permit = some stage → stage.Holds s.states s.entered

section

variable {s : Manager} {states' : States}

variable {stage : Stage} {entered : Nat} {permit : Fin 8}

theorem Fits.mono (h : Fits states create network) (hsub : ∀ vm ∈ states'.vms, vm ∈ states.vms) :
    Fits states' create network :=
  ⟨h.regular, fun vm hvm => h.unused vm (hsub vm hvm), fun vm hvm => h.apart vm (hsub vm hvm)⟩

theorem ensureGuestIpAvailable_mono {guestIp : IpAddr}
    (h : ensureGuestIpAvailable states guestIp = true)
    (hsub : ∀ vm ∈ states'.vms, vm ∈ states.vms) :
    ensureGuestIpAvailable states' guestIp = true :=
  all_eq_true.mpr fun vm hvm => all_eq_true.mp h vm (hsub vm hvm)

theorem Stage.Holds.mono (h : stage.Holds states entered)
    (hsub : ∀ vm ∈ states'.vms, vm ∈ states.vms) : stage.Holds states' entered := by
  cases stage with
  | admitted | launching => trivial
  | chosen =>
    exact ⟨h.1, fun haut hrd => (h.2 haut hrd).mono hsub⟩
  | checked =>
    exact ⟨h.1, fun hrd => ⟨fun haut => ((h.2 hrd).1 haut).mono hsub,
      fun hnmd => ensureGuestIpAvailable_mono ((h.2 hrd).2 hnmd) hsub⟩⟩

/-- Once a state was entered, a create may rely on nothing. -/
theorem Stage.Holds.succ (h : stage.Holds states entered) : stage.Holds states' (entered + 1) := by
  cases stage with
  | admitted | launching => trivial
  | chosen =>
    exact ⟨Nat.le_succ_of_le h.1, fun _ hrd => absurd h.1 (by omega)⟩
  | checked =>
    exact ⟨Nat.le_succ_of_le h.1, fun hrd => absurd h.1 (by omega)⟩

theorem Manager.Sound.set (h : s.Sound) {stage : Option Stage}
    (hstg : ∀ held, stage = some held → held.Holds s.states s.entered) :
    (s.set permit stage).Sound := by
  refine ⟨h.regular, h.disjoint, fun other held hhd => ?_⟩
  change update s.creates permit stage other = some held at hhd
  by_cases ho : other = permit
  · rw [ho, update_self] at hhd
    exact hstg held hhd
  · rw [update_of_ne ho] at hhd
    exact h.creates other held hhd

/-- A VM whose network still fits keeps the map in order. -/
theorem Manager.Sound.enter (h : s.Sound) {reserved : States}
    (hrsv : reserveVmState s.states (create.vmState network) = some reserved)
    (hfits : create.network = none → Fits s.states create network)
    (hfr : create.network ≠ none → ensureGuestIpAvailable s.states network.guestIp = true) :
    (Manager.mk reserved (update s.creates permit (some .launching)) (s.entered + 1)).Sound := by
  obtain ⟨hnew, hvms⟩ := reserveVmState_eq_some hrsv
  have hnm : ∀ vm ∈ s.states.vms, vm.name ≠ create.name := by
    intro vm hvm heq
    have hcont := contains_eq_true.mpr ⟨vm, hvm, heq⟩
    change s.states.contains create.name = false at hnew
    rw [hnew] at hcont
    cases hcont
  -- the new VM against each of the others
  have hap : ∀ vm ∈ s.states.vms, vm.Apart (create.vmState network) := by
    intro vm hvm
    by_cases haut : create.network = none
    · have hfit := hfits haut
      refine ⟨.inr (hfit.unused vm hvm (hnm vm hvm)), fun hvaut _ hrun => .inr ?_⟩
      exact hfit.apart vm hvm hvaut hrun
    · refine ⟨.inr ?_, fun _ hnewAutomatic => ?_⟩
      · exact of_decide_eq_true (all_eq_true.mp (hfr haut) vm hvm)
      · exact absurd (isNone_iff_eq_none.mp hnewAutomatic) haut
  refine ⟨fun vm hvm hvaut => ?_, fun vm hvm other ho hne => ?_, fun other held hhd => ?_⟩
  · rcases (hvms vm).mp hvm with rfl | hvm
    · obtain ⟨ip, gateway, rfl, hmax⟩ := (hfits (isNone_iff_eq_none.mp hvaut)).regular
      exact ⟨ip, gateway, rfl, rfl, rfl, hmax⟩
    · exact h.regular vm hvm hvaut
  · rcases (hvms vm).mp hvm with rfl | hvm <;> rcases (hvms other).mp ho with rfl | ho
    · exact absurd rfl hne
    · exact (hap other ho).symm
    · exact hap vm hvm
    · exact h.disjoint vm hvm other ho hne
  · change update s.creates permit (some .launching) other = some held at hhd
    by_cases hpermit : other = permit
    · rw [hpermit, update_self] at hhd
      cases hhd
      trivial
    · rw [update_of_ne hpermit] at hhd
      exact (h.creates other held hhd).succ

/-- **One step.** -/
theorem Manager.Sound.step (h : s.Sound) {op : Op}
    (hqt : Quiet s op) : (step stableU64 pool s op).Sound := by
  have hfr : ∀ permit, (s.set permit none).Sound := fun permit => h.set nofun
  cases op with
  | begin =>
    rw [Agent.step]
    split
    · split
      · exact h
      refine h.set fun held hhd => ?_
      cases hhd
      trivial
    · exact h
  | choose permit =>
    rw [Agent.step]
    rw [Quiet] at hqt
    split
    · rename_i hcrt
      rw [hcrt] at hqt
      split
      · rename_i hchos
        split
        · refine h.set fun held hhd => ?_
          cases hhd
          refine ⟨le_rfl, fun haut _ => ?_⟩
          rw [chooseNetwork, haut] at hchos
          exact fits_of_allocate h.disjoint h.regular (hqt haut) hchos
        · exact hfr permit
      · exact hfr permit
    · exact h
  | check permit =>
    rw [Agent.step]
    split
    · rename_i create _ _ hcrt
      have hhld := h.creates permit _ hcrt
      split
      · rename_i havailable
        refine h.set fun held hhd => ?_
        cases hhd
        cases hnmd : create.network with
        | none =>
          exact ⟨hhld.1, fun hrd => ⟨fun _ => hhld.2 hnmd hrd, fun hne => (hne hnmd).elim⟩⟩
        | some =>
          refine ⟨le_rfl, fun _ => ⟨fun hno => ?_, fun _ => havailable⟩⟩
          rw [hnmd] at hno
          cases hno
      · exact hfr permit
    · exact h
  | reserve permit =>
    rw [Agent.step]
    rw [Quiet] at hqt
    split
    · rename_i hcrt
      rw [hcrt] at hqt
      have hhld := (h.creates permit _ hcrt).2 hqt
      split
      · exact hfr permit
      rename_i hrsv
      exact h.enter hrsv hhld.1 hhld.2
    · exact h
  | finish permit => exact hfr permit
  | remove name =>
    have hsub : ∀ vm ∈ (s.states.remove name).vms, vm ∈ s.states.vms := fun vm hvm =>
      (SortedTable.mem_erase.mp hvm).1
    exact ⟨fun vm hvm => h.regular vm (hsub vm hvm),
      fun vm hvm other ho => h.disjoint vm (hsub vm hvm) other (hsub other ho),
      fun permit stage hstg => (h.creates permit stage hstg).mono hsub⟩

end

/-- **Addresses do not clash.**  In every run of creates whose steps come at quiet moments, no two
VMs that are present together have one guest address, and no two of different runs with automatic
networks share a subnet. -/
theorem disjoint_of_run (stableU64 : String → Nat) (pool : Pool) (ops : List Op)
    (hquiet : Along (step stableU64 pool) Quiet Manager.empty ops) :
    (run (step stableU64 pool) Manager.empty ops).states.Disjoint := by
  have hemp : Manager.empty.Sound :=
    ⟨fun _ hvm => absurd hvm not_mem_nil, fun _ hvm => absurd hvm not_mem_nil,
      nofun⟩
  have hsnd : (run (step stableU64 pool) Manager.empty ops).Sound :=
    hquiet.invariant (fun _ _ h hstp => h.step hstp) hemp
  exact hsnd.disjoint

namespace Demo

/-- The first eight bytes of the SHA-256 digests of four texts, each followed by a zero byte. -/
def digests : String → Nat
  | "run-2" => 7045011406572910431
  | "run-21" => 2567011911926949727
  | "web" => 16291278888417859900
  | "server" => 6494470320763078500
  | _ => 0

/-- The pool of the agent's defaults, `10.77.0.0/16`. -/
def defaultPool : Pool := ⟨0x0A4D0000, 16, by decide⟩

def webOfRun2 : CreateRequest := ⟨"web", "run-2", none, [], []⟩

def serverOfRun21 : CreateRequest := ⟨"server", "run-21", none, [], []⟩

/-- One create after the other. -/
def inTurn : List Op :=
  [.begin 0 webOfRun2, .choose 0, .check 0, .reserve 0,
    .begin 1 serverOfRun21, .choose 1, .check 1, .reserve 1]

/-- Both choose and check before either enters its VM. -/
def overlapping : List Op :=
  [.begin 0 webOfRun2, .begin 1 serverOfRun21, .choose 0, .choose 1, .check 0, .check 1,
    .reserve 0, .reserve 1]

theorem inTurn_disjoint :
    (run (step digests defaultPool) Manager.empty inTurn).states.vms.length = 2 ∧
      (run (step digests defaultPool) Manager.empty inTurn).states.Disjoint :=
  ⟨by decide +kernel, disjoint_of_run digests defaultPool inTurn (by decide +kernel)⟩

/-- Both VMs get the address `10.77.117.244`, in the same subnet. -/
theorem overlapping_creates_clash :
    (run (step digests defaultPool) Manager.empty overlapping).states.vms.map
        (fun vm => (vm.name, vm.runId, vm.guestIp, vm.automatic)) =
      [("server", some "run-21", some (.v4 0x0A4D75F4), true),
        ("web", some "run-2", some (.v4 0x0A4D75F4), true)] ∧
      ¬ (run (step digests defaultPool) Manager.empty overlapping).states.Disjoint := by
  decide +kernel

end Demo

end Intar.Agent
