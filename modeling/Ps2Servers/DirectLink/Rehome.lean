import Ps2Servers.DirectLink.Containment

/-!
# Moving the direct link to another address

When a device on the wire has the address of this PC, or one of another network, the launcher
plans new addresses for the PC and for the client of its lease. They are free hosts of the
network the device is in. A plan settles unless devices of different networks are on the wire:
then it goes to each in turn, and the launcher gives up after a few moves.

## Implementation notes

`inetAton` is `socket.inet_aton`, which refuses what is no address.
-/

namespace Ps2Servers.DirectLink

abbrev Ip := BitVec 32

/-- `_int_to_ip`. -/
def intToIp (n : Nat) : Ip := BitVec.ofNat 32 n

structure Topology where
  server : Ip
  client : Ip
  prefixlen : Nat
  deriving DecidableEq, Repr

/-- The last address of a network. -/
def lastOf (network prefixlen : Nat) : Nat := network ||| 0xFFFFFFFF >>> prefixlen

/-- `_validate_topology`. -/
def validateTopology (server client : Ip) (prefixlen : Nat) : Except String Topology :=
  if ¬ (1 ≤ prefixlen ∧ prefixlen ≤ 30) then
    .error ("Invalid direct-link prefix length: " ++ toString prefixlen)
  else
    let network := networkOf server.toNat prefixlen
    let last := lastOf network prefixlen
    if server.toNat = network ∨ server.toNat = last then
      .error "The direct-link server address is not a usable host address."
    else if networkOf client.toNat prefixlen ≠ network ∨ client.toNat = network ∨
        client.toNat = last ∨ client = server then
      .error ("The direct-link client address must be a different usable host " ++
        "in the server subnet.")
    else .ok ⟨server, client, prefixlen⟩

def Topology.Valid (t : Topology) : Prop :=
  validateTopology t.server t.client t.prefixlen = .ok t

instance (t : Topology) : Decidable t.Valid :=
  decidable_of_iff ((validateTopology t.server t.client t.prefixlen).toOption = some t) (by
    unfold Topology.Valid
    cases validateTopology t.server t.client t.prefixlen <;> simp [Except.toOption])

/-- `_free_host`. -/
def freeHost (network prefixlen : Nat) (avoid : List Nat) : Option Nat :=
  let network := networkOf network prefixlen
  (List.range' (network + 1) (lastOf network prefixlen - (network + 1))).find? fun host =>
    !avoid.contains host

def Topology.network (t : Topology) : Nat := networkOf t.server.toNat t.prefixlen

/-- The first of the neighbours that are off the subnet. -/
def Topology.offSubnet (t : Topology) (neighbors : List Nat) : Option Nat :=
  neighbors.find? fun n => networkOf n t.prefixlen ≠ t.network

/-- The /24 of a neighbour that is off the subnet. -/
def Topology.adopt (t : Topology) (neighbors : List Nat) : Option Topology := do
  let neighbor ← t.offSubnet neighbors
  let server ← freeHost (networkOf neighbor 24) 24 neighbors
  let client ← freeHost (networkOf neighbor 24) 24 (server :: neighbors)
  return ⟨intToIp server, intToIp client, 24⟩

/-- Other hosts of the subnet, where a neighbour shares it and the address is contested. -/
def Topology.stepAside (t : Topology) (neighbors : List Nat) (ourIpPresent : Bool) :
    Option Topology :=
  let contested := ourIpPresent = false ∨ t.server.toNat ∈ neighbors
  if (∃ n ∈ neighbors, networkOf n t.prefixlen = t.network) ∧ contested then do
    let server ← freeHost t.network t.prefixlen (t.server.toNat :: neighbors)
    let client ←
      if t.client.toNat ∈ neighbors ∨ t.client.toNat = server then
        freeHost t.network t.prefixlen (server :: t.server.toNat :: neighbors)
      else some t.client.toNat
    return ⟨intToIp server, intToIp client, t.prefixlen⟩
  else none

section

variable (inetAton : String → Option Ip)

/-- The numbers of the neighbours, without those that are no address. -/
def neighInts (neighbors : List String) : List Nat :=
  (neighbors.filterMap inetAton).map BitVec.toNat

/-- `plan_rehome`. -/
def planRehome (t : Topology) (neighbors : List String) (ourIpPresent : Bool) : Option Topology :=
  (t.adopt (neighInts inetAton neighbors)).or
    (t.stepAside (neighInts inetAton neighbors) ourIpPresent)

end

/-! ## Networks -/

/-- A network is the multiples of its size. -/
theorem networkOf_eq (ip prefixlen : Nat) :
    networkOf ip prefixlen = 2 ^ (32 - prefixlen) * (ip % 2 ^ 32 / 2 ^ (32 - prefixlen)) := by
  apply Nat.eq_of_testBit_eq
  intro i
  unfold networkOf
  rw [Nat.testBit_and, testBit_maskOf, Nat.testBit_two_pow_mul, Nat.testBit_div_two_pow,
    Nat.testBit_mod_two_pow]
  by_cases hi : 32 - prefixlen ≤ i
  · rw [Nat.sub_add_cancel hi, Bool.and_comm, Bool.and_assoc]
  · simp [hi]

theorem shiftRight_ones {prefixlen : Nat} (h : prefixlen ≤ 32) :
    0xFFFFFFFF >>> prefixlen = 2 ^ (32 - prefixlen) - 1 := by
  apply Nat.eq_of_testBit_eq
  intro i
  rw [Nat.testBit_shiftRight, testBit_ones, Nat.testBit_two_pow_sub_one]
  congr 1
  exact propext ⟨fun hi => by omega, fun hi => by omega⟩

theorem lastOf_networkOf (ip : Nat) {prefixlen : Nat} (h : prefixlen ≤ 32) :
    lastOf (networkOf ip prefixlen) prefixlen =
      networkOf ip prefixlen + (2 ^ (32 - prefixlen) - 1) := by
  have hlow : 2 ^ (32 - prefixlen) - 1 < 2 ^ (32 - prefixlen) :=
    Nat.sub_lt (Nat.two_pow_pos _) Nat.one_pos
  unfold lastOf
  rw [shiftRight_ones h, networkOf_eq ip]
  exact (Nat.two_pow_add_eq_or_of_lt hlow _).symm

theorem networkOf_networkOf (ip prefixlen : Nat) :
    networkOf (networkOf ip prefixlen) prefixlen = networkOf ip prefixlen := by
  unfold networkOf
  rw [Nat.and_assoc, Nat.and_self]

/-- The addresses of a network are those from its first to its last. -/
theorem networkOf_eq_iff {ip host prefixlen : Nat} (h : prefixlen ≤ 32) (hhost : host < 2 ^ 32) :
    networkOf host prefixlen = networkOf ip prefixlen ↔
      networkOf ip prefixlen ≤ host ∧ host ≤ lastOf (networkOf ip prefixlen) prefixlen := by
  have hpos : 0 < 2 ^ (32 - prefixlen) := Nat.two_pow_pos _
  rw [lastOf_networkOf ip h, networkOf_eq ip, networkOf_eq host, Nat.mod_eq_of_lt hhost,
    Nat.mul_left_cancel_iff hpos, Nat.div_eq_iff hpos, Nat.mul_comm]
  omega

/-- The addresses of a network for devices: all but the first and the last. -/
structure Usable (network prefixlen host : Nat) : Prop where
  address : host < 2 ^ 32
  inside : networkOf host prefixlen = network
  first : host ≠ network
  last : host ≠ lastOf network prefixlen

theorem lastOf_lt (ip : Nat) {prefixlen : Nat} (h : prefixlen ≤ 32) :
    lastOf (networkOf ip prefixlen) prefixlen < 2 ^ 32 := by
  unfold lastOf networkOf
  apply Nat.or_lt_two_pow
  · apply Nat.and_lt_two_pow
    unfold maskOf
    split
    · exact Nat.and_lt_two_pow _ (by decide)
    · decide
  · rw [shiftRight_ones h]
    have hle : 2 ^ (32 - prefixlen) ≤ 2 ^ 32 := Nat.pow_le_pow_right (by decide) (by omega)
    have hpos : 0 < 2 ^ (32 - prefixlen) := Nat.two_pow_pos _
    omega

/-- They are what `_free_host` goes through. -/
theorem usable_iff {ip host prefixlen : Nat} (h : prefixlen ≤ 32) :
    Usable (networkOf ip prefixlen) prefixlen host ↔
      networkOf ip prefixlen < host ∧ host < lastOf (networkOf ip prefixlen) prefixlen := by
  have hlast := lastOf_lt ip h
  constructor
  · rintro ⟨haddress, hinside, hfirst, hlast⟩
    have hbetween := (networkOf_eq_iff h haddress).mp hinside
    omega
  · rintro ⟨hlow, hhigh⟩
    have haddress : host < 2 ^ 32 := Nat.lt_trans hhigh hlast
    refine ⟨haddress, (networkOf_eq_iff h haddress).mpr (by omega), by omega, by omega⟩

theorem freeHost_eq_find (ip : Nat) (prefixlen : Nat) (avoid : List Nat) :
    freeHost (networkOf ip prefixlen) prefixlen avoid =
      (List.range' (networkOf ip prefixlen + 1)
        (lastOf (networkOf ip prefixlen) prefixlen - (networkOf ip prefixlen + 1))).find?
        fun host => !avoid.contains host := by
  unfold freeHost
  rw [networkOf_networkOf]

theorem usable_of_freeHost {ip prefixlen host : Nat} (h : prefixlen ≤ 32) {avoid : List Nat}
    (hfree : freeHost (networkOf ip prefixlen) prefixlen avoid = some host) :
    Usable (networkOf ip prefixlen) prefixlen host ∧ host ∉ avoid := by
  rw [freeHost_eq_find] at hfree
  have hmem := List.mem_range'_1.mp (List.mem_of_find?_eq_some hfree)
  have havoid := List.find?_some hfree
  refine ⟨(usable_iff h).mpr (by omega), ?_⟩
  simpa using havoid

theorem freeHost_eq_none_iff {ip prefixlen : Nat} (h : prefixlen ≤ 32) {avoid : List Nat} :
    freeHost (networkOf ip prefixlen) prefixlen avoid = none ↔
      ∀ host, Usable (networkOf ip prefixlen) prefixlen host → host ∈ avoid := by
  rw [freeHost_eq_find, List.find?_eq_none]
  constructor
  · intro hnone host hhost
    have hbetween := (usable_iff h).mp hhost
    have hmem := List.mem_range'_1.mpr (⟨by omega, by omega⟩ :
      networkOf ip prefixlen + 1 ≤ host ∧ host < networkOf ip prefixlen + 1 +
        (lastOf (networkOf ip prefixlen) prefixlen - (networkOf ip prefixlen + 1)))
    simpa using hnone host hmem
  · intro hall host hmem
    have hbetween := List.mem_range'_1.mp hmem
    simpa using hall host ((usable_iff h).mpr (by omega))

/-! ## Plans -/

/-- What `_validate_topology` accepts. -/
theorem valid_iff {t : Topology} : t.Valid ↔
    (1 ≤ t.prefixlen ∧ t.prefixlen ≤ 30) ∧ Usable t.network t.prefixlen t.server.toNat ∧
      Usable t.network t.prefixlen t.client.toNat ∧ t.client ≠ t.server := by
  have hserver : networkOf t.server.toNat t.prefixlen = t.network := rfl
  unfold Topology.Valid validateTopology
  rw [hserver]
  dsimp only
  constructor
  · intro h
    split at h
    · cases h
    · rename_i hbits
      split at h
      · cases h
      · rename_i hhost
        split at h
        · cases h
        · rename_i hclient
          obtain ⟨hfirst, hlast⟩ := not_or.mp hhost
          simp only [not_or, not_not] at hclient
          obtain ⟨hinside, hcfirst, hclast, hne⟩ := hclient
          exact ⟨not_not.mp hbits, ⟨t.server.isLt, rfl, hfirst, hlast⟩,
            ⟨t.client.isLt, hinside, hcfirst, hclast⟩, hne⟩
  · rintro ⟨hbits, hs, hc, hne⟩
    rw [if_neg (not_not.mpr hbits), if_neg (not_or.mpr ⟨hs.first, hs.last⟩),
      if_neg (by simp [hc.inside, hc.first, hc.last, hne])]

/-- Distinct usable hosts of one network that no neighbour has, and a neighbour in it. -/
structure Topology.Clear (t : Topology) (neighbors : List Nat) : Prop where
  valid : t.Valid
  server : t.server.toNat ∉ neighbors
  client : t.client.toNat ∉ neighbors
  met : ∃ n ∈ neighbors, networkOf n t.prefixlen = t.network

theorem toNat_intToIp {network prefixlen host : Nat} (h : Usable network prefixlen host) :
    (intToIp host).toNat = host :=
  (BitVec.toNat_ofNat host 32).trans (Nat.mod_eq_of_lt h.address)

/-- Two free hosts of a network make a topology. -/
theorem network_of_hosts {network prefixlen server : Nat}
    (hserver : Usable network prefixlen server) (client : Nat) :
    (⟨intToIp server, intToIp client, prefixlen⟩ : Topology).network = network := by
  unfold Topology.network
  dsimp only
  rw [toNat_intToIp hserver, hserver.inside]

theorem clear_of_hosts {network prefixlen server client : Nat} {neighbors : List Nat}
    (hbits : 1 ≤ prefixlen ∧ prefixlen ≤ 30) (hserver : Usable network prefixlen server)
    (hclient : Usable network prefixlen client) (hne : client ≠ server)
    (hsfree : server ∉ neighbors) (hcfree : client ∉ neighbors)
    (hmet : ∃ n ∈ neighbors, networkOf n prefixlen = network) :
    (⟨intToIp server, intToIp client, prefixlen⟩ : Topology).Clear neighbors := by
  have hnetwork := network_of_hosts hserver client
  have hs := toNat_intToIp hserver
  have hc := toNat_intToIp hclient
  constructor
  · rw [valid_iff, hnetwork]
    dsimp only
    rw [hs, hc]
    refine ⟨hbits, hserver, hclient, ?_⟩
    intro heq
    apply hne
    rw [← hc, ← hs, heq]
  · dsimp only
    rwa [hs]
  · dsimp only
    rwa [hc]
  · rw [hnetwork]
    exact hmet

variable {t plan : Topology} {neighbors : List Nat} {present : Bool}

theorem adopt_eq_some (h : t.adopt neighbors = some plan) :
    ∃ n server client, t.offSubnet neighbors = some n ∧
      freeHost (networkOf n 24) 24 neighbors = some server ∧
      freeHost (networkOf n 24) 24 (server :: neighbors) = some client ∧
      plan = ⟨intToIp server, intToIp client, 24⟩ := by
  unfold Topology.adopt at h
  obtain ⟨n, hn, h⟩ := Option.bind_eq_some_iff.mp h
  obtain ⟨server, hserver, h⟩ := Option.bind_eq_some_iff.mp h
  obtain ⟨client, hclient, h⟩ := Option.bind_eq_some_iff.mp h
  exact ⟨n, server, client, hn, hserver, hclient, (Option.some.inj h).symm⟩

theorem clear_of_adopt (h : t.adopt neighbors = some plan) : plan.Clear neighbors := by
  obtain ⟨n, server, client, hn, hserver, hclient, rfl⟩ := adopt_eq_some h
  obtain ⟨hs, hsfree⟩ := usable_of_freeHost (by decide) hserver
  obtain ⟨hc, hcfree⟩ := usable_of_freeHost (by decide) hclient
  obtain ⟨hne, hcfree⟩ := not_or.mp (List.mem_cons.not.mp hcfree)
  exact clear_of_hosts (by decide) hs hc hne hsfree hcfree ⟨n, List.mem_of_find?_eq_some hn, rfl⟩

theorem stepAside_eq_some (h : t.stepAside neighbors present = some plan) :
    (∃ n ∈ neighbors, networkOf n t.prefixlen = t.network) ∧ ∃ server client,
      freeHost t.network t.prefixlen (t.server.toNat :: neighbors) = some server ∧
      (client = t.client.toNat ∧ t.client.toNat ∉ neighbors ∧ t.client.toNat ≠ server ∨
        freeHost t.network t.prefixlen (server :: t.server.toNat :: neighbors) = some client) ∧
      plan = ⟨intToIp server, intToIp client, t.prefixlen⟩ := by
  unfold Topology.stepAside at h
  dsimp only at h
  split at h
  · rename_i hmoves
    obtain ⟨server, hserver, h⟩ := Option.bind_eq_some_iff.mp h
    refine ⟨hmoves.1, server, ?_⟩
    split at h
    · obtain ⟨client, hclient, h⟩ := Option.bind_eq_some_iff.mp h
      exact ⟨client, hserver, Or.inr hclient, (Option.some.inj h).symm⟩
    · rename_i hkeeps
      obtain ⟨hfree, hne⟩ := not_or.mp hkeeps
      exact ⟨t.client.toNat, hserver, Or.inl ⟨rfl, hfree, hne⟩, (Option.some.inj h).symm⟩
  · cases h

theorem clear_of_stepAside (ht : t.Valid) (h : t.stepAside neighbors present = some plan) :
    plan.Clear neighbors := by
  obtain ⟨hbits, -, htclient, -⟩ := valid_iff.mp ht
  obtain ⟨hmet, server, client, hserver, hclient, rfl⟩ := stepAside_eq_some h
  obtain ⟨hs, hsfree⟩ := usable_of_freeHost (by omega) hserver
  have hsfree := (not_or.mp (List.mem_cons.not.mp hsfree)).2
  rcases hclient with ⟨rfl, hcfree, hne⟩ | hclient
  · exact clear_of_hosts hbits hs htclient hne hsfree hcfree hmet
  · obtain ⟨hc, hcfree⟩ := usable_of_freeHost (by omega) hclient
    simp only [List.mem_cons, not_or] at hcfree
    exact clear_of_hosts hbits hs hc hcfree.1 hsfree hcfree.2.2 hmet

/-! ## Planning again -/

/-- A plan with our address present steps aside for nobody. -/
theorem Topology.Clear.stepAside (h : t.Clear neighbors) : t.stepAside neighbors true = none := by
  unfold Topology.stepAside
  dsimp only
  rw [if_neg]
  rintro ⟨-, hcontested⟩
  rcases hcontested with habsent | hserver
  · cases habsent
  · exact h.server hserver

/-- Nobody is off the subnet, or the first who is has a /24 without two free hosts. -/
def Topology.Settled (t : Topology) (neighbors : List Nat) : Prop :=
  ∀ n, t.offSubnet neighbors = some n → ∀ a b, Usable (networkOf n 24) 24 a →
    Usable (networkOf n 24) 24 b → a ∉ neighbors → b ∉ neighbors → a = b

theorem adopt_eq_none_iff : t.adopt neighbors = none ↔ t.Settled neighbors := by
  unfold Topology.adopt Topology.Settled
  cases hoff : t.offSubnet neighbors with
  | none =>
      refine iff_of_true rfl ?_
      intro n hn
      cases hn
  | some n =>
      have hsecond : ∀ a b, Usable (networkOf n 24) 24 a → Usable (networkOf n 24) 24 b →
          a ∉ neighbors → b ∉ neighbors → a ≠ b →
            ∀ server, freeHost (networkOf n 24) 24 (server :: neighbors) ≠ none := by
        intro a b ha hb hafree hbfree hne server hnone
        have hall := (freeHost_eq_none_iff (by decide)).mp hnone
        have haserver := (List.mem_cons.mp (hall a ha)).resolve_right hafree
        have hbserver := (List.mem_cons.mp (hall b hb)).resolve_right hbfree
        exact hne (haserver.trans hbserver.symm)
      rw [Option.bind_eq_bind, Option.bind_some]
      cases hserver : freeHost (networkOf n 24) 24 neighbors with
      | none =>
          refine iff_of_true rfl ?_
          intro m hm a b ha _ hafree _
          cases hm
          exact absurd ((freeHost_eq_none_iff (by decide)).mp hserver a ha) hafree
      | some server =>
          obtain ⟨hs, hsfree⟩ := usable_of_freeHost (by decide) hserver
          rw [Option.bind_some]
          cases hclient : freeHost (networkOf n 24) 24 (server :: neighbors) with
          | none =>
              refine iff_of_true rfl ?_
              intro m hm a b ha hb hafree hbfree
              cases hm
              by_contra hne
              exact hsecond a b ha hb hafree hbfree hne server hclient
          | some client =>
              obtain ⟨hc, hcfree⟩ := usable_of_freeHost (by decide) hclient
              obtain ⟨hne, hcfree⟩ := not_or.mp (List.mem_cons.not.mp hcfree)
              refine iff_of_false (Option.some_ne_none _) ?_
              intro hsettled
              exact hne (hsettled n rfl client server hc hs hcfree hsfree)

/-- For every valid topology and whatever the neighbours are: a plan is a valid topology that no
neighbour collides with and that reaches one, and it is the last one exactly where it settles. -/
theorem planRehome_clear {inetAton : String → Option Ip} {names : List String} (ht : t.Valid)
    (h : planRehome inetAton t names present = some plan) :
    plan.Valid ∧ plan.server.toNat ∉ neighInts inetAton names ∧
      plan.client.toNat ∉ neighInts inetAton names ∧
      (∃ n ∈ neighInts inetAton names, networkOf n plan.prefixlen = plan.network) ∧
      (planRehome inetAton plan names true = none ↔
        plan.Settled (neighInts inetAton names)) := by
  have hclear : plan.Clear (neighInts inetAton names) := by
    unfold planRehome at h
    rcases Option.or_eq_some_iff.mp h with hadopt | ⟨-, haside⟩
    · exact clear_of_adopt hadopt
    · exact clear_of_stepAside ht haside
  refine ⟨hclear.valid, hclear.server, hclear.client, hclear.met, ?_⟩
  unfold planRehome
  rw [hclear.stepAside, Option.or_none]
  exact adopt_eq_none_iff

/-- The link of a PC that nobody has moved. -/
def homeLink : Topology := ⟨0xC0A88901#32, 0xC0A8890A#32, 24⟩

/-- Two consoles, with addresses of other networks. -/
def consoles : String → Option Ip
  | "10.0.0.5" => some 0x0A000005#32
  | "172.16.4.9" => some 0xAC100409#32
  | _ => none

/-- One console on the wire: the plan goes to its network, and stays there. -/
theorem planRehome_oneConsole :
    planRehome consoles homeLink ["10.0.0.5"] true = some ⟨0x0A000001#32, 0x0A000002#32, 24⟩ ∧
      planRehome consoles ⟨0x0A000001#32, 0x0A000002#32, 24⟩ ["10.0.0.5"] true = none := by
  have hplan : planRehome consoles homeLink ["10.0.0.5"] true =
      some ⟨0x0A000001#32, 0x0A000002#32, 24⟩ := by decide +kernel
  have hvalid : homeLink.Valid := by decide +kernel
  refine ⟨hplan, (planRehome_clear hvalid hplan).2.2.2.2.mpr ?_⟩
  intro n hn
  have hnone : (⟨0x0A000001#32, 0x0A000002#32, 24⟩ : Topology).offSubnet
      (neighInts consoles ["10.0.0.5"]) = none := by decide +kernel
  rw [hnone] at hn
  cases hn

/-- Two consoles of different networks: the plan goes to one, and from there to the other. -/
theorem planRehome_twoConsoles :
    homeLink.Valid ∧ ¬ ∀ plan,
      planRehome consoles homeLink ["10.0.0.5", "172.16.4.9"] true = some plan →
        planRehome consoles plan ["10.0.0.5", "172.16.4.9"] true = none := by
  refine ⟨by decide +kernel, ?_⟩
  intro hall
  have hplan : planRehome consoles homeLink ["10.0.0.5", "172.16.4.9"] true =
      some ⟨0x0A000001#32, 0x0A000002#32, 24⟩ := by decide +kernel
  have hagain := hall _ hplan
  revert hagain
  decide +kernel

end Ps2Servers.DirectLink
