import EthAgent.Netmask
import EthAgent.Lib.Masks

/-!
The IPv4 checks of cosa_apis_util.c. Addresses are words in network order; as numbers in
host order the addresses of a network have a least one, which is its address, and a
greatest one, its broadcast address.
-/

set_option autoImplicit false

namespace EthAgent
open Bits Masks

def Machine.htonl (m : Machine) (x : BitVec 32) : BitVec 32 := m.ntohl x

def ipv4AddrIsSameNetwork (addr1 addr2 mask : BitVec 32) : Bool := addr1 &&& mask = addr2 &&& mask

def ipv4AddrIsLoopback (m : Machine) (addr : BitVec 32) : Bool :=
  addr &&& m.htonl 0xff000000 = m.htonl 0x7f000000

def ipv4AddrIsMulticast (m : Machine) (addr : BitVec 32) : Bool :=
  addr &&& m.htonl 0xf0000000 = m.htonl 0xe0000000

def ipv4AddrIsBroadcast (addr net mask : BitVec 32) : Bool :=
  if addr = 0xffffffff then true
  else ipv4AddrIsSameNetwork addr net mask && addr &&& ~~~mask = 0xffffffff &&& ~~~mask

def ipv4AddrIsNetworkAddr (addr net mask : BitVec 32) : Bool :=
  ipv4AddrIsSameNetwork addr net mask && addr &&& ~~~mask = 0

def ipv4Class (m : Machine) (addr bits type : BitVec 32) : Bool := m.ntohl addr &&& bits = type

def ipv4AddrIsClassA (m : Machine) (addr : BitVec 32) : Bool := ipv4Class m addr 0x80000000 0
def ipv4AddrIsClassB (m : Machine) (addr : BitVec 32) : Bool :=
  ipv4Class m addr 0xc0000000 0x80000000
def ipv4AddrIsClassC (m : Machine) (addr : BitVec 32) : Bool :=
  ipv4Class m addr 0xe0000000 0xc0000000
def ipv4AddrIsClassD (m : Machine) (addr : BitVec 32) : Bool :=
  ipv4Class m addr 0xf0000000 0xe0000000

def Machine.network (m : Machine) (net mask : BitVec 32) : Set Nat :=
  {n | ∃ addr, ipv4AddrIsSameNetwork addr net mask = true ∧ (m.ntohl addr).toNat = n}

section HostOrder

variable (m : Machine)

def Machine.place (i : Nat) : Nat :=
  match m.byteOrder with
  | .little => 8*(3-i/8)+i%8
  | .big => i

theorem place_lt {i : Nat} (hi : i < 32) : m.place i < 32 := by
  unfold Machine.place
  split <;> omega

theorem place_place {i : Nat} (hi : i < 32) : m.place (m.place i) = i := by
  unfold Machine.place
  cases m.byteOrder with
  | little =>
    simp only
    omega
  | big => rfl

theorem getLsbD_ntohl (x : BitVec 32) {i : Nat} (hi : i < 32) :
    (m.ntohl x).getLsbD i = x.getLsbD (m.place i) := by
  unfold Machine.ntohl Machine.place
  cases m.byteOrder with
  | big => rfl
  | little =>
    simp only [BitVec.getLsbD_append,BitVec.getLsbD_extractLsb']
    split_ifs with h₁ h₂ h₃
    · simp only [decide_eq_true h₁,Bool.true_and]
      congr 1
      omega
    · simp only [decide_eq_true h₂,Bool.true_and]
      congr 1
      omega
    · simp only [decide_eq_true h₃,Bool.true_and]
      congr 1
      omega
    · have h₄ : i-8-8-8 < 8 := by omega
      simp only [decide_eq_true h₄,Bool.true_and]
      congr 1
      omega

theorem ntohl_ntohl (x : BitVec 32) : m.ntohl (m.ntohl x) = x :=
  BitVec.eq_of_getLsbD_eq fun i hi => by
    rw [getLsbD_ntohl m _ hi,getLsbD_ntohl m _ (place_lt m hi),place_place m hi]

theorem ntohl_injective {x y : BitVec 32} (h : m.ntohl x = m.ntohl y) : x = y := by
  rw [← ntohl_ntohl m x,h,ntohl_ntohl]

theorem ntohl_and (x y : BitVec 32) : m.ntohl (x &&& y) = m.ntohl x &&& m.ntohl y :=
  BitVec.eq_of_getLsbD_eq fun i hi => by
    simp only [getLsbD_ntohl m _ hi,BitVec.getLsbD_and]

theorem ntohl_not (x : BitVec 32) : m.ntohl (~~~x) = ~~~m.ntohl x :=
  BitVec.eq_of_getLsbD_eq fun i hi => by
    simp only [getLsbD_ntohl m _ hi,BitVec.getLsbD_not,place_lt m hi,hi]

theorem ntohl_zero : m.ntohl 0 = 0 := by
  unfold Machine.ntohl
  cases m.byteOrder <;> rfl

theorem ntohl_allOnes : m.ntohl (BitVec.allOnes 32) = BitVec.allOnes 32 := by
  unfold Machine.ntohl
  cases m.byteOrder <;> rfl

end HostOrder

section Networks

variable {m : Machine} {addr net mask : BitVec 32}

theorem isSameNetwork_iff (m : Machine) :
    ipv4AddrIsSameNetwork addr net mask = true ↔
      m.ntohl addr ∈ coset (m.ntohl mask) (m.ntohl net) := by
  rw [ipv4AddrIsSameNetwork,decide_eq_true_eq,coset,Set.mem_ofPred_eq,← ntohl_and,← ntohl_and]
  exact ⟨congrArg m.ntohl,ntohl_injective m⟩

theorem network_eq : m.network net mask = numbers (m.ntohl mask) (m.ntohl net) := by
  ext n
  constructor
  · rintro ⟨addr,hsame,rfl⟩
    exact ⟨m.ntohl addr,(isSameNetwork_iff m).mp hsame,rfl⟩
  · rintro ⟨x,hx,rfl⟩
    refine ⟨m.ntohl x,?_,by rw [ntohl_ntohl]⟩
    rwa [isSameNetwork_iff m,ntohl_ntohl]

theorem isNetworkAddr_iff (m : Machine) :
    ipv4AddrIsNetworkAddr addr net mask = true ↔
      IsLeast (m.network net mask) (m.ntohl addr).toNat := by
  have hhost : addr &&& ~~~mask = 0 ↔ m.ntohl addr &&& ~~~m.ntohl mask = 0 := by
    rw [← ntohl_not,← ntohl_and]
    exact ⟨fun h => h ▸ ntohl_zero m,fun h => ntohl_injective m (h.trans (ntohl_zero m).symm)⟩
  rw [network_eq,isLeast_numbers_iff,ipv4AddrIsNetworkAddr,Bool.and_eq_true,
    isSameNetwork_iff m,decide_eq_true_eq,hhost]
  rfl

theorem isBroadcast_iff (m : Machine) :
    ipv4AddrIsBroadcast addr net mask = true ↔
      addr = 0xffffffff ∨ IsGreatest (m.network net mask) (m.ntohl addr).toNat := by
  have hhost : ipv4AddrIsSameNetwork addr net mask = true ∧
      addr &&& ~~~mask = 0xffffffff &&& ~~~mask ↔
        IsGreatest (m.network net mask) (m.ntohl addr).toNat := by
    have hones : addr &&& ~~~mask = 0xffffffff &&& ~~~mask ↔
        m.ntohl addr &&& ~~~m.ntohl mask = BitVec.allOnes 32 &&& ~~~m.ntohl mask := by
      have hall := ntohl_and m (BitVec.allOnes 32) (~~~mask)
      rw [ntohl_allOnes] at hall
      rw [← ntohl_not,← ntohl_and,← hall]
      exact ⟨congrArg m.ntohl,fun h => ntohl_injective m h⟩
    rw [network_eq,isGreatest_numbers_iff,isSameNetwork_iff m,hones]
    rfl
  rw [← hhost,ipv4AddrIsBroadcast]
  by_cases hones : addr = 0xffffffff
  · rw [if_pos hones]
    exact iff_of_true rfl (.inl hones)
  · rw [if_neg hones,Bool.and_eq_true,decide_eq_true_eq]
    exact (or_iff_right hones).symm

theorem isNetmaskValid_iff_ordConnected (m : Machine) :
    ipv4AddrIsNetmaskValid m mask = true ↔ ∀ net, (m.network net mask).OrdConnected := by
  rw [ipv4AddrIsNetmaskValid_iff,← lowBits_ntohl,exists_onesThenZeros_lowBits_iff,
    ← forall_ordConnected_iff]
  simp only [network_eq]
  constructor
  · exact fun h net => h (m.ntohl net)
  · intro h net
    rw [← ntohl_ntohl m net]
    exact h (m.ntohl net)

theorem ncard_network (m : Machine) (net mask : BitVec 32) :
    (m.network net mask).ncard * 2^(netmaskToNumber m (m.dottedDecimal mask)).toNat = 2^32 := by
  rw [netmaskToNumber_dottedDecimal,← lowBits_ntohl,network_eq,ncard_numbers]

end Networks

section Classes

def Machine.firstOctet (m : Machine) (addr : BitVec 32) : Nat := (m.ntohl addr).toNat / 2^24

theorem ipv4Class_iff {m : Machine} {addr bits type : BitVec 32} {j : Nat} (hj : 24 ≤ j)
    (hbits : ∀ i < 32, bits.getLsbD i = true ↔ j ≤ i) (htype : type &&& bits = type) :
    ipv4Class m addr bits type = true ↔
      m.firstOctet addr / 2^(j-24) = type.toNat / 2^24 / 2^(j-24) := by
  have hmem : ipv4Class m addr bits type = true ↔ m.ntohl addr ∈ coset bits type := by
    rw [ipv4Class,decide_eq_true_eq,coset,Set.mem_ofPred_eq,htype]
  have hpow : 2^24 * 2^(j-24) = 2^j := by rw [← Nat.pow_add,Nat.add_sub_cancel' hj]
  rw [hmem,mem_coset_upper_iff hbits,Machine.firstOctet,Nat.div_div_eq_div_mul,
    Nat.div_div_eq_div_mul,hpow]

/-- The checks against constants in network order are the same. -/
theorem and_htonl_eq_iff (m : Machine) (addr bits type : BitVec 32) :
    addr &&& m.htonl bits = m.htonl type ↔ ipv4Class m addr bits type = true := by
  have hand := ntohl_and m addr (m.htonl bits)
  rw [Machine.htonl,ntohl_ntohl] at hand
  rw [ipv4Class,decide_eq_true_eq,← hand]
  constructor
  · intro h
    rw [Machine.htonl] at h
    rw [h,Machine.htonl,ntohl_ntohl]
  · intro h
    rw [Machine.htonl,Machine.htonl,← h,ntohl_ntohl]

/-- The first octet tells the class, a loopback address is one of class A, and the
multicast addresses are those of class D. -/
theorem ipv4_classes (m : Machine) (addr : BitVec 32) :
    (ipv4AddrIsClassA m addr = true ↔ m.firstOctet addr < 128) ∧
    (ipv4AddrIsClassB m addr = true ↔ 128 ≤ m.firstOctet addr ∧ m.firstOctet addr < 192) ∧
    (ipv4AddrIsClassC m addr = true ↔ 192 ≤ m.firstOctet addr ∧ m.firstOctet addr < 224) ∧
    (ipv4AddrIsClassD m addr = true ↔ 224 ≤ m.firstOctet addr ∧ m.firstOctet addr < 240) ∧
    (ipv4AddrIsLoopback m addr = true ↔ m.firstOctet addr = 127) ∧
    ipv4AddrIsMulticast m addr = ipv4AddrIsClassD m addr := by
  have hA : ipv4AddrIsClassA m addr = true ↔ m.firstOctet addr / 2^7 = 0 :=
    ipv4Class_iff (j := 31) (by decide) (by decide) (by decide)
  have hB : ipv4AddrIsClassB m addr = true ↔ m.firstOctet addr / 2^6 = 2 :=
    ipv4Class_iff (j := 30) (by decide) (by decide) (by decide)
  have hC : ipv4AddrIsClassC m addr = true ↔ m.firstOctet addr / 2^5 = 6 :=
    ipv4Class_iff (j := 29) (by decide) (by decide) (by decide)
  have hD : ipv4AddrIsClassD m addr = true ↔ m.firstOctet addr / 2^4 = 14 :=
    ipv4Class_iff (j := 28) (by decide) (by decide) (by decide)
  have hloop : ipv4AddrIsLoopback m addr = true ↔ m.firstOctet addr / 2^0 = 127 := by
    rw [ipv4AddrIsLoopback,decide_eq_true_eq,and_htonl_eq_iff]
    exact ipv4Class_iff (j := 24) (by decide) (by decide) (by decide)
  have hmulti : ipv4AddrIsMulticast m addr = true ↔ ipv4AddrIsClassD m addr = true := by
    rw [ipv4AddrIsMulticast,decide_eq_true_eq,and_htonl_eq_iff]
    rfl
  refine ⟨hA.trans ?_,hB.trans ?_,hC.trans ?_,hD.trans ?_,hloop.trans ?_,
    Bool.eq_iff_iff.mpr hmulti⟩ <;> omega

end Classes

/-- The IPv4 functions agree on what a network is: `IPv4Addr_IsNetworkAddr` and
`IPv4Addr_IsBroadcast` accept its first and its last address, `NetmaskToNumber` tells its
size, and all addresses between the two are in it, for every network, exactly if
`IPv4Addr_IsNetmaskValid` accepts the mask. -/
theorem ipv4_functions_agree (m : Machine) (mask : BitVec 32) :
    (∀ net addr,
      (ipv4AddrIsNetworkAddr addr net mask = true ↔
        IsLeast (m.network net mask) (m.ntohl addr).toNat) ∧
      (ipv4AddrIsBroadcast addr net mask = true ↔
        addr = 0xffffffff ∨ IsGreatest (m.network net mask) (m.ntohl addr).toNat)) ∧
    (∀ net, (m.network net mask).ncard *
      2^(netmaskToNumber m (m.dottedDecimal mask)).toNat = 2^32) ∧
    (ipv4AddrIsNetmaskValid m mask = true ↔ ∀ net, (m.network net mask).OrdConnected) :=
  ⟨fun _ _ => ⟨isNetworkAddr_iff m,isBroadcast_iff m⟩,fun net => ncard_network m net mask,
    isNetmaskValid_iff_ordConnected m⟩

end EthAgent
