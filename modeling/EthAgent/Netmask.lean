import EthAgent.Lib.Bits
import EthAgent.Lib.Inet6
import EthAgent.Lib.Tokens

/-!
Netmasks: `IPv4Addr_IsNetmaskValid` judges the word in network order, and
`NetmaskToNumber` counts the ones of the dotted text.
-/

set_option autoImplicit false

namespace EthAgent
open CString Tokens Inet6 Bits

inductive ByteOrder where
  | little
  | big
  deriving DecidableEq

structure Machine where
  byteOrder : ByteOrder
  ulongBits : Nat
  ulongWide : 32 ≤ ulongBits

/-- The bytes of a `uint32_t` in the order in which they lie in memory. -/
def Machine.bytes (m : Machine) (x : BitVec 32) : List UInt8 :=
  match m.byteOrder with
  | .little => [⟨x.extractLsb' 0 8⟩,⟨x.extractLsb' 8 8⟩,⟨x.extractLsb' 16 8⟩,⟨x.extractLsb' 24 8⟩]
  | .big => [⟨x.extractLsb' 24 8⟩,⟨x.extractLsb' 16 8⟩,⟨x.extractLsb' 8 8⟩,⟨x.extractLsb' 0 8⟩]

def Machine.ntohl (m : Machine) (x : BitVec 32) : BitVec 32 :=
  match m.byteOrder with
  | .little => x.extractLsb' 0 8 ++ x.extractLsb' 8 8 ++ x.extractLsb' 16 8 ++ x.extractLsb' 24 8
  | .big => x

theorem ushiftRight_one_lt {mask : BitVec 32} (h : ¬ mask = 0) :
    (mask >>> 1).toNat < mask.toNat := by
  have hpos : mask.toNat ≠ 0 := fun hzero => h (BitVec.eq_of_toNat_eq hzero)
  rw [BitVec.toNat_ushiftRight,Nat.shiftRight_eq_div_pow]
  omega

def firstZero (hostorder mask : BitVec 32) : BitVec 32 :=
  if mask = 0 then mask
  else if hostorder &&& mask = 0 then mask
  else firstZero hostorder (mask >>> 1)
termination_by mask.toNat
decreasing_by exact ushiftRight_one_lt ‹_›

/-- The second loop, which returns 0 at a one. -/
def thereIsNoOne (hostorder mask : BitVec 32) : Bool :=
  if mask = 0 then true
  else if hostorder &&& mask ≠ 0 then false
  else thereIsNoOne hostorder (mask >>> 1)
termination_by mask.toNat
decreasing_by exact ushiftRight_one_lt ‹_›

def ipv4AddrIsNetmaskValid (m : Machine) (netmask : BitVec 32) : Bool :=
  let hostorder := m.ntohl netmask
  thereIsNoOne hostorder (firstZero hostorder (1#32 <<< 31))

def countOnes {w : Nat} : (rounds : Nat) → (val count : BitVec w) → BitVec w
  | 0, _, count => count
  | n+1, val, count => countOnes n (val >>> 1) (if val &&& 1 ≠ 0 then count+1 else count)

/-- The `while` loop of `NetmaskToNumber` over what `strtok` returns. -/
def countTokens {w : Nat} : List Text → (count : BitVec w) → BitVec w
  | [], count => count
  | pch :: rest, count => countTokens rest (countOnes 8 (BitVec.ofInt w (atoi pch)) count)

def netmaskToNumber (m : Machine) (netmask : Text) : BitVec m.ulongBits :=
  countTokens (tokens (· = '.') netmask) 0

/-- The bits of a word in network order, from the first octet's highest on. -/
def Machine.networkBits (m : Machine) (netmask : BitVec 32) : List Bool :=
  (m.bytes netmask).flatMap fun b => lowBits b.toBitVec 8

def Machine.dottedDecimal (m : Machine) (netmask : BitVec 32) : Text :=
  dottedQuad (m.bytes netmask)

section Validity

def maskAt : Nat → BitVec 32
  | 0 => 0
  | n+1 => BitVec.twoPow 32 n

theorem maskAt_succ_ne_zero {n : Nat} (hn : n < 32) : maskAt (n+1) ≠ 0 := twoPow_ne_zero hn

theorem maskAt_succ_shift {n : Nat} (hn : n < 32) : maskAt (n+1) >>> 1 = maskAt n := by
  cases n with
  | zero => rfl
  | succ n =>
    refine BitVec.eq_of_getLsbD_eq fun i hi => ?_
    rw [BitVec.getLsbD_ushiftRight,maskAt,maskAt,BitVec.getLsbD_twoPow,BitVec.getLsbD_twoPow]
    by_cases h : n = i
    · subst h
      simp [Nat.add_comm,hn,hi]
    · simp [h,Nat.add_comm 1 i]

theorem and_maskAt_succ (x : BitVec 32) {n : Nat} (hn : n < 32) :
    x &&& maskAt (n+1) = 0 ↔ x.getLsbD n = false := and_twoPow_eq_zero_iff x hn

theorem firstZero_maskAt (x : BitVec 32) {n : Nat} (hn : n ≤ 32) :
    firstZero x (maskAt n) = maskAt ((lowBits x n).dropWhile id).length := by
  induction n with
  | zero => rw [firstZero,if_pos (by rfl)]; rfl
  | succ n ih =>
    rw [firstZero,if_neg (maskAt_succ_ne_zero hn),lowBits]
    by_cases hbit : x.getLsbD n = false
    · rw [if_pos ((and_maskAt_succ x hn).mpr hbit),List.dropWhile_cons_of_neg (by simp [hbit]),
        List.length_cons,length_lowBits]
    · rw [if_neg fun h => hbit ((and_maskAt_succ x hn).mp h),maskAt_succ_shift hn,ih (by omega),
        List.dropWhile_cons_of_pos (by simpa using hbit)]

theorem thereIsNoOne_maskAt (x : BitVec 32) {n : Nat} (hn : n ≤ 32) :
    thereIsNoOne x (maskAt n) = true ↔ ∀ b ∈ lowBits x n, b = false := by
  induction n with
  | zero => rw [thereIsNoOne,if_pos (by rfl)]; simp [lowBits]
  | succ n ih =>
    rw [thereIsNoOne,if_neg (maskAt_succ_ne_zero hn),lowBits,List.forall_mem_cons,
      maskAt_succ_shift hn,← ih (by omega),← and_maskAt_succ x hn]
    by_cases hzero : x &&& maskAt (n+1) = 0
    · rw [if_neg (not_not.mpr hzero)]
      exact (and_iff_right hzero).symm
    · rw [if_pos hzero]
      exact ⟨fun h => absurd h (by decide),fun h => absurd h.1 hzero⟩

/-- The octets in network order are the bits of the word in host order. -/
theorem lowBits_ntohl (m : Machine) (netmask : BitVec 32) :
    lowBits (m.ntohl netmask) 32 = m.networkBits netmask := by
  rw [Machine.ntohl,Machine.networkBits,Machine.bytes]
  cases m.byteOrder with
  | little =>
    simp only [List.flatMap_cons,List.flatMap_nil]
    rw [lowBits_append _ _ (8+8+8),lowBits_append _ _ (8+8),lowBits_append]
    simp only [List.append_assoc,List.append_nil]
  | big =>
    simp only [List.flatMap_cons,List.flatMap_nil]
    rw [lowBits_add netmask 8 24,lowBits_add netmask 8 16,lowBits_add netmask 8 8,
      lowBits_add netmask 8 0]
    rfl

theorem length_networkBits (m : Machine) (netmask : BitVec 32) :
    (m.networkBits netmask).length = 32 := by
  rw [← lowBits_ntohl,length_lowBits]

theorem ipv4AddrIsNetmaskValid_iff (m : Machine) (netmask : BitVec 32) :
    ipv4AddrIsNetmaskValid m netmask = true ↔ ∃ k, OnesThenZeros (m.networkBits netmask) k := by
  have hmask : (1#32 <<< 31) = maskAt 32 := by decide
  have hleft : ((m.networkBits netmask).dropWhile id).length ≤ 32 := by
    rw [← length_networkBits m netmask]
    exact (List.dropWhile_sublist id).length_le
  rw [ipv4AddrIsNetmaskValid,hmask,firstZero_maskAt _ (Nat.le_refl 32),lowBits_ntohl,
    thereIsNoOne_maskAt _ hleft,exists_onesThenZeros_iff,← lowBits_ntohl,← dropWhile_lowBits]

end Validity

section Length

theorem countOnes_toNat {w : Nat} (hw : 0 < w) (n : Nat) (val count : BitVec w)
    (hfits : count.toNat+n < 2^w) :
    (countOnes n val count).toNat = count.toNat + (lowBits val n).count true := by
  induction n generalizing val count with
  | zero => rfl
  | succ n ih =>
    have hone : val &&& 1 = 0 ↔ val.getLsbD 0 = false := by
      have htwoPow := and_twoPow_eq_zero_iff val hw
      rwa [BitVec.twoPow_zero] at htwoPow
    rw [countOnes,lowBits_succ,List.count_append]
    cases hbit : val.getLsbD 0 with
    | false =>
      rw [if_neg (not_not.mpr (hone.mpr hbit)),ih _ _ (by omega)]
      rfl
    | true =>
      have hcount : (count+1).toNat = count.toNat+1 := by
        have hstep : (1 : BitVec w).toNat = 1 := Nat.mod_eq_of_lt (Nat.one_lt_two_pow (by omega))
        rw [BitVec.toNat_add,hstep,Nat.mod_eq_of_lt (by omega)]
      rw [if_pos fun h => by simp [hone.mp h] at hbit,ih _ _ (by omega),hcount]
      simp
      omega

theorem lowBits_octet {w : Nat} (hw : 8 ≤ w) (b : UInt8) :
    lowBits (BitVec.ofInt w (atoi (decimal b.toNat))) 8 = lowBits b.toBitVec 8 := by
  refine lowBits_congr fun i hi => ?_
  rw [atoi_decimal,BitVec.ofInt_natCast,BitVec.getLsbD_ofNat,decide_eq_true (by omega),
    Bool.true_and]
  rfl

theorem countTokens_octets {w : Nat} (hw : 8 ≤ w) (bs : List UInt8) (count : BitVec w)
    (hfits : count.toNat+8*bs.length < 2^w) :
    (countTokens (bs.map fun b => decimal b.toNat) count).toNat =
      count.toNat + (bs.flatMap fun b => lowBits b.toBitVec 8).count true := by
  induction bs generalizing count with
  | nil => rfl
  | cons b bs ih =>
    have hoctet := countOnes_toNat (by omega) 8 (BitVec.ofInt w (atoi (decimal b.toNat))) count
      (by rw [List.length_cons] at hfits; omega)
    rw [lowBits_octet hw] at hoctet
    have hle : (lowBits b.toBitVec 8).count true ≤ 8 := by
      simpa using List.count_le_length (a := true) (l := lowBits b.toBitVec 8)
    rw [List.map_cons,countTokens,ih _ (by rw [List.length_cons] at hfits; omega),hoctet,
      List.flatMap_cons,List.count_append]
    omega

theorem isToken_decimal (n : Nat) : IsToken (· = '.') (decimal n) where
  nonempty := Nat.toDigits_ne_nil
  plain c hc := decide_eq_false fun hdot => by
    have hdigit := isDigit_of_mem_decimal hc
    rw [hdot] at hdigit
    exact absurd hdigit (by decide)

theorem netmaskToNumber_dottedDecimal (m : Machine) (netmask : BitVec 32) :
    (netmaskToNumber m (m.dottedDecimal netmask)).toNat = (m.networkBits netmask).count true := by
  have hwide := m.ulongWide
  have hlength : (m.bytes netmask).length = 4 := by
    rw [Machine.bytes]
    cases m.byteOrder <;> rfl
  have hroom : 2^32 ≤ 2^m.ulongBits := Nat.pow_le_pow_right (by decide) hwide
  have htokens : tokens (· = '.') (m.dottedDecimal netmask) =
      (m.bytes netmask).map fun b => decimal b.toNat :=
    tokens_intercalate (by decide) fun t ht => by
      obtain ⟨b,-,rfl⟩ := List.mem_map.mp ht
      exact isToken_decimal b.toNat
  rw [netmaskToNumber,htokens,countTokens_octets (by omega) _ _ (by simp [hlength]; omega)]
  simp [Machine.networkBits]

end Length

theorem netmask_functions_agree (m : Machine) (netmask : BitVec 32) :
    (ipv4AddrIsNetmaskValid m netmask = true ↔ ∃ k, OnesThenZeros (m.networkBits netmask) k) ∧
      ∀ k, OnesThenZeros (m.networkBits netmask) k →
        (netmaskToNumber m (m.dottedDecimal netmask)).toNat = k :=
  ⟨ipv4AddrIsNetmaskValid_iff m netmask,fun k hk => by
    rw [netmaskToNumber_dottedDecimal,hk.count]⟩

-- A little-endian machine holds 255.255.240.0 as 0x00f0ffff.
example : netmaskToNumber ⟨.little,64,by decide⟩
    (Machine.dottedDecimal ⟨.little,64,by decide⟩ 0x00f0ffff) = 20 := by decide

end EthAgent
