import EthAgent.Lib.Inet6

/-!
The comparison of IPv6 addresses and prefixes, byte by byte with a mask for the
last bits, beside the comparison bit by bit that it stands for.
-/

set_option autoImplicit false

namespace EthAgent
open CString Scanf Inet6

/-- `s6_addr[i]`; there is nothing outside of the sixteen bytes. -/
def byteAt (a : In6Addr) (i : Int) : Option UInt8 :=
  if 0 ≤ i then a.s6Addr[i.toNat]? else none

def sameBytes (a b : In6Addr) : (n i : Nat) → Option Bool
  | 0, _ => some true
  | n+1, i =>
    match byteAt a i, byteAt b i with
    | some x, some y => if x ≠ y then some false else sameBytes a b n (i+1)
    | _, _ => none

def prefixMask (n : Nat) : Nat := (List.range n).foldl (fun mask i => mask+1 <<< (7-i)) 0

/-- `__v6addr_mismatch` of two addresses, or nothing if it reads outside of one. -/
def in6AddrMismatch (in6_addr1 in6_addr2 : In6Addr) (pref_len : Int) : Option Int :=
  let num := if pref_len.tmod 8 ≠ 0 then pref_len.tdiv 8+1 else pref_len.tdiv 8
  if pref_len.tmod 8 ≠ 0 then
    match sameBytes in6_addr1 in6_addr2 (num-1).toNat 0 with
    | none => none
    | some false => some (-3)
    | some true =>
      let mask := prefixMask (pref_len.tmod 8).toNat
      match byteAt in6_addr1 (num-1), byteAt in6_addr2 (num-1) with
      | some x, some y => some (if x.toNat &&& mask = y.toNat &&& mask then 0 else -4)
      | _, _ => none
  else (sameBytes in6_addr1 in6_addr2 num.toNat 0).map fun same => if same then 0 else -5

def v6addrMismatch (addr1 addr2 : Text) (pref_len : Int) : Option Int :=
  if 128 ≤ addr1.length then some (-1)
  else if 128 ≤ addr2.length then some (-1)
  else
    match inetPton addr1, inetPton addr2 with
    | none, _ => some (-8)
    | some _, none => some (-9)
    | some in6_addr1, some in6_addr2 => in6AddrMismatch in6_addr1 in6_addr2 pref_len

def prefixAddress (v6pre : Text) : Text := v6pre.takeWhile (· ≠ '/')

def prefixLength (v6pre : Text) : Option Int :=
  (scanDecimal ((v6pre.dropWhile (· ≠ '/')).drop 1)).map Prod.fst

def v6addrMismatchesV6pre (c : IntStore) (v6addr v6pre : Text) : Option Int :=
  if 128 ≤ v6addr.length then some (-1)
  else if 128 ≤ v6pre.length then some (-1)
  else if '/' ∉ v6pre then some (-1)
  else
    match prefixLength v6pre with
    | none => some (-2)
    | some pref_len => v6addrMismatch v6addr (prefixAddress v6pre) (c.store pref_len)

def v6prefMismatches (c : IntStore) (v6pref1 v6pref2 : Text) : Option Int :=
  if 128 ≤ v6pref1.length then some (-1)
  else if 128 ≤ v6pref2.length then some (-1)
  else if '/' ∉ v6pref1 then some (-1)
  else
    match prefixLength v6pref1 with
    | none => some (-2)
    | some pref1_len =>
      if '/' ∉ v6pref2 then some (-1)
      else
        match prefixLength v6pref2 with
        | none => some (-2)
        | some pref2_len =>
          if c.store pref1_len ≠ c.store pref2_len then some (-7)
          else v6addrMismatch (prefixAddress v6pref1) (prefixAddress v6pref2)
            (c.store pref1_len)

section Bits

/-- The bit `j`, counted from the most significant one of the first byte. -/
def addrBit (a : In6Addr) (j : Nat) : Bool :=
  (a.s6Addr[j/8]?.getD 0).toNat.testBit (7-j%8)

def SameBits (a b : In6Addr) (n : Nat) : Prop := ∀ j, j < n → addrBit a j = addrBit b j

instance sameBitsDecidable (a b : In6Addr) (n : Nat) : Decidable (SameBits a b n) :=
  inferInstanceAs (Decidable (∀ j, j < n → addrBit a j = addrBit b j))

theorem byteAt_of_lt (a : In6Addr) {i : Nat} (hi : i < 16) :
    ∃ x, byteAt a i = some x ∧ a.s6Addr[i]? = some x := by
  have hsize := a.size
  exact ⟨a.s6Addr[i],by
    rw [byteAt,if_pos (Int.natCast_nonneg i),Int.toNat_natCast,List.getElem?_eq_getElem],
    List.getElem?_eq_getElem (by omega)⟩

theorem byteAt_of_le (a : In6Addr) {i : Nat} (hi : 16 ≤ i) : byteAt a i = none := by
  rw [byteAt,if_pos (Int.natCast_nonneg i),Int.toNat_natCast,List.getElem?_eq_none]
  rw [a.size]
  exact hi

theorem addrBit_of_byte {a : In6Addr} {i : Nat} {x : UInt8} (h : a.s6Addr[i]? = some x) {k : Nat}
    (hk : k < 8) : addrBit a (8*i+k) = x.toNat.testBit (7-k) := by
  have hdiv : (8*i+k)/8 = i := by omega
  have hmod : (8*i+k)%8 = k := by omega
  rw [addrBit,hdiv,hmod,h,Option.getD_some]

theorem byte_eq_iff (x y : UInt8) :
    x = y ↔ ∀ k, k < 8 → x.toNat.testBit (7-k) = y.toNat.testBit (7-k) := by
  refine ⟨fun h k _ => by rw [h],fun h => UInt8.toNat_inj.mp (Nat.eq_of_testBit_eq fun t => ?_)⟩
  by_cases ht : t < 8
  · have := h (7-t) (by omega)
    rwa [show 7-(7-t) = t by omega] at this
  · have hx := Nat.lt_of_lt_of_le x.toNat_lt (Nat.pow_le_pow_right (by decide) (Nat.not_lt.mp ht))
    have hy := Nat.lt_of_lt_of_le y.toNat_lt (Nat.pow_le_pow_right (by decide) (Nat.not_lt.mp ht))
    rw [Nat.testBit_lt_two_pow hx,Nat.testBit_lt_two_pow hy]

theorem testBit_prefixMask {n t : Nat} (hn : n < 8) (ht : t < 8) :
    (prefixMask n).testBit t = decide (8-n ≤ t) := by
  have hall : ∀ n t : Fin 8, (prefixMask n).testBit t = decide (8-n.val ≤ t.val) := by decide
  exact hall ⟨n,hn⟩ ⟨t,ht⟩

theorem masked_eq_iff (x y : UInt8) {n : Nat} (hn : n < 8) :
    x.toNat &&& prefixMask n = y.toNat &&& prefixMask n ↔
      ∀ k, k < n → x.toNat.testBit (7-k) = y.toNat.testBit (7-k) := by
  constructor
  · intro h k hk
    have hbit := congrArg (Nat.testBit · (7-k)) h
    simpa [Nat.testBit_and,testBit_prefixMask hn (by omega : 7-k < 8),
      show 8-n ≤ 7-k by omega] using hbit
  · intro h
    refine Nat.eq_of_testBit_eq fun t => ?_
    rw [Nat.testBit_and,Nat.testBit_and]
    by_cases ht : t < 8
    · rw [testBit_prefixMask hn ht]
      by_cases hmask : 8-n ≤ t
      · have := h (7-t) (by omega)
        rw [show 7-(7-t) = t by omega] at this
        rw [this]
      · simp [hmask]
    · have hx := Nat.lt_of_lt_of_le x.toNat_lt
        (Nat.pow_le_pow_right (by decide) (Nat.not_lt.mp ht))
      have hy := Nat.lt_of_lt_of_le y.toNat_lt
        (Nat.pow_le_pow_right (by decide) (Nat.not_lt.mp ht))
      rw [Nat.testBit_lt_two_pow hx,Nat.testBit_lt_two_pow hy]

end Bits

section Comparison

variable {a b : In6Addr}

theorem sameBytes_differ {n i j : Nat} (hij : i ≤ j) (hj : j < i+n) (hj16 : j < 16)
    (hne : a.s6Addr[j]? ≠ b.s6Addr[j]?) : sameBytes a b n i = some false := by
  induction n generalizing i with
  | zero => omega
  | succ n ih =>
    obtain ⟨x,hx,hax⟩ := byteAt_of_lt a (i := i) (by omega)
    obtain ⟨y,hy,hby⟩ := byteAt_of_lt b (i := i) (by omega)
    rw [sameBytes]
    simp only [hx,hy]
    split
    · rfl
    · next hxy =>
      have hji : i ≠ j := fun h => hne (by rw [← h,hax,hby,not_not.mp hxy])
      exact ih (by omega) (by omega)

theorem sameBytes_same {n i : Nat} (hi : i ≤ 16)
    (h : ∀ j, i ≤ j → j < i+n → j < 16 → a.s6Addr[j]? = b.s6Addr[j]?) :
    sameBytes a b n i = if i+n ≤ 16 then some true else none := by
  induction n generalizing i with
  | zero => rw [sameBytes,Nat.add_zero,if_pos hi]
  | succ n ih =>
    rw [sameBytes]
    by_cases hlt : i < 16
    · obtain ⟨x,hx,hax⟩ := byteAt_of_lt a hlt
      obtain ⟨y,hy,hby⟩ := byteAt_of_lt b hlt
      have hxy := h i (Nat.le_refl _) (by omega) hlt
      rw [hax,hby,Option.some_inj] at hxy
      have hrest := ih (i := i+1) hlt fun j hj hj' => h j (by omega) (by omega)
      simp only [hx,hy,hxy,ne_eq,not_true,if_false,hrest]
      rw [show i+1+n = i+(n+1) by omega]
    · rw [byteAt_of_le a (Nat.not_lt.mp hlt),if_neg (by omega)]

theorem sameBits_iff (a b : In6Addr) (n : Nat) :
    SameBits a b n ↔ (∀ i, i < n/8 → ∀ k, k < 8 → addrBit a (8*i+k) = addrBit b (8*i+k)) ∧
      ∀ k, k < n%8 → addrBit a (8*(n/8)+k) = addrBit b (8*(n/8)+k) := by
  constructor
  · intro h
    exact ⟨fun i hi k hk => h _ (by omega),fun k hk => h _ (by omega)⟩
  · rintro ⟨hbytes,hrest⟩ j hj
    have hsplit : 8*(j/8)+j%8 = j := by omega
    rw [← hsplit]
    by_cases hi : j/8 < n/8
    · exact hbytes _ hi _ (by omega)
    · rw [show j/8 = n/8 by omega]
      exact hrest _ (by omega)

theorem bytes_eq_iff {i : Nat} (hi : i < 16) :
    a.s6Addr[i]? = b.s6Addr[i]? ↔
      ∀ k, k < 8 → addrBit a (8*i+k) = addrBit b (8*i+k) := by
  obtain ⟨x,-,hx⟩ := byteAt_of_lt a hi
  obtain ⟨y,-,hy⟩ := byteAt_of_lt b hi
  rw [hx,hy,Option.some_inj,byte_eq_iff]
  refine forall₂_congr fun k hk => ?_
  rw [addrBit_of_byte hx hk,addrBit_of_byte hy hk]

theorem in6AddrMismatch_neg {pref_len : Int} (h : pref_len < 0) :
    in6AddrMismatch a b pref_len = none ∨ in6AddrMismatch a b pref_len = some 0 := by
  obtain ⟨m,rfl⟩ : ∃ m : Nat, pref_len = -(m : Int) := ⟨(-pref_len).toNat,by omega⟩
  have hmod : (-(m : Int)).tmod 8 = -((m%8 : Nat) : Int) := Int.neg_tmod m 8
  have hdiv : (-(m : Int)).tdiv 8 = -((m/8 : Nat) : Int) := Int.neg_tdiv m 8
  rw [in6AddrMismatch,hmod,hdiv]
  by_cases hrest : m%8 = 0
  · right
    have hzero : -((m%8 : Nat) : Int) = 0 := by omega
    have hnum : (-((m/8 : Nat) : Int)).toNat = 0 := by omega
    simp only [hzero,ne_eq,not_true,if_false,hnum,sameBytes,Option.map_some,if_true]
  · have hne : -((m%8 : Nat) : Int) ≠ 0 := by omega
    have hnum : (-((m/8 : Nat) : Int)).toNat = 0 := by omega
    have hmask : (-((m%8 : Nat) : Int)).toNat = 0 := by omega
    simp only [if_pos hne,add_sub_cancel_right,hnum,sameBytes,hmask]
    -- no bit is compared, of a byte that may not exist
    cases byteAt a (-((m/8 : Nat) : Int)) with
    | none => exact .inl rfl
    | some x =>
      cases byteAt b (-((m/8 : Nat) : Int)) with
      | none => exact .inl rfl
      | some y => exact .inr (by simp [prefixMask])

theorem in6AddrMismatch_natCast (a b : In6Addr) (n : Nat) :
    in6AddrMismatch a b n =
      if n%8 ≠ 0 then
        match sameBytes a b (n/8) 0 with
        | none => none
        | some false => some (-3)
        | some true =>
          match byteAt a (n/8 : Nat), byteAt b (n/8 : Nat) with
          | some x, some y =>
            some (if x.toNat &&& prefixMask (n%8) = y.toNat &&& prefixMask (n%8) then 0 else -4)
          | _, _ => none
      else (sameBytes a b (n/8) 0).map fun same => if same then 0 else -5 := by
  have hmod : (n : Int).tmod 8 = ((n%8 : Nat) : Int) := (Int.ofNat_tmod n 8).symm
  have hdiv : (n : Int).tdiv 8 = ((n/8 : Nat) : Int) := (Int.ofNat_tdiv n 8).symm
  rw [in6AddrMismatch,hmod,hdiv]
  by_cases h : n%8 = 0
  · have h' : ¬((n%8 : Nat) : Int) ≠ 0 := by omega
    simp only [if_neg h',if_neg (not_not.mpr h),Int.toNat_natCast]
  · have h' : ((n%8 : Nat) : Int) ≠ 0 := by omega
    simp only [if_pos h',if_pos h,add_sub_cancel_right,Int.toNat_natCast]

/-- With equal bits the result is 0, or a byte behind the addresses is read. -/
theorem in6AddrMismatch_same {n : Nat} (h : SameBits a b (min n 128)) :
    in6AddrMismatch a b n = if n ≤ 128 then some 0 else none := by
  rw [in6AddrMismatch_natCast]
  obtain ⟨hbytes,hrest⟩ := (sameBits_iff a b _).mp h
  have hsame : ∀ j, 0 ≤ j → j < 0+n/8 → j < 16 → a.s6Addr[j]? = b.s6Addr[j]? :=
    fun j _ hj hj16 => (bytes_eq_iff hj16).mpr (hbytes j (by omega))
  rw [sameBytes_same (Nat.zero_le 16) hsame,Nat.zero_add]
  by_cases hmod : n%8 = 0
  · rw [if_neg (not_not.mpr hmod)]
    by_cases hn : n ≤ 128
    · rw [if_pos hn,if_pos (by omega)]
      rfl
    · rw [if_neg hn,if_neg (by omega)]
      rfl
  · rw [if_pos hmod]
    by_cases hn : n ≤ 128
    · obtain ⟨x,hx,hax⟩ := byteAt_of_lt a (i := n/8) (by omega)
      obtain ⟨y,hy,hby⟩ := byteAt_of_lt b (i := n/8) (by omega)
      rw [Nat.min_eq_left hn] at hrest
      have hmasked := (masked_eq_iff x y (Nat.mod_lt n (by decide))).mpr fun k hk => by
        have := hrest k hk
        rwa [addrBit_of_byte hax (by omega),addrBit_of_byte hby (by omega)] at this
      have hin : n/8 ≤ 16 := by omega
      simp only [if_pos hn,if_pos hin,hx,hy,hmasked,if_true]
    · rw [if_neg hn]
      by_cases hlast : n/8 ≤ 16
      · rw [if_pos hlast,byteAt_of_le a (i := n/8) (by omega)]
      · rw [if_neg hlast]

theorem in6AddrMismatch_differ {n : Nat} (h : ¬SameBits a b (min n 128)) :
    ∃ r, r ≠ 0 ∧ in6AddrMismatch a b n = some r := by
  rw [in6AddrMismatch_natCast]
  by_cases hbytes : ∃ j, j < n/8 ∧ j < 16 ∧ a.s6Addr[j]? ≠ b.s6Addr[j]?
  · obtain ⟨j,hj,hj16,hne⟩ := hbytes
    rw [sameBytes_differ (Nat.zero_le j) (by omega) hj16 hne]
    split
    · exact ⟨-3,by decide,rfl⟩
    · exact ⟨-5,by decide,rfl⟩
  · have hsame : ∀ j, j < n/8 → j < 16 → a.s6Addr[j]? = b.s6Addr[j]? := by
      simpa using hbytes
    have hn : n < 128 := by
      by_contra hn
      refine h ((sameBits_iff a b _).mpr ⟨fun i hi => ?_,fun k hk => absurd hk (by omega)⟩)
      exact (bytes_eq_iff (by omega)).mp (hsame i (by omega) (by omega))
    rw [Nat.min_eq_left (by omega),sameBits_iff] at h
    have hrest : ¬∀ k, k < n%8 → addrBit a (8*(n/8)+k) = addrBit b (8*(n/8)+k) := fun hrest =>
      h ⟨fun i hi => (bytes_eq_iff (by omega)).mp (hsame i hi (by omega)),hrest⟩
    have hmod : n%8 ≠ 0 := fun hmod => hrest fun k hk => absurd hk (by omega)
    obtain ⟨x,hx,hax⟩ := byteAt_of_lt a (i := n/8) (by omega)
    obtain ⟨y,hy,hby⟩ := byteAt_of_lt b (i := n/8) (by omega)
    have hmasked : ¬x.toNat &&& prefixMask (n%8) = y.toNat &&& prefixMask (n%8) := fun heq =>
      hrest fun k hk => by
        rw [addrBit_of_byte hax (by omega),addrBit_of_byte hby (by omega)]
        exact (masked_eq_iff x y (Nat.mod_lt n (by decide))).mp heq k hk
    rw [if_pos hmod,sameBytes_same (Nat.zero_le 16) (fun j _ hj => hsame j (by omega)),
      if_pos (by omega)]
    exact ⟨-4,by decide,by simp only [hx,hy,hmasked,if_false]⟩

end Comparison

section Texts

/-- The call reads no byte outside of an address, and returns 0 only if `P`. -/
def Checked (result : Option Int) (P : Prop) : Prop := ∃ r, result = some r ∧ (r = 0 → P)

def InPrefixRange (v6pre : Text) : Prop := ∃ n, prefixLength v6pre = some n ∧ 0 ≤ n ∧ n ≤ 128

theorem Checked.of_ne {r : Int} (hr : r ≠ 0) (P : Prop) : Checked (some r) P :=
  ⟨r,rfl,fun h => absurd h hr⟩

theorem v6addrMismatch_of_valid {addr1 addr2 : Text} {a b : In6Addr}
    (h1 : inetPton addr1 = some a) (h2 : inetPton addr2 = some b) (pref_len : Int) :
    v6addrMismatch addr1 addr2 pref_len = in6AddrMismatch a b pref_len := by
  have hlen1 := length_le_of_inetPton h1
  have hlen2 := length_le_of_inetPton h2
  rw [v6addrMismatch,if_neg (by omega),if_neg (by omega)]
  simp only [h1,h2]

theorem v6addrMismatch_of_invalid (addr1 addr2 : Text)
    (h : inetPton addr1 = none ∨ inetPton addr2 = none) (pref_len : Int) :
    ∃ r, r ≠ 0 ∧ v6addrMismatch addr1 addr2 pref_len = some r := by
  rw [v6addrMismatch]
  split
  · exact ⟨-1,by decide,rfl⟩
  split
  · exact ⟨-1,by decide,rfl⟩
  rcases h with h1 | h2
  · exact ⟨-8,by decide,by simp only [h1]⟩
  · cases h1 : inetPton addr1 with
    | none => exact ⟨-8,by decide,rfl⟩
    | some a => exact ⟨-9,by decide,by simp only [h2]⟩

theorem checked_in6AddrMismatch_iff (a b : In6Addr) {pref_len : Int} {P : Prop}
    (hP : P → 0 ≤ pref_len ∧ pref_len ≤ 128) :
    Checked (in6AddrMismatch a b pref_len) P ↔
      P ∨ 0 ≤ pref_len ∧ ¬SameBits a b (min pref_len.toNat 128) := by
  by_cases hneg : pref_len < 0
  · have hnot : ¬P := fun h => absurd (hP h).1 (by omega)
    refine iff_of_false ?_ (fun h => h.elim hnot fun h => absurd h.1 (by omega))
    rintro ⟨r,hr,hzero⟩
    rcases in6AddrMismatch_neg (a := a) (b := b) hneg with hnone | hsome
    · exact absurd (hnone.symm.trans hr) (by simp)
    · exact hnot (hzero (Option.some_inj.mp (hr.symm.trans hsome)))
  · obtain ⟨n,rfl⟩ := Int.eq_ofNat_of_zero_le (Int.not_lt.mp hneg)
    rw [Int.toNat_natCast]
    by_cases hsame : SameBits a b (min n 128)
    · rw [in6AddrMismatch_same hsame,or_iff_left (fun h => h.2 hsame)]
      by_cases hn : n ≤ 128
      · rw [if_pos hn]
        exact ⟨fun ⟨r,hr,hzero⟩ => hzero (Option.some_inj.mp hr).symm,fun h => ⟨0,rfl,fun _ => h⟩⟩
      · rw [if_neg hn]
        exact iff_of_false (fun ⟨r,hr,_⟩ => absurd hr (by simp))
          fun h => absurd (hP h).2 (by omega)
    · obtain ⟨r,hr,heq⟩ := in6AddrMismatch_differ hsame
      rw [heq]
      exact iff_of_true (.of_ne hr P) (.inr ⟨Int.natCast_nonneg n,hsame⟩)

theorem v6addrMismatch_eq_zero_iff {addr1 addr2 : Text} {a b : In6Addr}
    (h1 : inetPton addr1 = some a) (h2 : inetPton addr2 = some b) {n : Nat} (hn : n ≤ 128) :
    v6addrMismatch addr1 addr2 n = some 0 ↔ SameBits a b n := by
  rw [v6addrMismatch_of_valid h1 h2]
  by_cases hsame : SameBits a b (min n 128)
  · rw [in6AddrMismatch_same hsame,if_pos hn]
    rw [Nat.min_eq_left hn] at hsame
    exact iff_of_true rfl hsame
  · obtain ⟨r,hr,heq⟩ := in6AddrMismatch_differ hsame
    rw [heq,Option.some_inj]
    rw [Nat.min_eq_left hn] at hsame
    exact iff_of_false hr hsame

/-- The length is in range, or what it stores is not negative and the addresses differ
in the bits up to it. -/
def LengthHarmless (c : IntStore) (a b : In6Addr) (n : Int) (inRange : Prop) : Prop :=
  inRange ∨ 0 ≤ c.store n ∧ ¬SameBits a b (min (c.store n).toNat 128)

def V6preHarmless (c : IntStore) (v6addr v6pre : Text) : Prop :=
  ∀ a b n, v6pre.length < 128 → '/' ∈ v6pre → inetPton v6addr = some a →
    inetPton (prefixAddress v6pre) = some b → prefixLength v6pre = some n →
      LengthHarmless c a b n (0 ≤ n ∧ n ≤ 128)

def V6prefHarmless (c : IntStore) (v6pref1 v6pref2 : Text) : Prop :=
  ∀ a b n1 n2, v6pref1.length < 128 → v6pref2.length < 128 → '/' ∈ v6pref1 → '/' ∈ v6pref2 →
    inetPton (prefixAddress v6pref1) = some a → inetPton (prefixAddress v6pref2) = some b →
      prefixLength v6pref1 = some n1 → prefixLength v6pref2 = some n2 →
        c.store n1 = c.store n2 →
          LengthHarmless c a b n1 ((0 ≤ n1 ∧ n1 ≤ 128) ∧ 0 ≤ n2 ∧ n2 ≤ 128)

theorem IntStore.range {c : IntStore} {n : Int} (h : 0 ≤ n ∧ n ≤ 128) :
    0 ≤ c.store n ∧ c.store n ≤ 128 := by
  rw [c.exact n (by omega) (by omega)]
  exact h

theorem checked_v6addrMismatch_iff (addr1 addr2 : Text) {pref_len : Int} {P : Prop}
    (hP : P → 0 ≤ pref_len ∧ pref_len ≤ 128) :
    Checked (v6addrMismatch addr1 addr2 pref_len) P ↔
      ∀ a b, inetPton addr1 = some a → inetPton addr2 = some b →
        P ∨ 0 ≤ pref_len ∧ ¬SameBits a b (min pref_len.toNat 128) := by
  by_cases hvalid : ∃ a b, inetPton addr1 = some a ∧ inetPton addr2 = some b
  · obtain ⟨a,b,h1,h2⟩ := hvalid
    rw [v6addrMismatch_of_valid h1 h2,checked_in6AddrMismatch_iff a b hP]
    constructor
    · rintro h a' b' h1' h2'
      rwa [← Option.some_inj.mp (h1.symm.trans h1'),← Option.some_inj.mp (h2.symm.trans h2')]
    · exact fun h => h a b h1 h2
  · have hinvalid : inetPton addr1 = none ∨ inetPton addr2 = none := by
      by_contra hboth
      obtain ⟨hsome1,hsome2⟩ := not_or.mp hboth
      obtain ⟨a,h1⟩ := Option.ne_none_iff_exists'.mp hsome1
      obtain ⟨b,h2⟩ := Option.ne_none_iff_exists'.mp hsome2
      exact hvalid ⟨a,b,h1,h2⟩
    obtain ⟨r,hr,heq⟩ := v6addrMismatch_of_invalid addr1 addr2 hinvalid pref_len
    rw [heq]
    exact iff_of_true (.of_ne hr P) fun a b h1 h2 => absurd ⟨a,b,h1,h2⟩ hvalid

/-- The texts are short enough for their buffers, and the second has a length. -/
def PrefixRead (v6addr v6pre : Text) (n : Int) : Prop :=
  v6addr.length < 128 ∧ v6pre.length < 128 ∧ '/' ∈ v6pre ∧ prefixLength v6pre = some n

theorem v6addrMismatchesV6pre_cases (c : IntStore) (v6addr v6pre : Text) :
    (∃ n, PrefixRead v6addr v6pre n ∧ v6addrMismatchesV6pre c v6addr v6pre =
        v6addrMismatch v6addr (prefixAddress v6pre) (c.store n)) ∨
      (∃ r, r ≠ 0 ∧ v6addrMismatchesV6pre c v6addr v6pre = some r) ∧
        ∀ n, ¬PrefixRead v6addr v6pre n := by
  rw [v6addrMismatchesV6pre]
  split
  · exact .inr ⟨⟨-1,by decide,rfl⟩,fun n h => absurd h.1 (by omega)⟩
  split
  · exact .inr ⟨⟨-1,by decide,rfl⟩,fun n h => absurd h.2.1 (by omega)⟩
  split
  · next hslash => exact .inr ⟨⟨-1,by decide,rfl⟩,fun n h => hslash h.2.2.1⟩
  next hlen1 hlen2 hslash =>
  cases hn : prefixLength v6pre with
  | none =>
    exact .inr ⟨⟨-2,by decide,rfl⟩,fun n h => absurd (hn.symm.trans h.2.2.2) (by simp)⟩
  | some n => exact .inl ⟨n,⟨by omega,by omega,not_not.mp hslash,hn⟩,rfl⟩

theorem v6pre_checked_iff (c : IntStore) (v6addr v6pre : Text) :
    Checked (v6addrMismatchesV6pre c v6addr v6pre) (InPrefixRange v6pre) ↔
      V6preHarmless c v6addr v6pre := by
  rcases v6addrMismatchesV6pre_cases c v6addr v6pre with
    ⟨n,⟨-,hlen,hslash,hn⟩,heq⟩ | ⟨⟨r,hr,heq⟩,hnot⟩
  · have hrange : InPrefixRange v6pre ↔ 0 ≤ n ∧ n ≤ 128 := by
      simp [InPrefixRange,hn]
    rw [heq,hrange]
    refine (checked_v6addrMismatch_iff _ _ IntStore.range).trans ⟨?_,?_⟩
    · rintro h a b m - - h1 h2 hm
      obtain rfl := Option.some_inj.mp (hn.symm.trans hm)
      exact h a b h1 h2
    · exact fun h a b h1 h2 => h a b n hlen hslash h1 h2 hn
  · rw [heq]
    refine iff_of_true (.of_ne hr _) fun a b n hlen hslash h1 h2 hn => absurd ?_ (hnot n)
    exact ⟨Nat.lt_of_le_of_lt (length_le_of_inetPton h1) (by decide),hlen,hslash,hn⟩

theorem v6prefMismatches_cases (c : IntStore) (v6pref1 v6pref2 : Text) :
    (∃ n1 n2, (v6pref1.length < 128 ∧ '/' ∈ v6pref1 ∧ prefixLength v6pref1 = some n1) ∧
        PrefixRead v6pref1 v6pref2 n2 ∧ c.store n1 = c.store n2 ∧
        v6prefMismatches c v6pref1 v6pref2 =
          v6addrMismatch (prefixAddress v6pref1) (prefixAddress v6pref2) (c.store n1)) ∨
      (∃ r, r ≠ 0 ∧ v6prefMismatches c v6pref1 v6pref2 = some r) ∧
        ∀ n1 n2, '/' ∈ v6pref1 → prefixLength v6pref1 = some n1 → c.store n1 = c.store n2 →
          ¬PrefixRead v6pref1 v6pref2 n2 := by
  rw [v6prefMismatches]
  split
  · exact .inr ⟨⟨-1,by decide,rfl⟩,fun n1 n2 _ _ _ h => absurd h.1 (by omega)⟩
  split
  · exact .inr ⟨⟨-1,by decide,rfl⟩,fun n1 n2 _ _ _ h => absurd h.2.1 (by omega)⟩
  split
  · next hslash => exact .inr ⟨⟨-1,by decide,rfl⟩,fun n1 n2 h => absurd h hslash⟩
  next hlen1 hlen2 hslash1 =>
  cases hn1 : prefixLength v6pref1 with
  | none => exact .inr ⟨⟨-2,by decide,rfl⟩,fun n1 n2 _ h => absurd h (by simp)⟩
  | some n1 =>
    simp only
    split
    · next hslash =>
      exact .inr ⟨⟨-1,by decide,rfl⟩,fun m1 m2 _ _ _ h => hslash h.2.2.1⟩
    next hslash2 =>
    cases hn2 : prefixLength v6pref2 with
    | none =>
      refine .inr ⟨⟨-2,by decide,rfl⟩,fun m1 m2 _ _ _ h => ?_⟩
      exact absurd (hn2.symm.trans h.2.2.2) (by simp)
    | some n2 =>
      simp only
      split
      · next hne =>
        refine .inr ⟨⟨-7,by decide,rfl⟩,fun m1 m2 _ hm1 hm h => hne ?_⟩
        rw [Option.some_inj.mp hm1,hm,Option.some_inj.mp (hn2.symm.trans h.2.2.2)]
      · next heq =>
        exact .inl ⟨n1,n2,⟨by omega,not_not.mp hslash1,rfl⟩,
          ⟨by omega,by omega,not_not.mp hslash2,hn2⟩,not_not.mp heq,rfl⟩

theorem v6pref_checked_iff (c : IntStore) (v6pref1 v6pref2 : Text) :
    Checked (v6prefMismatches c v6pref1 v6pref2)
        (InPrefixRange v6pref1 ∧ InPrefixRange v6pref2) ↔
      V6prefHarmless c v6pref1 v6pref2 := by
  rcases v6prefMismatches_cases c v6pref1 v6pref2 with
    ⟨n1,n2,⟨hlen1,hslash1,hn1⟩,⟨-,hlen2,hslash2,hn2⟩,hstore,heq⟩ | ⟨⟨r,hr,heq⟩,hnot⟩
  · have hrange : InPrefixRange v6pref1 ∧ InPrefixRange v6pref2 ↔
        (0 ≤ n1 ∧ n1 ≤ 128) ∧ 0 ≤ n2 ∧ n2 ≤ 128 := by
      simp [InPrefixRange,hn1,hn2]
    rw [heq,hrange]
    refine (checked_v6addrMismatch_iff _ _ fun h => IntStore.range h.1).trans ⟨?_,?_⟩
    · rintro h a b m1 m2 - - - - h1 h2 hm1 hm2 -
      obtain rfl := Option.some_inj.mp (hn1.symm.trans hm1)
      obtain rfl := Option.some_inj.mp (hn2.symm.trans hm2)
      exact h a b h1 h2
    · exact fun h a b h1 h2 => h a b n1 n2 hlen1 hlen2 hslash1 hslash2 h1 h2 hn1 hn2 hstore
  · rw [heq]
    refine iff_of_true (.of_ne hr _)
      fun a b n1 n2 hlen1 hlen2 hslash1 hslash2 _ _ hn1 hn2 hstore => ?_
    exact absurd ⟨hlen1,hlen2,hslash2,hn2⟩ (hnot n1 n2 hslash1 hn1 hstore)

theorem prefixes_compared_iff (c : IntStore) :
    (∀ addr1 addr2 a b (n : Nat), inetPton addr1 = some a → inetPton addr2 = some b →
        n ≤ 128 → (v6addrMismatch addr1 addr2 n = some 0 ↔ SameBits a b n)) ∧
      (∀ v6addr v6pre,
        Checked (v6addrMismatchesV6pre c v6addr v6pre) (InPrefixRange v6pre) ↔
          V6preHarmless c v6addr v6pre) ∧
      ∀ v6pref1 v6pref2,
        Checked (v6prefMismatches c v6pref1 v6pref2)
            (InPrefixRange v6pref1 ∧ InPrefixRange v6pref2) ↔
          V6prefHarmless c v6pref1 v6pref2 :=
  ⟨fun _ _ _ _ _ h1 h2 hn => v6addrMismatch_eq_zero_iff h1 h2 hn,v6pre_checked_iff c,
    v6pref_checked_iff c⟩

theorem neighbours_match :
    v6addrMismatch "2001:db8::4".toList "2001:db8::7".toList 126 = some 0 :=
  ((prefixes_compared_iff wrappingInt).1 _ _ ⟨[32,1,13,184,0,0,0,0,0,0,0,0,0,0,0,4],rfl⟩
    ⟨[32,1,13,184,0,0,0,0,0,0,0,0,0,0,0,7],rfl⟩ 126 (by decide +kernel) (by decide +kernel)
    (by decide)).mpr (by decide +kernel)

/-- Addresses that differ match in a prefix of length -1. -/
theorem negative_length_matches :
    v6addrMismatchesV6pre wrappingInt "::1".toList "ff00::/-1".toList = some 0 ∧
      ¬Checked (v6addrMismatchesV6pre wrappingInt "::1".toList "ff00::/-1".toList)
        (InPrefixRange "ff00::/-1".toList) := by
  have hcall : v6addrMismatchesV6pre wrappingInt "::1".toList "ff00::/-1".toList = some 0 := by
    decide +kernel
  have hlength : prefixLength "ff00::/-1".toList = some (-1) := by decide +kernel
  refine ⟨hcall,?_⟩
  rintro ⟨r,hr,hzero⟩
  obtain ⟨n,hn,hlow,-⟩ := hzero (Option.some_inj.mp (hr.symm.trans hcall))
  obtain rfl := Option.some_inj.mp (hlength.symm.trans hn)
  exact absurd hlow (by decide)

end Texts

end EthAgent
