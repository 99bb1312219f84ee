import EthAgent.Device
import EthAgent.Lib.Scanf

/-!
`CosaUtilStringToHex`, which converts two characters at a time with `sscanf`, and
the texts for which it does what it is for.
-/

set_option autoImplicit false

namespace EthAgent
open CString Scanf

/-- `sscanf(byte, "%x", &val)`. -/
def sscanfHex (byte : Text) : Option Int := (scanHex byte.length byte).map Prod.fst

def isSeparator (c : Char) : Bool := c = ':' || c = '-' || c = '_'

def toUChar (val : Int) : UInt8 := UInt8.ofNat (val%256).toNat

/-- The bytes that the loop writes, from the first one on, with `str` from `str[i]` on.
There is nothing to go on with when `i` has passed the terminator. -/
def hexLoop : (str : Text) → Option (List UInt8)
  | [] => some []
  | [a] => if (sscanfHex [a]).isSome then none else some []
  | [a,b] =>
    match sscanfHex [a,b] with
    | none => some []
    | some val => some [toUChar val]
  | a :: b :: c :: str =>
    match sscanfHex [a,b] with
    | none => some []
    | some val =>
      (if isSeparator c then hexLoop str else hexLoop (c :: str)).map (toUChar val :: ·)

/-- Whether `ANSC_STATUS_SUCCESS` is returned, and the bytes written. -/
def cosaUtilStringToHex (str : Text) (hex_sz : Int) : Option (Bool × List UInt8) :=
  (hexLoop str).map fun hex_str => ((hex_str.length : Int) = hex_sz,hex_str)

def groupByte (a b : Char) : UInt8 := UInt8.ofNat (16*hexValue a+hexValue b)

/-- Groups of two hexadecimal digits, with at most one separator between two of them. -/
inductive HexGroups : Text → List UInt8 → Prop where
  | nil : HexGroups [] []
  | group {a b : Char} {str : Text} {bytes : List UInt8} (ha : a.isHexDigit = true)
      (hb : b.isHexDigit = true) (h : HexGroups str bytes) :
      HexGroups (a :: b :: str) (groupByte a b :: bytes)
  | separated {a b c : Char} {str : Text} {bytes : List UInt8} (ha : a.isHexDigit = true)
      (hb : b.isHexDigit = true) (hc : isSeparator c = true) (hstr : str ≠ [])
      (h : HexGroups str bytes) :
      HexGroups (a :: b :: c :: str) (groupByte a b :: bytes)

def afterGroup : Text → Text
  | [] => []
  | c :: str => if isSeparator c then str else c :: str

/-- The text begins with `n` pairs of characters that `%x` converts, each with the
separator that follows it. -/
inductive Pairs : Nat → Text → Text → Prop where
  | zero (str : Text) : Pairs 0 str str
  | succ {n : Nat} {a b : Char} {str rest : Text} (hab : (sscanfHex [a,b]).isSome = true)
      (h : Pairs n (afterGroup str) rest) : Pairs (n+1) (a :: b :: str) rest

/-- The call decodes the text if it is one of `hex_sz` groups, fails otherwise, and keeps
to the text and to the array. -/
def DecodesExactly (str : Text) (hex_sz : Int) : Prop :=
  ∃ success hex_str, cosaUtilStringToHex str hex_sz = some (success,hex_str) ∧
    hex_str.length ≤ hex_sz.toNat ∧
    (success = true ↔ ∃ bytes, HexGroups str bytes ∧ (bytes.length : Int) = hex_sz) ∧
    (success = true → HexGroups str hex_str)

/-- There are fewer pairs than bytes, and no pair is cut short by the end of the text. -/
def FewerPairs (str : Text) (hex_sz : Int) : Prop :=
  ∀ n rest, Pairs n str rest → ((n : Int) < hex_sz ∨ n = 0 ∧ hex_sz < 0) ∧
    ∀ a, rest = [a] → sscanfHex [a] = none

theorem length_afterGroup_le (str : Text) : (afterGroup str).length ≤ str.length := by
  cases str with
  | nil => exact Nat.le_refl _
  | cons c str =>
    rw [afterGroup]
    split
    · exact Nat.le_succ _
    · exact Nat.le_refl _

theorem hexLoop_nil : hexLoop [] = some [] := rfl

theorem hexLoop_single (a : Char) :
    hexLoop [a] = if (sscanfHex [a]).isSome then none else some [] := rfl

theorem hexLoop_cons (a b : Char) (str : Text) :
    hexLoop (a :: b :: str) =
      if (sscanfHex [a,b]).isSome then
        (hexLoop (afterGroup str)).map (toUChar ((sscanfHex [a,b]).getD 0) :: ·)
      else some [] := by
  cases str with
  | nil =>
    have hpair : hexLoop [a,b] = match sscanfHex [a,b] with
        | none => some []
        | some val => some [toUChar val] := rfl
    rw [hpair]
    cases sscanfHex [a,b] <;> rfl
  | cons c str =>
    have hgroup : hexLoop (a :: b :: c :: str) = match sscanfHex [a,b] with
        | none => some []
        | some val =>
          (if isSeparator c then hexLoop str else hexLoop (c :: str)).map
            (toUChar val :: ·) := rfl
    rw [hgroup,afterGroup]
    cases sscanfHex [a,b] with
    | none => rfl
    | some val =>
      simp only [Option.isSome_some,if_true,Option.getD_some]
      split <;> rfl

theorem pairs_induction {P : Text → Prop} (nil : P []) (single : ∀ a, P [a])
    (pair : ∀ a b str, P (afterGroup str) → P (a :: b :: str)) : ∀ str, P str
  | [] => nil
  | [a] => single a
  | a :: b :: str => pair a b str (pairs_induction nil single pair (afterGroup str))
termination_by str => str.length
decreasing_by
  have := length_afterGroup_le str
  simp only [List.length_cons]
  omega

theorem hexLoop_pairs {str : Text} {bytes : List UInt8} (h : hexLoop str = some bytes) :
    (∃ rest, Pairs bytes.length str rest) ∧
      ∀ n rest, Pairs n str rest → n ≤ bytes.length ∧ ∀ a, rest = [a] → sscanfHex [a] = none := by
  induction str using pairs_induction generalizing bytes with
  | nil =>
    obtain rfl := Option.some_inj.mp h
    refine ⟨⟨[],.zero []⟩,?_⟩
    rintro n rest ⟨⟩
    exact ⟨Nat.le_refl _,fun a ha => absurd ha (by simp)⟩
  | single a =>
    rw [hexLoop_single] at h
    split at h
    · exact absurd h (by simp)
    · next hnone =>
      obtain rfl := Option.some_inj.mp h
      refine ⟨⟨[a],.zero [a]⟩,?_⟩
      rintro n rest ⟨⟩
      refine ⟨Nat.le_refl _,fun a' ha => ?_⟩
      obtain rfl := List.cons.inj ha |>.1
      simpa using hnone
  | pair a b str ih =>
    rw [hexLoop_cons] at h
    split at h
    · next hab =>
      obtain ⟨tail,htail,rfl⟩ := Option.map_eq_some_iff.mp h
      obtain ⟨⟨rest,hrest⟩,hall⟩ := ih htail
      refine ⟨⟨rest,.succ hab hrest⟩,?_⟩
      rintro n rest (⟨⟩ | ⟨-,hpairs⟩)
      · exact ⟨Nat.zero_le _,fun a ha => absurd ha (by simp)⟩
      · exact ⟨Nat.succ_le_succ (hall _ _ hpairs).1,(hall _ _ hpairs).2⟩
    · next hab =>
      obtain rfl := Option.some_inj.mp h
      refine ⟨⟨_,.zero _⟩,?_⟩
      rintro n rest (⟨⟩ | ⟨hab',-⟩)
      · exact ⟨Nat.le_refl _,fun a ha => absurd ha (by simp)⟩
      · exact absurd hab' hab

theorem hexLoop_eq_none {str : Text} (h : hexLoop str = none) :
    ∃ n a, Pairs n str [a] ∧ (sscanfHex [a]).isSome = true := by
  induction str using pairs_induction with
  | nil => exact absurd h (by simp [hexLoop_nil])
  | single a =>
    rw [hexLoop_single] at h
    split at h
    · next ha => exact ⟨0,a,.zero [a],ha⟩
    · exact absurd h (by simp)
  | pair a b str ih =>
    rw [hexLoop_cons] at h
    split at h
    · next hab =>
      obtain ⟨n,c,hpairs,hc⟩ := ih (Option.map_eq_none_iff.mp h)
      exact ⟨n+1,c,.succ hab hpairs,hc⟩
    · exact absurd h (by simp)

theorem sscanfHex_digits {a b : Char} (ha : a.isHexDigit = true) (hb : b.isHexDigit = true) :
    sscanfHex [a,b] = some ((16*hexValue a+hexValue b : Nat) : Int) := by
  have hscan : scanHex 2 ([a,b] ++ []) = some ((hexNumber [a,b] : Int),[]) :=
    scanHex_of_digits (by simp) (Nat.le_refl _) (by simp [ha,hb]) (by simp)
  have hnumber : hexNumber [a,b] = 16*hexValue a+hexValue b := by simp [hexNumber]
  rw [List.append_nil,hnumber] at hscan
  rw [sscanfHex,List.length_cons,List.length_singleton,hscan,Option.map_some]

theorem toUChar_ofNat (n : Nat) : toUChar n = UInt8.ofNat n := by
  have hmod : ((n : Int)%256).toNat = n%256 := by omega
  rw [toUChar,hmod]
  exact UInt8.ofNat_mod_size

theorem HexGroups.afterGroup_eq {str : Text} {bytes : List UInt8} (h : HexGroups str bytes) :
    afterGroup str = str := by
  have hdigit : ∀ {a : Char} {t : Text}, a.isHexDigit = true → afterGroup (a :: t) = a :: t := by
    intro a t ha
    rw [afterGroup,if_neg]
    intro hsep
    simp only [isSeparator,Bool.or_eq_true,decide_eq_true_eq] at hsep
    rcases hsep with (rfl | rfl) | rfl <;> exact absurd ha (by decide)
  cases h with
  | nil => rfl
  | group ha _ _ => exact hdigit ha
  | separated ha _ _ _ _ => exact hdigit ha

theorem HexGroups.hexLoop_eq {str : Text} {bytes : List UInt8} (h : HexGroups str bytes) :
    hexLoop str = some bytes := by
  induction h with
  | nil => rfl
  | group ha hb h ih =>
    rw [hexLoop_cons,sscanfHex_digits ha hb,h.afterGroup_eq,ih,Option.getD_some,toUChar_ofNat]
    rfl
  | separated ha hb hc hstr h ih =>
    rw [hexLoop_cons,sscanfHex_digits ha hb,afterGroup,if_pos hc,ih,Option.getD_some,
      toUChar_ofNat]
    rfl

/-- Decoding inverts the encoding of bytes by two digits each. -/
theorem decode_hexBytes (bytes : List UInt8) :
    cosaUtilStringToHex (bytes.flatMap hexByte) bytes.length = some (true,bytes) := by
  have hdigit : ∀ d : Fin 16, (hexDigit d).isHexDigit = true ∧ hexValue (hexDigit d) = d := by
    decide
  have hgroups : HexGroups (bytes.flatMap hexByte) bytes := by
    induction bytes with
    | nil => exact .nil
    | cons b bytes ih =>
      have hb := b.toNat_lt
      obtain ⟨hhi,hhi'⟩ := hdigit ⟨b.toNat/16,by omega⟩
      obtain ⟨hlo,hlo'⟩ := hdigit ⟨b.toNat%16,Nat.mod_lt _ (by decide)⟩
      have hgroup := HexGroups.group hhi hlo ih
      have hbyte : groupByte (hexDigit (b.toNat/16)) (hexDigit (b.toNat%16)) = b := by
        rw [groupByte,hhi',hlo']
        have hsum : 16*(b.toNat/16)+b.toNat%16 = b.toNat := by omega
        rw [hsum,UInt8.ofNat_toNat]
      rw [hbyte] at hgroup
      exact hgroup
  rw [cosaUtilStringToHex,hgroups.hexLoop_eq]
  simp

theorem decodes_exactly_iff (str : Text) (hex_sz : Int) :
    DecodesExactly str hex_sz ↔
      (∃ bytes, HexGroups str bytes ∧ (bytes.length : Int) = hex_sz) ∨
        FewerPairs str hex_sz := by
  constructor
  · rintro ⟨success,hex_str,hcall,hfits,hiff,-⟩
    obtain ⟨bytes,hloop,hresult⟩ := Option.map_eq_some_iff.mp hcall
    obtain ⟨hsuccess,rfl⟩ := Prod.mk.inj hresult
    by_cases hlen : (bytes.length : Int) = hex_sz
    · exact .inl (hiff.mp (by rw [← hsuccess]; simpa using hlen))
    · refine .inr fun n rest hpairs => ?_
      obtain ⟨hn,hstop⟩ := (hexLoop_pairs hloop).2 n rest hpairs
      exact ⟨by omega,hstop⟩
  · rintro (⟨bytes,hgroups,hlen⟩ | hfewer)
    · refine ⟨true,bytes,?_,by omega,iff_of_true rfl ⟨bytes,hgroups,hlen⟩,fun _ => hgroups⟩
      rw [cosaUtilStringToHex,hgroups.hexLoop_eq]
      simp [hlen]
    · cases hloop : hexLoop str with
      | none =>
        obtain ⟨n,a,hpairs,ha⟩ := hexLoop_eq_none hloop
        rw [(hfewer n [a] hpairs).2 a rfl] at ha
        exact absurd ha (by simp)
      | some bytes =>
        obtain ⟨⟨rest,hpairs⟩,-⟩ := hexLoop_pairs hloop
        have hfew := (hfewer _ rest hpairs).1
        have hlen : ¬(bytes.length : Int) = hex_sz := by omega
        refine ⟨false,bytes,?_,by omega,iff_of_false (by simp) ?_,fun h => absurd h (by simp)⟩
        · rw [cosaUtilStringToHex,hloop]
          simp [hlen]
        · rintro ⟨bytes',hgroups,hlen'⟩
          obtain rfl := Option.some_inj.mp (hloop.symm.trans hgroups.hexLoop_eq)
          exact hlen hlen'

/-- A second character that is no digit is taken for the end of the number. -/
theorem one_digit_accepted :
    cosaUtilStringToHex "1g".toList 1 = some (true,[1]) ∧ ¬DecodesExactly "1g".toList 1 := by
  have hcall : cosaUtilStringToHex "1g".toList 1 = some (true,[1]) := by decide +kernel
  refine ⟨hcall,?_⟩
  rintro ⟨success,hex_str,hcall',-,-,hgroups⟩
  rw [hcall] at hcall'
  obtain ⟨rfl,-⟩ := Prod.mk.inj (Option.some_inj.mp hcall')
  cases hgroups rfl with
  | group _ hg _ => exact absurd hg (by decide)

end EthAgent
