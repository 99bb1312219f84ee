import EthAgent.Lib.CString

/-!
The associated device of the switch HAL and the key under which the host
monitor hashes it: the text `XX:XX:XX:XX:XX:XX` of its MAC address.
-/

set_option autoImplicit false

namespace EthAgent
open CString

/-- `UCHAR eth_devMacAddress[6]`. -/
structure Mac where
  b0 : UInt8
  b1 : UInt8
  b2 : UInt8
  b3 : UInt8
  b4 : UInt8
  b5 : UInt8
  deriving DecidableEq, Repr

/-- `eth_device_t`, without the fields that are only traced. -/
structure EthDevice where
  ethDevMacAddress : Mac
  ethPort : Int
  ethActive : Bool
  deriving DecidableEq, Repr

def hexDigit (d : Nat) : Char := Char.ofNat (if d < 10 then 48+d else 55+d)

/-- `%02X` of one byte. -/
def hexByte (b : UInt8) : Text := [hexDigit (b.toNat/16),hexDigit (b.toNat%16)]

def macText (m : Mac) : Text :=
  hexByte m.b0 ++ [':'] ++ hexByte m.b1 ++ [':'] ++ hexByte m.b2 ++ [':'] ++
    hexByte m.b3 ++ [':'] ++ hexByte m.b4 ++ [':'] ++ hexByte m.b5

/-- `snprintf(recv_mac_id, sizeof(recv_mac_id), "%02X:…", …)` into 18 bytes. -/
def macId (m : Mac) : Buf 18 := Buf.store (macText m)

theorem hexDigit_injective {a b : Nat} (ha : a < 16) (hb : b < 16)
    (h : hexDigit a = hexDigit b) : a = b := by
  have hall : ∀ i j : Fin 16, hexDigit i.val = hexDigit j.val → i = j := by decide
  exact congrArg Fin.val (hall ⟨a,ha⟩ ⟨b,hb⟩ h)

theorem hexByte_injective {a b : UInt8} (h : hexByte a = hexByte b) : a = b := by
  have ha := a.toNat_lt
  have hb := b.toNat_lt
  simp only [hexByte,List.cons.injEq,and_true] at h
  have hhi := hexDigit_injective (by omega) (by omega) h.1
  have hlo := hexDigit_injective (by omega) (by omega) h.2
  exact UInt8.toNat_inj.mp (by omega)

theorem macText_injective {m m' : Mac} (h : macText m = macText m') : m = m' := by
  have hb : ∀ {x y : UInt8}, hexDigit (x.toNat/16) = hexDigit (y.toNat/16) →
      hexDigit (x.toNat%16) = hexDigit (y.toNat%16) → x = y := by
    intro x y hhi hlo
    exact hexByte_injective (by rw [hexByte,hexByte,hhi,hlo])
  cases m; cases m'
  simp only [macText,hexByte,List.cons_append,List.nil_append,List.cons.injEq,
    true_and,and_true] at h
  obtain ⟨h0,h0',h1,h1',h2,h2',h3,h3',h4,h4',h5,h5'⟩ := h
  rw [hb h0 h0',hb h1 h1',hb h2 h2',hb h3 h3',hb h4 h4',hb h5 h5']

/-- The 18 bytes hold the whole text. -/
theorem macId_text (m : Mac) : (macId m).text = macText m :=
  Buf.store_text_of_lt (by simp [macText,hexByte])

theorem macId_injective {m m' : Mac} (h : macId m = macId m') : m = m' :=
  macText_injective (by rw [← macId_text m,h,macId_text])

/-- `hash()`, in the 32 bits of an `unsigned int`. -/
def hash (str : Text) : UInt32 :=
  str.foldl (fun h c => ((h <<< 5)+h)+UInt32.ofNat c.toNat) 5381

def ethNodeHashSize : Nat := 256

abbrev Slot := Fin ethNodeHashSize

def macHash (str : Text) : Slot :=
  ⟨(hash str).toNat % ethNodeHashSize,Nat.mod_lt _ (by decide)⟩

end EthAgent
