import EthAgent.Device
import EthAgent.LanBridge

/-!
The devices of an Ethernet port: the list of MAC addresses that
`X_CISCO_COM_AssociatedDevice` shows, and the clients that
`CosaDmlEthPortGetClientMac` takes from a report of the HAL.
-/

set_option autoImplicit false

namespace EthAgent
open CString Runs

/-- The width of `long`, `size_t` and of pointers. -/
inductive Abi where
  | ilp32
  | lp64
  deriving DecidableEq

def Abi.bytes : Abi → Nat
  | .ilp32 => 4
  | .lp64 => 8

/-- A difference of `size_t` values, which wraps. -/
def Abi.sub (w : Abi) (m n : Nat) : Nat := (((m : Int)-n)%2^(8*w.bytes)).toNat

def Abi.toULong (w : Abi) (n : Int) : Nat := (n%2^(8*w.bytes)).toNat

def Abi.toLong (w : Abi) (n : Nat) : Int := (n : Int).bmod (2^(8*w.bytes))

section AssocList

/-- `%02x` of one byte. -/
def hexByteLower (b : UInt8) : Text := (hexByte b).map Char.toLower

def macTextLower (m : Mac) : Text :=
  hexByteLower m.b0 ++ [':'] ++ hexByteLower m.b1 ++ [':'] ++ hexByteLower m.b2 ++ [':'] ++
    hexByteLower m.b3 ++ [':'] ++ hexByteLower m.b4 ++ [':'] ++ hexByteLower m.b5

/-- The loop of `CosaEthPortGetAssocDevices`; `sizeof(maclist)` is that of a pointer. -/
def appendMacs (w : Abi) : (i : Nat) → List Mac → (maclist : Text) → Text
  | _, [], maclist => maclist
  | i, mac :: macs, maclist =>
    let maclist :=
      if 0 < i then strncat maclist [','] (w.sub (w.sub w.bytes maclist.length) 1)
      else maclist
    let macAddr := macTextLower mac
    appendMacs w (i+6) macs
      (strncat maclist macAddr (w.sub (w.sub macAddr.length maclist.length) 1))

def cosaEthPortGetAssocDevices (w : Abi) (macs : List Mac) : Text := appendMacs w 0 macs []

def ethInterfaceMaxAssocDevices : Nat := 256

/-- The size of `assocDeviceMacList` in `Interface_GetParamStringValue`. -/
def assocDeviceMacListSize : Nat := 17*ethInterfaceMaxAssocDevices+1

def assocList (macs : List Mac) : Text := [','].intercalate (macs.map macTextLower)

@[simp] theorem length_macTextLower (m : Mac) : (macTextLower m).length = 17 := by
  simp [macTextLower,hexByteLower,hexByte]

/-- Once the list is longer than the minuend, the limit is no limit. -/
theorem Abi.le_sub_sub (w : Abi) {m n : Nat} (hmn : m ≤ n) (hn : n < 2^31) :
    17 ≤ w.sub (w.sub m n) 1 := by
  cases w <;> simp only [Abi.sub,Abi.bytes] <;> omega

theorem appendMacs_eq (w : Abi) (i : Nat) (macs : List Mac) (maclist : Text)
    (hlow : 16 ≤ maclist.length) (hhigh : maclist.length+18*macs.length < 2^31) :
    appendMacs w (i+1) macs maclist =
      maclist ++ macs.flatMap fun mac => ',' :: macTextLower mac := by
  induction macs generalizing i maclist with
  | nil => simp [appendMacs]
  | cons mac macs ih =>
    rw [List.length_cons] at hhigh
    have hbytes : w.bytes ≤ maclist.length := by cases w <;> simp only [Abi.bytes] <;> omega
    have hcomma := w.le_sub_sub hbytes (by omega)
    have htext := w.le_sub_sub (m := 17) (n := (maclist ++ [',']).length)
      (by simp; omega) (by simp; omega)
    rw [appendMacs]
    simp only [if_pos (Nat.succ_pos i),strncat,length_macTextLower]
    rw [List.take_of_length_le (Nat.le_trans (by simp) hcomma),
      List.take_of_length_le (Nat.le_trans (by simp) htext),
      ih _ _ (by simp) (by simp; omega)]
    simp

theorem cosaEthPortGetAssocDevices_cons (w : Abi) (mac : Mac) {macs : List Mac}
    (hlen : macs.length < 256) :
    cosaEthPortGetAssocDevices w (mac :: macs) =
      (macTextLower mac).take 16 ++ macs.flatMap fun mac => ',' :: macTextLower mac := by
  have hlimit : w.sub (w.sub 17 0) 1 = 16 := by cases w <;> rfl
  rw [cosaEthPortGetAssocDevices,appendMacs]
  simp only [if_neg (Nat.lt_irrefl 0),strncat,length_macTextLower,List.length_nil,
    List.nil_append,hlimit]
  exact appendMacs_eq w 5 macs _ (by simp) (by simp; omega)

theorem assocList_cons (mac : Mac) (macs : List Mac) :
    assocList (mac :: macs) =
      macTextLower mac ++ macs.flatMap fun mac => ',' :: macTextLower mac := by
  induction macs generalizing mac with
  | nil => simp [assocList]
  | cons mac' macs ih =>
    have hih := ih mac'
    rw [assocList,List.map_cons] at hih
    rw [assocList,List.map_cons,List.map_cons,List.intercalate_cons_cons,hih]
    simp

theorem length_cosaEthPortGetAssocDevices (w : Abi) (mac : Mac) {macs : List Mac}
    (hlen : macs.length < 256) :
    (cosaEthPortGetAssocDevices w (mac :: macs)).length = 16+18*macs.length := by
  rw [cosaEthPortGetAssocDevices_cons w mac hlen]
  simp [List.length_flatMap,Nat.mul_comm]

theorem assocDevices_fit_iff (w : Abi) {macs : List Mac}
    (hlen : macs.length ≤ ethInterfaceMaxAssocDevices) :
    (cosaEthPortGetAssocDevices w macs).length < assocDeviceMacListSize ↔
      macs.length < 242 := by
  cases macs with
  | nil => simp [cosaEthPortGetAssocDevices,appendMacs,assocDeviceMacListSize]
  | cons mac macs =>
    rw [List.length_cons,ethInterfaceMaxAssocDevices] at hlen
    rw [length_cosaEthPortGetAssocDevices w mac hlen,List.length_cons,assocDeviceMacListSize,
      ethInterfaceMaxAssocDevices]
    omega

theorem assocDevices_complete_iff (w : Abi) {macs : List Mac}
    (hlen : macs.length ≤ ethInterfaceMaxAssocDevices) :
    (cosaEthPortGetAssocDevices w macs = assocList macs ∧
        (cosaEthPortGetAssocDevices w macs).length < assocDeviceMacListSize) ↔
      macs = [] := by
  cases macs with
  | nil => simp [cosaEthPortGetAssocDevices,appendMacs,assocList,assocDeviceMacListSize]
  | cons mac macs =>
    refine iff_of_false (fun h => ?_) (List.cons_ne_nil mac macs)
    have heq := congrArg List.length h.1
    rw [length_cosaEthPortGetAssocDevices w mac hlen,assocList_cons,List.length_append,
      length_macTextLower,List.length_flatMap] at heq
    simp at heq
    omega

def twoMacs : List Mac := [⟨0,17,34,51,68,85⟩,⟨0,17,34,51,68,86⟩]

theorem complete_for_none_only :
    (cosaEthPortGetAssocDevices .lp64 [] = assocList [] ∧
        (cosaEthPortGetAssocDevices .lp64 []).length < assocDeviceMacListSize) ∧
      ¬(cosaEthPortGetAssocDevices .lp64 twoMacs = assocList twoMacs ∧
        (cosaEthPortGetAssocDevices .lp64 twoMacs).length < assocDeviceMacListSize) :=
  ⟨(assocDevices_complete_iff .lp64 (by decide : ([] : List Mac).length ≤ _)).mpr rfl,
    fun h => absurd ((assocDevices_complete_iff .lp64 (by decide : twoMacs.length ≤ _)).mp h)
      (by decide)⟩

theorem one_device_truncated :
    cosaEthPortGetAssocDevices .lp64 [⟨0,17,34,51,68,85⟩] = "00:11:22:33:44:5".toList ∧
      ¬(cosaEthPortGetAssocDevices .lp64 [⟨0,17,34,51,68,85⟩] =
          assocList [⟨0,17,34,51,68,85⟩] ∧
        (cosaEthPortGetAssocDevices .lp64 [⟨0,17,34,51,68,85⟩]).length <
          assocDeviceMacListSize) := by decide +kernel

end AssocList

section AssocClients

structure PortClients where
  assocDevicesCount : Nat
  assocClient : List (Buf 18)
  size : assocClient.length = ethInterfaceMaxAssocDevices

/-- A client that is written; there is nothing to write to behind the array. -/
def PortClients.write (e : PortClients) (i : Nat) (mac : Mac) : Option PortClients :=
  if i < ethInterfaceMaxAssocDevices then
    some { e with
      assocClient := e.assocClient.set i (macId mac)
      size := by rw [List.length_set]; exact e.size }
  else none

def ethGetClientsCount (w : Abi) (portId : Nat) (eth_device : List EthDevice) : Nat :=
  eth_device.foldl
    (fun count_client d => if portId = w.toULong d.ethPort then count_client+1 else count_client)
    0

def ethGetClientMacDetails (portId client_num : Int) :
    (isClient : Int) → (eth_device : List EthDevice) → Option Mac
  | _, [] => none
  | isClient, d :: eth_device =>
    if portId = d.ethPort then
      if isClient+1 = client_num then some d.ethDevMacAddress
      else ethGetClientMacDetails portId client_num (isClient+1) eth_device
    else ethGetClientMacDetails portId client_num isClient eth_device

def writeClient (w : Abi) (ulInstanceNumber : Nat) (eth_device : List EthDevice)
    (e : PortClients) (i : Nat) : Option PortClients :=
  match ethGetClientMacDetails (w.toLong ulInstanceNumber) (w.toLong (i+1)) 0 eth_device with
  | none => some e
  | some mac => e.write i mac

/-- `CosaDmlEthPortGetClientMac`, with the devices of the report; nothing is left if a
client is written behind the array, or if `idx`, an `int`, overflows. -/
def cosaDmlEthPortGetClientMac (w : Abi) (e : PortClients) (ulInstanceNumber : Nat)
    (eth_device : List EthDevice) : Option PortClients :=
  if eth_device = [] then some e
  else if eth_device.length < 2^31 then
    let ulNumClients := ethGetClientsCount w ulInstanceNumber eth_device
    let e := { e with assocDevicesCount := 0 }
    if 0 < ulNumClients then
      (List.range ulNumClients).foldlM (writeClient w ulInstanceNumber eth_device)
        { e with assocDevicesCount := ulNumClients }
    else some e
  else none

def devicesOn (w : Abi) (ulInstanceNumber : Nat) (eth_device : List EthDevice) :
    List EthDevice :=
  eth_device.filter fun d => ulInstanceNumber = w.toULong d.ethPort

/-- The clients are those of the report, and all of them are in the array. -/
def ClientsOf (devices : List EthDevice) (e : PortClients) : Prop :=
  e.assocDevicesCount = devices.length ∧
    e.assocDevicesCount ≤ ethInterfaceMaxAssocDevices ∧
    ∀ (i : Nat) (d : EthDevice), devices[i]? = some d →
      e.assocClient[i]? = some (macId d.ethDevMacAddress)

theorem PortClients.write_eq_none (e : PortClients) {i : Nat}
    (hi : ethInterfaceMaxAssocDevices ≤ i) (mac : Mac) : e.write i mac = none :=
  if_neg (Nat.not_lt.mpr hi)

theorem PortClients.write_eq_some (e : PortClients) {i : Nat}
    (hi : i < ethInterfaceMaxAssocDevices) (mac : Mac) :
    ∃ e', e.write i mac = some e' ∧ e'.assocDevicesCount = e.assocDevicesCount ∧
      e'.assocClient = e.assocClient.set i (macId mac) := by
  rw [PortClients.write,if_pos hi]
  exact ⟨_,rfl,rfl,rfl⟩

theorem ethGetClientsCount_eq (w : Abi) (portId : Nat) (eth_device : List EthDevice) :
    ethGetClientsCount w portId eth_device = (devicesOn w portId eth_device).length := by
  have hrun : ethGetClientsCount w portId eth_device =
      0+(devicesOn w portId eth_device).length := exec_count 0 eth_device
  rw [hrun,Nat.zero_add]

theorem toLong_eq_iff (w : Abi) {portId : Nat} (hport : portId < 2^(8*w.bytes)) {n : Int}
    (hlow : -2^31 ≤ n) (hhigh : n < 2^31) :
    w.toLong portId = n ↔ portId = w.toULong n := by
  cases w <;> simp only [Abi.toLong,Abi.toULong,Abi.bytes,Int.bmod] at * <;> omega

/-- The devices whose ports are `int`s. -/
def IntPorts (eth_device : List EthDevice) : Prop :=
  ∀ d ∈ eth_device, -2^31 ≤ d.ethPort ∧ d.ethPort < 2^31

theorem ethGetClientMacDetails_eq (w : Abi) {portId : Nat} (hport : portId < 2^(8*w.bytes))
    {eth_device : List EthDevice} (hints : IntPorts eth_device) (isClient i : Nat) :
    ethGetClientMacDetails (w.toLong portId) (isClient+i+1 : Nat) isClient eth_device =
      (devicesOn w portId eth_device)[i]?.map EthDevice.ethDevMacAddress := by
  induction eth_device generalizing isClient i with
  | nil => rfl
  | cons d ds ih =>
    obtain ⟨hlow,hhigh⟩ := hints d List.mem_cons_self
    have htail : IntPorts ds := fun d hd => hints d (List.mem_cons_of_mem _ hd)
    have hiff := toLong_eq_iff w hport hlow hhigh
    rw [ethGetClientMacDetails]
    by_cases hon : portId = w.toULong d.ethPort
    · have hkept : devicesOn w portId (d :: ds) = d :: devicesOn w portId ds :=
        List.filter_cons_of_pos (by simpa using hon)
      rw [if_pos (hiff.mpr hon),hkept]
      cases i with
      | zero => simp
      | succ i =>
        have hnext := ih htail (isClient+1) i
        rw [show isClient+1+i+1 = isClient+(i+1)+1 by omega] at hnext
        rw [if_neg (by omega),List.getElem?_cons_succ,← hnext]
        rfl
    · have hdropped : devicesOn w portId (d :: ds) = devicesOn w portId ds :=
        List.filter_cons_of_neg (by simpa using hon)
      rw [if_neg (fun h => hon (hiff.mp h)),hdropped]
      exact ih htail isClient i

theorem writeClient_eq (w : Abi) {portId : Nat} (hport : portId < 2^(8*w.bytes))
    {eth_device : List EthDevice} (hints : IntPorts eth_device) (e : PortClients) {i : Nat}
    (hi : i < (devicesOn w portId eth_device).length)
    (hshort : eth_device.length < 2^31) :
    writeClient w portId eth_device e i =
      e.write i ((devicesOn w portId eth_device)[i]).ethDevMacAddress := by
  have hle : (devicesOn w portId eth_device).length ≤ eth_device.length :=
    List.length_filter_le _ _
  have hnumber : w.toLong (i+1) = (0+i+1 : Nat) := by
    cases w <;> simp only [Abi.toLong,Abi.bytes,Int.bmod] <;> omega
  have hmac := ethGetClientMacDetails_eq w hport hints 0 i
  rw [List.getElem?_eq_getElem hi,Option.map_some] at hmac
  rw [writeClient,hnumber]
  rw [show ((0 : Nat) : Int) = 0 from rfl] at hmac
  rw [hmac]

theorem writeClients_run (w : Abi) {portId : Nat} (hport : portId < 2^(8*w.bytes))
    {eth_device : List EthDevice} (hints : IntPorts eth_device)
    (hshort : eth_device.length < 2^31) (e : PortClients) {m : Nat}
    (hm : m ≤ (devicesOn w portId eth_device).length) (hfits : m ≤ ethInterfaceMaxAssocDevices) :
    ∃ e', (List.range m).foldlM (writeClient w portId eth_device) e = some e' ∧
      e'.assocDevicesCount = e.assocDevicesCount ∧
      ∀ (i : Nat) (d : EthDevice), i < m → (devicesOn w portId eth_device)[i]? = some d →
        e'.assocClient[i]? = some (macId d.ethDevMacAddress) := by
  induction m with
  | zero => exact ⟨e,rfl,rfl,fun i d hi => absurd hi (Nat.not_lt_zero i)⟩
  | succ m ih =>
    obtain ⟨e',he',hcount,hclients⟩ := ih (by omega) (by omega)
    obtain ⟨e'',he'',hcount',hset⟩ := e'.write_eq_some (i := m) (by omega)
      ((devicesOn w portId eth_device)[m]).ethDevMacAddress
    have hround := (writeClient_eq w hport hints e' hm hshort).trans he''
    have hlast : [m].foldlM (writeClient w portId eth_device) e' = some e'' := by
      rw [List.foldlM_cons,hround]
      rfl
    rw [List.range_succ,List.foldlM_append,he']
    refine ⟨e'',hlast,hcount'.trans hcount,fun i d hi hd => ?_⟩
    rw [hset]
    by_cases him : i = m
    · subst him
      obtain ⟨hlt,rfl⟩ := List.getElem?_eq_some_iff.mp hd
      exact List.getElem?_set_self (by rw [e'.size]; omega)
    · rw [List.getElem?_set_ne (Ne.symm him)]
      exact hclients i d (by omega) hd

theorem writeClients_overflow (w : Abi) {portId : Nat} (hport : portId < 2^(8*w.bytes))
    {eth_device : List EthDevice} (hints : IntPorts eth_device)
    (hshort : eth_device.length < 2^31) (e : PortClients) {m : Nat}
    (hm : m ≤ (devicesOn w portId eth_device).length) (hover : ethInterfaceMaxAssocDevices < m) :
    (List.range m).foldlM (writeClient w portId eth_device) e = none := by
  induction m with
  | zero => exact absurd hover (Nat.not_lt_zero _)
  | succ m ih =>
    rw [List.range_succ,List.foldlM_append]
    by_cases hlast : ethInterfaceMaxAssocDevices < m
    · rw [ih (by omega) hlast]
      rfl
    · obtain ⟨e',he',-,-⟩ := writeClients_run w hport hints hshort e (m := m) (by omega) (by omega)
      have hround := writeClient_eq w hport hints e' hm hshort
      rw [e'.write_eq_none (by omega)] at hround
      rw [he']
      change [m].foldlM (writeClient w portId eth_device) e' = none
      rw [List.foldlM_cons,hround]
      rfl

theorem clients_reported_iff (w : Abi) {ulInstanceNumber : Nat}
    (hport : ulInstanceNumber < 2^(8*w.bytes)) {eth_device : List EthDevice}
    (hints : IntPorts eth_device) (e : PortClients) :
    (∃ e', cosaDmlEthPortGetClientMac w e ulInstanceNumber eth_device = some e' ∧
        ClientsOf (devicesOn w ulInstanceNumber eth_device) e') ↔
      (eth_device = [] → e.assocDevicesCount = 0) ∧
        (devicesOn w ulInstanceNumber eth_device).length ≤ ethInterfaceMaxAssocDevices ∧
        eth_device.length < 2^31 := by
  by_cases hempty : eth_device = []
  · subst hempty
    rw [cosaDmlEthPortGetClientMac,if_pos rfl]
    constructor
    · rintro ⟨e',⟨⟩,hcount,-,-⟩
      exact ⟨fun _ => hcount,Nat.zero_le _,Nat.two_pow_pos 31⟩
    · rintro ⟨hcount,-,-⟩
      exact ⟨e,rfl,hcount rfl,by rw [hcount rfl]; exact Nat.zero_le _,fun i d hd => by
        simp [devicesOn] at hd⟩
  rw [cosaDmlEthPortGetClientMac,if_neg hempty]
  by_cases hshort : eth_device.length < 2^31
  · have hloop :
        (if 0 < (devicesOn w ulInstanceNumber eth_device).length then
          (List.range (devicesOn w ulInstanceNumber eth_device).length).foldlM
            (writeClient w ulInstanceNumber eth_device)
            { e with assocDevicesCount := (devicesOn w ulInstanceNumber eth_device).length }
        else some { e with assocDevicesCount := 0 }) =
        (List.range (devicesOn w ulInstanceNumber eth_device).length).foldlM
          (writeClient w ulInstanceNumber eth_device)
          { e with assocDevicesCount := (devicesOn w ulInstanceNumber eth_device).length } := by
      split
      · rfl
      · next hzero => rw [Nat.eq_zero_of_not_pos hzero]; rfl
    rw [if_pos hshort]
    simp only [ethGetClientsCount_eq,hloop]
    constructor
    · rintro ⟨e',he',hclients⟩
      refine ⟨fun h => absurd h hempty,?_,hshort⟩
      by_contra hover
      rw [writeClients_overflow w hport hints hshort _ (Nat.le_refl _) (by omega)] at he'
      exact absurd he' (by simp)
    · rintro ⟨-,hfits,-⟩
      obtain ⟨e',he',hcount,hclients⟩ := writeClients_run w hport hints hshort
        { e with assocDevicesCount := (devicesOn w ulInstanceNumber eth_device).length }
        (Nat.le_refl _) hfits
      refine ⟨e',he',hcount,hcount ▸ hfits,fun i d hd => hclients i d ?_ hd⟩
      exact (List.getElem?_eq_some_iff.mp hd).1
  · rw [if_neg hshort]
    exact iff_of_false (by simp) fun h => hshort h.2.2

def noClients (assocDevicesCount : Nat) : PortClients :=
  ⟨assocDevicesCount,List.replicate 256 ⟨[],by decide⟩,List.length_replicate⟩

def deviceOn (ethPort : Int) : EthDevice := ⟨⟨0,17,34,51,68,85⟩,ethPort,true⟩

theorem two_ports_reported :
    ∃ e', cosaDmlEthPortGetClientMac .lp64 (noClients 3) 2 [deviceOn 1,deviceOn 2] = some e' ∧
      ClientsOf (devicesOn .lp64 2 [deviceOn 1,deviceOn 2]) e' :=
  (clients_reported_iff .lp64 (by decide) (by simp [IntPorts,deviceOn]) (noClients 3)).mpr
    (by decide)

/-- The clients of the report before stay when nobody is left. -/
theorem empty_report_keeps_count :
    cosaDmlEthPortGetClientMac .lp64 (noClients 1) 2 [] = some (noClients 1) ∧
      ¬∃ e', cosaDmlEthPortGetClientMac .lp64 (noClients 1) 2 [] = some e' ∧
        ClientsOf (devicesOn .lp64 2 []) e' := by
  have hkept : cosaDmlEthPortGetClientMac .lp64 (noClients 1) 2 [] = some (noClients 1) := rfl
  refine ⟨hkept,?_⟩
  rintro ⟨e',he',hcount,-⟩
  obtain rfl := Option.some_inj.mp (hkept.symm.trans he')
  exact absurd hcount (by decide)

end AssocClients

end EthAgent
