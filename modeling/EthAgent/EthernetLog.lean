import EthAgent.Device
import EthAgent.Lib.Buffers
import EthAgent.Lib.Runs

/-!
The clients of the ports in `Ethernet_Log` and `EthTelemetryPush`: for each port, the
MACs of its devices are put into a buffer that is sized by their number.
-/

set_option autoImplicit false

namespace EthAgent.EthernetLog
open CString Buffers Runs

def lengthMacAddress : Nat := 18

def lengthDelimiter : Nat := 2

/-- `ethGetClientsCount`. There is no result if `idx`, an `int`, overflows. -/
def ethGetClientsCount (portId : Int) (eth_device : Option (List EthDevice)) : Option Nat :=
  match eth_device with
  | none => some 0
  | some eth_device =>
    if eth_device.length < 2^31 then
      some (eth_device.foldl
        (fun count_client d => if portId = d.ethPort then count_client+1 else count_client) 0)
    else none

def macAddr (isFirst : Bool) (mac : Mac) : Buf 20 :=
  ⟨(if isFirst then [] else [',',' ']) ++ macText mac,by
    cases isFirst <;> simp [macText,hexByte]⟩

/-- The loop of `ethGetClientMacDetails`. -/
def appendMacs (rsizeMax : Nat) (portId : Int) (mem_size : Nat) :
    Bool → List EthDevice → Bytes → Option Bytes
  | _, [], mac => some mac
  | isFirst, d :: eth_device, mac =>
    if portId = d.ethPort then do
      let call ← strcatS rsizeMax mac mem_size (macAddr isFirst d.ethDevMacAddress).text
      appendMacs rsizeMax portId mem_size false eth_device call.2
    else appendMacs rsizeMax portId mem_size isFirst eth_device mac

/-- `ethGetClientMacDetails`, with a buffer that is not `NULL`. -/
def ethGetClientMacDetails (rsizeMax : Nat) (portId : Int)
    (eth_device : Option (List EthDevice)) (mac : Bytes) (mem_size : Nat) : Option Bytes :=
  match eth_device with
  | none => some mac
  | some eth_device =>
    if eth_device.length < 2^31 then
      appendMacs rsizeMax portId mem_size true eth_device mac
    else none

structure ClientMacs where
  countClient : Nat
  macAddress : Option Bytes

/-- The product of two `int`s, unless it overflows. -/
def intProduct (m n : Nat) : Option Nat := if m*n < 2^31 then some (m*n) else none

/-- What `Ethernet_Log` and `EthTelemetryPush` do for port `i` before they log.
`allocated` says that `AnscAllocateMemory` succeeds; its memory is zeroed. -/
def clientMacs (rsizeMax : Nat) (allocated : Bool) (i : Int)
    (output_struct : Option (List EthDevice)) : Option ClientMacs := do
  let count_client ← ethGetClientsCount i output_struct
  if count_client = 0 then some ⟨0,none⟩
  else
    let mem_size ← intProduct (lengthMacAddress+lengthDelimiter) count_client
    if allocated then
      let mac_address ← ethGetClientMacDetails rsizeMax i output_struct
        (List.replicate mem_size nul) mem_size
      some ⟨count_client,some mac_address⟩
    else some ⟨count_client,none⟩

def clientsOn (portId : Int) (eth_device : Option (List EthDevice)) : List Mac :=
  ((eth_device.getD []).filter fun d => portId = d.ethPort).map EthDevice.ethDevMacAddress

def macList (macs : List Mac) : Text := [',',' '].intercalate (macs.map macText)

def separated : Bool → List Mac → Text
  | _, [] => []
  | isFirst, mac :: macs => (macAddr isFirst mac).text ++ separated false macs

theorem separated_true (macs : List Mac) : separated true macs = macList macs := by
  cases macs with
  | nil => rfl
  | cons mac macs =>
    induction macs generalizing mac with
    | nil => simp [separated,macList,macAddr]
    | cons mac' macs ih =>
      have hrest := ih mac'
      simp only [separated,macAddr,macList,List.map_cons,if_true,List.nil_append,
        Bool.false_eq_true,if_false] at hrest ⊢
      rw [List.intercalate_cons_cons,← hrest,List.append_assoc,List.append_assoc]

theorem length_macAddr_le (isFirst : Bool) (mac : Mac) :
    (macAddr isFirst mac).text.length ≤ 19 :=
  Nat.le_of_lt_succ (macAddr isFirst mac).fits

theorem hexDigit_ne_nul {d : Nat} (hd : d < 16) : hexDigit d ≠ nul := by
  have hall : ∀ i : Fin 16, hexDigit i.val ≠ nul := by decide
  exact hall ⟨d,hd⟩

theorem nul_not_mem_hexByte (b : UInt8) : nul ∉ hexByte b := by
  have hb := b.toNat_lt
  have hhigh := hexDigit_ne_nul (d := b.toNat/16) (by omega)
  have hlow := hexDigit_ne_nul (d := b.toNat%16) (by omega)
  simp [hexByte,hhigh.symm,hlow.symm]

theorem nul_not_mem_macAddr (isFirst : Bool) (mac : Mac) : nul ∉ (macAddr isFirst mac).text := by
  have hcolon : nul ≠ ':' := by decide
  have hcomma : nul ≠ ',' := by decide
  have hblank : nul ≠ ' ' := by decide
  cases isFirst <;> simp [macAddr,macText,nul_not_mem_hexByte,hcolon,hcomma,hblank]

theorem clientsOn_cons (portId : Int) (d : EthDevice) (eth_device : List EthDevice) :
    clientsOn portId (some (d :: eth_device)) =
      if portId = d.ethPort then d.ethDevMacAddress :: clientsOn portId (some eth_device)
      else clientsOn portId (some eth_device) := by
  by_cases hd : portId = d.ethPort <;> simp [clientsOn,hd]

theorem clientsOn_nil (portId : Int) : clientsOn portId (some []) = [] := rfl

theorem appendMacs_spec {rsizeMax mem_size : Nat} (hmax : mem_size ≤ rsizeMax) (portId : Int)
    (isFirst : Bool) {eth_device : List EthDevice} {mac : Bytes} {w : Text} (hmac : Holds mac w)
    (hroom : w.length+19*(clientsOn portId (some eth_device)).length < mem_size)
    (hsize : mem_size ≤ mac.length) :
    ∃ mac', appendMacs rsizeMax portId mem_size isFirst eth_device mac = some mac' ∧
      mac'.length = mac.length ∧
      Holds mac' (w ++ separated isFirst (clientsOn portId (some eth_device))) := by
  induction eth_device generalizing isFirst mac w with
  | nil =>
    rw [clientsOn_nil,separated,List.append_nil]
    exact ⟨mac,rfl,rfl,hmac⟩
  | cons d ds ih =>
    rw [clientsOn_cons] at hroom ⊢
    by_cases hd : portId = d.ethPort
    · rw [if_pos hd,List.length_cons] at hroom
      have htext := length_macAddr_le isFirst d.ethDevMacAddress
      obtain ⟨mac₁,hcall,hlen₁,hholds₁⟩ := hmac.strcatS
        (nul_not_mem_macAddr isFirst d.ethDevMacAddress) (by omega) hsize hmax
      obtain ⟨mac',hrest,hlen',hholds'⟩ := ih false hholds₁
        (by rw [List.length_append]; omega) (by omega)
      rw [if_pos hd,separated,← List.append_assoc]
      refine ⟨mac',?_,hlen'.trans hlen₁,hholds'⟩
      simp only [appendMacs,if_pos hd,hcall,Option.bind_eq_bind,Option.bind_some,hrest]
    · rw [if_neg hd] at hroom ⊢
      rw [appendMacs,if_neg hd]
      exact ih isFirst hmac hroom hsize

theorem appendMacs_refused {rsizeMax mem_size : Nat} (hmax : rsizeMax < mem_size) (portId : Int)
    (isFirst : Bool) (eth_device : List EthDevice) (mac : Bytes) :
    appendMacs rsizeMax portId mem_size isFirst eth_device mac = some mac := by
  induction eth_device generalizing isFirst with
  | nil => rfl
  | cons d ds ih =>
    by_cases hd : portId = d.ethPort
    · simp only [appendMacs,if_pos hd,strcatS_refused hmax,Option.bind_eq_bind,Option.bind_some]
      exact ih false
    · rw [appendMacs,if_neg hd]
      exact ih isFirst

theorem ethGetClientsCount_eq (portId : Int) (eth_device : Option (List EthDevice)) :
    ethGetClientsCount portId eth_device =
      if (eth_device.getD []).length < 2^31 then some (clientsOn portId eth_device).length
      else none := by
  cases eth_device with
  | none => rfl
  | some ds =>
    have hrun : ds.foldl (fun count_client d =>
        if portId = d.ethPort then count_client+1 else count_client) 0 =
        0+(ds.filter fun d => portId = d.ethPort).length := exec_count 0 ds
    rw [ethGetClientsCount,hrun,Nat.zero_add,clientsOn,List.length_map,Option.getD_some]

def roomFor (portId : Int) (eth_device : Option (List EthDevice)) : Nat :=
  (lengthMacAddress+lengthDelimiter)*(clientsOn portId eth_device).length

theorem clientMacs_eq (rsizeMax : Nat) (i : Int) {eth_device : List EthDevice}
    (hlen : eth_device.length < 2^31) (hsome : clientsOn i (some eth_device) ≠ []) :
    clientMacs rsizeMax true i (some eth_device) =
      if roomFor i (some eth_device) < 2^31 then
        (appendMacs rsizeMax i (roomFor i (some eth_device)) true eth_device
          (List.replicate (roomFor i (some eth_device)) nul)).map fun mac =>
            ⟨(clientsOn i (some eth_device)).length,some mac⟩
      else none := by
  have hcount : ethGetClientsCount i (some eth_device) =
      some (clientsOn i (some eth_device)).length := by
    rw [ethGetClientsCount_eq,Option.getD_some,if_pos hlen]
  have hne : (clientsOn i (some eth_device)).length ≠ 0 :=
    fun h => hsome (List.eq_nil_of_length_eq_zero h)
  have hproduct : intProduct (lengthMacAddress+lengthDelimiter)
      (clientsOn i (some eth_device)).length =
        if roomFor i (some eth_device) < 2^31 then some (roomFor i (some eth_device))
        else none := rfl
  simp only [clientMacs,hcount,Option.bind_eq_bind,Option.bind_some,if_neg hne,hproduct,
    if_true,ethGetClientMacDetails,if_pos hlen]
  by_cases hroom : roomFor i (some eth_device) < 2^31
  · rw [if_pos hroom,if_pos hroom,Option.bind_some]
    cases appendMacs rsizeMax i (roomFor i (some eth_device)) true eth_device
      (List.replicate (roomFor i (some eth_device)) nul) <;> rfl
  · rw [if_neg hroom,if_neg hroom,Option.bind_none]

theorem clientMacs_of_none (rsizeMax : Nat) {i : Int} {eth_device : Option (List EthDevice)}
    (hlen : (eth_device.getD []).length < 2^31) (hnone : clientsOn i eth_device = []) :
    clientMacs rsizeMax true i eth_device = some ⟨0,none⟩ := by
  rw [clientMacs,ethGetClientsCount_eq,if_pos hlen,hnone]
  rfl

/-- The buffer of a port with devices has room for the list of their MACs, and the text
in it is that list. -/
def ClientsListed (rsizeMax : Nat) (i : Int) (eth_device : Option (List EthDevice)) : Prop :=
  ∃ r, clientMacs rsizeMax true i eth_device = some r ∧
    r.countClient = (clientsOn i eth_device).length ∧
    (clientsOn i eth_device ≠ [] → ∃ mac, r.macAddress = some mac ∧
      mac.length = roomFor i eth_device ∧
      (macList (clientsOn i eth_device)).length < mac.length ∧
      untilNul mac = macList (clientsOn i eth_device))

/-- The numbers are `int`s, and `strcat_s` takes a buffer of this size. -/
def WithinLimits (rsizeMax : Nat) (i : Int) (eth_device : Option (List EthDevice)) : Prop :=
  (eth_device.getD []).length < 2^31 ∧ roomFor i eth_device < 2^31 ∧
    roomFor i eth_device ≤ rsizeMax

theorem clientsListed_of_limits {rsizeMax : Nat} {i : Int} {eth_device : Option (List EthDevice)}
    (h : WithinLimits rsizeMax i eth_device) : ClientsListed rsizeMax i eth_device := by
  obtain ⟨hlen,hroom,hmax⟩ := h
  by_cases hnone : clientsOn i eth_device = []
  · refine ⟨⟨0,none⟩,clientMacs_of_none rsizeMax hlen hnone,?_,fun hne => absurd hnone hne⟩
    rw [hnone]
    rfl
  · cases eth_device with
    | none => exact absurd rfl hnone
    | some ds =>
      rw [Option.getD_some] at hlen
      have hpos := List.length_pos_iff.mpr hnone
      have hzero : roomFor i (some ds) = (roomFor i (some ds)-1)+1 := by
        simp only [roomFor,lengthMacAddress,lengthDelimiter]
        omega
      have hempty : Holds (List.replicate (roomFor i (some ds)) nul) [] := by
        rw [hzero,List.replicate_succ]
        exact holds_append (by simp) _
      have hfits : ([] : Text).length+19*(clientsOn i (some ds)).length <
          roomFor i (some ds) := by
        simp only [roomFor,lengthMacAddress,lengthDelimiter,List.length_nil]
        omega
      obtain ⟨mac,hrun,hsize,hholds⟩ := appendMacs_spec hmax i true hempty hfits (by simp)
      rw [List.nil_append,separated_true] at hholds
      rw [List.length_replicate] at hsize
      refine ⟨⟨(clientsOn i (some ds)).length,some mac⟩,?_,rfl,
        fun _ => ⟨mac,rfl,hsize,hholds.length_lt,hholds.untilNul⟩⟩
      rw [clientMacs_eq rsizeMax i hlen hnone,if_pos hroom,hrun,Option.map_some]

/-- More devices than an `int` counts, or a buffer with a size that is no `int`. -/
theorem clientMacs_overflow (rsizeMax : Nat) {i : Int} {eth_device : Option (List EthDevice)}
    (h : ¬((eth_device.getD []).length < 2^31 ∧ roomFor i eth_device < 2^31)) :
    clientMacs rsizeMax true i eth_device = none := by
  by_cases hlen : (eth_device.getD []).length < 2^31
  · have hroom : ¬roomFor i eth_device < 2^31 := fun hroom => h ⟨hlen,hroom⟩
    have hsome : clientsOn i eth_device ≠ [] := by
      intro hnone
      exact hroom (by simp [roomFor,hnone])
    cases eth_device with
    | none => exact absurd rfl hsome
    | some ds =>
      rw [Option.getD_some] at hlen
      rw [clientMacs_eq rsizeMax i hlen hsome,if_neg hroom]
  · rw [clientMacs,ethGetClientsCount_eq,if_neg hlen]
    rfl

/-- Above its limit `strcat_s` appends nothing. -/
theorem clientMacs_refused {rsizeMax : Nat} {i : Int} {eth_device : Option (List EthDevice)}
    (hlen : (eth_device.getD []).length < 2^31) (hroom : roomFor i eth_device < 2^31)
    (hmax : rsizeMax < roomFor i eth_device) :
    clientMacs rsizeMax true i eth_device = some ⟨(clientsOn i eth_device).length,
      some (List.replicate (roomFor i eth_device) nul)⟩ := by
  have hsome : clientsOn i eth_device ≠ [] := by
    intro hnone
    simp [roomFor,hnone] at hmax
  cases eth_device with
  | none => exact absurd rfl hsome
  | some ds =>
    rw [Option.getD_some] at hlen
    rw [clientMacs_eq rsizeMax i hlen hsome,if_pos hroom,appendMacs_refused hmax,Option.map_some]

theorem macList_ne_nil {macs : List Mac} (h : macs ≠ []) : macList macs ≠ [] := by
  obtain ⟨mac,rest,rfl⟩ := List.exists_cons_of_ne_nil h
  rw [← separated_true,separated]
  simp [macAddr,macText,hexByte]

theorem not_clientsListed_overflow (rsizeMax : Nat) {i : Int}
    {eth_device : Option (List EthDevice)}
    (h : ¬((eth_device.getD []).length < 2^31 ∧ roomFor i eth_device < 2^31)) :
    ¬ClientsListed rsizeMax i eth_device := by
  rintro ⟨r,hr,-⟩
  rw [clientMacs_overflow rsizeMax h] at hr
  exact absurd hr (by simp)

theorem not_clientsListed_refused {rsizeMax : Nat} {i : Int}
    {eth_device : Option (List EthDevice)} (hlen : (eth_device.getD []).length < 2^31)
    (hroom : roomFor i eth_device < 2^31) (hmax : rsizeMax < roomFor i eth_device) :
    ¬ClientsListed rsizeMax i eth_device := by
  rintro ⟨r,hr,-,htext⟩
  rw [clientMacs_refused hlen hroom hmax,Option.some_inj] at hr
  have hsome : clientsOn i eth_device ≠ [] := by
    intro hnone
    simp [roomFor,hnone] at hmax
  obtain ⟨mac,hmac,-,-,hlist⟩ := htext hsome
  rw [← hr,Option.some_inj] at hmac
  rw [← hmac] at hlist
  have hempty : untilNul (List.replicate (roomFor i eth_device) nul) = [] := by
    cases roomFor i eth_device <;> simp [untilNul,List.replicate_succ]
  exact macList_ne_nil hsome (hlist.symm.trans hempty)

theorem clients_listed_iff (rsizeMax : Nat) (i : Int) (eth_device : Option (List EthDevice)) :
    ClientsListed rsizeMax i eth_device ↔ WithinLimits rsizeMax i eth_device := by
  refine ⟨fun h => ?_,clientsListed_of_limits⟩
  by_contra hlimits
  by_cases hint : (eth_device.getD []).length < 2^31 ∧ roomFor i eth_device < 2^31
  · have hmax : rsizeMax < roomFor i eth_device := by
      by_contra hle
      exact hlimits ⟨hint.1,hint.2,by omega⟩
    exact not_clientsListed_refused hint.1 hint.2 hmax h
  · exact not_clientsListed_overflow rsizeMax hint h

def client : EthDevice := ⟨⟨0,17,34,51,68,85⟩,1,true⟩

theorem roomFor_replicate (n : Nat) : roomFor 1 (some (List.replicate n client)) = 20*n := by
  have hall : (List.replicate n client).filter (fun d => (1 : Int) = d.ethPort) =
      List.replicate n client :=
    List.filter_eq_self.mpr fun d hd => by rw [List.eq_of_mem_replicate hd]; rfl
  rw [roomFor,clientsOn,Option.getD_some,hall,List.length_map,List.length_replicate]
  rfl

/-- With 4096 as the limit of `strcat_s`, the MACs of 205 devices are not listed; with any
limit, those of so many that the size of the buffer is no `int`. -/
theorem many_clients_unlisted :
    ¬ClientsListed 4096 1 (some (List.replicate 205 client)) ∧
      ¬ClientsListed (2^32) 1 (some (List.replicate 107374183 client)) := by
  constructor
  · refine not_clientsListed_refused ?_ ?_ ?_
    · rw [Option.getD_some,List.length_replicate]
      decide
    · rw [roomFor_replicate]
      decide
    · rw [roomFor_replicate]
      decide
  · refine not_clientsListed_overflow _ fun h => ?_
    rw [roomFor_replicate] at h
    exact absurd h.2 (by decide)

section Log

def totalCountLine (i count_client : Nat) : Text :=
  "ETH_MAC_".toList ++ decimal i ++ "_TOTAL_COUNT:".toList ++ decimal count_client ++ ['\n']

def macLine (i : Nat) (mac_address : Text) : Text :=
  "ETH_MAC_".toList ++ decimal i ++ [':'] ++ mac_address ++ ['\n']

def phyRateLine (i : Nat) (rate : Text) : Text :=
  "ETH_PHYRATE_".toList ++ decimal i ++ [':'] ++ rate ++ ['\n']

def portLines (i : Nat) (rate : Text) (r : ClientMacs) : List Text :=
  totalCountLine i r.countClient ::
    match r.macAddress with
    | some mac_address => [macLine i (untilNul mac_address),phyRateLine i rate]
    | none => if r.countClient = 0 then [] else ["Alloc Failed\n".toList]

def ethernetLog (rsizeMax : Nat) (allocated : Nat → Bool) (rate : Nat → Text)
    (output_struct : Option (List EthDevice)) : List Nat → Option (List Text)
  | [] => some []
  | i :: ports => do
    let r ← clientMacs rsizeMax (allocated i) i output_struct
    let rest ← ethernetLog rsizeMax allocated rate output_struct ports
    some (portLines i (rate i) r ++ rest)

def clientLines (i : Nat) (rate : Text) (macs : List Mac) : List Text :=
  totalCountLine i macs.length ::
    if macs = [] then [] else [macLine i (macList macs),phyRateLine i rate]

theorem portLines_of_limits {rsizeMax i : Nat} {output_struct : Option (List EthDevice)}
    (h : WithinLimits rsizeMax i output_struct) (rate : Text) :
    ∃ r, clientMacs rsizeMax true i output_struct = some r ∧
      portLines i rate r = clientLines i rate (clientsOn i output_struct) := by
  by_cases hnone : clientsOn i output_struct = []
  · refine ⟨⟨0,none⟩,clientMacs_of_none rsizeMax h.1 hnone,?_⟩
    rw [hnone]
    rfl
  · obtain ⟨⟨count,mac_address⟩,hr,hcount,htext⟩ := clientsListed_of_limits h
    obtain ⟨mac,hmac,-,-,hlist⟩ := htext hnone
    refine ⟨_,hr,?_⟩
    simp only at hcount hmac
    simp only [portLines,clientLines,hcount,hmac,hlist,if_neg hnone]

theorem ethernetLog_eq {rsizeMax : Nat} (rate : Nat → Text)
    {output_struct : Option (List EthDevice)} {ports : List Nat}
    (h : ∀ i ∈ ports, WithinLimits rsizeMax i output_struct) :
    ethernetLog rsizeMax (fun _ => true) rate output_struct ports =
      some (ports.flatMap fun i => clientLines i (rate i) (clientsOn i output_struct)) := by
  induction ports with
  | nil => rfl
  | cons i ports ih =>
    obtain ⟨r,hr,hlines⟩ := portLines_of_limits (h i List.mem_cons_self) (rate i)
    have hrest := ih fun j hj => h j (List.mem_cons_of_mem i hj)
    simp only [ethernetLog,hr,hrest,Option.bind_eq_bind,Option.bind_some,hlines,
      List.flatMap_cons]

end Log

end EthAgent.EthernetLog
