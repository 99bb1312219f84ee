import EthAgent.Device
import EthAgent.Lib.Probing
import EthAgent.Lib.Runs

/-!
The hash tables of eth_hal_interface.c: 256 slots, keyed by MAC address, with
linear probing. `CcspHalExtSw_FindHost` stops at the first empty slot, while
`CcspHalExtSw_DeleteHost` empties a slot in the middle of a chain.
-/

set_option autoImplicit false

namespace EthAgent
open CString Probing Runs

abbrev HostTable := Table ethNodeHashSize EthDevice

def emptyHosts : HostTable := fun _ => none

/-- The loop of `CcspHalExtSw_FindHost` from `hashIndex` on; the fuel bounds its
iterations. -/
def findHostLoop (list : HostTable) (recvMacId : Buf 18) (startIndex : Slot) :
    Nat → Slot → Option Slot
  | 0, _ => none
  | fuel+1, hashIndex =>
    match list hashIndex with
    | none => none
    | some host =>
      if macId host.ethDevMacAddress = recvMacId then some hashIndex
      else if next hashIndex = startIndex then none
      else findHostLoop list recvMacId startIndex fuel (next hashIndex)

/-- `CcspHalExtSw_FindHost`. The slot stands for the device pointer returned and
for what it writes to `puiHashIndex`. -/
def findHost (pstEthHost : Option EthDevice) (list : HostTable) : Option Slot :=
  match pstEthHost with
  | none => none
  | some host =>
    let recvMacId := macId host.ethDevMacAddress
    let startIndex := macHash recvMacId.text
    findHostLoop list recvMacId startIndex ethNodeHashSize startIndex

/-- What a call leaves behind: its return value, the table, and the devices it
passed to `AssociatedDevice_callback`. -/
structure HostCall where
  ret : Int
  list : HostTable
  notified : List EthDevice

/-- The loop of `CcspHalExtSw_AddHost` from `hashIndex` on. -/
def addHostLoop (list : HostTable) (startIndex : Slot) : Nat → Slot → Option Slot
  | 0, _ => none
  | fuel+1, hashIndex =>
    match list hashIndex with
    | none => some hashIndex
    | some _ =>
      if next hashIndex = startIndex then none
      else addHostLoop list startIndex fuel (next hashIndex)

/-- `CcspHalExtSw_AddHost`. `registered` says that a callback is registered,
`copied` that `malloc` and `memcpy_s` succeed. -/
def addHost (registered copied : Bool) (pstEthHost : Option EthDevice) (list : HostTable)
    (bIsNeed2Notify : Bool) : HostCall :=
  match pstEthHost with
  | none => ⟨-1,list,[]⟩
  | some host =>
    if copied then
      let startIndex := macHash (macId host.ethDevMacAddress).text
      match addHostLoop list startIndex ethNodeHashSize startIndex with
      | none => ⟨-1,list,[]⟩
      | some hashIndex =>
        let localHost := { host with ethActive := true }
        ⟨0,Function.update list hashIndex (some localHost),
          if registered && bIsNeed2Notify then [localHost] else []⟩
    else ⟨-1,list,[]⟩

/-- The notification and the removal of one slot, as `CcspHalExtSw_DeleteHost`
and `CcspHalExtSw_DeleteAllHosts` both have it. -/
def deleteSlot (registered bIsNeed2Notify : Bool) (list : HostTable) (i : Slot) :
    HostTable × List EthDevice :=
  match list i with
  | none => (list,[])
  | some host =>
    (Function.update list i none,
      if registered && bIsNeed2Notify then [{ host with ethActive := false }] else [])

def deleteHost (registered : Bool) (pstEthHost : Option EthDevice) (list : HostTable)
    (bIsNeed2Notify : Bool) : HostCall :=
  match pstEthHost with
  | none => ⟨-1,list,[]⟩
  | some host =>
    match findHost (some host) list with
    | none => ⟨0,list,[]⟩
    | some uiDeleteHashIndex =>
      let removed := deleteSlot registered bIsNeed2Notify list uiDeleteHashIndex
      ⟨0,removed.1,removed.2⟩

def deleteAllHosts (registered : Bool) (list : HostTable) (bIsNeed2Notify : Bool) :
    HostTable × List EthDevice :=
  exec (logged (deleteSlot registered bIsNeed2Notify)) (list,[])
    (List.finRange ethNodeHashSize)

def sendNotificationForAllHosts (registered : Bool) (list : HostTable) : List EthDevice :=
  if registered then (List.finRange ethNodeHashSize).filterMap list else []

def homeSlot (m : Mac) : Slot := macHash (macId m).text

abbrev FindsHost (list : HostTable) (m : Mac) (i : Slot) : Prop :=
  Finds EthDevice.ethDevMacAddress homeSlot list m i

theorem findHostLoop_eq_scan (list : HostTable) (m : Mac) (start : Slot) (fuel : Nat)
    (i : Slot) :
    findHostLoop list (macId m) start fuel i =
      (scan (fun j => (list j).all (fun d => d.ethDevMacAddress = m)) start fuel i).filter
        (fun j => (list j).isSome) := by
  induction fuel generalizing i with
  | zero => rfl
  | succ fuel ih =>
    cases hl : list i with
    | none => simp [findHostLoop,scan,hl,Option.filter]
    | some host =>
      by_cases hm : host.ethDevMacAddress = m
      · simp [findHostLoop,scan,hl,hm,Option.filter]
      · have hid : macId host.ethDevMacAddress ≠ macId m := fun h => hm (macId_injective h)
        by_cases hn : next i = start
        · simp [findHostLoop,scan,hl,hm,hid,hn]
        · simp [findHostLoop,scan,hl,hm,hid,hn,ih]

theorem findHost_eq_some_iff (host : EthDevice) (list : HostTable) (i : Slot) :
    findHost (some host) list = some i ↔ FindsHost list host.ethDevMacAddress i := by
  simp only [findHost,findHostLoop_eq_scan,Option.filter_eq_some_iff]
  rw [scan_eq_some_iff]
  constructor
  · rintro ⟨⟨hstop,hbefore⟩,hsome⟩
    obtain ⟨d,hd⟩ := Option.isSome_iff_exists.mp hsome
    refine ⟨⟨d,hd,by simpa [hd] using hstop⟩,fun j hj => ?_⟩
    have hb := hbefore j hj
    cases hl : list j with
    | none => simp [hl] at hb
    | some e => exact ⟨e,rfl,by simpa [hl] using hb⟩
  · rintro ⟨⟨d,hd,hm⟩,hreach⟩
    rw [Option.mem_def] at hd
    refine ⟨⟨by simpa [hd] using hm,fun j hj => ?_⟩,by simp [hd]⟩
    obtain ⟨e,he,hne⟩ := hreach j hj
    rw [Option.mem_def] at he
    simpa [he] using hne

theorem addHostLoop_eq_scan (list : HostTable) (start : Slot) (fuel : Nat) (i : Slot) :
    addHostLoop list start fuel i = scan (fun j => (list j).isNone) start fuel i := by
  induction fuel generalizing i with
  | zero => rfl
  | succ fuel ih =>
    cases hl : list i with
    | none => simp [addHostLoop,scan,hl]
    | some host => simp [addHostLoop,scan,hl,ih]

/-- `CcspHalExtSw_AddHost` fails without a trace, or stores an active copy in a
free slot behind taken ones. -/
theorem addHost_cases (registered copied : Bool) (host : EthDevice) (list : HostTable)
    (notify : Bool) :
    addHost registered copied (some host) list notify = ⟨-1,list,[]⟩ ∨
      ∃ i, list i = none ∧
        (∀ j, dist (homeSlot host.ethDevMacAddress) j <
          dist (homeSlot host.ethDevMacAddress) i → list j ≠ none) ∧
        addHost registered copied (some host) list notify =
          ⟨0,Function.update list i (some { host with ethActive := true }),
            if registered && notify then [{ host with ethActive := true }] else []⟩ := by
  cases copied with
  | false => exact .inl rfl
  | true =>
    have hscan := addHostLoop_eq_scan list (homeSlot host.ethDevMacAddress) ethNodeHashSize
      (homeSlot host.ethDevMacAddress)
    cases hl : addHostLoop list (homeSlot host.ethDevMacAddress) ethNodeHashSize
        (homeSlot host.ethDevMacAddress) with
    | none =>
      left
      simp only [homeSlot] at hl
      simp [addHost,hl]
    | some i =>
      right
      rw [hl] at hscan
      obtain ⟨hfree,hbefore⟩ := (scan_eq_some_iff _ _ i).mp hscan.symm
      refine ⟨i,by simpa using hfree,fun j hj => ?_,?_⟩
      · have hb := hbefore j hj
        exact Option.isSome_iff_ne_none.mp (by simpa using hb)
      · simp only [homeSlot] at hl
        simp [addHost,hl]

/-- `CcspHalExtSw_DeleteHost` does nothing, or empties the slot where the lookup
ends. -/
theorem deleteHost_cases (registered : Bool) (host : EthDevice) (list : HostTable)
    (notify : Bool) :
    (findHost (some host) list = none ∧
      deleteHost registered (some host) list notify = ⟨0,list,[]⟩) ∨
      ∃ i, ∃ d ∈ list i, findHost (some host) list = some i ∧
        d.ethDevMacAddress = host.ethDevMacAddress ∧
        deleteHost registered (some host) list notify =
          ⟨0,Function.update list i none,
            if registered && notify then [{ d with ethActive := false }] else []⟩ := by
  cases hf : findHost (some host) list with
  | none => exact .inl ⟨rfl,by simp [deleteHost,hf]⟩
  | some i =>
    obtain ⟨⟨d,hd,hm⟩,-⟩ := (findHost_eq_some_iff host list i).mp hf
    refine .inr ⟨i,d,hd,rfl,hm,?_⟩
    rw [Option.mem_def] at hd
    simp [deleteHost,hf,deleteSlot,hd]

theorem deleteSlot_apply (registered notify : Bool) (list : HostTable) (i j : Slot) :
    (deleteSlot registered notify list i).1 j = if j = i then none else list j := by
  unfold deleteSlot
  cases hl : list i with
  | none => by_cases hj : j = i <;> simp [hj,hl]
  | some d => simp [Function.update_apply]

theorem exec_deleteSlot_apply (registered notify : Bool) (p : HostTable × List EthDevice)
    (is : List Slot) (j : Slot) :
    (exec (logged (deleteSlot registered notify)) p is).1 j =
      if j ∈ is then none else p.1 j := by
  induction is generalizing p with
  | nil => simp
  | cons i is ih =>
    rw [exec_cons,ih]
    simp only [logged,deleteSlot_apply,List.mem_cons]
    by_cases hj : j = i <;> by_cases hm : j ∈ is <;> simp [hj,hm]

theorem deleteAllHosts_fst (registered : Bool) (list : HostTable) (notify : Bool) :
    (deleteAllHosts registered list notify).1 = emptyHosts := by
  funext j
  simp [deleteAllHosts,exec_deleteSlot_apply,emptyHosts]

/-- A call of one of the three functions that change a table. -/
inductive HostOp where
  | add (copied : Bool) (host : Option EthDevice) (notify : Bool)
  | delete (host : Option EthDevice) (notify : Bool)
  | deleteAll (notify : Bool)

def hostOp (registered : Bool) (list : HostTable) : HostOp → HostTable
  | .add copied host notify => (addHost registered copied host list notify).list
  | .delete host notify => (deleteHost registered host list notify).list
  | .deleteAll notify => (deleteAllHosts registered list notify).1

/-- `CcspHalExtSw_FindHost` finds exactly the MACs that some slot stores. -/
def LookupComplete (list : HostTable) : Prop :=
  ∀ host, (findHost (some host) list).isSome ↔
    ∃ i, ∃ d ∈ list i, d.ethDevMacAddress = host.ethDevMacAddress

/-- No lookup of a device in another slot looks at slot `i`. -/
abbrev UnusedSlot (list : HostTable) (i : Slot) : Prop :=
  Unused EthDevice.ethDevMacAddress homeSlot list i

/-- The slot that a call of `CcspHalExtSw_DeleteHost` empties is not on the way
to a device that stays stored. -/
def EmptiesUnused (host : Option EthDevice) (list : HostTable) : Prop :=
  ∀ i ∈ findHost host list, UnusedSlot list i

instance decidableEmptiesUnused (host : Option EthDevice) (list : HostTable) :
    Decidable (EmptiesUnused host list) := inferInstanceAs (Decidable (∀ _ ∈ _, _))

def DeletesUnused (list : HostTable) : HostOp → Prop
  | .delete host _ => EmptiesUnused host list
  | _ => True

theorem lookupComplete_iff (list : HostTable) :
    LookupComplete list ↔ Complete EthDevice.ethDevMacAddress homeSlot list := by
  have hfinds : ∀ host : EthDevice, (findHost (some host) list).isSome ↔
      ∃ i, FindsHost list host.ethDevMacAddress i := by
    intro host
    rw [Option.isSome_iff_exists]
    exact exists_congr fun i => findHost_eq_some_iff host list i
  constructor
  · intro h m
    have hm := h ⟨m,0,false⟩
    rw [hfinds] at hm
    exact hm
  · intro h host
    rw [hfinds]
    exact h host.ethDevMacAddress

theorem complete_addHost (registered copied : Bool) (host : Option EthDevice)
    (list : HostTable) (notify : Bool) (h : LookupComplete list) :
    LookupComplete (addHost registered copied host list notify).list := by
  cases host with
  | none => exact h
  | some host =>
    rcases addHost_cases registered copied host list notify with
      heq | ⟨i,hfree,hpath,heq⟩
    · rw [heq]; exact h
    · rw [heq,lookupComplete_iff]
      exact complete_insert hfree ((lookupComplete_iff list).mp h) hpath

theorem complete_deleteHost_iff (registered : Bool) (host : Option EthDevice)
    (list : HostTable) (notify : Bool) (h : LookupComplete list) :
    LookupComplete (deleteHost registered host list notify).list ↔
      EmptiesUnused host list := by
  cases host with
  | none => exact ⟨fun _ i hi => absurd hi (by simp [findHost]),fun _ => h⟩
  | some host =>
    rcases deleteHost_cases registered host list notify with
      ⟨hnone,heq⟩ | ⟨i,d,hd,hf,-,heq⟩
    · rw [heq]
      exact ⟨fun _ i hi => absurd hi (by simp [hnone]),fun _ => h⟩
    · rw [heq,lookupComplete_iff,complete_erase_iff ((lookupComplete_iff list).mp h)]
      constructor
      · intro hun j hj
        rw [hf,Option.mem_some_iff] at hj
        exact hj ▸ hun
      · intro hall
        exact hall i hf

theorem complete_emptyHosts : LookupComplete emptyHosts :=
  (lookupComplete_iff _).mpr complete_empty

/-- Along a run of table calls, lookups stay complete exactly as long as every
deletion empties a slot that no other lookup looks at. -/
theorem lookupComplete_always_iff (registered : Bool) (ops : List HostOp) :
    Always (hostOp registered) LookupComplete emptyHosts ops ↔
      Meets (hostOp registered) DeletesUnused emptyHosts ops := by
  have hstep : ∀ list op, LookupComplete list →
      (LookupComplete (hostOp registered list op) ↔ DeletesUnused list op) := by
    intro list op h
    cases op with
    | add copied host notify =>
      exact ⟨fun _ => trivial,fun _ => complete_addHost registered copied host list notify h⟩
    | delete host notify => exact complete_deleteHost_iff registered host list notify h
    | deleteAll notify =>
      refine ⟨fun _ => trivial,fun _ => ?_⟩
      rw [hostOp,deleteAllHosts_fst]
      exact complete_emptyHosts
  exact always_iff_meets (J := LookupComplete) complete_emptyHosts
    (fun list op h hc => (hstep list op h).mpr hc) (fun _ h => h)
    (fun list op h => (hstep list op h).mp)

/-- Two devices whose MAC texts have the same home slot. -/
def hostA : EthDevice := ⟨⟨0x00,0x11,0x22,0x33,0x44,0x55⟩,1,true⟩
def hostB : EthDevice := ⟨⟨0x00,0x11,0x22,0x33,0x44,0xDF⟩,2,true⟩

/-- Deleting the first of two colliding devices hides the second, still stored. -/
theorem lookup_loses_stored_host :
    ¬ LookupComplete (exec (hostOp true) emptyHosts
      [.add true (some hostA) true,.add true (some hostB) true,
        .delete (some hostA) true]) := by
  intro h
  have hstored := (h hostB).mpr ⟨⟨6,by decide⟩,hostB,by decide +kernel,rfl⟩
  exact absurd hstored (by decide +kernel)

end EthAgent
