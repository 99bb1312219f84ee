import EthAgent.Lib.Scanf
import EthAgent.PhyPath

/-!
What the agent sets in the WAN manager, call by call: the lookup of its entry by
name, the sets that follow, and what is made of the replies of the bus.
-/

set_option autoImplicit false

namespace EthAgent.WanNotify
open CString Packed Scanf

/-- What the bus answers to `CcspBaseIf_getParameterValues` for one parameter: an
error, or success without or with a value. -/
inductive GetReply where
  | failed
  | noValue
  | value (parameterValue : Text)
  deriving DecidableEq

/-- What the bus answers to `CcspBaseIf_setParameterValues`: whether `ret` is
`CCSP_SUCCESS`, and whether there is a `faultParam`. -/
structure SetReply where
  accepted : Bool
  faultParam : Bool
  deriving DecidableEq

/-- The WAN manager behind the bus: its answers to gets by the name of the parameter,
those to sets by the place of the set in the run; and what `atoi` makes of the count of
entries when no `int` holds it. -/
structure WanBus where
  int : IntStore
  get : Text → GetReply
  set : Nat → SetReply

inductive DataType where
  | ccspString
  | ccspBoolean
  deriving DecidableEq

structure ParameterVal where
  parameterName : Text
  parameterValue : Text
  type : DataType
  deriving DecidableEq

/-- `AUTOWAN_ENABLE` and `WAN_MANAGER_UNIFICATION_ENABLED`. -/
structure WanBuild where
  autowanEnable : Bool
  wanManagerUnification : Bool

def WanBuild.setsPhyPath (b : WanBuild) : Bool := !b.autowanEnable || b.wanManagerUnification

def wanNoeParamName (unified : Bool) : Text :=
  if unified then "Device.X_RDK_WanManager.InterfaceNumberOfEntries".toList
  else "Device.X_RDK_WanManager.CPEInterfaceNumberOfEntries".toList

def wanEntryParam (unified : Bool) (n : Nat) (unifiedParam param : Text) : Text :=
  if unified then "Device.X_RDK_WanManager.Interface.".toList ++ decimal n ++ '.' :: unifiedParam
  else "Device.X_RDK_WanManager.CPEInterface.".toList ++ decimal n ++ '.' :: param

def wanIfNameParamName (unified : Bool) (n : Nat) : Text :=
  wanEntryParam unified n "Name".toList "Name".toList

def wanPhyStatusParamName (unified : Bool) (n : Nat) : Text :=
  wanEntryParam unified n "BaseInterfaceStatus".toList "Phy.Status".toList

def wanPhyPathParamName (unified : Bool) (n : Nat) : Text :=
  wanEntryParam unified n "BaseInterface".toList "Phy.Path".toList

def wanLinkStatusParamName (unified : Bool) (n : Nat) : Text :=
  wanEntryParam unified n "VirtualInterface.1.VlanStatus".toList "Wan.LinkStatus".toList

def wanInterfaceParamName (unified : Bool) (n : Nat) : Text :=
  wanEntryParam unified n "VirtualInterface.1.Name".toList "Wan.Name".toList

/-- `CosaDmlEthGetParamValues`: `some none` is `ANSC_STATUS_FAILURE`, and `none` a value
that is copied past the 256 bytes of its caller. -/
def cosaDmlEthGetParamValues (w : WanBus) (pParamName pReturnVal : Text) :
    Option (Option Text) :=
  match w.get pParamName with
  | .failed => some none
  | .noValue => some (some pReturnVal)
  | .value parameterValue =>
    if parameterValue.length < 256 then some (some parameterValue) else none

def cosaDmlEthSetParamValues (w : WanBus) (sent : List ParameterVal)
    (paramVal : ParameterVal) : Bool × List ParameterVal :=
  let reply := w.set sent.length
  (!(!reply.accepted && reply.faultParam),sent ++ [paramVal])

def scanEntries (unified : Bool) (w : WanBus) (pLowerLayers : Text) :
    Nat → Nat → Option (Option Nat)
  | 0, _ => some none
  | left+1, i =>
    (cosaDmlEthGetParamValues w (wanIfNameParamName unified (i+1)) []).bind fun
      | none => scanEntries unified w pLowerLayers left (i+1)
      | some acTmpReturnValue =>
        if acTmpReturnValue = pLowerLayers then some (some (i+1))
        else scanEntries unified w pLowerLayers left (i+1)

/-- `CosaDmlEthGetLowerLayersInstanceInOtherAgent(NOTIFY_TO_WAN_AGENT, …)`; `some none`
for the instance -1. -/
def cosaDmlEthGetLowerLayersInstanceInOtherAgent (unified : Bool) (w : WanBus)
    (pLowerLayers : Text) : Option (Option Nat) :=
  (cosaDmlEthGetParamValues w (wanNoeParamName unified) []).bind fun
    | none => some none
    | some acTmpReturnValue =>
      scanEntries unified w pLowerLayers (w.int.store (atoi acTmpReturnValue)).toNat 0

/-- The Name of the copied record; without a record it stays empty. -/
def copiedName (t : PortTable) (ifname : Text) : Text :=
  (cosaDmlEthPortGetCopyOfGlobalInfoForGivenIfName t (some ifname)).elim [] fun r => r.name.text

def wanInstance (unified : Bool) (w : WanBus) (t : PortTable) (ifname : Text) :
    Option (Option Nat) :=
  cosaDmlEthGetLowerLayersInstanceInOtherAgent unified w (copiedName t ifname)

/-- The status of a function with the sets it made; `none` where it has no defined
result. -/
abbrev Outcome := Option (Bool × List ParameterVal)

/-- What follows the check of the pointers, `sets` being what is done with the
instance. -/
def withInstance (unified : Bool) (w : WanBus) (t : PortTable) (ifname value : Option Text)
    (sets : Text → Text → Nat → Bool × List ParameterVal) : Outcome :=
  match ifname,value with
  | some ifname,some value =>
    (wanInstance unified w t ifname).map fun
      | none => (false,[])
      | some iWANInstance => sets ifname value iWANInstance
  | _,_ => some (false,[])

def cosaDmlEthSetWanLinkStatusForWanManager (w : WanBus) (t : PortTable)
    (ifname wanStatus : Option Text) : Outcome :=
  withInstance false w t ifname wanStatus fun _ wanStatus iWANInstance =>
    (true,(cosaDmlEthSetParamValues w []
      ⟨wanLinkStatusParamName false iWANInstance,wanStatus.take 255,.ccspString⟩).2)

def cosaDmlEthSetWanInterfaceNameForWanManager (w : WanBus) (t : PortTable)
    (ifname wanIfName : Option Text) : Outcome :=
  withInstance false w t ifname wanIfName fun _ wanIfName iWANInstance =>
    (true,(cosaDmlEthSetParamValues w []
      ⟨wanInterfaceParamName false iWANInstance,wanIfName.take 255,.ccspString⟩).2)

def setPhyPathAndStatus (b : WanBuild) (w : WanBus) (t : PortTable) (ifname phyStatus : Text)
    (iWANInstance : Nat) : Bool × List ParameterVal :=
  let status : ParameterVal :=
    ⟨wanPhyStatusParamName b.wanManagerUnification iWANInstance,phyStatus,.ccspString⟩
  if b.setsPhyPath then
    match cosaDmlEthPortGetIndexFromIfName t (some ifname) with
    | none => (false,[])
    | some iLinkInstance =>
      let path := cosaDmlEthSetParamValues w []
        ⟨wanPhyPathParamName b.wanManagerUnification iWANInstance,
          ethIfPhyPath (iLinkInstance+1),.ccspString⟩
      if path.1 then cosaDmlEthSetParamValues w path.2 status else (false,path.2)
  else cosaDmlEthSetParamValues w [] status

def cosaDmlEthSetPhyStatusForWanManager (b : WanBuild) (w : WanBus) (t : PortTable)
    (ifname phyStatus : Option Text) : Outcome :=
  withInstance b.wanManagerUnification w t ifname phyStatus (setPhyPathAndStatus b w t)

/-- The reply gives the text, as a value or, being empty, as the lack of one. -/
def Reads (r : GetReply) (t : Text) : Prop := r = .value t ∨ r = .noValue ∧ t = []

/-- The value does not fit in the 256 bytes of the caller. -/
def Overlong (r : GetReply) : Prop := ∃ v, r = .value v ∧ 256 ≤ v.length

section Lookup

variable {unified : Bool} {w : WanBus} {p : Text}

theorem getParamValues_eq_none_iff (w : WanBus) (key buf : Text) :
    cosaDmlEthGetParamValues w key buf = none ↔ Overlong (w.get key) := by
  unfold cosaDmlEthGetParamValues Overlong
  cases w.get key with
  | failed => simp
  | noValue => simp
  | value v => simp

theorem getParamValues_eq_some_iff (key : Text) (hp : p.length < 256) :
    cosaDmlEthGetParamValues w key [] = some (some p) ↔ Reads (w.get key) p := by
  unfold cosaDmlEthGetParamValues Reads
  cases w.get key with
  | failed => simp
  | noValue => simp [eq_comm]
  | value v =>
    simp only [GetReply.value.injEq,reduceCtorEq,false_and,or_false]
    constructor
    · intro h
      split at h
      · exact Option.some.inj (Option.some.inj h)
      · exact absurd h (by simp)
    · rintro rfl
      rw [if_pos hp]

theorem scanEntries_succ (unified : Bool) (w : WanBus) (hp : p.length < 256) (left i : Nat) :
    (Overlong (w.get (wanIfNameParamName unified (i+1))) ∧
        scanEntries unified w p (left+1) i = none) ∨
      (Reads (w.get (wanIfNameParamName unified (i+1))) p ∧
        scanEntries unified w p (left+1) i = some (some (i+1))) ∨
      (¬ Overlong (w.get (wanIfNameParamName unified (i+1))) ∧
        ¬ Reads (w.get (wanIfNameParamName unified (i+1))) p ∧
        scanEntries unified w p (left+1) i = scanEntries unified w p left (i+1)) := by
  rw [scanEntries,← getParamValues_eq_none_iff w _ [],← getParamValues_eq_some_iff _ hp]
  cases hget : cosaDmlEthGetParamValues w (wanIfNameParamName unified (i+1)) [] with
  | none => exact .inl ⟨rfl,rfl⟩
  | some o =>
    cases o with
    | none => exact .inr (.inr ⟨by simp,by simp,rfl⟩)
    | some v =>
      by_cases hv : v = p
      · exact .inr (.inl ⟨by rw [hv],by simp [hv]⟩)
      · exact .inr (.inr ⟨by simp,by simpa using hv,by simp [hv]⟩)

theorem not_reads_of_overlong {r : GetReply} (hp : p.length < 256) (h : Overlong r) :
    ¬ Reads r p := by
  obtain ⟨v,rfl,hv⟩ := h
  rintro (h | ⟨h,-⟩)
  · rw [GetReply.value.injEq] at h
    rw [h] at hv
    omega
  · cases h

theorem scanEntries_absent_iff (unified : Bool) (w : WanBus) (hp : p.length < 256)
    (left i : Nat) :
    scanEntries unified w p left i = some none ↔
      ∀ k < left, ¬ Overlong (w.get (wanIfNameParamName unified (i+k+1))) ∧
        ¬ Reads (w.get (wanIfNameParamName unified (i+k+1))) p := by
  induction left generalizing i with
  | zero => simp [scanEntries]
  | succ left ih =>
    rw [Nat.forall_lt_succ_left]
    rcases scanEntries_succ unified w hp left i with ⟨hover,heq⟩ | ⟨hreads,heq⟩ | ⟨hover,hreads,heq⟩
    · rw [heq]
      exact ⟨fun h => absurd h (by simp),fun h => absurd hover h.1.1⟩
    · rw [heq]
      exact ⟨fun h => absurd h (by simp),fun h => absurd hreads h.1.2⟩
    · rw [heq,ih]
      simp only [Nat.add_zero,Nat.add_right_comm i 1]
      exact ⟨fun h => ⟨⟨hover,hreads⟩,h⟩,fun h => h.2⟩

/-- The loop has a result unless a value overruns its buffer before the name is found. -/
theorem scanEntries_isSome_iff (unified : Bool) (w : WanBus) (hp : p.length < 256)
    (left i : Nat) :
    (scanEntries unified w p left i).isSome = true ↔
      ∀ k < left, Overlong (w.get (wanIfNameParamName unified (i+k+1))) →
        ∃ j < k, Reads (w.get (wanIfNameParamName unified (i+j+1))) p := by
  induction left generalizing i with
  | zero => simp [scanEntries]
  | succ left ih =>
    rw [Nat.forall_lt_succ_left]
    rcases scanEntries_succ unified w hp left i with ⟨hover,heq⟩ | ⟨hreads,heq⟩ | ⟨hover,hreads,heq⟩
    · rw [heq]
      exact ⟨fun h => absurd h (by simp),fun h => by simpa using h.1 hover⟩
    · rw [heq]
      exact ⟨fun _ => ⟨fun h => absurd hreads (not_reads_of_overlong hp h),
        fun k _ _ => ⟨0,Nat.succ_pos k,hreads⟩⟩,fun _ => rfl⟩
    · rw [heq,ih]
      simp only [Nat.add_zero,Nat.add_right_comm i 1]
      constructor
      · refine fun h => ⟨fun h0 => absurd h0 hover,fun k hk hkover => ?_⟩
        obtain ⟨j,hj,hjreads⟩ := h k hk hkover
        exact ⟨j+1,by omega,hjreads⟩
      · rintro ⟨-,h⟩ k hk hkover
        obtain ⟨j,hj,hjreads⟩ := h k hk hkover
        cases j with
        | zero => exact absurd hjreads hreads
        | succ j => exact ⟨j,by omega,hjreads⟩

def announced (unified : Bool) (w : WanBus) : Nat :=
  match w.get (wanNoeParamName unified) with
  | .value v => (w.int.store (atoi v)).toNat
  | _ => 0

def NoEntryNamed (unified : Bool) (w : WanBus) (p : Text) : Prop :=
  ¬ Overlong (w.get (wanNoeParamName unified)) ∧
    ∀ k < announced unified w, ¬ Overlong (w.get (wanIfNameParamName unified (k+1))) ∧
      ¬ Reads (w.get (wanIfNameParamName unified (k+1))) p

/-- What overruns the buffer stands behind an entry with the name. -/
def NamedBeforeOverlong (unified : Bool) (w : WanBus) (p : Text) : Prop :=
  ¬ Overlong (w.get (wanNoeParamName unified)) ∧
    ∀ k < announced unified w, Overlong (w.get (wanIfNameParamName unified (k+1))) →
      ∃ j < k, Reads (w.get (wanIfNameParamName unified (j+1))) p

theorem getLowerLayersInstance_cases (unified : Bool) (w : WanBus) (p : Text) :
    (Overlong (w.get (wanNoeParamName unified)) ∧
        cosaDmlEthGetLowerLayersInstanceInOtherAgent unified w p = none) ∨
      (¬ Overlong (w.get (wanNoeParamName unified)) ∧
        cosaDmlEthGetLowerLayersInstanceInOtherAgent unified w p =
          scanEntries unified w p (announced unified w) 0) := by
  unfold cosaDmlEthGetLowerLayersInstanceInOtherAgent cosaDmlEthGetParamValues announced Overlong
  have hempty : w.int.store (atoi []) = 0 := w.int.exact 0 (by decide) (by decide)
  cases w.get (wanNoeParamName unified) with
  | failed => exact .inr ⟨by simp,rfl⟩
  | noValue => exact .inr ⟨by simp,by simp [hempty,scanEntries]⟩
  | value v =>
    by_cases hv : v.length < 256
    · exact .inr ⟨by simpa using hv,by simp [hv]⟩
    · exact .inl ⟨⟨v,rfl,Nat.le_of_not_lt hv⟩,by simp [hv]⟩

theorem getLowerLayersInstance_absent_iff (unified : Bool) (w : WanBus) (hp : p.length < 256) :
    cosaDmlEthGetLowerLayersInstanceInOtherAgent unified w p = some none ↔
      NoEntryNamed unified w p := by
  unfold NoEntryNamed
  rcases getLowerLayersInstance_cases unified w p with ⟨hover,heq⟩ | ⟨hover,heq⟩
  · rw [heq]
    exact ⟨fun h => absurd h (by simp),fun h => absurd hover h.1⟩
  · rw [heq,scanEntries_absent_iff unified w hp]
    simp [hover]

theorem getLowerLayersInstance_isSome_iff (unified : Bool) (w : WanBus) (hp : p.length < 256) :
    (cosaDmlEthGetLowerLayersInstanceInOtherAgent unified w p).isSome = true ↔
      NamedBeforeOverlong unified w p := by
  unfold NamedBeforeOverlong
  rcases getLowerLayersInstance_cases unified w p with ⟨hover,heq⟩ | ⟨hover,heq⟩
  · rw [heq]
    exact ⟨fun h => absurd h (by simp),fun h => absurd hover h.1⟩
  · rw [heq,scanEntries_isSome_iff unified w hp]
    simp [hover]

end Lookup

section Strangers

variable {t : PortTable} {ifname : Text}

/-- Nothing is set, and the status is failure. -/
def Unnotified (o : Outcome) : Prop := o = some (false,[])

theorem copiedName_stranger (h : ifname ∉ t.names) : copiedName t ifname = [] := by
  have hindex := (getIndexFromIfName_eq_none_iff t ifname).mpr h
  simp [copiedName,cosaDmlEthPortGetCopyOfGlobalInfoForGivenIfName,hindex]

theorem unnotified_withInstance_iff {unified : Bool} {w : WanBus} {value : Option Text}
    {sets : Text → Text → Nat → Bool × List ParameterVal} (h : ifname ∉ t.names)
    (hsets : ∀ v n, sets ifname v n ≠ (false,[])) :
    Unnotified (withInstance unified w t (some ifname) value sets) ↔
      value = none ∨ NoEntryNamed unified w [] := by
  have hempty : ([] : Text).length < 256 := by decide
  cases value with
  | none => simp [Unnotified,withInstance]
  | some v =>
    rw [← getLowerLayersInstance_absent_iff unified w hempty]
    simp only [Unnotified,withInstance,wanInstance,copiedName_stranger h,reduceCtorEq,false_or]
    cases hl : cosaDmlEthGetLowerLayersInstanceInOtherAgent unified w [] with
    | none => simp
    | some o =>
      cases o with
      | none => simp
      | some n => simpa using hsets v n

theorem setWanLinkStatus_stranger (w : WanBus) (h : ifname ∉ t.names) (value : Option Text) :
    Unnotified (cosaDmlEthSetWanLinkStatusForWanManager w t (some ifname) value) ↔
      value = none ∨ NoEntryNamed false w [] :=
  unnotified_withInstance_iff h fun _ _ => by simp

theorem setWanInterfaceName_stranger (w : WanBus) (h : ifname ∉ t.names)
    (value : Option Text) :
    Unnotified (cosaDmlEthSetWanInterfaceNameForWanManager w t (some ifname) value) ↔
      value = none ∨ NoEntryNamed false w [] :=
  unnotified_withInstance_iff h fun _ _ => by simp

/-- The builds that set the path look for the index of the port first, and do not find
one. -/
theorem setPhyStatus_stranger (b : WanBuild) (w : WanBus) (h : ifname ∉ t.names)
    (value : Option Text) :
    Unnotified (cosaDmlEthSetPhyStatusForWanManager b w t (some ifname) value) ↔
      value = none ∨ if b.setsPhyPath then NamedBeforeOverlong b.wanManagerUnification w []
        else NoEntryNamed b.wanManagerUnification w [] := by
  cases hb : b.setsPhyPath with
  | false =>
    have hsets : ∀ v n, setPhyPathAndStatus b w t ifname v n ≠ (false,[]) :=
      fun _ _ => by simp [setPhyPathAndStatus,cosaDmlEthSetParamValues,hb]
    simp only [Bool.false_eq_true,if_false]
    exact unnotified_withInstance_iff h hsets
  | true =>
    have hempty : ([] : Text).length < 256 := by decide
    have hindex := (getIndexFromIfName_eq_none_iff t ifname).mpr h
    simp only [if_true,← getLowerLayersInstance_isSome_iff b.wanManagerUnification w hempty,
      cosaDmlEthSetPhyStatusForWanManager,Unnotified,withInstance,wanInstance,
      setPhyPathAndStatus,hb]
    cases value with
    | none => simp
    | some v =>
      simp only [copiedName_stranger h,hindex]
      cases cosaDmlEthGetLowerLayersInstanceInOtherAgent b.wanManagerUnification w [] with
      | none => simp
      | some o => cases o <;> simp

/-- A name that is not in the table leaves the WAN manager alone exactly if no entry of
its table can be taken for one without a name. -/
theorem strangers_unnotified_iff (b : WanBuild) (w : WanBus) (h : ifname ∉ t.names)
    (value : Option Text) :
    (Unnotified (cosaDmlEthSetWanLinkStatusForWanManager w t (some ifname) value) ↔
        value = none ∨ NoEntryNamed false w []) ∧
      (Unnotified (cosaDmlEthSetWanInterfaceNameForWanManager w t (some ifname) value) ↔
        value = none ∨ NoEntryNamed false w []) ∧
      (Unnotified (cosaDmlEthSetPhyStatusForWanManager b w t (some ifname) value) ↔
        value = none ∨ if b.setsPhyPath then NamedBeforeOverlong b.wanManagerUnification w []
          else NoEntryNamed b.wanManagerUnification w []) :=
  ⟨setWanLinkStatus_stranger w h value,setWanInterfaceName_stranger w h value,
    setPhyStatus_stranger b w h value⟩

/-- A WAN manager with one entry, whose name is given. -/
def oneEntry (name : Text) (set : Nat → SetReply) : WanBus where
  int := wrappingInt
  get := fun key =>
    if key = wanNoeParamName false then .value "1".toList
    else if key = wanIfNameParamName false 1 then .value name
    else .failed
  set := set

def allAccepted : Nat → SetReply := fun _ => ⟨true,false⟩
def noPorts : PortTable := ⟨none,0,0⟩
def portRecords : List PortRecord := (List.range 2).map fun i => newRecord fourPorts i usedMemory

theorem strangers_unnotified_two_ports :
    (Unnotified (cosaDmlEthSetWanLinkStatusForWanManager
          (oneEntry "erouter0".toList allAccepted) (.ofRecords portRecords) (some "eth9".toList)
          (some "Up".toList)) ↔
        some "Up".toList = none ∨ NoEntryNamed false (oneEntry "erouter0".toList allAccepted) []) ∧
      (Unnotified (cosaDmlEthSetWanInterfaceNameForWanManager
          (oneEntry "erouter0".toList allAccepted) (.ofRecords portRecords) (some "eth9".toList)
          (some "Up".toList)) ↔
        some "Up".toList = none ∨ NoEntryNamed false (oneEntry "erouter0".toList allAccepted) []) ∧
      (Unnotified (cosaDmlEthSetPhyStatusForWanManager ⟨true,false⟩
          (oneEntry "erouter0".toList allAccepted) (.ofRecords portRecords) (some "eth9".toList)
          (some "Up".toList)) ↔
        some "Up".toList = none ∨ if (⟨true,false⟩ : WanBuild).setsPhyPath then
            NamedBeforeOverlong false (oneEntry "erouter0".toList allAccepted) []
          else NoEntryNamed false (oneEntry "erouter0".toList allAccepted) []) :=
  strangers_unnotified_iff ⟨true,false⟩ _ (by decide +kernel) _

/-- The entry without a name gets the status of a port that there is not. -/
theorem stranger_notified :
    ¬ ∀ (b : WanBuild) (w : WanBus) (t : PortTable) (ifname : Text) (value : Option Text),
      ifname ∉ t.names →
      Unnotified (cosaDmlEthSetWanLinkStatusForWanManager w t (some ifname) value) ∧
        Unnotified (cosaDmlEthSetWanInterfaceNameForWanManager w t (some ifname) value) ∧
        Unnotified (cosaDmlEthSetPhyStatusForWanManager b w t (some ifname) value) := by
  intro h
  have hlink := (h ⟨false,false⟩ (oneEntry [] allAccepted) noPorts "eth9".toList
    (some "Up".toList) (by decide)).1
  revert hlink
  unfold Unnotified
  decide +kernel

end Strangers

section Reports

/-- Refused, and said so. -/
def SetReply.Reported (r : SetReply) : Prop := r.accepted = false ∧ r.faultParam = true

instance (r : SetReply) : Decidable r.Reported :=
  inferInstanceAs (Decidable (r.accepted = false ∧ r.faultParam = true))

theorem setParamValues_eq (w : WanBus) (sent : List ParameterVal) (paramVal : ParameterVal) :
    cosaDmlEthSetParamValues w sent paramVal =
      (decide ¬ (w.set sent.length).Reported,sent ++ [paramVal]) := by
  have hstatus : ∀ r : SetReply,
      (!(!r.accepted && r.faultParam)) = decide ¬ r.Reported := by
    rintro ⟨_ | _,_ | _⟩ <;> rfl
  exact congrArg (·,sent ++ [paramVal]) (hstatus (w.set sent.length))

/-- A success stands for `due` sets, every one of them accepted. -/
def Accurate (w : WanBus) (due : Nat) (o : Outcome) : Prop :=
  ∀ sent, o = some (true,sent) → sent.length = due ∧ ∀ k < due, (w.set k).accepted = true

/-- The function comes to the sets: no pointer is NULL, and the entry is found. -/
def Reaches (unified : Bool) (w : WanBus) (t : PortTable) : Option Text → Option Text → Prop
  | some ifname,some _ => ∃ n, wanInstance unified w t ifname = some (some n)
  | _,_ => False

/-- The number of sets of `CosaDmlEthSetPhyStatusForWanManager`. -/
def WanBuild.dueSets (b : WanBuild) : Nat := if b.setsPhyPath then 2 else 1

theorem withInstance_eq_some_true {unified : Bool} {w : WanBus} {t : PortTable}
    {ifname value : Option Text} {sets : Text → Text → Nat → Bool × List ParameterVal}
    {sent : List ParameterVal}
    (h : withInstance unified w t ifname value sets = some (true,sent)) :
    ∃ i v n, ifname = some i ∧ value = some v ∧ wanInstance unified w t i = some (some n) ∧
      sets i v n = (true,sent) := by
  unfold withInstance at h
  cases ifname with
  | none => simp at h
  | some i =>
    cases value with
    | none => simp at h
    | some v =>
      simp only [Option.map_eq_some_iff] at h
      obtain ⟨o,ho,heq⟩ := h
      cases o with
      | none => simp at heq
      | some n => exact ⟨i,v,n,rfl,rfl,ho,heq⟩

theorem withInstance_of_reaches {unified : Bool} {w : WanBus} {t : PortTable}
    {ifname value : Option Text} (h : Reaches unified w t ifname value) :
    ∃ i v n, ifname = some i ∧ value = some v ∧ ∀ sets,
      withInstance unified w t ifname value sets = some (sets i v n) := by
  cases ifname with
  | none => exact absurd h (by simp [Reaches])
  | some i =>
    cases value with
    | none => exact absurd h (by simp [Reaches])
    | some v =>
      obtain ⟨n,hn⟩ := h
      exact ⟨i,v,n,rfl,rfl,fun sets => by simp [withInstance,hn]⟩

theorem setParamValues_accurate_iff (w : WanBus) (sent : List ParameterVal)
    (paramVal : ParameterVal) :
    ((cosaDmlEthSetParamValues w sent paramVal).1 = true →
        (w.set sent.length).accepted = true) ↔
      (w.set sent.length).accepted = true ∨ (w.set sent.length).faultParam = true := by
  rw [setParamValues_eq]
  obtain ⟨accepted,faultParam⟩ := w.set sent.length
  cases accepted <;> cases faultParam <;> simp [SetReply.Reported]

theorem setWanLinkStatus_accurate_iff (w : WanBus) (t : PortTable)
    (ifname wanStatus : Option Text) :
    Accurate w 1 (cosaDmlEthSetWanLinkStatusForWanManager w t ifname wanStatus) ↔
      ¬ Reaches false w t ifname wanStatus ∨ (w.set 0).accepted = true := by
  rw [← imp_iff_not_or]
  constructor
  · intro h hreach
    obtain ⟨i,v,n,-,-,hout⟩ := withInstance_of_reaches hreach
    exact (h _ (hout _)).2 0 Nat.zero_lt_one
  · intro h sent hsent
    obtain ⟨i,v,n,rfl,rfl,hn,hsets⟩ := withInstance_eq_some_true hsent
    have haccepted := h ⟨n,hn⟩
    obtain ⟨-,rfl⟩ := Prod.mk.inj hsets
    refine ⟨rfl,fun k hk => ?_⟩
    obtain rfl : k = 0 := by omega
    exact haccepted

/-- The sets come to success when the port is found, as far as it is looked for, and no
reply reports a refusal. -/
theorem setPhyPathAndStatus_fst (b : WanBuild) (w : WanBus) (t : PortTable)
    (ifname phyStatus : Text) (n : Nat) :
    (setPhyPathAndStatus b w t ifname phyStatus n).1 = true ↔
      (b.setsPhyPath = true → ifname ∈ t.names) ∧
        ∀ k < b.dueSets, ¬ (w.set k).Reported := by
  unfold setPhyPathAndStatus WanBuild.dueSets
  cases b.setsPhyPath with
  | false =>
    simp [setParamValues_eq]
  | true =>
    have hlt : ∀ P : Nat → Prop, (∀ k < 2, P k) ↔ P 0 ∧ P 1 := fun P =>
      ⟨fun h => ⟨h 0 (by decide),h 1 (by decide)⟩,fun h k hk => by
        obtain rfl | rfl : k = 0 ∨ k = 1 := by omega
        · exact h.1
        · exact h.2⟩
    cases hi : cosaDmlEthPortGetIndexFromIfName t (some ifname) with
    | none =>
      have hnot := (getIndexFromIfName_eq_none_iff t ifname).mp hi
      simp [hnot]
    | some i =>
      have hmem : ifname ∈ t.names := by
        by_contra hnot
        rw [(getIndexFromIfName_eq_none_iff t ifname).mpr hnot] at hi
        cases hi
      simp only [if_true,setParamValues_eq,List.length_nil,List.nil_append,hlt,hmem,
        forall_const,true_and]
      by_cases h0 : (w.set 0).Reported
      · simp [h0]
      · simp [h0]

theorem length_setPhyPathAndStatus {b : WanBuild} {w : WanBus} {t : PortTable}
    {ifname phyStatus : Text} {n : Nat}
    (h : (setPhyPathAndStatus b w t ifname phyStatus n).1 = true) :
    (setPhyPathAndStatus b w t ifname phyStatus n).2.length = b.dueSets := by
  unfold setPhyPathAndStatus at h ⊢
  unfold WanBuild.dueSets
  cases hb : b.setsPhyPath with
  | false => rfl
  | true =>
    cases hi : cosaDmlEthPortGetIndexFromIfName t (some ifname) with
    | none => simp [hb,hi] at h
    | some i =>
      simp only [hb,hi,if_true,setParamValues_eq,List.length_nil,List.nil_append] at h ⊢
      split
      · rfl
      · next h0 => simp [h0] at h

/-- The port is not in the table, in a build that looks for it. -/
def Unlisted (b : WanBuild) (t : PortTable) (ifname : Option Text) : Prop :=
  b.setsPhyPath = true ∧ ∀ i ∈ ifname, i ∉ t.names

theorem setPhyStatus_accurate_iff (b : WanBuild) (w : WanBus) (t : PortTable)
    (ifname phyStatus : Option Text) :
    Accurate w b.dueSets (cosaDmlEthSetPhyStatusForWanManager b w t ifname phyStatus) ↔
      ¬ Reaches b.wanManagerUnification w t ifname phyStatus ∨ Unlisted b t ifname ∨
        (∀ k < b.dueSets, (w.set k).accepted = true) ∨
        ∃ k < b.dueSets, (w.set k).Reported := by
  constructor
  · intro h
    by_contra hcond
    simp only [not_or,not_not] at hcond
    obtain ⟨hreach,hlisted,hrefused,hsilent⟩ := hcond
    obtain ⟨i,v,n,rfl,rfl,hout⟩ := withInstance_of_reaches hreach
    have hstatus : (setPhyPathAndStatus b w t i v n).1 = true := by
      refine (setPhyPathAndStatus_fst b w t i v n).mpr ⟨fun hb => ?_,fun k hk hrep =>
        hsilent ⟨k,hk,hrep⟩⟩
      by_contra hnot
      exact hlisted ⟨hb,fun j hj => by rwa [← Option.some.inj hj]⟩
    have hsets : setPhyPathAndStatus b w t i v n =
        (true,(setPhyPathAndStatus b w t i v n).2) := Prod.ext hstatus rfl
    exact hrefused (h _ ((hout _).trans (congrArg some hsets))).2
  · intro hcond sent hsent
    obtain ⟨i,v,n,rfl,rfl,hn,hsets⟩ := withInstance_eq_some_true hsent
    have hstatus : (setPhyPathAndStatus b w t i v n).1 = true := by rw [hsets]
    obtain ⟨hlisted,hsilent⟩ := (setPhyPathAndStatus_fst b w t i v n).mp hstatus
    have hlength := length_setPhyPathAndStatus hstatus
    rw [hsets] at hlength
    refine ⟨hlength,?_⟩
    rcases hcond with hreach | ⟨hb,hnot⟩ | haccepted | ⟨k,hk,hrep⟩
    · exact absurd ⟨n,hn⟩ hreach
    · exact absurd (hlisted hb) (hnot i rfl)
    · exact haccepted
    · exact absurd hrep (hsilent k hk)

/-- A success stands for accepted sets exactly if all of them were accepted or one of
the refusals came with a `faultParam`. The refusal of the link status goes unnoticed
either way. -/
theorem reports_accurate_iff (b : WanBuild) (w : WanBus) (t : PortTable)
    (sent : List ParameterVal) (paramVal : ParameterVal) (ifname status : Option Text) :
    (((cosaDmlEthSetParamValues w sent paramVal).1 = true →
          (w.set sent.length).accepted = true) ↔
        (w.set sent.length).accepted = true ∨ (w.set sent.length).faultParam = true) ∧
      (Accurate w b.dueSets (cosaDmlEthSetPhyStatusForWanManager b w t ifname status) ↔
        ¬ Reaches b.wanManagerUnification w t ifname status ∨ Unlisted b t ifname ∨
          (∀ k < b.dueSets, (w.set k).accepted = true) ∨
          ∃ k < b.dueSets, (w.set k).Reported) ∧
      (Accurate w 1 (cosaDmlEthSetWanLinkStatusForWanManager w t ifname status) ↔
        ¬ Reaches false w t ifname status ∨ (w.set 0).accepted = true) :=
  ⟨setParamValues_accurate_iff w sent paramVal,setPhyStatus_accurate_iff b w t ifname status,
    setWanLinkStatus_accurate_iff w t ifname status⟩

/-- A refusal without a `faultParam` is reported as a success. -/
theorem refusal_reported_as_success :
    ¬ ∀ (b : WanBuild) (w : WanBus) (t : PortTable) (sent : List ParameterVal)
        (paramVal : ParameterVal) (ifname status : Option Text),
      ((cosaDmlEthSetParamValues w sent paramVal).1 = true →
          (w.set sent.length).accepted = true) ∧
        Accurate w b.dueSets (cosaDmlEthSetPhyStatusForWanManager b w t ifname status) ∧
        Accurate w 1 (cosaDmlEthSetWanLinkStatusForWanManager w t ifname status) := by
  intro h
  have hset := (h ⟨false,false⟩ (oneEntry [] fun _ => ⟨false,false⟩) noPorts []
    ⟨[],[],.ccspString⟩ none none).1
  exact absurd (hset rfl) (by decide)

end Reports

section Answers

def WanBuild.order (b : WanBuild) : List WanParam :=
  if b.setsPhyPath then [.phyPath,.phyStatus] else [.phyStatus]

/-- The bus answers as the WAN manager does whose entries and decisions are given. -/
structure AnswersFor (b : WanBuild) (w : WanBus) (m : WanManager) : Prop where
  count : w.get (wanNoeParamName b.wanManagerUnification) =
    .value (decimal m.interfaceNames.length)
  countFits : m.interfaceNames.length < 2^31
  names : ∀ k name, m.interfaceNames[k]? = some name →
    cosaDmlEthGetParamValues w (wanIfNameParamName b.wanManagerUnification (k+1)) [] = some name
  sets : ∀ k param, b.order[k]? = some param → ((w.set k).Reported ↔ m.accepts param = false)

variable {b : WanBuild} {w : WanBus} {m : WanManager}

theorem scanEntries_answersFor (h : AnswersFor b w m) (p : Text)
    (before after : List (Option Text)) (hsplit : m.interfaceNames = before ++ after) :
    scanEntries b.wanManagerUnification w p after.length before.length =
      some ((after.findIdx? fun name => name = some p).map (· + (before.length+1))) := by
  induction after generalizing before with
  | nil => rfl
  | cons name after ih =>
    have hname := h.names before.length name (by rw [hsplit]; simp)
    have hrest := ih (before ++ [name]) (by rw [hsplit]; simp)
    have hshift : (· + (before.length+1)) ∘ (· + 1) = (· + (before.length+1+1)) := by
      funext k
      simp only [Function.comp_apply]
      omega
    simp only [List.length_append,List.length_singleton] at hrest
    rw [List.length_cons,scanEntries,hname,List.findIdx?_cons]
    cases name with
    | none =>
      simp only [Option.bind_some,hrest,reduceCtorEq,decide_false,Bool.false_eq_true,if_false,
        Option.map_map,hshift]
    | some v =>
      by_cases hv : v = p
      · simp [hv]
      · simp only [Option.bind_some,hrest,hv,Option.some_inj,decide_false,Bool.false_eq_true,
          if_false,Option.map_map,hshift]

theorem wanInstance_answersFor (h : AnswersFor b w m) (t : PortTable) (ifname : Text) :
    wanInstance b.wanManagerUnification w t ifname = some (EthAgent.wanInstance m t ifname) := by
  have hscan := scanEntries_answersFor h (copiedName t ifname) [] m.interfaceNames rfl
  have hcount := h.countFits
  have hdigits : (decimal m.interfaceNames.length).length ≤ 10 :=
    length_decimal_le (by decide) (by omega)
  have hstore : w.int.store m.interfaceNames.length = m.interfaceNames.length :=
    w.int.exact _ (by omega) (by omega)
  have hlength : (decimal m.interfaceNames.length).length < 256 := by omega
  simp only [wanInstance,cosaDmlEthGetLowerLayersInstanceInOtherAgent,cosaDmlEthGetParamValues,
    h.count,hlength,if_true,Option.bind_some,atoi_decimal,hstore,Int.toNat_natCast]
  exact hscan

def paramVal (b : WanBuild) (s : WanSet) : ParameterVal where
  parameterName :=
    match s.param with
    | .phyPath => wanPhyPathParamName b.wanManagerUnification s.iWANInstance
    | .phyStatus => wanPhyStatusParamName b.wanManagerUnification s.iWANInstance
  parameterValue := s.value
  type := .ccspString

/-- Over such a bus the status of a port is set as towards the WAN manager itself. -/
theorem setPhyStatus_answersFor (h : AnswersFor b w m) (t : PortTable)
    (ifname phyStatus : Option Text) :
    cosaDmlEthSetPhyStatusForWanManager b w t ifname phyStatus =
      let o := EthAgent.cosaDmlEthSetPhyStatusForWanManager (!b.setsPhyPath) m t ifname phyStatus
      some (o.1,o.2.map (paramVal b)) := by
  cases ifname with
  | none => rfl
  | some i =>
    cases phyStatus with
    | none => rfl
    | some v =>
      have hsets := h.sets
      simp only [cosaDmlEthSetPhyStatusForWanManager,withInstance,wanInstance_answersFor h,
        EthAgent.cosaDmlEthSetPhyStatusForWanManager,setPhyPathAndStatus,WanBuild.order] at hsets ⊢
      cases EthAgent.wanInstance m t i with
      | none => rfl
      | some n =>
        cases hb : b.setsPhyPath with
        | false =>
          have h0 := hsets 0 .phyStatus (by simp [hb])
          simp [setParamValues_eq,h0,paramVal]
        | true =>
          have h0 := hsets 0 .phyPath (by simp [hb])
          have h1 := hsets 1 .phyStatus (by simp [hb])
          cases cosaDmlEthPortGetIndexFromIfName t (some i) with
          | none => simp
          | some k =>
            cases hpath : m.accepts .phyPath <;>
              simp [setParamValues_eq,h0,h1,hpath,paramVal]

end Answers

end EthAgent.WanNotify
