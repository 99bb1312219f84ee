import EthAgent.PortRows
import EthAgent.InterfaceTable
import EthAgent.Lib.Latest

/-!
`CosaDmlEthPortInit` where FEATURE_RDKB_AUTO_PORT_SWITCH is built in: it reads the
capability of every port from PSM, all into one buffer.
-/

set_option autoImplicit false

namespace EthAgent
open CString Latest Runs

/-- `COSA_DML_ETH_PORT_CAP_OPER`. -/
inductive PortCap where
  | wan
  | lan
  | wanLan
  deriving DecidableEq

instance capabilitySize : NeZero 32 := ⟨by decide⟩

def psmPortCapability (row : Nat) : Text := psmRecord row "PortCapability".toList
def psmCfgAddToBridge (row : Nat) : Text := psmRecord row "AddToLanBridge".toList

/-- What `CosaDmlEthPortInit` meets beside PSM: the names that
`GetEthPhyInterfaceName` gives, which allocations succeed, and the `AddToLanBridge`
that the memory of a new row happens to hold. -/
structure PortInitAnswers where
  ethPhyInterfaceName : Nat → Option (Buf 64)
  rowAllocated : Nat → Bool
  tableAllocated : Bool
  freshAddToLanBridge : Nat → Bool

/-- The records of PSM and the answers, as the loops over the ports use them. -/
def portConfig (a : PortInitAnswers) (psm : Text → Option Text) : PortConfig where
  cfgCount := (psm psmCfgCount).map fun acPSMValue => (atoi acPSMValue).toNat
  cfgName := fun row => (psm (psmCfgName row)).map Buf.store
  ethPhyInterfaceName := a.ethPhyInterfaceName
  rowAllocated := a.rowAllocated
  tableAllocated := a.tableAllocated

/-- `Ethagent_GetParamValuesFromPSM`; where PSM does not answer, `pReturnVal` keeps
what it held. -/
def ethagentGetParamValuesFromPSM {cap : Nat} [NeZero cap] (psm : Text → Option Text)
    (pParamName : Text) (pReturnVal : Buf cap) : Bool × Buf cap :=
  match psm pParamName with
  | none => (false,pReturnVal)
  | some paramValue => (true,Buf.store paramValue)

def portCapabilityOf (infPortCapability : Text) : PortCap :=
  if infPortCapability = "WAN_LAN".toList then .wanLan
  else if infPortCapability = "WAN".toList then .wan
  else .lan

/-- What the build adds to `COSA_DML_ETH_PORT_CONFIG`. -/
structure SwitchFields where
  portCapability : PortCap
  addToLanBridge : Bool
  deriving DecidableEq

/-- The rows, with the added fields by instance number, and the buffer of the loop. -/
structure SwitchPorts where
  ethernet : Ethernet
  fields : Nat → Option SwitchFields
  infPortCapability : Buf 32

def SwitchPorts.portCapability (s : SwitchPorts) (ulInstanceNumber : Nat) : Option PortCap :=
  (s.fields ulInstanceNumber).map fun f => f.portCapability

def readSwitchFields (a : PortInitAnswers) (psm : Text → Option Text) (i : Nat)
    (acPSMValue : Buf 64) (infPortCapability : Buf 32) : SwitchFields where
  portCapability := portCapabilityOf infPortCapability.text
  addToLanBridge :=
    match ethagentGetParamValuesFromPSM psm (psmCfgAddToBridge (i+1)) acPSMValue with
    | (true,acPSMValue) => acPSMValue.text ≠ "FALSE".toList
    | (false,_) => a.freshAddToLanBridge i

/-- One round of the loop of `CosaDmlEthPortInit`; `none` where the Name of the port
is written past its buffer. -/
def initSwitchPort (p : Platform) (a : PortInitAnswers) (psm : Text → Option Text)
    (s : SwitchPorts) (i : Nat) : Option SwitchPorts :=
  (dmlEthGetPSMRecordValue psm (psmCfgName (i+1))).map fun acPSMValue =>
    let infPortCapability :=
      (ethagentGetParamValuesFromPSM psm (psmPortCapability (i+1)) s.infPortCapability).2
    { ethernet := pushInitRow p (portConfig a psm) s.ethernet i
      fields := Function.update s.fields (i+1)
        (some (readSwitchFields a psm i (Buf.store (acPSMValue.getD [])) infPortCapability))
      infPortCapability := infPortCapability }

def initSwitchPorts (p : Platform) (a : PortInitAnswers) (psm : Text → Option Text) :
    Nat → Option SwitchPorts
  | 0 =>
    let iTotalInterfaces := (portConfig a psm).total p
    some ⟨⟨⟨none,iTotalInterfaces,iTotalInterfaces⟩,1,[]⟩,fun _ => none,Buf.store []⟩
  | i+1 => (initSwitchPorts p a psm i).bind fun s => initSwitchPort p a psm s i

def initRounds (p : Platform) (a : PortInitAnswers) (psm : Text → Option Text) : Nat :=
  ((List.range ((portConfig a psm).total p)).takeWhile a.rowAllocated).length

def cosaDmlEthPortInitSwitch (p : Platform) (a : PortInitAnswers) (psm : Text → Option Text) :
    Option SwitchPorts :=
  let c := portConfig a psm
  (dmlEthGetPSMRecordValue psm psmCfgCount).bind fun _ =>
    (initSwitchPorts p a psm (initRounds p a psm)).map fun s =>
      if initRounds p a psm = c.total p then
        { s with ethernet :=
          { s.ethernet with ports := cosDmlEthPortPrepareGlobalInfo p c s.ethernet.ports } }
      else s

section Rounds

variable {p : Platform} {a : PortInitAnswers} {psm : Text → Option Text} {n : Nat}
  {s : SwitchPorts}

theorem initSwitchPorts_succ {s' : SwitchPorts}
    (h : initSwitchPorts p a psm (n+1) = some s') :
    ∃ s acPSMValue, initSwitchPorts p a psm n = some s ∧
      s' = ⟨pushInitRow p (portConfig a psm) s.ethernet n,
        Function.update s.fields (n+1) (some (readSwitchFields a psm n acPSMValue
          (ethagentGetParamValuesFromPSM psm (psmPortCapability (n+1)) s.infPortCapability).2)),
        (ethagentGetParamValuesFromPSM psm (psmPortCapability (n+1)) s.infPortCapability).2⟩ := by
  rw [initSwitchPorts,Option.bind_eq_some_iff] at h
  obtain ⟨s,hs,hround⟩ := h
  rw [initSwitchPort,Option.map_eq_some_iff] at hround
  obtain ⟨acPSMValue,-,heq⟩ := hround
  exact ⟨s,Buf.store (acPSMValue.getD []),hs,heq.symm⟩

theorem initSwitchPorts_ethernet (h : initSwitchPorts p a psm n = some s) :
    s.ethernet = exec (pushInitRow p (portConfig a psm))
      ⟨⟨none,(portConfig a psm).total p,(portConfig a psm).total p⟩,1,[]⟩ (List.range n) := by
  induction n generalizing s with
  | zero =>
    rw [initSwitchPorts,Option.some_inj] at h
    rw [← h]
    rfl
  | succ n ih =>
    obtain ⟨s₀,acPSMValue,hs₀,rfl⟩ := initSwitchPorts_succ h
    rw [List.range_succ,exec,List.foldl_append]
    exact congrArg (fun e => pushInitRow p (portConfig a psm) e n) (ih hs₀)

/-- The record that the buffer holds after the first rounds. -/
def lastCapability (psm : Text → Option Text) (n : Nat) : Text :=
  ((latest (fun i => psm (psmPortCapability (i+1))) (List.range n)).map
    fun v => v.take 31).getD []

theorem lastCapability_succ (psm : Text → Option Text) (n : Nat) :
    lastCapability psm (n+1) =
      match psm (psmPortCapability (n+1)) with
      | none => lastCapability psm n
      | some v => v.take 31 := by
  unfold lastCapability latest
  rw [List.range_succ,List.filterMap_append]
  cases hv : psm (psmPortCapability (n+1)) with
  | none => simp [hv]
  | some v => simp [hv]

/-- One buffer for all ports: it holds the last record read, whichever port that was. -/
theorem initSwitchPorts_buffer (h : initSwitchPorts p a psm n = some s) :
    s.infPortCapability.text = lastCapability psm n := by
  induction n generalizing s with
  | zero =>
    rw [initSwitchPorts,Option.some_inj] at h
    rw [← h]
    rfl
  | succ n ih =>
    obtain ⟨s₀,acPSMValue,hs₀,rfl⟩ := initSwitchPorts_succ h
    rw [lastCapability_succ,← ih hs₀]
    simp only [ethagentGetParamValuesFromPSM]
    cases psm (psmPortCapability (n+1)) <;> rfl

theorem initSwitchPorts_portCapability (h : initSwitchPorts p a psm n = some s) (i : Nat) :
    s.portCapability (i+1) =
      if i < n then some (portCapabilityOf (lastCapability psm (i+1))) else none := by
  induction n generalizing s with
  | zero =>
    rw [initSwitchPorts,Option.some_inj] at h
    rw [← h]
    rfl
  | succ n ih =>
    have hbuffer := initSwitchPorts_buffer h
    obtain ⟨s₀,acPSMValue,hs₀,rfl⟩ := initSwitchPorts_succ h
    by_cases hi : i = n
    · subst hi
      simp only [SwitchPorts.portCapability,Function.update_self,Option.map_some,
        if_pos (Nat.lt_succ_self i),← hbuffer]
      rfl
    · have hne : i+1 ≠ n+1 := by omega
      have hold := ih hs₀
      simp only [SwitchPorts.portCapability,Function.update_of_ne hne] at hold ⊢
      rw [hold]
      by_cases hlt : i < n
      · rw [if_pos hlt,if_pos (by omega)]
      · rw [if_neg hlt,if_neg (by omega)]

/-- The feature changes nothing of what the initialisation does without it. -/
theorem cosaDmlEthPortInitSwitch_ethernet (h : cosaDmlEthPortInitSwitch p a psm = some s) :
    s.ethernet = cosaDmlEthPortInit p (portConfig a psm) := by
  simp only [cosaDmlEthPortInitSwitch,Option.bind_eq_some_iff,Option.map_eq_some_iff] at h
  obtain ⟨-,-,s₀,hs₀,rfl⟩ := h
  have hprefix := List.takeWhile_prefix a.rowAllocated
    (l := List.range ((portConfig a psm).total p))
  have hallocated := List.prefix_iff_eq_take.mp hprefix
  rw [List.take_range,min_eq_left (by simpa using hprefix.length_le)] at hallocated
  have hrows := initSwitchPorts_ethernet hs₀
  rw [initRounds,← hallocated] at hrows
  have heq : cosaDmlEthPortInit p (portConfig a psm) =
      if initRounds p a psm = (portConfig a psm).total p then
        { s₀.ethernet with
          ports := cosDmlEthPortPrepareGlobalInfo p (portConfig a psm) s₀.ethernet.ports }
      else s₀.ethernet := by
    rw [hrows]
    rfl
  rw [heq]
  split <;> rfl

end Rounds

/-- The last record that was read for an earlier port, if any was, is neither `WAN`
nor `WAN_LAN`. -/
def NoWanBefore (psm : Text → Option Text) (i : Nat) : Prop :=
  ∀ j < i, ∀ v, psm (psmPortCapability (j+1)) = some v →
    (∀ k, j < k → k < i → psm (psmPortCapability (k+1)) = none) →
    v ≠ "WAN".toList ∧ v ≠ "WAN_LAN".toList

theorem portCapabilityOf_take (v : Text) :
    portCapabilityOf (v.take 31) = .lan ↔ v ≠ "WAN".toList ∧ v ≠ "WAN_LAN".toList := by
  have hshort : ∀ w : Text, w.length < 31 → (v.take 31 = w ↔ v = w) := by
    intro w hw
    constructor
    · intro h
      have hlen := congrArg List.length h
      rw [List.length_take] at hlen
      rwa [List.take_of_length_le (by omega)] at h
    · rintro rfl
      exact List.take_of_length_le (by omega)
  simp only [portCapabilityOf,hshort "WAN_LAN".toList (by decide),
    hshort "WAN".toList (by decide)]
  by_cases hwanLan : v = "WAN_LAN".toList
  · simp [hwanLan]
  · by_cases hwan : v = "WAN".toList
    · simp [hwan]
    · rw [if_neg hwanLan,if_neg hwan]
      exact ⟨fun _ => ⟨hwan,hwanLan⟩,fun _ => rfl⟩

theorem lastCapability_lan_iff (psm : Text → Option Text) (i : Nat) :
    portCapabilityOf (lastCapability psm i) = .lan ↔ NoWanBefore psm i := by
  induction i with
  | zero => exact ⟨fun _ j hj => absurd hj (Nat.not_lt_zero j),fun _ => rfl⟩
  | succ i ih =>
    rw [lastCapability_succ]
    cases hv : psm (psmPortCapability (i+1)) with
    | none =>
      simp only [ih]
      constructor
      · intro h j hj v hjv hlater
        rcases Nat.lt_succ_iff_lt_or_eq.mp hj with hlt | rfl
        · exact h j hlt v hjv fun k hjk hk => hlater k hjk (by omega)
        · exact absurd (hjv.symm.trans hv) (by simp)
      · intro h j hj v hjv hlater
        refine h j (by omega) v hjv fun k hjk hk => ?_
        rcases Nat.lt_succ_iff_lt_or_eq.mp hk with hlt | rfl
        · exact hlater k hjk hlt
        · exact hv
    | some v =>
      simp only [portCapabilityOf_take]
      constructor
      · intro h j hj w hjw hlater
        rcases Nat.lt_succ_iff_lt_or_eq.mp hj with hlt | rfl
        · exact absurd ((hlater i hlt (Nat.lt_succ_self i)).symm.trans hv) (by simp)
        · rw [hv,Option.some_inj] at hjw
          rwa [← hjw]
      · exact fun h => h i (Nat.lt_succ_self i) v hv fun k hik hk => absurd hik (by omega)

/-- The capability of the port of index `i`; `none` where it gets no row. -/
def initialCapability (p : Platform) (a : PortInitAnswers) (psm : Text → Option Text)
    (i : Nat) : Option PortCap :=
  (cosaDmlEthPortInitSwitch p a psm).bind fun s => s.portCapability (i+1)

/-- What two contents of PSM have to give a port whose record they agree on. -/
def CapabilityAgrees (p : Platform) (a : PortInitAnswers) (psm psm' : Text → Option Text)
    (i : Nat) : Prop :=
  initialCapability p a psm i = initialCapability p a psm' i ∧
    (psm (psmPortCapability (i+1)) = none → initialCapability p a psm i = some .lan)

theorem initialCapability_eq {p : Platform} {a : PortInitAnswers} {psm : Text → Option Text}
    {i : Nat} (h : (cosaDmlEthPortInitSwitch p a psm).isSome = true)
    (hi : i < initRounds p a psm) :
    initialCapability p a psm i = some (portCapabilityOf (lastCapability psm (i+1))) := by
  obtain ⟨s,hs⟩ := Option.isSome_iff_exists.mp h
  rw [initialCapability,hs,Option.bind_some]
  simp only [cosaDmlEthPortInitSwitch,Option.bind_eq_some_iff,Option.map_eq_some_iff] at hs
  obtain ⟨-,-,s₀,hs₀,rfl⟩ := hs
  have hcap := initSwitchPorts_portCapability hs₀ i
  rw [if_pos hi] at hcap
  rw [← hcap]
  split <;> rfl

/-- The capability of a port is its own record's exactly if that record is read, or
the buffer comes to it without a `WAN` in either content. -/
theorem capability_agrees_iff {p : Platform} {a : PortInitAnswers}
    {psm psm' : Text → Option Text} (h : (cosaDmlEthPortInitSwitch p a psm).isSome = true)
    (h' : (cosaDmlEthPortInitSwitch p a psm').isSome = true)
    (hcount : psm psmCfgCount = psm' psmCfgCount) {i : Nat}
    (hrecord : psm (psmPortCapability (i+1)) = psm' (psmPortCapability (i+1)))
    (hi : i < initRounds p a psm) :
    CapabilityAgrees p a psm psm' i ↔
      (psm (psmPortCapability (i+1))).isSome = true ∨ NoWanBefore psm i ∧ NoWanBefore psm' i := by
  have hi' : i < initRounds p a psm' := by
    simpa [initRounds,PortConfig.total,portConfig,hcount] using hi
  rw [CapabilityAgrees,initialCapability_eq h hi,initialCapability_eq h' hi',
    lastCapability_succ,lastCapability_succ,← hrecord,← lastCapability_lan_iff,
    ← lastCapability_lan_iff]
  cases psm (psmPortCapability (i+1)) with
  | some v => simp
  | none =>
    simp only [Option.some_inj,Option.isSome_none,Bool.false_eq_true,false_or,forall_const]
    constructor
    · rintro ⟨heq,hlan⟩
      exact ⟨hlan,heq.symm.trans hlan⟩
    · rintro ⟨hlan,hlan'⟩
      exact ⟨hlan.trans hlan'.symm,hlan⟩

def firstPortOnly (record : Text) (key : Text) : Option Text :=
  if key = psmCfgCount then some "2".toList
  else if key = psmPortCapability 1 then some record
  else none

def initAnswered : PortInitAnswers := ⟨fun _ => none,fun _ => true,true,fun _ => true⟩

theorem capability_agrees_second_port :
    CapabilityAgrees fourPorts initAnswered (firstPortOnly "LAN".toList)
        (firstPortOnly "lan".toList) 1 ↔
      ((firstPortOnly "LAN".toList) (psmPortCapability 2)).isSome = true ∨
        NoWanBefore (firstPortOnly "LAN".toList) 1 ∧ NoWanBefore (firstPortOnly "lan".toList) 1 :=
  capability_agrees_iff (by decide +kernel) (by decide +kernel) (by decide +kernel)
    (by decide +kernel) (by decide +kernel)

/-- The second port has no record, and takes the capability of the first. -/
theorem capability_follows_first_port :
    ¬ ∀ (p : Platform) (a : PortInitAnswers) (psm psm' : Text → Option Text) (i : Nat),
      (cosaDmlEthPortInitSwitch p a psm).isSome = true →
      (cosaDmlEthPortInitSwitch p a psm').isSome = true →
      psm psmCfgCount = psm' psmCfgCount →
      psm (psmPortCapability (i+1)) = psm' (psmPortCapability (i+1)) →
      i < initRounds p a psm → CapabilityAgrees p a psm psm' i := by
  intro h
  have hcap := (h fourPorts initAnswered (firstPortOnly "WAN".toList)
    (firstPortOnly "LAN".toList) 1 (by decide +kernel) (by decide +kernel) (by decide +kernel)
    (by decide +kernel) (by decide +kernel)).1
  revert hcap
  decide +kernel

end EthAgent
