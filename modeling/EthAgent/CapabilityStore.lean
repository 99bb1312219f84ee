import EthAgent.PortCapability
import EthAgent.UpstreamStore
import EthAgent.WanNotify

/-!
Sets of `PortCapability` and restarts: what a Set writes to PSM, under which record, and
which ports have their capability again after the next start.
-/

set_option autoImplicit false

namespace EthAgent
open CString Packed Runs WanNotify

/-- The loop of `CosaDmlGetWanOEInterfaceName` from the index `i` on; `none` where
`strncpy` leaves the 16 bytes of the caller without an end. -/
def scanWanOE (unified : Bool) (w : WanBus) : Nat → Nat → Option Text
  | 0, _ => some []
  | left+1, i =>
    (cosaDmlEthGetParamValues w (wanIfNameParamName unified (i+1)) []).bind fun
      | none => scanWanOE unified w left (i+1)
      | some acTmpReturnValue =>
        if "eth".toList <:+: acTmpReturnValue then
          if acTmpReturnValue.length < 16 then some acTmpReturnValue else none
        else scanWanOE unified w left (i+1)

/-- `some none` is `ANSC_STATUS_FAILURE`. -/
def cosaDmlGetWanOEInterfaceName (unified : Bool) (w : WanBus) : Option (Option Text) :=
  (cosaDmlEthGetParamValues w (wanNoeParamName unified) []).bind fun
    | none => some none
    | some acTmpReturnValue =>
      let iTotalNoofEntries := w.int.store (atoi acTmpReturnValue)
      if iTotalNoofEntries ≤ 0 then some none
      else (scanWanOE unified w iTotalNoofEntries.toNat 0).map some

/-- What a Set meets: the WAN manager, `CcspHalExtSw_ethPortConfigure`, and whether
`PSM_Set_Record_Value2` succeeds. -/
structure CapabilityAnswers where
  wan : WanBus
  ethPortConfigure : Text → Bool → Bool
  psmSet : Bool

/-- `CosaDmlSetWanOEMode` for a row of `X_RDK_Interface`, where
FEATURE_RDKB_AUTO_PORT_SWITCH is built in. -/
def cosaDmlSetWanOEModeOfLink (ethPortConfigure : Text → Bool → Bool) (row : EthRow)
    (ePortCapability : PortCap) : Bool :=
  let ifName : Buf 32 := Buf.store row.name.text
  match ePortCapability with
  | .wanLan => ethPortConfigure ifName.text row.upstream
  | .wan => ethPortConfigure ifName.text true
  | .lan => false

def PortCap.text : PortCap → Text
  | .lan => "LAN".toList
  | .wan => "WAN".toList
  | .wanLan => "WAN_LAN".toList

def ethagentSetParamValuesToPSM (psmSet : Bool) (psm : Text → Option Text)
    (pParamName pParamVal : Text) : Text → Option Text :=
  if psmSet then Function.update psm pParamName (some pParamVal) else psm

/-- `CosaDmlEthPortSetPortCapability` for a row with its new capability, and PSM after it;
the status of PSM is not looked at. -/
def cosaDmlEthPortSetPortCapability (unified : Bool) (a : CapabilityAnswers) (t : PortTable)
    (psm : Text → Option Text) (row : EthRow) (portCapability : PortCap) :
    Option (Bool × (Text → Option Text)) :=
  match cosaDmlEthPortGetIndexFromIfName t (some row.name.text) with
  | none => some (false,psm)
  | some ifIndex =>
    (cosaDmlGetWanOEInterfaceName unified a.wan).map fun
      | none => (false,psm)
      | some wanOEInterface =>
        let acGetParamName := psmPortCapability (ifIndex+1)
        if row.name.text = wanOEInterface then
          if portCapability ≠ .lan then
            if cosaDmlSetWanOEModeOfLink a.ethPortConfigure row portCapability then
              (true,ethagentSetParamValuesToPSM a.psmSet psm acGetParamName portCapability.text)
            else (false,psm)
          else (false,psm)
        else (true,ethagentSetParamValuesToPSM a.psmSet psm acGetParamName portCapability.text)

structure CapabilityState where
  ports : SwitchPorts
  psm : Text → Option Text

def SwitchPorts.setPortCapability (s : SwitchPorts) (ulInstanceNumber : Nat) (uValue : PortCap) :
    SwitchPorts :=
  { s with
    fields := Function.update s.fields ulInstanceNumber
      ((s.fields ulInstanceNumber).map fun f => { f with portCapability := uValue }) }

def ethRdkInterfaceSetPortCapability (unified : Bool) (s : CapabilityState)
    (ulInstanceNumber : Nat) (uValue : PortCap) (a : CapabilityAnswers) :
    Option CapabilityState :=
  match s.ports.ethernet.row ulInstanceNumber,s.ports.portCapability ulInstanceNumber with
  | some pEthLink,some prevValue =>
    if prevValue = uValue then some s
    else
      (cosaDmlEthPortSetPortCapability unified a s.ports.ethernet.ports s.psm pEthLink uValue).map
        fun
          -- the row gets its previous value back
          | (false,psm) => { s with psm := psm }
          | (true,psm) => ⟨s.ports.setPortCapability ulInstanceNumber uValue,psm⟩
  | _,_ => some s

inductive CapabilityEvent where
  | set (ulInstanceNumber : Nat) (uValue : PortCap) (answers : CapabilityAnswers)
  | restart

def capabilityStep (p : Platform) (a : PortInitAnswers) (unified : Bool) (s : CapabilityState) :
    CapabilityEvent → Option CapabilityState
  | .set ulInstanceNumber uValue answers =>
    ethRdkInterfaceSetPortCapability unified s ulInstanceNumber uValue answers
  | .restart => (cosaDmlEthPortInitSwitch p a s.psm).map fun ports => { s with ports := ports }

def capabilityRun (p : Platform) (a : PortInitAnswers) (unified : Bool)
    (psm : Text → Option Text) (events : List CapabilityEvent) : Option CapabilityState :=
  (cosaDmlEthPortInitSwitch p a psm).bind fun ports =>
    events.foldlM (capabilityStep p a unified) ⟨ports,psm⟩

/-- What the record of a port says is what the port has, of the ports that have a
record. -/
structure CapabilityStored (p : Platform) (a : PortInitAnswers) (c : PortConfig)
    (s : CapabilityState) : Prop where
  config : portConfig a s.psm = c
  starts : (cosaDmlEthPortInitSwitch p a s.psm).isSome = true
  ethernet : s.ports.ethernet = cosaDmlEthPortInit p c
  recorded : ∀ i, i < c.total p → ∀ v, s.psm (psmPortCapability (i+1)) = some v →
    s.ports.portCapability (i+1) = some (portCapabilityOf (v.take 31))

/-- The next start gives the port the capability that it has. -/
def SurvivesRestart (p : Platform) (a : PortInitAnswers) (s : CapabilityState) (i : Nat) : Prop :=
  initialCapability p a s.psm i = s.ports.portCapability (i+1)

/-- The port has a record, or it has the capability of the nearest port before it that has
one; the capability is LAN if there is no such port. -/
def RecordReaches (s : CapabilityState) (i : Nat) : Prop :=
  s.psm (psmPortCapability (i+1)) ≠ none ∨
    (∀ j < i, s.psm (psmPortCapability (j+1)) ≠ none →
      (∀ k, j < k → k < i → s.psm (psmPortCapability (k+1)) = none) →
      s.ports.portCapability (j+1) = s.ports.portCapability (i+1)) ∧
    ((∀ j < i, s.psm (psmPortCapability (j+1)) = none) →
      s.ports.portCapability (i+1) = some .lan)

section Records

variable {psm : Text → Option Text} {a : PortInitAnswers} {p : Platform}

theorem psmRecord_injective {param : Text} {i j : Nat}
    (h : psmRecord i param = psmRecord j param) : i = j := by
  unfold psmRecord at h
  generalize "dmsb.ethagent.if.".toList = rows at h
  rw [List.append_assoc,List.append_assoc] at h
  exact decimal_injective (List.append_cancel_right (List.append_cancel_left h))

theorem ne_psmPortCapability {key : Text} {c : Char} (hlast : key.getLast? = some c)
    (hc : c ≠ 'y') (row : Nat) : key ≠ psmPortCapability row := by
  rintro rfl
  rw [psmPortCapability,getLast?_psmRecord] at hlast
  exact hc (Option.some_inj.mp hlast).symm

@[simp] theorem portCapabilityOf_text (cap : PortCap) :
    portCapabilityOf (cap.text.take 31) = cap := by
  cases cap <;> decide

theorem psmCfgName_ne (row row' : Nat) : psmCfgName row ≠ psmPortCapability row' :=
  ne_psmPortCapability (getLast?_psmRecord row "Name".toList) (by decide) row'

theorem psmCfgCount_ne (row : Nat) : psmCfgCount ≠ psmPortCapability row :=
  ne_psmPortCapability (show psmCfgCount.getLast? = some 't' by decide) (by decide) row

theorem portConfig_update (row : Nat) (v : Option Text) :
    portConfig a (Function.update psm (psmPortCapability row) v) = portConfig a psm := by
  simp only [portConfig,Function.update_of_ne (psmCfgCount_ne row),
    Function.update_of_ne (psmCfgName_ne _ row)]

theorem initSwitchPorts_isSome_iff (n : Nat) :
    (initSwitchPorts p a psm n).isSome = true ↔
      ∀ i < n, (dmlEthGetPSMRecordValue psm (psmCfgName (i+1))).isSome = true := by
  induction n with
  | zero => simp [initSwitchPorts]
  | succ n ih =>
    rw [Nat.forall_lt_succ_right,← ih,initSwitchPorts]
    cases initSwitchPorts p a psm n with
    | none => simp
    | some s => simp [initSwitchPort]

theorem cosaDmlEthPortInitSwitch_isSome_iff :
    (cosaDmlEthPortInitSwitch p a psm).isSome = true ↔
      (dmlEthGetPSMRecordValue psm psmCfgCount).isSome = true ∧
        ∀ i < initRounds p a psm,
          (dmlEthGetPSMRecordValue psm (psmCfgName (i+1))).isSome = true := by
  rw [← initSwitchPorts_isSome_iff (p := p) (a := a),cosaDmlEthPortInitSwitch]
  cases dmlEthGetPSMRecordValue psm psmCfgCount with
  | none => simp
  | some count => simp

theorem starts_update (row : Nat) (v : Option Text)
    (h : (cosaDmlEthPortInitSwitch p a psm).isSome = true) :
    (cosaDmlEthPortInitSwitch p a
      (Function.update psm (psmPortCapability row) v)).isSome = true := by
  have hread : ∀ key, key ≠ psmPortCapability row →
      dmlEthGetPSMRecordValue (Function.update psm (psmPortCapability row) v) key =
        dmlEthGetPSMRecordValue psm key := by
    intro key hkey
    rw [dmlEthGetPSMRecordValue,dmlEthGetPSMRecordValue,Function.update_of_ne hkey]
  rw [cosaDmlEthPortInitSwitch_isSome_iff] at h ⊢
  rw [initRounds,portConfig_update,hread _ (psmCfgCount_ne row)]
  refine ⟨h.1,fun i hi => ?_⟩
  rw [hread _ (psmCfgName_ne _ row)]
  exact h.2 i hi

/-- What the buffer holds after the first ports is the record of the last of them that
has one. -/
theorem lastCapability_cases (psm : Text → Option Text) (n : Nat) :
    ((∀ j < n, psm (psmPortCapability (j+1)) = none) ∧ lastCapability psm n = []) ∨
      ∃ j < n, ∃ v, psm (psmPortCapability (j+1)) = some v ∧
        (∀ k, j < k → k < n → psm (psmPortCapability (k+1)) = none) ∧
        lastCapability psm n = v.take 31 := by
  induction n with
  | zero => exact .inl ⟨fun j hj => absurd hj (Nat.not_lt_zero j),rfl⟩
  | succ n ih =>
    rw [lastCapability_succ]
    cases hv : psm (psmPortCapability (n+1)) with
    | some v => exact .inr ⟨n,Nat.lt_succ_self n,v,hv,fun k hk hkn => by omega,rfl⟩
    | none =>
      have hn : ∀ k, ¬ k < n → k < n+1 → psm (psmPortCapability (k+1)) = none := by
        intro k hk hkn
        rwa [Nat.le_antisymm (Nat.le_of_lt_succ hkn) (Nat.not_lt.mp hk)]
      rcases ih with ⟨hnone,hlast⟩ | ⟨j,hj,v,hjv,hbetween,hlast⟩
      · refine .inl ⟨fun k hk => ?_,hlast⟩
        by_cases hkn : k < n
        · exact hnone k hkn
        · exact hn k hkn hk
      · refine .inr ⟨j,Nat.lt_succ_of_lt hj,v,hjv,fun k hjk hk => ?_,hlast⟩
        by_cases hkn : k < n
        · exact hbetween k hjk hkn
        · exact hn k hkn hk

end Records

section Ports

variable {p : Platform} {c : PortConfig}

theorem row_init (ha : c.Allocates p) {ins : Nat} {row : EthRow}
    (h : (cosaDmlEthPortInit p c).row ins = some row) :
    ∃ i < c.total p, ins = i+1 ∧ row = initRow p c i := by
  have hmem := (init_of_allocates ha).2.mem_iff.mp (List.mem_of_find?_eq_some h)
  obtain ⟨i,hi,rfl⟩ := List.mem_map.mp hmem
  have hins := List.find?_some h
  exact ⟨i,List.mem_range.mp hi,(of_decide_eq_true hins).symm,rfl⟩

theorem index_init (ha : c.Allocates p) (hn : c.Named p) {i : Nat} (hi : i < c.total p) :
    cosaDmlEthPortGetIndexFromIfName (cosaDmlEthPortInit p c).ports
      (some (initRow p c i).name.text) = some i := by
  have hsame := samePorts_init ha hn
  have hget : (recordNames ((List.range (c.total p)).map (initRecord p c)))[i]? =
      some (initRow p c i).name.text := by
    simp only [recordNames,List.getElem?_map,List.getElem?_range hi,Option.map_some]
    exact congrArg some (initRecord_name (hn.plain i hi))
  rw [getIndexFromIfName_eq_some_iff,hsame.names]
  refine ⟨hget,fun j hj hjget => ?_⟩
  have hlength := (List.getElem?_eq_some_iff.mp hjget).1
  have heq := (List.getElem?_inj hlength hsame.nodup).mp (hjget.trans hget.symm)
  omega

end Ports

section Set

variable {p : Platform} {a : PortInitAnswers} {c : PortConfig} {unified : Bool}
  {s s' : CapabilityState} {ins : Nat} {uValue : PortCap} {answers : CapabilityAnswers}

/-- A refused request leaves PSM alone, and an accepted one writes one record. -/
theorem portSetCapability_cases {t : PortTable} {psm psm' : Text → Option Text} {row : EthRow}
    {ok : Bool}
    (h : cosaDmlEthPortSetPortCapability unified answers t psm row uValue = some (ok,psm')) :
    ok = false ∧ psm' = psm ∨
      ok = true ∧ ∃ ifIndex, cosaDmlEthPortGetIndexFromIfName t (some row.name.text) =
          some ifIndex ∧
        psm' = ethagentSetParamValuesToPSM answers.psmSet psm (psmPortCapability (ifIndex+1))
          uValue.text := by
  unfold cosaDmlEthPortSetPortCapability at h
  cases hindex : cosaDmlEthPortGetIndexFromIfName t (some row.name.text) with
  | none =>
    simp only [hindex,Option.some_inj,Prod.mk.injEq] at h
    exact .inl ⟨h.1.symm,h.2.symm⟩
  | some ifIndex =>
    simp only [hindex,Option.map_eq_some_iff] at h
    obtain ⟨wanOE,-,h⟩ := h
    have hrefused : (false,psm) = (ok,psm') → ok = false ∧ psm' = psm :=
      fun heq => ⟨(Prod.mk.inj heq).1.symm,(Prod.mk.inj heq).2.symm⟩
    have haccepted : (true,ethagentSetParamValuesToPSM answers.psmSet psm
        (psmPortCapability (ifIndex+1)) uValue.text) = (ok,psm') →
        ok = true ∧ ∃ ifIndex', some ifIndex = some ifIndex' ∧
          psm' = ethagentSetParamValuesToPSM answers.psmSet psm (psmPortCapability (ifIndex'+1))
            uValue.text :=
      fun heq => ⟨(Prod.mk.inj heq).1.symm,ifIndex,rfl,(Prod.mk.inj heq).2.symm⟩
    cases wanOE with
    | none => exact .inl (hrefused h)
    | some wanOEInterface =>
      dsimp only at h
      split_ifs at h
      · exact .inr (haccepted h)
      · exact .inl (hrefused h)
      · exact .inl (hrefused h)
      · exact .inr (haccepted h)

/-- A Set is refused, or it changes the row and the record that the name of the row leads
to. -/
theorem setPortCapability_cases
    (h : ethRdkInterfaceSetPortCapability unified s ins uValue answers = some s') :
    s' = s ∨ ∃ row prevValue ifIndex, s.ports.ethernet.row ins = some row ∧
      s.ports.portCapability ins = some prevValue ∧
      cosaDmlEthPortGetIndexFromIfName s.ports.ethernet.ports (some row.name.text) =
        some ifIndex ∧
      s' = ⟨s.ports.setPortCapability ins uValue,
        ethagentSetParamValuesToPSM answers.psmSet s.psm (psmPortCapability (ifIndex+1))
          uValue.text⟩ := by
  unfold ethRdkInterfaceSetPortCapability at h
  cases hrow : s.ports.ethernet.row ins with
  | none =>
    simp only [hrow,Option.some_inj] at h
    exact .inl h.symm
  | some row =>
    cases hprev : s.ports.portCapability ins with
    | none =>
      simp only [hrow,hprev,Option.some_inj] at h
      exact .inl h.symm
    | some prevValue =>
      simp only [hrow,hprev] at h
      split at h
      · exact .inl (Option.some_inj.mp h).symm
      · obtain ⟨⟨ok,psm⟩,hset,hs'⟩ := Option.map_eq_some_iff.mp h
        rcases portSetCapability_cases hset with ⟨rfl,rfl⟩ | ⟨rfl,ifIndex,hindex,rfl⟩
        · exact .inl hs'.symm
        · exact .inr ⟨row,prevValue,ifIndex,rfl,rfl,hindex,hs'.symm⟩

theorem portCapability_setPortCapability (ports : SwitchPorts) (ins ins' : Nat)
    (uValue : PortCap) :
    (ports.setPortCapability ins uValue).portCapability ins' =
      if ins' = ins then (ports.portCapability ins).map fun _ => uValue
      else ports.portCapability ins' := by
  by_cases hins : ins' = ins
  · subst hins
    rw [if_pos rfl]
    simp [SwitchPorts.setPortCapability,SwitchPorts.portCapability]
    rfl
  · rw [if_neg hins]
    simp [SwitchPorts.setPortCapability,SwitchPorts.portCapability,Function.update_of_ne hins]

theorem CapabilityStored.set (h : CapabilityStored p a c s) (ha : c.Allocates p)
    (hn : c.Named p) (hpsm : answers.psmSet = true)
    (hset : ethRdkInterfaceSetPortCapability unified s ins uValue answers = some s') :
    CapabilityStored p a c s' := by
  rcases setPortCapability_cases hset with rfl | ⟨row,prevValue,ifIndex,hrow,hprev,hindex,rfl⟩
  · exact h
  · rw [h.ethernet] at hrow hindex
    obtain ⟨i,hi,rfl,rfl⟩ := row_init ha hrow
    rw [index_init ha hn hi,Option.some_inj] at hindex
    subst hindex
    rw [ethagentSetParamValuesToPSM,if_pos hpsm]
    refine ⟨(portConfig_update _ _).trans h.config,starts_update _ _ h.starts,h.ethernet,?_⟩
    intro j hj v hv
    simp only at hv ⊢
    rw [portCapability_setPortCapability]
    by_cases hji : j = i
    · subst hji
      rw [Function.update_self,Option.some_inj] at hv
      rw [if_pos rfl,hprev,← hv,portCapabilityOf_text]
      rfl
    · have hkey : psmPortCapability (j+1) ≠ psmPortCapability (i+1) := fun heq =>
        hji (Nat.succ_injective (psmRecord_injective heq))
      rw [Function.update_of_ne hkey] at hv
      rw [if_neg fun heq => hji (Nat.succ_injective heq)]
      exact h.recorded j hj v hv

end Set

section Run

variable {p : Platform} {a : PortInitAnswers} {c : PortConfig} {unified : Bool}
  {s s' : CapabilityState} {psm : Text → Option Text} {ports : SwitchPorts}

theorem initRounds_eq (ha : (portConfig a psm).Allocates p) :
    initRounds p a psm = (portConfig a psm).total p := by
  have hall : (List.range ((portConfig a psm).total p)).takeWhile a.rowAllocated =
      List.range ((portConfig a psm).total p) :=
    List.takeWhile_eq_self_iff.mpr fun i hi => ha.rows i (List.mem_range.mp hi)
  rw [initRounds,hall,List.length_range]

theorem capabilityStored_start (ha : (portConfig a psm).Allocates p)
    (hstart : cosaDmlEthPortInitSwitch p a psm = some ports) :
    CapabilityStored p a (portConfig a psm) ⟨ports,psm⟩ := by
  have hsome : (cosaDmlEthPortInitSwitch p a psm).isSome = true := by rw [hstart]; rfl
  refine ⟨rfl,hsome,cosaDmlEthPortInitSwitch_ethernet hstart,fun i hi v hv => ?_⟩
  have hrecord : psm (psmPortCapability (i+1)) = some v := hv
  have hcapability := initialCapability_eq hsome (by rwa [initRounds_eq ha])
  rw [initialCapability,hstart,Option.bind_some,lastCapability_succ,hrecord] at hcapability
  exact hcapability

/-- Every Set of a run finds PSM ready to write. -/
def PsmWrites (events : List CapabilityEvent) : Prop :=
  ∀ ins uValue answers, .set ins uValue answers ∈ events → answers.psmSet = true

theorem CapabilityStored.run {events : List CapabilityEvent} (h : CapabilityStored p a c s)
    (ha : c.Allocates p) (hn : c.Named p) (hpsm : PsmWrites events)
    (hrun : events.foldlM (capabilityStep p a unified) s = some s') :
    CapabilityStored p a c s' := by
  induction events generalizing s with
  | nil =>
    rw [List.foldlM_nil] at hrun
    exact Option.some_inj.mp hrun ▸ h
  | cons event events ih =>
    rw [List.foldlM_cons] at hrun
    obtain ⟨s₁,hstep,hrest⟩ := Option.bind_eq_some_iff.mp hrun
    refine ih ?_ (fun ins uValue answers hmem => hpsm ins uValue answers (.tail _ hmem)) hrest
    cases event with
    | set ins uValue answers =>
      exact h.set ha hn (hpsm ins uValue answers (.head _)) hstep
    | restart =>
      obtain ⟨ports,hstart,rfl⟩ := Option.map_eq_some_iff.mp hstep
      obtain rfl := h.config
      exact capabilityStored_start ha hstart

/-- Where the records agree with the ports, the next start gives a port its capability
back exactly if the record that reaches it says so. -/
theorem CapabilityStored.survives_iff (h : CapabilityStored p a c s) (ha : c.Allocates p)
    {i : Nat} (hi : i < c.total p) : SurvivesRestart p a s i ↔ RecordReaches s i := by
  obtain rfl := h.config
  have hnext := initialCapability_eq h.starts (by rwa [initRounds_eq ha])
  rw [SurvivesRestart,RecordReaches,hnext,lastCapability_succ]
  cases hv : s.psm (psmPortCapability (i+1)) with
  | some v => simp [h.recorded i hi v hv]
  | none =>
    simp only [ne_eq,not_true_eq_false,false_or]
    rcases lastCapability_cases s.psm i with ⟨hnone,hlast⟩ | ⟨j,hj,v,hjv,hbetween,hlast⟩
    · have hlan : portCapabilityOf [] = .lan := rfl
      rw [hlast,hlan]
      constructor
      · exact fun heq => ⟨fun j hj hsome => absurd (hnone j hj) hsome,fun _ => heq.symm⟩
      · exact fun hreach => (hreach.2 hnone).symm
    · have hcapability := h.recorded j (hj.trans hi) v hjv
      rw [hlast,← hcapability]
      constructor
      · intro heq
        refine ⟨fun k hk hsome hafter => ?_,fun hnone => absurd (hnone j hj) (by simp [hjv])⟩
        -- only one port is the nearest with a record
        rcases Nat.lt_trichotomy k j with hkj | rfl | hjk
        · exact absurd (hafter j hkj hj) (by simp [hjv])
        · exact heq
        · exact absurd (hbetween k hjk hk) hsome
      · exact fun hreach => hreach.1 j hj (by simp [hjv]) hbetween

end Run

/-- After a start, Sets and restarts in any order, a port has its capability again after
the next start exactly if it has a record in PSM, or the nearest port before it that has one
has the same capability, or there is none and it is a LAN port. -/
theorem port_capability_survives_iff {p : Platform} {a : PortInitAnswers} {unified : Bool}
    {psm : Text → Option Text} {events : List CapabilityEvent} {s : CapabilityState}
    (ha : (portConfig a psm).Allocates p) (hn : (portConfig a psm).Named p)
    (hpsm : PsmWrites events) (hrun : capabilityRun p a unified psm events = some s) {i : Nat}
    (hi : i < (portConfig a psm).total p) :
    SurvivesRestart p a s i ↔ RecordReaches s i := by
  obtain ⟨ports,hstart,hevents⟩ := Option.bind_eq_some_iff.mp hrun
  exact ((capabilityStored_start ha hstart).run ha hn hpsm hevents).survives_iff ha hi

/-- Two ports without a record. -/
def countedPorts (key : Text) : Option Text := if key = psmCfgCount then some "2".toList else none

/-- The WAN manager has one entry, and does not tell its name. -/
def namelessEntry : CapabilityAnswers where
  wan :=
    ⟨Scanf.wrappingInt,
      fun key => if key = wanNoeParamName false then .value "1".toList else .failed,
      fun _ => ⟨true,false⟩⟩
  ethPortConfigure := fun _ _ => true
  psmSet := true

def firstPortSets : List CapabilityEvent :=
  [.set 1 .wan namelessEntry,.restart,.set 1 .wanLan namelessEntry]

theorem firstPortSets_run :
    (capabilityRun fourPorts initAnswered false countedPorts firstPortSets).isSome = true := by
  decide +kernel

/-- The second port has followed the first to WAN, and does not follow it further before
the next start. -/
def firstPortSet : CapabilityState := Option.get _ firstPortSets_run

theorem countedPorts_named : (portConfig initAnswered countedPorts).Named fourPorts := by
  refine ⟨by decide +kernel,fun i _ t ht => ?_⟩
  have hname : psmCfgName (i+1) ≠ psmCfgCount := by
    intro h
    have hlast := getLast?_psmRecord (i+1) "Name".toList
    rw [← psmCfgName,h] at hlast
    exact absurd hlast (by decide)
  simp [portConfig,countedPorts,hname] at ht

theorem port_capability_survives_second_port :
    (SurvivesRestart fourPorts initAnswered firstPortSet 1 ↔ RecordReaches firstPortSet 1) ∧
      ¬ SurvivesRestart fourPorts initAnswered firstPortSet 1 := by
  have hpsm : PsmWrites firstPortSets := by
    intro ins uValue answers hmem
    simp only [firstPortSets,List.mem_cons,CapabilityEvent.set.injEq,reduceCtorEq,
      List.not_mem_nil,or_false,false_or] at hmem
    rcases hmem with ⟨-,-,rfl⟩ | ⟨-,-,rfl⟩ <;> rfl
  exact ⟨port_capability_survives_iff ⟨fun _ _ => rfl,rfl⟩ countedPorts_named hpsm
      (Option.some_get firstPortSets_run).symm (by decide +kernel),
    by unfold SurvivesRestart; decide +kernel⟩

end EthAgent
