import EthAgent.Lib.CString
import EthAgent.Lib.Packed
import EthAgent.Lib.Runs

/-!
The rows of `Ethernet.Interface` and the ports under them: switch ports, which the
switch HAL keeps, and Linux interfaces. A Set changes the `Cfg` that the row holds, a
Commit gives it to the port, and a Rollback reads it back from there, each through the
operations of the port's kind.
-/

set_option autoImplicit false

namespace EthAgent
open CString Packed Runs

inductive AdminStatus where
  | up
  | down
  | other
  deriving DecidableEq

inductive LinkRate where
  | mbps10
  | mbps100
  | gbps1
  | gbps2_5
  | gbps5
  | gbps10
  | auto
  | other

/-- `CCSP_HAL_ETHSW_DUPLEX_MODE`. -/
inductive SwitchDuplex where
  | auto
  | half
  | full
  | other

structure SwitchPort where
  adminStatus : AdminStatus
  linkRate : LinkRate
  duplexMode : SwitchDuplex

/-- A port with what is configured in it: in the HAL, or as `IFF_UP`. -/
inductive Port where
  | switch (p : SwitchPort)
  | linux (up : Bool)

instance aliasSize : NeZero 512 := ⟨by decide⟩

structure PortCfg where
  instanceNumber : Nat
  ifAlias : Buf 512
  bEnabled : Bool
  maxBitRate : Int
  duplexMode : Nat
  deriving DecidableEq

structure PortFull where
  cfg : PortCfg
  bUpstream : Bool
  deriving DecidableEq

/-- `CosaEthInterfaceInfo`, with its port and the text that syscfg keeps for it. -/
structure PortEntry where
  instanceNumber : Nat
  ifAlias : Buf 512
  lastChange : Nat
  savedId : Option Text
  port : Port

/-- `_2_5G_ETHERNET_SUPPORT_` and `FEATURE_RDKB_WAN_UPSTREAM`. -/
structure InterfaceBuild where
  multiGig : Bool
  wanUpstream : Bool

inductive FlagsAnswer where
  | done
  | noDevice
  | failed
  deriving DecidableEq

/-- How `socket`, the ioctl `SIOCGIFFLAGS` and `getIfAvailability` end. -/
structure IfAnswers where
  opened : Bool
  flags : FlagsAnswer
  available : Bool

inductive IfStatus where
  | up
  | down
  | unknown
  | notPresent
  | error
  deriving DecidableEq

/-- `getIfStatus`; no name of the interface table is blank. -/
def getIfStatus (up : Bool) (a : IfAnswers) : IfStatus :=
  if a.opened then
    match a.flags with
    | .done => if up then .up else .down
    | .noDevice => .error
    | .failed => if a.available then .unknown else .notPresent
  else .error

structure GetAnswers where
  getPortAdminStatus : Bool
  getPortCfg : Bool
  ifStatus : IfAnswers

structure SetAnswers where
  origCfg : GetAnswers
  setPortAdminStatus : Bool
  ifStatus : IfAnswers
  setIfStatus : Bool
  tickInSeconds : Nat
  utopiaInit : Bool

def cosaDmlEthDuplexHalf : Nat := 1
def cosaDmlEthDuplexFull : Nat := 2
def cosaDmlEthDuplexAuto : Nat := 3

def switchBitRate (b : InterfaceBuild) : LinkRate → Int
  | .mbps10 => 10
  | .mbps100 => 100
  | .gbps1 => 1000
  | .gbps2_5 => if b.multiGig then 2500 else 0
  | .gbps5 => if b.multiGig then 5000 else 0
  | .gbps10 => 10000
  | .auto => 0
  | .other => 0

def switchDuplexMode : SwitchDuplex → Nat
  | .auto => cosaDmlEthDuplexAuto
  | .half => cosaDmlEthDuplexHalf
  | .full => cosaDmlEthDuplexFull
  | .other => cosaDmlEthDuplexAuto

/-- `puma6_getSwitchCfg`, whose status no caller looks at. -/
def puma6GetSwitchCfg (b : InterfaceBuild) (p : SwitchPort) (a : GetAnswers)
    (pcfg : PortCfg) : PortCfg :=
  let pcfg := { pcfg with
    bEnabled := if a.getPortAdminStatus then p.adminStatus ≠ .down else true }
  if a.getPortCfg then
    { pcfg with
      maxBitRate := switchBitRate b p.linkRate
      duplexMode := switchDuplexMode p.duplexMode }
  else pcfg

def puma6SetSwitchCfg (p : SwitchPort) (pcfg : PortCfg) (a : SetAnswers) : SwitchPort :=
  if a.setPortAdminStatus then
    { p with adminStatus := if pcfg.bEnabled then .up else .down }
  else p

def getIfCfg (up : Bool) (a : GetAnswers) (pCfg : PortCfg) : PortCfg :=
  { pCfg with
    bEnabled := getIfStatus up a.ifStatus = .up
    duplexMode := cosaDmlEthDuplexAuto
    maxBitRate := 1000 }

def setIfCfg (up : Bool) (pCfg : PortCfg) (a : SetAnswers) : Bool :=
  match getIfStatus up a.ifStatus with
  | .unknown => up
  | .notPresent => up
  -- ifr is not filled in, so that it names no interface
  | .error => up
  | _ =>
    if pCfg.bEnabled ∧ ¬ up then if a.setIfStatus then true else up
    else if ¬ pCfg.bEnabled ∧ up then if a.setIfStatus then false else up
    else up

def getCfg (b : InterfaceBuild) (port : Port) (a : GetAnswers) (pCfg : PortCfg) : PortCfg :=
  match port with
  | .switch p => puma6GetSwitchCfg b p a pCfg
  | .linux up => getIfCfg up a pCfg

def setCfg (port : Port) (pCfg : PortCfg) (a : SetAnswers) : Port :=
  match port with
  | .switch p => .switch (puma6SetSwitchCfg p pCfg a)
  | .linux up => .linux (setIfCfg up pCfg a)

def getIF (entries : List PortEntry) (instanceNumber : Nat) : Option (Fin entries.length) :=
  entries.findFinIdx? fun e => e.instanceNumber = instanceNumber

/-- `sprintf_s` of `"%s,%lu"` in `saveID`. -/
def idStr (pAlias : Buf 512) (ulInstanceNumber : Nat) : Text :=
  pAlias.text ++ [','] ++ decimal ulInstanceNumber

/-- What `CosaDmlEthPortSetCfg` makes of the entry that `getIF` has found. -/
def PortEntry.setCfg (b : InterfaceBuild) (pEthIf : PortEntry) (pCfg : PortCfg)
    (a : SetAnswers) : PortEntry :=
  -- only bEnabled of origCfg is read, and every getCfg assigns it
  let origCfg := getCfg b pEthIf.port a.origCfg pCfg
  let pEthIf := { pEthIf with port := EthAgent.setCfg pEthIf.port pCfg a }
  let pEthIf :=
    if origCfg.bEnabled ≠ pCfg.bEnabled then { pEthIf with lastChange := a.tickInSeconds }
    else pEthIf
  if pCfg.ifAlias ≠ pEthIf.ifAlias then
    { pEthIf with
      ifAlias := pCfg.ifAlias
      savedId :=
        if a.utopiaInit then some (idStr pCfg.ifAlias pCfg.instanceNumber) else pEthIf.savedId }
  else pEthIf

def PortEntry.getCfg (b : InterfaceBuild) (pEthIf : PortEntry) (a : GetAnswers)
    (pCfg : PortCfg) : PortCfg :=
  { EthAgent.getCfg b pEthIf.port a pCfg with
    ifAlias := pEthIf.ifAlias
    instanceNumber := pEthIf.instanceNumber }

def cosaDmlEthPortSetCfg (b : InterfaceBuild) (entries : List PortEntry) (pCfg : PortCfg)
    (a : SetAnswers) : Bool × List PortEntry :=
  match getIF entries pCfg.instanceNumber with
  | none => (false,entries)
  | some i => (true,entries.modify i fun pEthIf => pEthIf.setCfg b pCfg a)

def cosaDmlEthPortGetCfg (b : InterfaceBuild) (entries : List PortEntry) (pCfg : PortCfg)
    (a : GetAnswers) : Bool × PortCfg :=
  match getIF entries pCfg.instanceNumber with
  | none => (false,pCfg)
  | some i => (true,entries[i].getCfg b a pCfg)

theorem PortEntry.setCfg_instanceNumber (b : InterfaceBuild) (e : PortEntry) (pCfg : PortCfg)
    (a : SetAnswers) : (e.setCfg b pCfg a).instanceNumber = e.instanceNumber := by
  unfold PortEntry.setCfg
  simp only
  split <;> split <;> rfl

theorem instanceNumber_of_getIF {entries : List PortEntry} {n : Nat} {i : Fin entries.length}
    (h : getIF entries n = some i) : entries[i].instanceNumber = n := by
  simpa using (List.findFinIdx?_eq_some_iff.mp h).1

theorem setCfg_numbers (b : InterfaceBuild) (entries : List PortEntry) (pCfg : PortCfg)
    (a : SetAnswers) :
    (cosaDmlEthPortSetCfg b entries pCfg a).2.map (fun e => e.instanceNumber) =
      entries.map fun e => e.instanceNumber := by
  unfold cosaDmlEthPortSetCfg
  split
  · rfl
  · exact map_modify_of_eq (fun e => e.setCfg_instanceNumber b pCfg a) entries _

theorem getCfg_number (b : InterfaceBuild) (entries : List PortEntry) (pCfg : PortCfg)
    (a : GetAnswers) :
    (cosaDmlEthPortGetCfg b entries pCfg a).2.instanceNumber = pCfg.instanceNumber := by
  unfold cosaDmlEthPortGetCfg
  split
  · rfl
  · exact instanceNumber_of_getIF ‹_›

/-- `EthernetPortFullTable` over `g_EthEntries`: each row carries the instance number of
its entry, and no two entries have the same. -/
structure EthInterfaces where
  entries : List PortEntry
  rows : List PortFull
  numbers : (rows.map fun r => r.cfg.instanceNumber) = entries.map fun e => e.instanceNumber
  distinct : (entries.map fun e => e.instanceNumber).Nodup

theorem EthInterfaces.ext_rows {s t : EthInterfaces} (hentries : s.entries = t.entries)
    (hrows : s.rows = t.rows) : s = t := by
  cases s; cases t; simp_all

def EthInterfaces.modifyRow (s : EthInterfaces) (i : Nat) (f : PortFull → PortFull)
    (hf : ∀ r, (f r).cfg.instanceNumber = r.cfg.instanceNumber) : EthInterfaces where
  entries := s.entries
  rows := s.rows.modify i f
  numbers := (map_modify_of_eq hf s.rows i).trans s.numbers
  distinct := s.distinct

/-- A Set of a parameter of a row. `LowerLayers` is always refused. -/
inductive InterfaceSet where
  | enable (bValue : Bool)
  | upstream (bValue : Bool)
  | maxBitRate (iValue : Int)
  | duplexMode (uValue : Nat)
  | ifAlias (pString : Text)

/-- `Interface_SetParamBoolValue`, `_SetParamIntValue`, `_SetParamUlongValue` and
`_SetParamStringValue`, without what `EthInterfaceSetUpstream` does to the WAN mode. -/
def interfaceSetParamValue (b : InterfaceBuild) (row : PortFull) :
    InterfaceSet → Bool × PortFull
  | .enable bValue => (true,{ row with cfg := { row.cfg with bEnabled := bValue } })
  | .upstream bValue =>
    if b.wanUpstream then (true,{ row with bUpstream := bValue }) else (false,row)
  | .maxBitRate iValue => (true,{ row with cfg := { row.cfg with maxBitRate := iValue } })
  | .duplexMode uValue =>
    -- an enumeration of 32 bits
    (true,{ row with cfg := { row.cfg with duplexMode := uValue % 2^32 } })
  | .ifAlias pString =>
    if pString.length < 511 then
      (true,{ row with cfg := { row.cfg with ifAlias := Buf.store pString } })
    else (false,row)

theorem interfaceSetParamValue_number (b : InterfaceBuild) (v : InterfaceSet) (row : PortFull) :
    (interfaceSetParamValue b row v).2.cfg.instanceNumber = row.cfg.instanceNumber := by
  cases v <;> simp only [interfaceSetParamValue] <;> split <;> rfl

def interfaceStep (b : InterfaceBuild) (s : EthInterfaces) (q : Nat × InterfaceSet) :
    EthInterfaces :=
  s.modifyRow q.1 (fun row => (interfaceSetParamValue b row q.2).2)
    (interfaceSetParamValue_number b q.2)

def interfaceValidate (s : EthInterfaces) (i : Nat) : Bool :=
  match s.rows[i]? with
  | none => true
  | some row =>
    (List.range s.entries.length).all fun ulIndex =>
      ulIndex = i || s.rows[ulIndex]?.all fun r => r.cfg.ifAlias ≠ row.cfg.ifAlias

def interfaceCommit (b : InterfaceBuild) (s : EthInterfaces) (i : Nat) (a : SetAnswers) :
    EthInterfaces :=
  match s.rows[i]? with
  | none => s
  | some row =>
    { entries := (cosaDmlEthPortSetCfg b s.entries row.cfg a).2
      rows := s.rows
      numbers := s.numbers.trans (setCfg_numbers b s.entries row.cfg a).symm
      distinct := by rw [setCfg_numbers]; exact s.distinct }

def interfaceRollback (b : InterfaceBuild) (s : EthInterfaces) (i : Nat) (a : GetAnswers) :
    EthInterfaces :=
  s.modifyRow i (fun row => { row with cfg := (cosaDmlEthPortGetCfg b s.entries row.cfg a).2 })
    fun row => getCfg_number b s.entries row.cfg a

def interfaceAlias (ulNextInsNum : Nat) : Buf 512 :=
  Buf.store ("Interface".toList ++ decimal ulNextInsNum)

/-- A port of the interface table at the start, with what syscfg keeps for it and how
the calls made for it end. -/
structure InitPort where
  port : Port
  bUpstream : Bool
  savedId : Option Text
  answers : GetAnswers
  utopiaInit : Bool

def initEntry (tickInSeconds i : Nat) (q : InitPort) : PortEntry where
  instanceNumber := i+1
  ifAlias := interfaceAlias (i+1)
  lastChange := tickInSeconds
  savedId := if q.utopiaInit then some (idStr (interfaceAlias (i+1)) (i+1)) else q.savedId
  port := q.port

def initInterface (b : InterfaceBuild) (i : Nat) (q : InitPort) : PortFull where
  cfg := { getCfg b q.port q.answers ⟨0,Buf.store [],false,0,0⟩ with
    instanceNumber := i+1
    ifAlias := interfaceAlias (i+1) }
  bUpstream := q.bUpstream

/-- `CosaEthInterfaceInitialize`. The instance number that `CosaDmlEthPortGetEntry` gives
is 0 for every port, whatever `loadID` has read, so that all are numbered anew. -/
def cosaEthInterfaceInitialize (b : InterfaceBuild) (tickInSeconds : Nat)
    (table : List InitPort) : EthInterfaces where
  entries := table.mapIdx (initEntry tickInSeconds)
  rows := table.mapIdx (initInterface b)
  numbers := by
    apply List.ext_getElem
    · simp
    · intro i h h'
      simp [initEntry,initInterface]
  distinct := by
    have hnumbers : (table.mapIdx (initEntry tickInSeconds)).map
        (fun e => e.instanceNumber) = (List.range table.length).map Nat.succ := by
      apply List.ext_getElem
      · simp
      · intro i h h'
        simp [initEntry]
    rw [hnumbers]
    exact List.nodup_range.map Nat.succ_injective

theorem EthInterfaces.length_eq (s : EthInterfaces) : s.rows.length = s.entries.length := by
  simpa using congrArg List.length s.numbers

theorem getIF_row {s : EthInterfaces} {i : Nat} {row : PortFull} (hrow : s.rows[i]? = some row)
    {e : PortEntry} (he : s.entries[i]? = some e) :
    ∃ hi : i < s.entries.length,
      getIF s.entries row.cfg.instanceNumber = some ⟨i,hi⟩ ∧ s.entries[i] = e ∧
        row.cfg.instanceNumber = e.instanceNumber := by
  obtain ⟨hi,hget⟩ := List.getElem?_eq_some_iff.mp he
  have hnumber : row.cfg.instanceNumber = e.instanceNumber := by
    have h := congrArg (fun l => l[i]?) s.numbers
    simpa [hrow,he] using h
  refine ⟨hi,List.findFinIdx?_eq_some_iff.mpr ⟨?_,fun j hj => ?_⟩,hget,hnumber⟩
  · simp [hget,hnumber]
  · have hne := List.pairwise_iff_getElem.mp s.distinct j i (by simp) (by simpa using hi) hj
    simpa [hget,hnumber] using hne

theorem getCfg_row {b : InterfaceBuild} {s : EthInterfaces} {i : Nat} {row : PortFull}
    (hrow : s.rows[i]? = some row) {e : PortEntry} (he : s.entries[i]? = some e)
    (a : GetAnswers) :
    cosaDmlEthPortGetCfg b s.entries row.cfg a = (true,e.getCfg b a row.cfg) := by
  obtain ⟨hi,hfound,hget,-⟩ := getIF_row hrow he
  simp [cosaDmlEthPortGetCfg,hfound,hget]

theorem entries_interfaceCommit {b : InterfaceBuild} {s : EthInterfaces} {i : Nat}
    {row : PortFull} (hrow : s.rows[i]? = some row) {e : PortEntry}
    (he : s.entries[i]? = some e) (a : SetAnswers) :
    (interfaceCommit b s i a).entries[i]? = some (e.setCfg b row.cfg a) := by
  obtain ⟨hi,hfound,hget,-⟩ := getIF_row hrow he
  simp [interfaceCommit,hrow,cosaDmlEthPortSetCfg,hfound,hi,hget]

theorem rows_interfaceCommit (b : InterfaceBuild) (s : EthInterfaces) (i : Nat)
    (a : SetAnswers) : (interfaceCommit b s i a).rows = s.rows := by
  unfold interfaceCommit
  split <;> rfl

/-- What a port reports as its `MaxBitRate`, whatever was committed. -/
def Port.bitRate (b : InterfaceBuild) : Port → Int
  | .switch p => switchBitRate b p.linkRate
  | .linux _ => 1000

def Port.duplex : Port → Nat
  | .switch p => switchDuplexMode p.duplexMode
  | .linux _ => cosaDmlEthDuplexAuto

structure IfAnswers.Succeed (a : IfAnswers) : Prop where
  opened : a.opened = true
  flags : a.flags = .done

structure GetAnswers.Succeed (a : GetAnswers) : Prop where
  adminStatus : a.getPortAdminStatus = true
  portCfg : a.getPortCfg = true
  ifStatus : a.ifStatus.Succeed

structure SetAnswers.Succeed (a : SetAnswers) : Prop where
  origCfg : a.origCfg.Succeed
  adminStatus : a.setPortAdminStatus = true
  ifStatus : a.ifStatus.Succeed
  setIfStatus : a.setIfStatus = true

theorem getIfStatus_of_succeed (up : Bool) {a : IfAnswers} (ha : a.Succeed) :
    getIfStatus up a = if up then .up else .down := by
  simp [getIfStatus,ha.opened,ha.flags]

theorem setIfCfg_of_succeed (up : Bool) (pCfg : PortCfg) {a : SetAnswers} (ha : a.Succeed) :
    setIfCfg up pCfg a = pCfg.bEnabled := by
  unfold setIfCfg
  rw [getIfStatus_of_succeed up ha.ifStatus,ha.setIfStatus]
  cases up <;> cases pCfg.bEnabled <;> rfl

/-- Reading a port just configured: `Enable` comes back, rate and duplex are those that
the port had. -/
theorem getCfg_setCfg (b : InterfaceBuild) (port : Port) (pCfg : PortCfg) {a : SetAnswers}
    (ha : a.Succeed) {g : GetAnswers} (hg : g.Succeed) :
    getCfg b (setCfg port pCfg a) g pCfg =
      { pCfg with maxBitRate := port.bitRate b, duplexMode := port.duplex } := by
  cases port with
  | switch p =>
    cases hen : pCfg.bEnabled <;>
      simp [getCfg,setCfg,puma6GetSwitchCfg,puma6SetSwitchCfg,ha.adminStatus,hg.adminStatus,
        hg.portCfg,hen,Port.bitRate,Port.duplex]
  | linux up =>
    simp only [getCfg,setCfg,getIfCfg,setIfCfg_of_succeed up pCfg ha,
      getIfStatus_of_succeed pCfg.bEnabled hg.ifStatus,Port.bitRate,Port.duplex]
    cases pCfg.bEnabled <;> rfl

theorem PortEntry.getCfg_setCfg (b : InterfaceBuild) {e : PortEntry} {pCfg : PortCfg}
    (hnumber : pCfg.instanceNumber = e.instanceNumber) {a : SetAnswers} (ha : a.Succeed)
    {g : GetAnswers} (hg : g.Succeed) :
    (e.setCfg b pCfg a).getCfg b g pCfg =
      { pCfg with maxBitRate := e.port.bitRate b, duplexMode := e.port.duplex } := by
  have hport : (e.setCfg b pCfg a).port = EthAgent.setCfg e.port pCfg a := by
    unfold PortEntry.setCfg
    simp only
    split <;> split <;> rfl
  have halias : (e.setCfg b pCfg a).ifAlias = pCfg.ifAlias := by
    unfold PortEntry.setCfg
    simp only
    split <;> split <;> simp_all
  unfold PortEntry.getCfg
  rw [hport,halias,e.setCfg_instanceNumber b pCfg a,← hnumber,
    EthAgent.getCfg_setCfg b e.port pCfg ha hg]

/-- `CosaDmlEthPortGetCfg` gives back the `Cfg` of the row, and a Rollback changes nothing. -/
def ReadBack (b : InterfaceBuild) (s : EthInterfaces) (i : Nat) (a : GetAnswers) : Prop :=
  (∀ row, s.rows[i]? = some row →
    cosaDmlEthPortGetCfg b s.entries row.cfg a = (true,row.cfg)) ∧
  interfaceRollback b s i a = s

/-- The row asks for the rate and the duplex mode that its port reports. -/
def AsksForReported (b : InterfaceBuild) (s : EthInterfaces) (i : Nat) : Prop :=
  ∀ row e, s.rows[i]? = some row → s.entries[i]? = some e →
    row.cfg.maxBitRate = e.port.bitRate b ∧ row.cfg.duplexMode = e.port.duplex

theorem readBack_iff (b : InterfaceBuild) (s : EthInterfaces) (i : Nat) (a : GetAnswers) :
    ReadBack b s i a ↔
      ∀ row e, s.rows[i]? = some row → s.entries[i]? = some e →
        e.getCfg b a row.cfg = row.cfg := by
  constructor
  · rintro ⟨hread,-⟩ row e hrow he
    exact congrArg Prod.snd ((getCfg_row hrow he a).symm.trans (hread row hrow))
  · intro h
    have hread : ∀ row, s.rows[i]? = some row →
        cosaDmlEthPortGetCfg b s.entries row.cfg a = (true,row.cfg) := by
      intro row hrow
      obtain ⟨hi,-⟩ := List.getElem?_eq_some_iff.mp hrow
      have he := List.getElem?_eq_getElem (s.length_eq ▸ hi)
      rw [getCfg_row hrow he a,h row _ hrow he]
    refine ⟨hread,EthInterfaces.ext_rows rfl ?_⟩
    refine modify_eq_self_iff.mpr fun row hrow => ?_
    rw [hread row hrow]

/-- After any Sets, a Commit in which every call succeeds is read back exactly when the
row asks for the rate and the duplex mode that the port reports anyway. -/
theorem commit_read_back_iff (b : InterfaceBuild) (s : EthInterfaces)
    (sets : List (Nat × InterfaceSet)) (i : Nat) {a : SetAnswers} (ha : a.Succeed)
    {g : GetAnswers} (hg : g.Succeed) :
    ReadBack b (interfaceCommit b (exec (interfaceStep b) s sets) i a) i g ↔
      AsksForReported b (exec (interfaceStep b) s sets) i := by
  generalize exec (interfaceStep b) s sets = u
  rw [readBack_iff,rows_interfaceCommit]
  refine forall_congr' fun row => ?_
  constructor
  · intro h e hrow he
    have hback := h _ hrow (entries_interfaceCommit hrow he a)
    obtain ⟨-,-,-,hnumber⟩ := getIF_row hrow he
    rw [e.getCfg_setCfg b hnumber ha hg] at hback
    exact ⟨(congrArg PortCfg.maxBitRate hback).symm,(congrArg PortCfg.duplexMode hback).symm⟩
  · intro h e' hrow he'
    obtain ⟨hi,-⟩ := List.getElem?_eq_some_iff.mp hrow
    have he := List.getElem?_eq_getElem (u.length_eq ▸ hi)
    obtain ⟨hrate,hduplex⟩ := h _ hrow he
    obtain ⟨-,-,-,hnumber⟩ := getIF_row hrow he
    rw [entries_interfaceCommit hrow he a,Option.some_inj] at he'
    rw [← he',PortEntry.getCfg_setCfg b hnumber ha hg,← hrate,← hduplex]

def allDone : GetAnswers := ⟨true,true,⟨true,.done,true⟩⟩
def allSet : SetAnswers := ⟨allDone,true,⟨true,.done,true⟩,true,0,true⟩

def twoPorts (b : InterfaceBuild) : EthInterfaces :=
  cosaEthInterfaceInitialize b 0 [⟨.switch ⟨.up,.auto,.auto⟩,false,none,allDone,true⟩,
    ⟨.linux true,false,none,allDone,true⟩]

theorem commit_read_back_linux :
    ReadBack ⟨false,false⟩ (interfaceCommit ⟨false,false⟩ (exec (interfaceStep ⟨false,false⟩)
      (twoPorts ⟨false,false⟩)
      [(1,.enable false),(1,.duplexMode 1),(1,.ifAlias "lan".toList),(1,.duplexMode 3)])
      1 allSet) 1 allDone := by
  refine (commit_read_back_iff ⟨false,false⟩ _ _ 1 (a := allSet)
    ⟨⟨rfl,rfl,⟨rfl,rfl⟩⟩,rfl,⟨rfl,rfl⟩,rfl⟩ (g := allDone) ⟨rfl,rfl,⟨rfl,rfl⟩⟩).mpr ?_
  rintro row e hrow he
  obtain rfl := Option.some_inj.mp hrow
  obtain rfl := Option.some_inj.mp he
  decide

/-- A duplex mode that the row accepts does not reach the switch port. -/
theorem committed_duplex_is_dropped :
    let s := exec (interfaceStep ⟨false,false⟩) (twoPorts ⟨false,false⟩) [(0,.duplexMode 2)]
    interfaceValidate s 0 = true ∧
      ¬ ReadBack ⟨false,false⟩ (interfaceCommit ⟨false,false⟩ s 0 allSet) 0 allDone := by
  refine ⟨by decide +kernel,fun h => ?_⟩
  have hread := (readBack_iff _ _ _ _).mp h _ _ rfl rfl
  exact absurd (congrArg PortCfg.duplexMode hread) (by decide +kernel)

end EthAgent
