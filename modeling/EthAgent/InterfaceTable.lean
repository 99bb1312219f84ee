import EthAgent.Device
import EthAgent.InterfaceRows
import EthAgent.Lib.Filling

/-!
The interface table of the ports and its initialisation: the table that is compiled
in, the one that `loadInterfaceTable` reads from PSM in its place, and what
`CosaDmlEthInterfaceInit` fills in. Undefined behaviour of the C code, such as a read
outside a table, is `none`.
-/

set_option autoImplicit false

namespace EthAgent
open CString Packed Filling

/-- `ETH_2_PORTS` to `ETH_8_PORTS`; four where none is defined. -/
inductive EthPorts where
  | two
  | three
  | four
  | five
  | six
  | eight
  deriving DecidableEq

/-- `puma7` is `INTEL_PUMA7` without `_ARRIS_XB6_PRODUCT_REQ_`, `port4Upstream` is
`_SCER11BEL_PRODUCT_REQ_` or `_SCXF11BFL_PRODUCT_REQ_`. -/
structure TableBuild where
  ethPorts : EthPorts
  qcaArm : Bool
  puma7 : Bool
  port4Upstream : Bool
  raspberryPi : Bool
  wanUpstream : Bool
  hub4 : Bool
  xdslPpp : Bool

/-- The two arrays to which `g_EthIntSInfo` can point. -/
inductive TableId where
  | static
  | loaded
  deriving DecidableEq

structure SInfoRef where
  table : TableId
  index : Nat
  deriving DecidableEq

structure SInfo where
  name : Buf 512
  bUpstream : Bool
  macAddress : Mac
  deriving DecidableEq

inductive ControlFuncs where
  | swFuncs
  | ifFuncs
  deriving DecidableEq

/-- `CosaEthInterfaceInfo`; `hwid` is the index in `g_PortIDs`, or NULL. -/
structure EthEntry where
  sInfo : SInfoRef
  ifAlias : Buf 512
  instanceNumber : Nat
  lastChange : Nat
  control : ControlFuncs
  hwid : Option Nat
  deriving DecidableEq

structure InterfaceTables where
  table : TableId
  ethIntSInfo : List SInfo
  ethEntries : List EthEntry
  deriving DecidableEq

def InterfaceTables.ethernetIntNum (t : InterfaceTables) : Nat := t.ethIntSInfo.length

def portIDs : Nat := 8
def maxInstance : Nat := 128

def noMac : Mac := ⟨0,0,0,0,0,0⟩
def wanRouting : Text := "erouter0".toList
def wanBridging : Text := "lbr0".toList

/-- `SWITCH_PORT_0_NAME` to `SWITCH_PORT_7_NAME`. -/
def switchPortName (b : TableBuild) (port : Nat) : Buf 512 :=
  Buf.store ((if b.qcaArm ∧ port < 4 then "eth".toList else "sw_".toList) ++ decimal (port+1))

def EthPorts.num : EthPorts → Nat
  | .two => 2
  | .three => 3
  | .four => 4
  | .five => 5
  | .six => 6
  | .eight => 8

def ethIntSInfoStatic (b : TableBuild) : List SInfo :=
  (List.range b.ethPorts.num).map
      (fun port => ⟨switchPortName b port,port = 4 && b.port4Upstream,noMac⟩) ++
    [⟨Buf.store wanRouting,true,noMac⟩,⟨Buf.store wanBridging,true,noMac⟩] ++
    if b.puma7 then [⟨switchPortName b 4,false,noMac⟩,⟨switchPortName b 5,false,noMac⟩] else []

def swEntry (sInfo : SInfoRef) (hwid : Nat) : EthEntry :=
  ⟨sInfo,Buf.store [],0,0,.swFuncs,some hwid⟩

def ifEntry (sInfo : SInfoRef) : EthEntry := ⟨sInfo,Buf.store [],0,0,.ifFuncs,none⟩

def ethEntriesStatic (b : TableBuild) : List EthEntry :=
  let sw (sInfo hwid : Nat) := swEntry ⟨.static,sInfo⟩ hwid
  let lan := (List.range b.ethPorts.num).map fun port => sw port port
  let wan (routing bridging : Nat) := [ifEntry ⟨.static,routing⟩,ifEntry ⟨.static,bridging⟩]
  match b.ethPorts with
  | .two => lan ++ wan 2 3
  | .three => lan ++ wan 3 4
  | .five => lan ++ wan 8 9
  | .six => lan ++ wan 8 9
  | .eight => lan ++ wan 8 9
  | .four => lan ++ wan 4 5 ++ if b.puma7 then [sw 6 4,sw 7 5] else []

/-- The tables with which the process starts. -/
def staticTables (b : TableBuild) : InterfaceTables :=
  ⟨.static,ethIntSInfoStatic b,ethEntriesStatic b⟩

def psmRecord (row : Nat) (param : Text) : Text :=
  "dmsb.ethagent.if.".toList ++ decimal row ++ '.' :: param

def psmTrue : Text := "TRUE".toList
def psmCfgCount : Text := "dmsb.ethagent.ethifcount".toList
def psmCfgForEth : Text := "dmsb.ethagent.useforeth".toList
def psmCfgName (row : Nat) : Text := psmRecord row "Name".toList
def psmCfgIsLinuxApi (row : Nat) : Text := psmRecord row "IsLinuxAPI".toList
def psmCfgUpstream (row : Nat) : Text := psmRecord row "Upstream".toList

/-- What is kept over a restart: the records of PSM, the IDs of the ports by their
names and two values of syscfg. What cannot be read is `none`. -/
structure Persistent where
  psm : Text → Option Text
  ids : Text → Option Text
  ethwanDisableUpstream : Option Text
  wanPhysicalIfname : Option Text

/-- How the other calls of the initialisation end: whether there is memory for the
tables, the MAC address of an interface, the `lan-status`, whether `Utopia_Init`
succeeds for each entry, and what `AnscGetStringUlong` reads from a text. -/
structure InitAnswers where
  anscGetStringUlong : Text → Nat
  allocated : Bool
  getMac : Text → Option Mac
  lanStatus : Text
  utopiaInit : Nat → Bool
  tickInSeconds : Nat

/-- `DmlEthGetPSMRecordValue`, which copies the whole value into the 64 bytes of its
caller, however long it is. -/
def dmlEthGetPSMRecordValue (psm : Text → Option Text) (pPSMEntry : Text) :
    Option (Option Text) :=
  match psm pPSMEntry with
  | none => some none
  | some strValue => if strValue.length < 64 then some (some strValue) else none

/-- One round of the loop of `loadInterfaceTable`; `some none` where the Name cannot be
read. -/
def loadRow (psm : Text → Option Text) (iLoopCount hwid : Nat) :
    Option (Option ((SInfo × EthEntry) × Nat)) :=
  (dmlEthGetPSMRecordValue psm (psmCfgName (iLoopCount+1))).bind fun
    | none => some none
    | some name =>
      (dmlEthGetPSMRecordValue psm (psmCfgIsLinuxApi (iLoopCount+1))).map fun isLinuxApi =>
        let sInfo := ⟨Buf.store name,false,noMac⟩
        let sInfoRef := ⟨.loaded,iLoopCount⟩
        if isLinuxApi = some psmTrue then some ((sInfo,ifEntry sInfoRef),hwid)
        -- also where there is no IsLinuxAPI
        else some ((sInfo,swEntry sInfoRef hwid),hwid+1)

def installRows (t : InterfaceTables) : Option (List (SInfo × EthEntry)) → InterfaceTables
  | none => t
  | some rows => ⟨.loaded,rows.map Prod.fst,rows.map Prod.snd⟩

def loadInterfaceTable (psm : Text → Option Text) (allocated : Bool) (t : InterfaceTables) :
    Option InterfaceTables :=
  (dmlEthGetPSMRecordValue psm psmCfgForEth).bind fun useForEth =>
    if useForEth = some psmTrue then
      (dmlEthGetPSMRecordValue psm psmCfgCount).bind fun
        | none => some t
        | some acPSMValue =>
          let iTotalInterfaces := atoi acPSMValue
          -- a negative count asks for more memory than there is
          if 0 ≤ iTotalInterfaces ∧ iTotalInterfaces < 2^31 ∧
              (allocated ∨ iTotalInterfaces = 0) then
            (readRows (loadRow psm) iTotalInterfaces.toNat 0 0).map (installRows t)
          else none
    else some t

def getSystemUpstream (s : Persistent) : Bool :=
  match s.ethwanDisableUpstream with
  | some buf => atoi (buf.take 7) ≠ 1
  | none => true

/-- The part of `FEATURE_RDKB_WAN_UPSTREAM`, for one port. -/
def initUpstream (s : Persistent) (i : Nat) (p : SInfo) : SInfo :=
  if p.name.text = wanRouting then { p with bUpstream := getSystemUpstream s }
  else if s.psm (psmCfgUpstream (i+1)) = some psmTrue then { p with bUpstream := true }
  else p

def lastIndex (f : SInfo → Bool) (ethIntSInfo : List SInfo) : Option Nat :=
  (List.range ethIntSInfo.length).reverse.find? fun i => ethIntSInfo[i]?.any f

def setMac (index : Option Nat) (strMac : Option Mac) (ethIntSInfo : List SInfo) :
    List SInfo :=
  match index, strMac with
  | some i, some mac => ethIntSInfo.modify i fun p => { p with macAddress := mac }
  | _, _ => ethIntSInfo

/-- The downstream ports get the address of brlan0, the last upstream port and the
two special ones their own. -/
def initMacs (b : TableBuild) (s : Persistent) (a : InitAnswers) (ethIntSInfo : List SInfo) :
    List SInfo :=
  let strMac := (a.getMac "brlan0".toList).getD noMac
  let ethIntSInfo := ethIntSInfo.map fun p =>
    if ¬p.bUpstream ∧ a.lanStatus = "started".toList ∧ strMac.b0 ≠ 0 then
      { p with macAddress := strMac }
    else p
  let wanIndex := lastIndex (fun p => p.bUpstream) ethIntSInfo
  let erouterIndex := lastIndex (fun p => p.bUpstream && p.name.text = wanRouting &&
    (!b.wanUpstream || getSystemUpstream s)) ethIntSInfo
  let lbrIndex := lastIndex (fun p => p.bUpstream && p.name.text = wanBridging) ethIntSInfo
  let wanPhyName :=
    if b.xdslPpp then (s.wanPhysicalIfname.getD "erouter0".toList).take 31
    else "erouter0".toList
  let wanMac := (wanIndex.bind fun i => ethIntSInfo[i]?).bind fun p => a.getMac p.name.text
  let ethIntSInfo := setMac wanIndex wanMac (setMac erouterIndex (a.getMac wanPhyName) ethIntSInfo)
  if b.hub4 then ethIntSInfo else setMac lbrIndex (a.getMac "lbr0".toList) ethIntSInfo

/-- `loadID`, with what `Utopia_RawGet` reads into its 522 bytes; an Alias of more than
511 characters does not fit its own. -/
def loadID (anscGetStringUlong : Text → Nat) (rawGet : Option Text) (pAlias : Buf 512)
    (ulInstanceNumber : Nat) : Option (Buf 512 × Nat) :=
  match rawGet with
  | none => some (pAlias,ulInstanceNumber)
  | some value =>
    let idStr := value.take 521
    if idStr = [] then some (pAlias,ulInstanceNumber)
    else
      let token := idStr.takeWhile (· ≠ ',')
      if h : token.length < 512 then
        some (⟨token,h⟩,anscGetStringUlong (idStr.drop (token.length+1)))
      else none

def InterfaceTables.deref (t : InterfaceTables) (sInfo : SInfoRef) : Option SInfo :=
  if sInfo.table = t.table then t.ethIntSInfo[sInfo.index]? else none

def initID (s : Persistent) (a : InitAnswers) (t : InterfaceTables) (i : Nat) :
    Option EthEntry :=
  t.ethEntries[i]?.bind fun e =>
    (t.deref e.sInfo).bind fun p =>
      (loadID a.anscGetStringUlong (if a.utopiaInit i then s.ids p.name.text else none)
        e.ifAlias e.instanceNumber).map fun id =>
          { e with ifAlias := id.1, instanceNumber := id.2, lastChange := a.tickInSeconds }

def fillSInfo (b : TableBuild) (s : Persistent) (a : InitAnswers) (ethIntSInfo : List SInfo) :
    List SInfo :=
  initMacs b s a
    (if b.wanUpstream then ethIntSInfo.mapIdx (initUpstream s) else ethIntSInfo)

/-- What follows `loadInterfaceTable` in `CosaDmlEthInterfaceInit`. -/
def fillTables (b : TableBuild) (s : Persistent) (a : InitAnswers) (t : InterfaceTables) :
    Option InterfaceTables :=
  let t := { t with ethIntSInfo := fillSInfo b s a t.ethIntSInfo }
  ((List.range t.ethernetIntNum).mapM (initID s a t)).map fun ethEntries =>
    { t with ethEntries := ethEntries ++ t.ethEntries.drop t.ethernetIntNum }

def loadTables (b : TableBuild) (s : Persistent) (a : InitAnswers) (t : InterfaceTables) :
    Option InterfaceTables :=
  if b.raspberryPi then some t else loadInterfaceTable s.psm a.allocated t

def cosaDmlEthInterfaceInit (b : TableBuild) (s : Persistent) (a : InitAnswers)
    (t : InterfaceTables) : Option InterfaceTables :=
  (loadTables b s a t).bind (fillTables b s a)

/-- What no step after `loadInterfaceTable` changes. -/
def InterfaceTables.layout (t : InterfaceTables) :
    TableId × List (Buf 512) × List (SInfoRef × ControlFuncs × Option Nat) :=
  (t.table,t.ethIntSInfo.map (fun p => p.name),
    t.ethEntries.map fun e => (e.sInfo,e.control,e.hwid))

structure InterfaceTables.Sound (t : InterfaceTables) : Prop where
  count : t.ethernetIntNum ≤ maxInstance
  sInfo : ∀ i < t.ethernetIntNum, t.ethEntries[i]?.map (fun e => e.sInfo) = some ⟨t.table,i⟩
  hwid : ∀ e ∈ t.ethEntries, e.control = .swFuncs → ∃ k < portIDs, e.hwid = some k

section Psm

variable (psm : Text → Option Text)

def Fits (key : Text) : Prop := ∀ v, psm key = some v → v.length < 64

def NameRead (i : Nat) : Prop := (psm (psmCfgName (i+1))).isSome = true

instance (i : Nat) : Decidable (NameRead psm i) :=
  inferInstanceAs (Decidable ((psm (psmCfgName (i+1))).isSome = true))

def RowFits (i : Nat) : Prop :=
  Fits psm (psmCfgName (i+1)) ∧ (NameRead psm i → Fits psm (psmCfgIsLinuxApi (i+1)))

def usesSwitch (i : Nat) : Bool := psm (psmCfgIsLinuxApi (i+1)) ≠ some psmTrue

/-- The number of rows, where PSM asks for its own table. -/
def askedRows : Option Int :=
  if psm psmCfgForEth = some psmTrue then (psm psmCfgCount).map atoi else none

/-- The number of rows, where every Name of them can be read as well. -/
def loadedRows : Option Nat :=
  (askedRows psm).bind fun n =>
    if ∀ i < n.toNat, NameRead psm i then some n.toNat else none

def loadedName (i : Nat) : Buf 512 := Buf.store ((psm (psmCfgName (i+1))).getD [])

/-- Nothing that `loadInterfaceTable` does is undefined: what it reads, up to the
first Name that cannot be read, fits, and there is memory for the rows. -/
structure LoadDefined (allocated : Bool) : Prop where
  forEth : Fits psm psmCfgForEth
  count : psm psmCfgForEth = some psmTrue → Fits psm psmCfgCount
  memory : ∀ n, askedRows psm = some n → 0 ≤ n ∧ n < 2^31 ∧ (allocated ∨ n = 0)
  rows : ∀ n, askedRows psm = some n →
    ∀ i < n.toNat, (∀ j < i, NameRead psm j) → RowFits psm i

variable {psm}

theorem dmlEthGetPSMRecordValue_eq_some_iff {key : Text} {o : Option Text} :
    dmlEthGetPSMRecordValue psm key = some o ↔ Fits psm key ∧ psm key = o := by
  unfold dmlEthGetPSMRecordValue Fits
  cases psm key with
  | none => simp
  | some v => simp

theorem psm_bind_eq_some_iff {α : Type} {key : Text} {f : Option Text → Option α} {x : α} :
    (dmlEthGetPSMRecordValue psm key).bind f = some x ↔
      Fits psm key ∧ f (psm key) = some x := by
  simp only [Option.bind_eq_some_iff,dmlEthGetPSMRecordValue_eq_some_iff]
  constructor
  · rintro ⟨o,⟨hfits,rfl⟩,h⟩
    exact ⟨hfits,h⟩
  · rintro ⟨hfits,h⟩
    exact ⟨_,⟨hfits,rfl⟩,h⟩

theorem readsBy_loadRow (psm : Text → Option Text) :
    ReadsBy (loadRow psm) (RowFits psm) (NameRead psm) := by
  constructor
  · intro i hwid
    unfold loadRow RowFits NameRead
    simp only [psm_bind_eq_some_iff]
    cases psm (psmCfgName (i+1)) with
    | none => simp
    | some name =>
      simp only [Option.map_eq_some_iff,dmlEthGetPSMRecordValue_eq_some_iff,Option.isSome_some]
      constructor
      · rintro ⟨o,hname,-,⟨hflag,-⟩,-⟩
        exact ⟨hname,fun _ => hflag⟩
      · rintro ⟨hname,hflag⟩
        exact ⟨_,hname,_,⟨hflag trivial,rfl⟩,rfl⟩
  · intro i hwid o ho
    unfold loadRow at ho
    unfold NameRead
    obtain ⟨-,ho⟩ := psm_bind_eq_some_iff.mp ho
    cases hname : psm (psmCfgName (i+1)) with
    | none =>
      rw [hname] at ho
      simp [← Option.some_inj.mp ho]
    | some name =>
      rw [hname] at ho
      obtain ⟨flag,-,rfl⟩ := Option.map_eq_some_iff.mp ho
      split <;> simp

/-- A row that is read keeps its index; it takes a hardware id if it is one of the
switch. -/
theorem loadRow_eq_some {i hwid hwid' : Nat} {r : SInfo × EthEntry}
    (h : loadRow psm i hwid = some (some (r,hwid'))) :
    r.1.name = loadedName psm i ∧
      r.2 = (if usesSwitch psm i then swEntry ⟨.loaded,i⟩ hwid else ifEntry ⟨.loaded,i⟩) ∧
      hwid' = if usesSwitch psm i then hwid+1 else hwid := by
  unfold loadRow at h
  obtain ⟨-,h⟩ := psm_bind_eq_some_iff.mp h
  unfold loadedName usesSwitch
  cases hname : psm (psmCfgName (i+1)) with
  | none => simp [hname] at h
  | some name =>
    rw [hname] at h
    simp only [Option.map_eq_some_iff,dmlEthGetPSMRecordValue_eq_some_iff] at h
    obtain ⟨flag,⟨-,hflag⟩,h⟩ := h
    rw [hflag]
    split at h
    · next hlinux =>
      obtain ⟨rfl,rfl⟩ := Prod.mk.inj (Option.some_inj.mp h)
      simp [hlinux]
    · next hswitch =>
      obtain ⟨rfl,rfl⟩ := Prod.mk.inj (Option.some_inj.mp h)
      simp [hswitch]

theorem hwids_readRows {n i hwid : Nat} {rows : List (SInfo × EthEntry)}
    (h : readRows (loadRow psm) n i hwid = some (some rows)) :
    ((rows.map Prod.snd).filter (fun e => e.control = .swFuncs)).map (fun e => e.hwid) =
      (List.range' hwid ((List.range' i n).countP (usesSwitch psm))).map some := by
  induction n generalizing i hwid rows with
  | zero =>
    obtain rfl := Option.some_inj.mp (Option.some_inj.mp h)
    rfl
  | succ n ih =>
    obtain ⟨r,hwid',rest,hr,hrest,rfl⟩ := readRows_succ_eq_some_iff.mp h
    obtain ⟨-,hentry,rfl⟩ := loadRow_eq_some hr
    have hih := ih hrest
    rw [List.range'_succ,List.countP_cons,List.map_cons,hentry]
    cases husesSwitch : usesSwitch psm i with
    | true =>
      simp only [husesSwitch,if_true] at hih
      simp [swEntry,hih,List.range'_succ]
    | false =>
      simp only [husesSwitch] at hih
      simpa [ifEntry] using hih

theorem loadInterfaceTable_eq_some_iff {allocated : Bool} {t t' : InterfaceTables} :
    loadInterfaceTable psm allocated t = some t' ↔
      Fits psm psmCfgForEth ∧ (psm psmCfgForEth = some psmTrue → Fits psm psmCfgCount) ∧
        match askedRows psm with
        | none => t = t'
        | some n => (0 ≤ n ∧ n < 2^31 ∧ (allocated ∨ n = 0)) ∧
            ∃ o, readRows (loadRow psm) n.toNat 0 0 = some o ∧ installRows t o = t' := by
  unfold loadInterfaceTable askedRows
  rw [psm_bind_eq_some_iff]
  refine and_congr_right fun _ => ?_
  by_cases hforEth : psm psmCfgForEth = some psmTrue
  · simp only [hforEth,if_true,psm_bind_eq_some_iff,forall_const]
    refine and_congr_right fun _ => ?_
    cases psm psmCfgCount with
    | none => simp
    | some v =>
      by_cases hmemory : 0 ≤ atoi v ∧ atoi v < 2^31 ∧ (allocated ∨ atoi v = 0)
      · simp only [Option.map_some,hmemory,true_and]
        simp
      · simp only [Option.map_some,hmemory,false_and]
        simp
  · simp [hforEth]

theorem exists_loadInterfaceTable_iff {allocated : Bool} {t : InterfaceTables} :
    (∃ t', loadInterfaceTable psm allocated t = some t') ↔ LoadDefined psm allocated := by
  simp only [loadInterfaceTable_eq_some_iff]
  cases hasked : askedRows psm with
  | none =>
    constructor
    · rintro ⟨t',hforEth,hcount,-⟩
      exact ⟨hforEth,hcount,by simp [hasked],by simp [hasked]⟩
    · intro h
      exact ⟨t,h.forEth,h.count,rfl⟩
  | some n =>
    have hrows := exists_readRows_iff (readsBy_loadRow psm) (n := n.toNat) (i := 0) (s := 0)
    simp only [Nat.zero_add] at hrows
    constructor
    · rintro ⟨t',hforEth,hcount,hmemory,o,ho,-⟩
      refine ⟨hforEth,hcount,fun m hm => ?_,fun m hm => ?_⟩ <;>
        obtain rfl := Option.some_inj.mp (hasked.symm.trans hm)
      · exact hmemory
      · exact hrows.mp ⟨o,ho⟩
    · intro h
      obtain ⟨o,ho⟩ := hrows.mpr (h.rows n hasked)
      exact ⟨_,h.forEth,h.count,h.memory n hasked,o,ho,rfl⟩

theorem loadInterfaceTable_cases {allocated : Bool} {t t' : InterfaceTables}
    (h : loadInterfaceTable psm allocated t = some t') :
    (loadedRows psm = none ∧ t' = t) ∨
      ∃ n rows, loadedRows psm = some n ∧
        readRows (loadRow psm) n 0 0 = some (some rows) ∧ t' = installRows t (some rows) := by
  obtain ⟨-,-,h⟩ := loadInterfaceTable_eq_some_iff.mp h
  unfold loadedRows
  cases hasked : askedRows psm with
  | none =>
    rw [hasked] at h
    exact .inl ⟨rfl,h.symm⟩
  | some n =>
    rw [hasked] at h
    obtain ⟨-,o,ho,rfl⟩ := h
    have hnone := readRows_eq_none_iff (readsBy_loadRow psm) ho
    simp only [Nat.zero_add] at hnone
    cases o with
    | none =>
      obtain ⟨j,hj,hnot⟩ := hnone.mp rfl
      have hnotAll : ¬∀ i < n.toNat, NameRead psm i := fun hall => hnot (hall j hj)
      exact .inl ⟨by rw [Option.bind_some,if_neg hnotAll],rfl⟩
    | some rows =>
      have hall : ∀ i < n.toNat, NameRead psm i := by simpa using hnone
      refine .inr ⟨n.toNat,rows,?_,ho,rfl⟩
      rw [Option.bind_some,if_pos hall]

theorem layout_installRows {t : InterfaceTables} {n : Nat} {rows : List (SInfo × EthEntry)}
    (h : readRows (loadRow psm) n 0 0 = some (some rows)) :
    (installRows t (some rows)).ethIntSInfo.map (fun p => p.name) =
        (List.range n).map (loadedName psm) ∧
      (installRows t (some rows)).ethEntries.map (fun e => e.sInfo) =
        (List.range n).map fun i => ⟨.loaded,i⟩ := by
  constructor
  · have hnames := map_readRows (g := fun r : SInfo × EthEntry => r.1.name)
      (k := loadedName psm) (fun i hwid r hwid' hr => (loadRow_eq_some hr).1) h
    rw [List.range_eq_range',← hnames,installRows,List.map_map]
    rfl
  · have hsInfo := map_readRows (g := fun r : SInfo × EthEntry => r.2.sInfo)
      (k := fun i => ⟨.loaded,i⟩) (fun i hwid r hwid' hr => by
        rw [(loadRow_eq_some hr).2.1]
        split <;> rfl) h
    rw [List.range_eq_range',← hsInfo,installRows,List.map_map]
    rfl

theorem installRows_sound_iff {t : InterfaceTables} {n : Nat} {rows : List (SInfo × EthEntry)}
    (h : readRows (loadRow psm) n 0 0 = some (some rows)) :
    (installRows t (some rows)).Sound ↔
      n ≤ maxInstance ∧ (List.range n).countP (usesSwitch psm) ≤ portIDs := by
  have hlen : (installRows t (some rows)).ethernetIntNum = n := by
    simpa [InterfaceTables.ethernetIntNum,installRows] using length_readRows h
  have hentries := (layout_installRows (t := t) h).2
  have hhwids := hwids_readRows h
  have hcount : (∀ e ∈ (installRows t (some rows)).ethEntries, e.control = .swFuncs →
        ∃ k < portIDs, e.hwid = some k) ↔
      (List.range n).countP (usesSwitch psm) ≤ portIDs := by
    rw [List.range_eq_range']
    generalize (List.range' 0 n).countP (usesSwitch psm) = m at hhwids
    have hmem : ∀ o, (∃ e ∈ (installRows t (some rows)).ethEntries,
        e.control = .swFuncs ∧ e.hwid = o) ↔ ∃ k < m, o = some k := fun o => by
      have hiff : o ∈ ((rows.map Prod.snd).filter (fun e => e.control = .swFuncs)).map
          (fun e => e.hwid) ↔ o ∈ (List.range' 0 m).map some := by rw [hhwids]
      simpa [installRows,and_assoc,eq_comm] using hiff
    constructor
    · intro hall
      by_contra hm
      obtain ⟨e,he,hcontrol,hhwid⟩ := (hmem (some portIDs)).mpr ⟨portIDs,by omega,rfl⟩
      obtain ⟨k,hk,hkeq⟩ := hall e he hcontrol
      rw [hhwid,Option.some_inj] at hkeq
      omega
    · intro hm e he hcontrol
      obtain ⟨k,hk,hkeq⟩ := (hmem e.hwid).mp ⟨e,he,hcontrol,rfl⟩
      exact ⟨k,by omega,hkeq⟩
  constructor
  · intro hsound
    exact ⟨hlen ▸ hsound.count,hcount.mp hsound.hwid⟩
  · rintro ⟨hn,hswitch⟩
    refine ⟨hlen ▸ hn,fun i hi => ?_,hcount.mpr hswitch⟩
    rw [← List.getElem?_map,hentries]
    rw [hlen] at hi
    simp [hi,installRows]

end Psm

section Fill

variable {b : TableBuild} {s : Persistent} {a : InitAnswers} {t t' : InterfaceTables}

theorem map_initMacs {γ : Type} {g : SInfo → γ}
    (hg : ∀ p m, g { p with macAddress := m } = g p) (l : List SInfo) :
    (initMacs b s a l).map g = l.map g := by
  have hset : ∀ index strMac m, (setMac index strMac m).map g = m.map g := by
    intro index strMac m
    unfold setMac
    split
    · exact map_modify_of_eq (fun p => hg p _) m _
    · rfl
  unfold initMacs
  simp only
  split <;> simp only [hset,List.map_map] <;>
  · refine List.map_congr_left fun p _ => ?_
    simp only [Function.comp_apply]
    split
    · exact hg p _
    · rfl

theorem names_fillSInfo (l : List SInfo) :
    (fillSInfo b s a l).map (fun p => p.name) = l.map fun p => p.name := by
  have hname : ∀ i p, (initUpstream s i p).name = p.name := by
    intro i p
    unfold initUpstream
    split
    · rfl
    · split <;> rfl
  rw [fillSInfo,map_initMacs (fun p m => rfl)]
  split
  · apply List.ext_getElem <;> simp [hname]
  · rfl

/-- The Alias that is stored has room in the entry. -/
def IDFits (rawGet : Option Text) : Prop :=
  ∀ value, rawGet = some value → ((value.take 521).takeWhile (· ≠ ',')).length < 512

theorem exists_loadID_iff {anscGetStringUlong : Text → Nat} {rawGet : Option Text}
    (pAlias : Buf 512) (n : Nat) :
    (∃ id, loadID anscGetStringUlong rawGet pAlias n = some id) ↔ IDFits rawGet := by
  unfold loadID IDFits
  cases rawGet with
  | none => simp
  | some value =>
    simp only [Option.some_inj,forall_eq']
    by_cases hempty : value.take 521 = []
    · simp [hempty]
    · rw [if_neg hempty]
      split
      · next h => exact iff_of_true ⟨_,rfl⟩ h
      · next h => exact iff_of_false (by simp) h

theorem exists_initID_iff {i : Nat} :
    (∃ e, initID s a t i = some e) ↔
      ∃ e name, t.ethEntries[i]? = some e ∧ e.sInfo.table = t.table ∧
        (t.ethIntSInfo.map fun p => p.name)[e.sInfo.index]? = some name ∧
        IDFits (if a.utopiaInit i then s.ids name.text else none) := by
  unfold initID InterfaceTables.deref
  simp only [Option.bind_eq_some_iff,Option.map_eq_some_iff,List.getElem?_map]
  constructor
  · rintro ⟨_,e,he,p,hp,id,hid,-⟩
    split at hp
    · next htable => exact ⟨e,p.name,he,htable,⟨p,hp,rfl⟩,(exists_loadID_iff _ _).mp ⟨id,hid⟩⟩
    · exact absurd hp (by simp)
  · rintro ⟨e,_,he,htable,⟨p,hp,rfl⟩,hfits⟩
    obtain ⟨id,hid⟩ := (exists_loadID_iff _ _).mpr hfits
    exact ⟨_,e,he,p,by rw [if_pos htable,hp],id,hid,rfl⟩

theorem initID_layout {i : Nat} {e : EthEntry} (h : initID s a t i = some e) :
    some (e.sInfo,e.control,e.hwid) =
      t.ethEntries[i]?.map fun e => (e.sInfo,e.control,e.hwid) := by
  unfold initID at h
  simp only [Option.bind_eq_some_iff,Option.map_eq_some_iff] at h
  obtain ⟨e,he,p,-,id,-,rfl⟩ := h
  simp [he]

theorem layout_fillTables (h : fillTables b s a t = some t') : t'.layout = t.layout := by
  unfold fillTables at h
  simp only [Option.map_eq_some_iff] at h
  obtain ⟨l,hl,rfl⟩ := h
  have hrows := map_mapM (fun i e => initID_layout (i := i) (e := e)) hl
  have hlen := length_mapM hl
  rw [List.length_range] at hlen
  unfold InterfaceTables.layout
  simp only [names_fillSInfo,List.map_append,Prod.mk.injEq,true_and]
  rw [List.map_drop]
  have htake : l.map (fun e => (e.sInfo,e.control,e.hwid)) =
      (t.ethEntries.map fun e => (e.sInfo,e.control,e.hwid)).take l.length := by
    refine List.ext_getElem? fun i => ?_
    rw [List.getElem?_take]
    split
    · next hi =>
      have hrow := congrArg (fun m => m[i]?) hrows
      simp only [List.getElem?_map,List.getElem?_eq_getElem hi,Option.map_some] at hrow
      rw [hlen] at hi
      simpa [hi,hlen] using hrow
    · next hi => exact List.getElem?_eq_none (by simpa using hi)
  rw [htake,hlen]
  exact List.take_append_drop _ _

theorem exists_fillTables_iff :
    (∃ t', fillTables b s a t = some t') ↔
      ∀ i < t.ethernetIntNum, ∃ e name, t.ethEntries[i]? = some e ∧ e.sInfo.table = t.table ∧
        (t.ethIntSInfo.map fun p => p.name)[e.sInfo.index]? = some name ∧
        IDFits (if a.utopiaInit i then s.ids name.text else none) := by
  have hnames := names_fillSInfo (b := b) (s := s) (a := a) t.ethIntSInfo
  have hlen := congrArg List.length hnames
  simp only [List.length_map] at hlen
  have hdefined : (∃ t', fillTables b s a t = some t') ↔
      ∃ l, (List.range t.ethernetIntNum).mapM
        (initID s a { t with ethIntSInfo := fillSInfo b s a t.ethIntSInfo }) = some l := by
    unfold fillTables InterfaceTables.ethernetIntNum
    simp only [Option.map_eq_some_iff,hlen]
    constructor
    · rintro ⟨_,l,hl,-⟩
      exact ⟨l,hl⟩
    · rintro ⟨l,hl⟩
      exact ⟨_,l,hl,rfl⟩
  rw [hdefined,exists_mapM_iff]
  simp only [List.mem_range,exists_initID_iff,hnames]

/-- In a table whose entries point to their own rows, only the stored IDs matter. -/
theorem exists_fillTables_of_sInfo
    (hsInfo : ∀ i < t.ethernetIntNum,
      t.ethEntries[i]?.map (fun e => e.sInfo) = some ⟨t.table,i⟩) :
    (∃ t', fillTables b s a t = some t') ↔
      ∀ i name, (t.ethIntSInfo.map fun p => p.name)[i]? = some name →
        IDFits (if a.utopiaInit i then s.ids name.text else none) := by
  rw [exists_fillTables_iff]
  constructor
  · intro h i name hname
    have hi : i < t.ethernetIntNum := by
      simpa [InterfaceTables.ethernetIntNum] using (List.getElem?_eq_some_iff.mp hname).1
    obtain ⟨e,name',he,-,hname',hfits⟩ := h i hi
    have href := hsInfo i hi
    rw [he,Option.map_some,Option.some_inj] at href
    rw [href,hname,Option.some_inj] at hname'
    exact hname' ▸ hfits
  · intro h i hi
    obtain ⟨e,he,href⟩ := Option.map_eq_some_iff.mp (hsInfo i hi)
    have hname : (t.ethIntSInfo.map fun p => p.name)[i]? = some (t.ethIntSInfo[i].name) := by
      rw [List.getElem?_map,List.getElem?_eq_getElem hi,Option.map_some]
    exact ⟨e,_,he,by rw [href],by rw [href]; exact hname,h i _ hname⟩

end Fill

theorem InterfaceTables.Sound.of_layout {t t' : InterfaceTables} (h : t.Sound)
    (hlayout : t'.layout = t.layout) : t'.Sound := by
  obtain ⟨htable,hnames,hentries⟩ : t'.table = t.table ∧
      t'.ethIntSInfo.map (fun p => p.name) = t.ethIntSInfo.map (fun p => p.name) ∧
      t'.ethEntries.map (fun e => (e.sInfo,e.control,e.hwid)) =
        t.ethEntries.map fun e => (e.sInfo,e.control,e.hwid) := by
    simpa [layout] using hlayout
  have hlen : t'.ethernetIntNum = t.ethernetIntNum := by
    simpa [ethernetIntNum] using congrArg List.length hnames
  refine ⟨hlen ▸ h.count,fun i hi => ?_,fun e he hcontrol => ?_⟩
  · have hget := congrArg (fun l => l[i]?.map Prod.fst) hentries
    simp only [List.getElem?_map,Option.map_map,Function.comp_def] at hget
    rw [hget,htable]
    exact h.sInfo i (hlen ▸ hi)
  · have hmem : (e.sInfo,e.control,e.hwid) ∈
        t.ethEntries.map fun e => (e.sInfo,e.control,e.hwid) :=
      hentries ▸ List.mem_map_of_mem he
    obtain ⟨e',he',heq⟩ := List.mem_map.mp hmem
    simp only [Prod.mk.injEq] at heq
    obtain ⟨k,hk,hhwid⟩ := h.hwid e' he' (heq.2.1.trans hcontrol)
    exact ⟨k,hk,heq.2.2 ▸ hhwid⟩

/-- The compiled-in entries go with the compiled-in names. -/
def TableBuild.EntriesMatch (b : TableBuild) : Prop :=
  b.ethPorts ≠ .five ∧ b.ethPorts ≠ .six ∧ (b.puma7 = true → b.ethPorts = .four)

theorem staticTables_sound_iff (b : TableBuild) : (staticTables b).Sound ↔ b.EntriesMatch := by
  have hlen : (staticTables b).ethernetIntNum =
      b.ethPorts.num + 2 + if b.puma7 then 2 else 0 := by
    simp only [InterfaceTables.ethernetIntNum,staticTables,ethIntSInfoStatic]
    split <;> simp
  have hsInfo : (∀ i < b.ethPorts.num + 2 + (if b.puma7 then 2 else 0),
      (ethEntriesStatic b)[i]?.map (fun e => e.sInfo) = some ⟨.static,i⟩) ↔ b.EntriesMatch := by
    obtain ⟨ethPorts,_,puma7,_⟩ := b
    cases ethPorts <;> cases puma7 <;>
      simp only [ethEntriesStatic,TableBuild.EntriesMatch] <;> decide +revert
  have hhwid : ∀ e ∈ ethEntriesStatic b, e.control = .swFuncs →
      ∃ k < portIDs, e.hwid = some k := by
    obtain ⟨ethPorts,_,puma7,_⟩ := b
    cases ethPorts <;> cases puma7 <;> simp only [ethEntriesStatic] <;> decide +revert
  constructor
  · intro h
    exact hsInfo.mp (hlen ▸ h.sInfo)
  · intro h
    refine ⟨?_,hlen ▸ hsInfo.mpr h,hhwid⟩
    rw [hlen]
    cases b.ethPorts <;> cases b.puma7 <;> decide

section Init

variable (b : TableBuild) (s : Persistent) (a : InitAnswers)

def usedRows : Option Nat := if b.raspberryPi then none else loadedRows s.psm

def usedNames : List (Buf 512) :=
  match usedRows b s with
  | some n => (List.range n).map (loadedName s.psm)
  | none => (ethIntSInfoStatic b).map fun p => p.name

def NameUnreadable : Prop :=
  b.raspberryPi = false ∧ ∃ n, askedRows s.psm = some n ∧ ∃ i < n.toNat, ¬NameRead s.psm i

/-- The initialisation is defined and leaves sound tables, the compiled-in ones if a
Name could not be read. -/
def InitializedSoundly : Prop :=
  ∃ t, cosaDmlEthInterfaceInit b s a (staticTables b) = some t ∧ t.Sound ∧
    (NameUnreadable b s → t.layout = (staticTables b).layout)

/-- The rows of PSM go into the arrays that count on so many, or the compiled-in table
stays and is sound. -/
def TableFits : Prop :=
  match usedRows b s with
  | some n => n ≤ maxInstance ∧ (List.range n).countP (usesSwitch s.psm) ≤ portIDs
  | none => b.EntriesMatch

structure SoundInput : Prop where
  load : b.raspberryPi = false → LoadDefined s.psm a.allocated
  table : TableFits b s
  ids : ∀ i name, (usedNames b s)[i]? = some name →
    IDFits (if a.utopiaInit i then s.ids name.text else none)

variable {b s a}

theorem usedRows_of_nameUnreadable (h : NameUnreadable b s) : usedRows b s = none := by
  obtain ⟨hpi,n,hasked,i,hi,hnot⟩ := h
  have hnotAll : ¬∀ i < n.toNat, NameRead s.psm i := fun hall => hnot (hall i hi)
  simp only [usedRows,hpi,loadedRows,hasked,Option.bind_some,if_neg hnotAll]
  simp

theorem exists_loadTables_iff {t : InterfaceTables} :
    (∃ t', loadTables b s a t = some t') ↔
      (b.raspberryPi = false → LoadDefined s.psm a.allocated) := by
  unfold loadTables
  cases b.raspberryPi with
  | false => simp [exists_loadInterfaceTable_iff]
  | true => simp

theorem tables_of_loadTables {t : InterfaceTables}
    (h : loadTables b s a (staticTables b) = some t) :
    (t.ethIntSInfo.map fun p => p.name) = usedNames b s ∧
      (t.Sound ↔ TableFits b s) ∧ (usedRows b s = none → t = staticTables b) := by
  have hcases : (usedRows b s = none ∧ t = staticTables b) ∨
      ∃ n rows, usedRows b s = some n ∧
        readRows (loadRow s.psm) n 0 0 = some (some rows) ∧
        t = installRows (staticTables b) (some rows) := by
    unfold loadTables at h
    unfold usedRows
    cases hpi : b.raspberryPi with
    | true => exact .inl ⟨rfl,by simpa [hpi,eq_comm] using h⟩
    | false =>
      simp only [hpi,Bool.false_eq_true,if_false] at h ⊢
      exact loadInterfaceTable_cases h
  unfold usedNames TableFits
  rcases hcases with ⟨hnone,rfl⟩ | ⟨n,rows,hsome,hrows,rfl⟩
  · rw [hnone]
    exact ⟨rfl,staticTables_sound_iff b,fun _ => rfl⟩
  · rw [hsome]
    exact ⟨(layout_installRows hrows).1,installRows_sound_iff hrows,fun h => absurd h (by simp)⟩

theorem initializedSoundly_iff : InitializedSoundly b s a ↔ SoundInput b s a := by
  unfold InitializedSoundly cosaDmlEthInterfaceInit
  simp only [Option.bind_eq_some_iff]
  constructor
  · rintro ⟨t',⟨t,hload,hfill⟩,hsound',-⟩
    have hsound : t.Sound := hsound'.of_layout (layout_fillTables hfill).symm
    obtain ⟨hnames,hiff,-⟩ := tables_of_loadTables hload
    exact ⟨exists_loadTables_iff.mp ⟨t,hload⟩,hiff.mp hsound,
      hnames ▸ (exists_fillTables_of_sInfo hsound.sInfo).mp ⟨t',hfill⟩⟩
  · intro h
    obtain ⟨t,hload⟩ := exists_loadTables_iff.mpr h.load
    obtain ⟨hnames,hiff,hstatic⟩ := tables_of_loadTables hload
    have hsound := hiff.mpr h.table
    obtain ⟨t',hfill⟩ := (exists_fillTables_of_sInfo hsound.sInfo).mpr (hnames ▸ h.ids)
    have hlayout := layout_fillTables hfill
    refine ⟨t',⟨t,hload,hfill⟩,hsound.of_layout hlayout,fun hunreadable => ?_⟩
    rw [hlayout,hstatic (usedRows_of_nameUnreadable hunreadable)]

end Init

/-- The initialisation keeps to its tables exactly when what PSM and syscfg hold fits
into them, and, where PSM gives no table, the compiled-in one is of a kind whose
entries match. -/
theorem interface_tables_sound_iff (b : TableBuild) (s : Persistent) (a : InitAnswers) :
    InitializedSoundly b s a ↔ SoundInput b s a := initializedSoundly_iff

def plainBuild (ethPorts : EthPorts) : TableBuild :=
  ⟨ethPorts,false,false,false,false,false,false,false⟩

def stringUlong (t : Text) : Nat := (atoi t%2^64).toNat

def plainAnswers : InitAnswers := ⟨stringUlong,true,fun _ => none,[],fun _ => true,0⟩

def nothingKept : Persistent := ⟨fun _ => none,fun _ => none,none,none⟩

def ninePorts : Persistent :=
  { nothingKept with
    psm := fun key =>
      if key = psmCfgForEth then some psmTrue
      else if key = psmCfgCount then some "9".toList
      else some "lan".toList }

/-- The ninth switch port has its hardware id behind `g_PortIDs`; with five ports
compiled in, the last two entries point behind the names. -/
theorem tables_left_behind :
    ¬InitializedSoundly (plainBuild .four) ninePorts plainAnswers ∧
      ¬InitializedSoundly (plainBuild .five) nothingKept plainAnswers := by
  constructor <;> intro h
  · have htable := (initializedSoundly_iff.mp h).table
    have hused : usedRows (plainBuild .four) ninePorts = some 9 := by decide +kernel
    rw [TableFits,hused] at htable
    exact absurd htable.2 (by decide +kernel)
  · exact (initializedSoundly_iff.mp h).table.1 rfl

end EthAgent
