import EthAgent.WriteThrough
import EthAgent.InterfaceRows

/-!
The transactions of the data model on the rows of `Ethernet.Interface` and of
`X_RDK_Interface`: Sets of parameters, and, when a Validate has failed, the Rollback of
every row that was set.
-/

set_option autoImplicit false

namespace EthAgent
open CString Packed Runs

/-- The two tables; `addToLanBridge` by the instance number of a row of the second. -/
structure DataModel where
  interfaces : EthInterfaces
  agent : LinkAgent
  addToLanBridge : Nat → Bool

inductive RowHandle where
  | interface (i : Nat)
  | ethRdkInterface (ins : Nat)
  deriving DecidableEq

/-- A Set of a parameter; `added` says whether `EthMgr_AddPortToLanBridge` succeeds. -/
inductive ParamSet where
  | interface (i : Nat) (v : InterfaceSet)
  | rdkBool (ins : Nat) (paramName : BoolParam) (bValue : Bool) (start : StartAnswers)
  | rdkAddToLanBridge (ins : Nat) (bValue added : Bool)
  | rdkUlong (ins : Nat) (uValue : WanStatus)
  | rdkString (ins : Nat) (paramName : StringParam) (pString : Text)

def ParamSet.handle : ParamSet → RowHandle
  | .interface i _ => .interface i
  | .rdkBool ins _ _ _ => .ethRdkInterface ins
  | .rdkAddToLanBridge ins _ _ => .ethRdkInterface ins
  | .rdkUlong ins _ => .ethRdkInterface ins
  | .rdkString ins _ _ => .ethRdkInterface ins

def ethRdkInterfaceSetAddToLanBridge (m : DataModel) (ins : Nat) (bValue added : Bool) :
    DataModel :=
  match m.agent.ethernet.row ins with
  | none => m
  | some _ =>
    if added then { m with addToLanBridge := Function.update m.addToLanBridge ins bValue } else m

def setParam (p : Platform) (b : InterfaceBuild) (m : DataModel) : ParamSet → DataModel
  | .interface i v => { m with interfaces := interfaceStep b m.interfaces (i,v) }
  | .rdkBool ins paramName bValue start =>
    { m with agent := ethRdkInterfaceSetParamBoolValue p m.agent ins paramName bValue start }
  | .rdkAddToLanBridge ins bValue added => ethRdkInterfaceSetAddToLanBridge m ins bValue added
  | .rdkUlong ins uValue => { m with agent := ethRdkInterfaceSetParamUlongValue m.agent ins uValue }
  | .rdkString ins paramName pString =>
    { m with agent :=
      { m.agent with
        ethernet :=
          (ethRdkInterfaceSetParamStringValue p m.agent.ethernet ins paramName pString).2 } }

structure Transaction where
  model : DataModel
  touched : List RowHandle

def setStep (p : Platform) (b : InterfaceBuild) (q : Transaction) (v : ParamSet) : Transaction :=
  ⟨setParam p b q.model v,q.touched.insert v.handle⟩

def ethRdkInterfaceRollback (m : DataModel) (_ins : Nat) : DataModel := m

def rollbackRow (b : InterfaceBuild) (hal : Nat → GetAnswers) (m : DataModel) :
    RowHandle → DataModel
  | .interface i => { m with interfaces := interfaceRollback b m.interfaces i (hal i) }
  | .ethRdkInterface ins => ethRdkInterfaceRollback m ins

def rollback (b : InterfaceBuild) (hal : Nat → GetAnswers) (q : Transaction) : DataModel :=
  q.touched.foldl (rollbackRow b hal) q.model

/-- What the getters of an Interface row return. Those of `Enable` and `MaxBitRate`
read the port first, the others give what the row holds. -/
structure InterfaceValues where
  enable : Bool
  maxBitRate : Int
  duplexMode : Nat
  ifAlias : Buf 512
  upstream : Bool
  deriving DecidableEq

def interfaceValues (b : InterfaceBuild) (entries : List PortEntry) (row : PortFull)
    (a : GetAnswers) : InterfaceValues :=
  let cfg := (cosaDmlEthPortGetCfg b entries row.cfg a).2
  ⟨cfg.bEnabled,cfg.maxBitRate,row.cfg.duplexMode,row.cfg.ifAlias,row.bUpstream⟩

def EthInterfaces.values (b : InterfaceBuild) (s : EthInterfaces) (i : Nat) (a : GetAnswers) :
    Option InterfaceValues :=
  s.rows[i]?.map fun row => interfaceValues b s.entries row a

/-- A row as the getters of `EthRdkInterface` return it, `Status` and `WanStatus` from
the record if there is one. -/
def refreshed (t : PortTable) (row : EthRow) : EthRow :=
  match cosaDmlEthPortGetCopyOfGlobalInfoForGivenIfName t (some row.name.text) with
  | none => row
  | some record => { row with linkStatus := record.linkStatus, wanStatus := record.wanStatus }

def Ethernet.values (e : Ethernet) (ins : Nat) : Option EthRow :=
  (e.row ins).map (refreshed e.ports)

/-- The same global records, and the same values read back. -/
structure SameEthernet (e' e : Ethernet) : Prop where
  ports : e'.ports = e.ports
  values : ∀ ins, e'.values ins = e.values ins

/-- The same values read back, whatever the HAL answers to the reading, and the same
backend: the global records, and the ports with what is configured in them. -/
structure SameData (b : InterfaceBuild) (m' m : DataModel) : Prop where
  ethernet : SameEthernet m'.agent.ethernet m.agent.ethernet
  addToLanBridge : m'.addToLanBridge = m.addToLanBridge
  entries : m'.interfaces.entries = m.interfaces.entries
  values : ∀ i a, m'.interfaces.values b i a = m.interfaces.values b i a

/-- A Rollback now restores what there was, however the HAL answers to it. -/
def Restored (b : InterfaceBuild) (m : DataModel) (q : Transaction) : Prop :=
  ∀ hal, SameData b (rollback b hal q) m

def Port.isSwitch : Port → Bool
  | .switch _ => true
  | .linux _ => false

structure InSync (b : InterfaceBuild) (row : PortFull) (e : PortEntry) : Prop where
  ifAlias : row.cfg.ifAlias = e.ifAlias
  duplexMode : row.cfg.duplexMode = e.port.duplex
  maxBitRate : e.port.isSwitch = true → row.cfg.maxBitRate = e.port.bitRate b

/-- The Set does not change what the Rollback may leave as it is: `Upstream`, and the
rate and the duplex mode of a switch port, for which the HAL may not answer. -/
def InterfaceSet.Keeps (b : InterfaceBuild) (e : PortEntry) (row : PortFull) :
    InterfaceSet → Prop
  | .enable _ => True
  | .upstream bValue => b.wanUpstream = true → bValue = row.bUpstream
  | .maxBitRate iValue => e.port.isSwitch = true → iValue = row.cfg.maxBitRate
  | .duplexMode uValue => e.port.isSwitch = true → uValue % 2^32 = row.cfg.duplexMode
  | .ifAlias _ => True

def BoolParam.value : BoolParam → EthRow → Bool
  | .upstream => fun row => row.upstream
  | .enable => fun row => row.enable
  | .wanValidated => fun row => row.wanValidated

def BoolParam.write (bValue : Bool) : BoolParam → EthRow → EthRow
  | .upstream => fun row => { row with upstream := bValue }
  | .enable => fun row => { row with enable := bValue }
  | .wanValidated => fun row => { row with wanValidated := bValue }

/-- The Set of an EthRdkInterface row finds its value there, or is refused. -/
def FindsValue (p : Platform) (m : DataModel) : ParamSet → Prop
  | .interface _ _ => True
  | .rdkBool ins paramName bValue _ =>
    ∀ row, m.agent.ethernet.row ins = some row → paramName.value row = bValue
  | .rdkAddToLanBridge ins bValue added =>
    ∀ row, m.agent.ethernet.row ins = some row → added = true → m.addToLanBridge ins = bValue
  | .rdkUlong ins uValue =>
    ∀ row, m.agent.ethernet.row ins = some row →
      row.wanStatus = uValue ∨ ∃ record, cosaDmlEthPortGetCopyOfGlobalInfoForGivenIfName
        m.agent.ethernet.ports (some row.name.text) = some record ∧ record.wanStatus = uValue
  | .rdkString ins .name pString =>
    ∀ row i, m.agent.ethernet.row ins = some row →
      cosaDmlEthPortGetIndexFromIfName m.agent.ethernet.ports (some pString) = none →
      cosaDmlEthPortGetIndexFromIfName m.agent.ethernet.ports (some row.name.text) = some i →
      row.name = Buf.store pString
  | .rdkString ins .lowerLayers pString =>
    ∀ row i record, m.agent.ethernet.row ins = some row →
      cosaDmlEthPortGetIndexFromIfName m.agent.ethernet.ports (some row.name.text) = some i →
      p.totalNumberOfInternalInterfaces ≤ i → m.agent.ethernet.ports.records[i]? = some record →
      record.lowerLayers.front = pString.take 127 ∧
        (pString.length < 127 → row.lowerLayers = Buf.store pString)

/-- The first Set of an Interface row finds it in step with its port. -/
def Harmless (p : Platform) (b : InterfaceBuild) (q : Transaction) (v : ParamSet) : Prop :=
  FindsValue p q.model v ∧
  ∀ i w row e, v = .interface i w → q.model.interfaces.rows[i]? = some row →
    q.model.interfaces.entries[i]? = some e →
    (RowHandle.interface i ∉ q.touched → InSync b row e) ∧ w.Keeps b e row

theorem SameEthernet.congr_right {e₁ e₂ e : Ethernet} (h : SameEthernet e₁ e₂) :
    SameEthernet e e₁ ↔ SameEthernet e e₂ :=
  ⟨fun h' => ⟨h'.ports.trans h.ports,fun ins => (h'.values ins).trans (h.values ins)⟩,
    fun h' => ⟨h'.ports.trans h.ports.symm,fun ins => (h'.values ins).trans (h.values ins).symm⟩⟩

theorem SameEthernet.refl (e : Ethernet) : SameEthernet e e := ⟨rfl,fun _ => rfl⟩

theorem sameEthernet_modifyRow_iff {e e' : Ethernet} {ins : Nat} {row : EthRow}
    {g : EthRow → EthRow} (hrow : e.row ins = some row)
    (hg : ∀ r, (g r).ulInstanceNumber = r.ulInstanceNumber)
    (hrows : e'.qEthList = modifyRow ins g e.qEthList) :
    SameEthernet e' e ↔
      e'.ports = e.ports ∧ refreshed e.ports (g row) = refreshed e.ports row := by
  have hfind : ∀ ins', e'.row ins' =
      if ins' = ins then (e.row ins').map g else e.row ins' := by
    intro ins'
    rw [Ethernet.row,hrows]
    exact find_modifyRow hg e.qEthList ins ins'
  constructor
  · rintro ⟨hports,hvalues⟩
    have h := hvalues ins
    simp only [Ethernet.values,hfind,hrow,hports,if_true,Option.map_some,Option.some_inj] at h
    exact ⟨hports,h⟩
  · rintro ⟨hports,hvalue⟩
    refine ⟨hports,fun ins' => ?_⟩
    rw [Ethernet.values,Ethernet.values,hports,hfind]
    by_cases hins : ins' = ins
    · subst hins
      simp [hrow,hvalue]
    · rw [if_neg hins]

theorem modifyRecord_eq_self_iff {t : PortTable} {i : Nat} {record : PortRecord}
    (hrecord : t.records[i]? = some record) {f : PortRecord → PortRecord} :
    t.modifyRecord i f = t ↔ f record = record := by
  unfold PortTable.records at hrecord
  unfold PortTable.modifyRecord
  cases t with
  | mk recs gTotal total =>
    cases recs with
    | none => simp at hrecord
    | some recs =>
      simp only [Option.getD_some] at hrecord
      simp [modify_eq_self_iff,hrecord]

theorem refreshed_fields (t : PortTable) (row : EthRow) :
    (refreshed t row).name = row.name ∧ (refreshed t row).lowerLayers = row.lowerLayers ∧
      ∀ paramName : BoolParam, paramName.value (refreshed t row) = paramName.value row := by
  unfold refreshed
  split
  · exact ⟨rfl,rfl,fun _ => rfl⟩
  · exact ⟨rfl,rfl,fun paramName => by cases paramName <;> rfl⟩

theorem BoolParam.value_write (paramName : BoolParam) (bValue : Bool) (row : EthRow) :
    paramName.value (paramName.write bValue row) = bValue := by
  cases paramName <;> rfl

theorem setBool_qEthList {p : Platform} {a : LinkAgent} {ins : Nat} {row : EthRow}
    {paramName : BoolParam} {bValue : Bool} (start : StartAnswers)
    (hrow : a.ethernet.row ins = some row) (hne : bValue ≠ paramName.value row) :
    (ethRdkInterfaceSetParamBoolValue p a ins paramName bValue start).ethernet.qEthList =
      modifyRow ins (paramName.write bValue) a.ethernet.qEthList := by
  unfold ethRdkInterfaceSetParamBoolValue
  rw [hrow]
  cases paramName with
  | upstream =>
    simp only [if_neg (show bValue ≠ row.upstream from hne),setUpstream_qEthList]
    rfl
  | enable =>
    simp only [if_neg (show bValue ≠ row.enable from hne)]
    rfl
  | wanValidated =>
    simp only [if_neg (show bValue ≠ row.wanValidated from hne)]
    rfl

theorem setBool_same_iff (p : Platform) (a : LinkAgent) (ins : Nat) (paramName : BoolParam)
    (bValue : Bool) (start : StartAnswers) :
    SameEthernet (ethRdkInterfaceSetParamBoolValue p a ins paramName bValue start).ethernet
        a.ethernet ↔
      ∀ row, a.ethernet.row ins = some row → paramName.value row = bValue := by
  cases hrow : a.ethernet.row ins with
  | none =>
    simp only [ethRdkInterfaceSetParamBoolValue,hrow]
    exact iff_of_true (SameEthernet.refl _) fun _ h => absurd h (by simp)
  | some row =>
    by_cases hsame : bValue = paramName.value row
    · have hset : ethRdkInterfaceSetParamBoolValue p a ins paramName bValue start = a := by
        unfold ethRdkInterfaceSetParamBoolValue
        rw [hrow]
        cases paramName <;> exact if_pos hsame
      rw [hset]
      refine iff_of_true (SameEthernet.refl _) fun row' h => ?_
      rw [← Option.some_inj.mp h,hsame]
    · have hrows := setBool_qEthList (p := p) start hrow hsame
      rw [sameEthernet_modifyRow_iff hrow (fun r => by cases paramName <;> rfl) hrows]
      constructor
      · rintro ⟨-,hvalue⟩
        have h := congrArg paramName.value hvalue
        rw [(refreshed_fields _ _).2.2,(refreshed_fields _ _).2.2,
          paramName.value_write bValue row] at h
        exact absurd h hsame
      · intro h
        exact absurd (h row rfl).symm hsame

theorem setUlong_same_iff (a : LinkAgent) (ins : Nat) (uValue : WanStatus) :
    SameEthernet (ethRdkInterfaceSetParamUlongValue a ins uValue).ethernet a.ethernet ↔
      ∀ row, a.ethernet.row ins = some row →
        row.wanStatus = uValue ∨ ∃ record, cosaDmlEthPortGetCopyOfGlobalInfoForGivenIfName
          a.ethernet.ports (some row.name.text) = some record ∧ record.wanStatus = uValue := by
  unfold ethRdkInterfaceSetParamUlongValue
  cases hrow : a.ethernet.row ins with
  | none => exact iff_of_true (SameEthernet.refl _) fun _ h => absurd h (by simp)
  | some row =>
    simp only [Option.some_inj,forall_eq']
    by_cases hsame : uValue = row.wanStatus
    · rw [if_pos hsame]
      exact iff_of_true (SameEthernet.refl _) (.inl hsame.symm)
    · rw [if_neg hsame,sameEthernet_modifyRow_iff (g := fun r => { r with wanStatus := uValue })
        hrow (fun _ => rfl) rfl,or_iff_right (Ne.symm hsame)]
      show (cosaDmlEthPortSetWanStatus a.ethernet.ports (some row.name.text) uValue).2 =
        a.ethernet.ports ∧ _ ↔ _
      unfold refreshed cosaDmlEthPortGetCopyOfGlobalInfoForGivenIfName cosaDmlEthPortSetWanStatus
      cases hi : cosaDmlEthPortGetIndexFromIfName a.ethernet.ports (some row.name.text) with
      | none =>
        have hne : ({ row with wanStatus := uValue } : EthRow) ≠ row :=
          fun h => hsame (congrArg EthRow.wanStatus h)
        simp [hne]
      | some i =>
        obtain ⟨record,hrecord,-⟩ := record_of_index hi
        have hwrite : ({ record with wanStatus := uValue } : PortRecord) = record ↔
            record.wanStatus = uValue := by
          cases record
          simp [eq_comm]
        simp [hrecord,modifyRecord_eq_self_iff hrecord,hwrite]

theorem sameEthernet_ports_iff {e e' : Ethernet} (hrows : e'.qEthList = e.qEthList) :
    SameEthernet e' e ↔ e'.ports = e.ports :=
  ⟨fun h => h.ports,fun h => ⟨h,fun ins => by
    rw [Ethernet.values,Ethernet.values,Ethernet.row,hrows,h]
    rfl⟩⟩

theorem sameEthernet_write_iff {e e' : Ethernet} {ins i : Nat} {row : EthRow}
    {record : PortRecord} {f : PortRecord → PortRecord} {g : EthRow → EthRow} {fits : Prop}
    [Decidable fits] (hrow : e.row ins = some row) (hrecord : e.ports.records[i]? = some record)
    (h : e'.ports = e.ports.modifyRecord i f ∧
      e'.qEthList = if fits then modifyRow ins g e.qEthList else e.qEthList)
    (hg : ∀ r, (g r).ulInstanceNumber = r.ulInstanceNumber) :
    SameEthernet e' e ↔
      f record = record ∧ (fits → refreshed e.ports (g row) = refreshed e.ports row) := by
  obtain ⟨hports,hrows⟩ := h
  by_cases hfits : fits
  · rw [if_pos hfits] at hrows
    rw [sameEthernet_modifyRow_iff hrow hg hrows,hports,modifyRecord_eq_self_iff hrecord,
      forall_prop_of_true hfits]
  · rw [if_neg hfits] at hrows
    rw [sameEthernet_ports_iff hrows,hports,modifyRecord_eq_self_iff hrecord]
    exact (and_iff_left fun h => absurd h hfits).symm

theorem index_lt_gTotal {t : PortTable} {x : Text} {i : Nat}
    (h : cosaDmlEthPortGetIndexFromIfName t (some x) = some i) : i < t.gTotal := by
  unfold cosaDmlEthPortGetIndexFromIfName at h
  cases hrecs : t.gpstEthGInfo with
  | none => simp [hrecs] at h
  | some recs =>
    simp only [hrecs,List.findIdx?_eq_some_iff_getElem] at h
    obtain ⟨hi,-⟩ := h
    simp only [List.length_take] at hi
    omega

theorem setName_accepted {t : PortTable} {ifname newIfname : Text} {i : Nat}
    (hnew : cosaDmlEthPortGetIndexFromIfName t (some newIfname) = none)
    (hi : cosaDmlEthPortGetIndexFromIfName t (some ifname) = some i) :
    cosaDmlEthPortSetName t (some ifname) (some newIfname) =
      (true,t.modifyRecord i fun r => { r with name := r.name.strncpy newIfname }) := by
  have hlt := Nat.not_le.mpr (index_lt_gTotal hi)
  simp [cosaDmlEthPortSetName,hnew,hi,hlt]

theorem setName_refused {t : PortTable} {ifname newIfname : Text}
    (h : ∀ i, cosaDmlEthPortGetIndexFromIfName t (some newIfname) = none →
      cosaDmlEthPortGetIndexFromIfName t (some ifname) ≠ some i) :
    cosaDmlEthPortSetName t (some ifname) (some newIfname) = (false,t) := by
  unfold cosaDmlEthPortSetName
  cases hnew : cosaDmlEthPortGetIndexFromIfName t (some newIfname) with
  | some j => simp [hnew]
  | none =>
    have hi := Option.eq_none_iff_forall_ne_some.mpr fun i => h i hnew
    simp [hnew,hi]

theorem setString_name (p : Platform) {e : Ethernet} {ins i : Nat} {row : EthRow}
    {pString : Text} (hrow : e.row ins = some row)
    (hnew : cosaDmlEthPortGetIndexFromIfName e.ports (some pString) = none)
    (hi : cosaDmlEthPortGetIndexFromIfName e.ports (some row.name.text) = some i) :
    let e' := (ethRdkInterfaceSetParamStringValue p e ins .name pString).2
    e'.ports = e.ports.modifyRecord i (fun r => { r with name := r.name.strncpy pString }) ∧
      e'.qEthList = if pString.length ≤ 63 then
        modifyRow ins (fun r => { r with name := Buf.store pString }) e.qEthList
      else e.qEthList := by
  simp only [ethRdkInterfaceSetParamStringValue,hrow,setName_accepted hnew hi,if_true]
  split <;> exact ⟨rfl,rfl⟩

theorem setName_same_iff (p : Platform) (e : Ethernet) (ins : Nat) (pString : Text) :
    SameEthernet (ethRdkInterfaceSetParamStringValue p e ins .name pString).2 e ↔
      ∀ row i, e.row ins = some row →
        cosaDmlEthPortGetIndexFromIfName e.ports (some pString) = none →
        cosaDmlEthPortGetIndexFromIfName e.ports (some row.name.text) = some i →
        row.name = Buf.store pString := by
  by_cases hset : ∃ row i, e.row ins = some row ∧
      cosaDmlEthPortGetIndexFromIfName e.ports (some pString) = none ∧
      cosaDmlEthPortGetIndexFromIfName e.ports (some row.name.text) = some i
  · obtain ⟨row,i,hrow,hnew,hi⟩ := hset
    obtain ⟨record,hrecord,hname⟩ := record_of_index hi
    have hwrite : ({ record with name := record.name.strncpy pString } : PortRecord) = record ↔
        row.name = Buf.store pString := by
      have hfront := Chars.front_of_text hname row.name.fits
      have hrow' : record.name.front = pString.take 63 ↔ row.name = Buf.store pString := by
        rw [hfront]
        exact ⟨fun h => Buf.ext_text h,fun h => congrArg Buf.text h⟩
      rw [← hrow',← Chars.strncpy_eq_self_iff]
      cases record
      simp
    rw [sameEthernet_write_iff hrow hrecord (setString_name p hrow hnew hi) fun _ => rfl,hwrite]
    constructor
    · rintro ⟨hsame,-⟩ row' i' hrow' _ _
      rwa [← Option.some_inj.mp (hrow.symm.trans hrow')]
    · intro h
      have hsame := h row i hrow hnew hi
      exact ⟨hsame,fun _ => by rw [← hsame]⟩
  · have hrefused : (ethRdkInterfaceSetParamStringValue p e ins .name pString).2 = e := by
      unfold ethRdkInterfaceSetParamStringValue
      cases hrow : e.row ins with
      | none => rfl
      | some row =>
        simp only [setName_refused fun i hnew hi => hset ⟨row,i,hrow,hnew,hi⟩,
          Bool.false_eq_true,if_false]
    rw [hrefused]
    exact iff_of_true (SameEthernet.refl e)
      fun row i hrow hnew hi => absurd ⟨row,i,hrow,hnew,hi⟩ hset

theorem setString_lowerLayers {p : Platform} {e : Ethernet} {ins i : Nat} {row : EthRow}
    {pString : Text} (hrow : e.row ins = some row)
    (hi : cosaDmlEthPortGetIndexFromIfName e.ports (some row.name.text) = some i)
    (hexternal : p.totalNumberOfInternalInterfaces ≤ i) :
    let e' := (ethRdkInterfaceSetParamStringValue p e ins .lowerLayers pString).2
    e'.ports = e.ports.modifyRecord i (fun r =>
        { r with lowerLayers := r.lowerLayers.strncpy pString }) ∧
      e'.qEthList = if pString.length < 127 then
        modifyRow ins (fun r => { r with lowerLayers := Buf.store pString }) e.qEthList
      else e.qEthList := by
  simp only [ethRdkInterfaceSetParamStringValue,cosaDmlEthPortSetLowerLayers,hrow,hi,
    if_neg (Nat.not_lt.mpr hexternal),if_true]
  split <;> exact ⟨rfl,rfl⟩

theorem setLowerLayers_same_iff (p : Platform) (e : Ethernet) (ins : Nat) (pString : Text) :
    SameEthernet (ethRdkInterfaceSetParamStringValue p e ins .lowerLayers pString).2 e ↔
      ∀ row i record, e.row ins = some row →
        cosaDmlEthPortGetIndexFromIfName e.ports (some row.name.text) = some i →
        p.totalNumberOfInternalInterfaces ≤ i → e.ports.records[i]? = some record →
        record.lowerLayers.front = pString.take 127 ∧
          (pString.length < 127 → row.lowerLayers = Buf.store pString) := by
  by_cases hset : ∃ row i, e.row ins = some row ∧
      cosaDmlEthPortGetIndexFromIfName e.ports (some row.name.text) = some i ∧
      p.totalNumberOfInternalInterfaces ≤ i
  · obtain ⟨row,i,hrow,hi,hexternal⟩ := hset
    obtain ⟨record,hrecord,-⟩ := record_of_index hi
    have hwrite : ({ record with lowerLayers := record.lowerLayers.strncpy pString } :
        PortRecord) = record ↔ record.lowerLayers.front = pString.take 127 := by
      have hfront : record.lowerLayers.strncpy pString = record.lowerLayers ↔
        record.lowerLayers.front = pString.take 127 := Chars.strncpy_eq_self_iff
      rw [← hfront]
      cases record
      simp
    rw [sameEthernet_write_iff hrow hrecord (setString_lowerLayers hrow hi hexternal)
      fun _ => rfl,hwrite]
    constructor
    · rintro ⟨hsame,hvalue⟩ row' i' record' hrow' hi' _ hrecord'
      obtain rfl := Option.some_inj.mp (hrow.symm.trans hrow')
      obtain rfl := Option.some_inj.mp (hi.symm.trans hi')
      obtain rfl := Option.some_inj.mp (hrecord.symm.trans hrecord')
      refine ⟨hsame,fun hfits => ?_⟩
      have hlower := congrArg EthRow.lowerLayers (hvalue hfits)
      rw [(refreshed_fields _ _).2.1,(refreshed_fields _ _).2.1] at hlower
      exact hlower.symm
    · intro h
      obtain ⟨hsame,hvalue⟩ := h row i record hrow hi hexternal hrecord
      exact ⟨hsame,fun hfits => by rw [← hvalue hfits]⟩
  · have hrefused : (ethRdkInterfaceSetParamStringValue p e ins .lowerLayers pString).2 = e := by
      unfold ethRdkInterfaceSetParamStringValue cosaDmlEthPortSetLowerLayers
      cases hrow : e.row ins with
      | none => rfl
      | some row =>
        cases hi : cosaDmlEthPortGetIndexFromIfName e.ports (some row.name.text) with
        | none => simp [hi]
        | some i =>
          have hinternal : i < p.totalNumberOfInternalInterfaces :=
            Nat.not_le.mp fun h => hset ⟨row,i,hrow,hi,h⟩
          simp [hi,hinternal]
    rw [hrefused]
    exact iff_of_true (SameEthernet.refl e)
      fun row i _ hrow hi hexternal _ => absurd ⟨row,i,hrow,hi,hexternal⟩ hset

def PortEntry.restore (b : InterfaceBuild) (e : PortEntry) (a : GetAnswers) (row : PortFull) :
    PortFull :=
  { row with cfg := e.getCfg b a row.cfg }

def Port.enabled (a : GetAnswers) : Port → Bool
  | .switch p => if a.getPortAdminStatus then p.adminStatus ≠ .down else true
  | .linux up => getIfStatus up a.ifStatus = .up

/-- The port gives its rate and its duplex mode. -/
def Port.answers (a : GetAnswers) : Port → Bool
  | .switch _ => a.getPortCfg
  | .linux _ => true

theorem PortEntry.getCfg_eq (b : InterfaceBuild) (e : PortEntry) (a : GetAnswers)
    (pCfg : PortCfg) :
    e.getCfg b a pCfg =
      { instanceNumber := e.instanceNumber
        ifAlias := e.ifAlias
        bEnabled := e.port.enabled a
        maxBitRate := if e.port.answers a then e.port.bitRate b else pCfg.maxBitRate
        duplexMode := if e.port.answers a then e.port.duplex else pCfg.duplexMode } := by
  unfold PortEntry.getCfg
  cases e.port with
  | switch p =>
    cases hcfg : a.getPortCfg <;> simp [EthAgent.getCfg,puma6GetSwitchCfg,hcfg,Port.enabled,
      Port.answers,Port.bitRate,Port.duplex]
  | linux up => rfl

theorem PortEntry.restore_restore (b : InterfaceBuild) (e : PortEntry) (a : GetAnswers)
    (row : PortFull) : e.restore b a (e.restore b a row) = e.restore b a row := by
  cases hanswers : e.port.answers a <;> simp [PortEntry.restore,e.getCfg_eq,hanswers]

theorem rows_rollbackRow (b : InterfaceBuild) (hal : Nat → GetAnswers) {m : DataModel}
    {i : Nat} {row : PortFull} (hrow : m.interfaces.rows[i]? = some row) {e : PortEntry}
    (he : m.interfaces.entries[i]? = some e) (h : RowHandle) :
    (rollbackRow b hal m h).interfaces.rows[i]? =
      some (if h = .interface i then e.restore b (hal i) row else row) := by
  cases h with
  | ethRdkInterface ins => simpa [rollbackRow,ethRdkInterfaceRollback] using hrow
  | interface j =>
    simp only [rollbackRow,interfaceRollback,EthInterfaces.modifyRow,List.getElem?_modify,hrow,
      RowHandle.interface.injEq]
    by_cases hij : j = i
    · subst hij
      simp [getCfg_row hrow he,PortEntry.restore]
    · simp [hij]

theorem rollbackRow_rest (b : InterfaceBuild) (hal : Nat → GetAnswers) (m : DataModel)
    (h : RowHandle) :
    (rollbackRow b hal m h).agent = m.agent ∧
      (rollbackRow b hal m h).addToLanBridge = m.addToLanBridge ∧
      (rollbackRow b hal m h).interfaces.entries = m.interfaces.entries := by
  cases h <;> exact ⟨rfl,rfl,rfl⟩

/-- A Rollback changes the Interface rows that were set, and nothing else. -/
theorem rollback_rest (b : InterfaceBuild) (hal : Nat → GetAnswers) (q : Transaction) :
    (rollback b hal q).agent = q.model.agent ∧
      (rollback b hal q).addToLanBridge = q.model.addToLanBridge ∧
      (rollback b hal q).interfaces.entries = q.model.interfaces.entries := by
  obtain ⟨m,touched⟩ := q
  unfold rollback
  induction touched generalizing m with
  | nil => exact ⟨rfl,rfl,rfl⟩
  | cons h touched ih =>
    obtain ⟨hagent,hbridge,hentries⟩ := ih (rollbackRow b hal m h)
    obtain ⟨hagent',hbridge',hentries'⟩ := rollbackRow_rest b hal m h
    exact ⟨hagent.trans hagent',hbridge.trans hbridge',hentries.trans hentries'⟩

theorem rows_rollback {b : InterfaceBuild} {hal : Nat → GetAnswers} {q : Transaction} {i : Nat}
    {row : PortFull} (hrow : q.model.interfaces.rows[i]? = some row) {e : PortEntry}
    (he : q.model.interfaces.entries[i]? = some e) :
    (rollback b hal q).interfaces.rows[i]? =
      some (if .interface i ∈ q.touched then e.restore b (hal i) row else row) := by
  obtain ⟨m,touched⟩ := q
  unfold rollback
  induction touched generalizing m row with
  | nil => simpa using hrow
  | cons h touched ih =>
    have hentries := (rollbackRow_rest b hal m h).2.2
    have hstep := rows_rollbackRow b hal hrow he h
    refine (ih (rollbackRow b hal m h) hstep (hentries ▸ he)).trans ?_
    by_cases hhead : h = .interface i
    · by_cases htail : RowHandle.interface i ∈ touched
      · simp [hhead,htail,e.restore_restore]
      · simp [hhead,htail]
    · simp [hhead,Ne.symm hhead]

/-- The rows are read back alike, whatever the HAL answers to the reading. -/
structure Alike (e : PortEntry) (row row' : PortFull) : Prop where
  ifAlias : row'.cfg.ifAlias = row.cfg.ifAlias
  duplexMode : row'.cfg.duplexMode = row.cfg.duplexMode
  upstream : row'.bUpstream = row.bUpstream
  maxBitRate : e.port.isSwitch = true → row'.cfg.maxBitRate = row.cfg.maxBitRate

/-- What a Rollback may leave as it is has not changed. -/
structure Kept (e : PortEntry) (row row' : PortFull) : Prop where
  upstream : row'.bUpstream = row.bUpstream
  maxBitRate : e.port.isSwitch = true → row'.cfg.maxBitRate = row.cfg.maxBitRate
  duplexMode : e.port.isSwitch = true → row'.cfg.duplexMode = row.cfg.duplexMode

theorem values_row {b : InterfaceBuild} {s : EthInterfaces} {i : Nat} {row : PortFull}
    (hrow : s.rows[i]? = some row) {e : PortEntry} (he : s.entries[i]? = some e)
    (a : GetAnswers) :
    s.values b i a = some ⟨(e.getCfg b a row.cfg).bEnabled,(e.getCfg b a row.cfg).maxBitRate,
      row.cfg.duplexMode,row.cfg.ifAlias,row.bUpstream⟩ := by
  simp [EthInterfaces.values,hrow,interfaceValues,getCfg_row hrow he]

theorem values_eq_iff_alike (b : InterfaceBuild) {s s' : EthInterfaces} {i : Nat}
    {row row' : PortFull} (hrow : s.rows[i]? = some row) (hrow' : s'.rows[i]? = some row')
    {e : PortEntry} (he : s.entries[i]? = some e) (he' : s'.entries[i]? = some e) :
    (∀ a, s'.values b i a = s.values b i a) ↔ Alike e row row' := by
  simp only [values_row hrow he,values_row hrow' he',Option.some_inj,InterfaceValues.mk.injEq,
    e.getCfg_eq,true_and]
  constructor
  · intro h
    refine ⟨(h allDone).2.2.1,(h allDone).2.1,(h allDone).2.2.2,fun hswitch => ?_⟩
    -- a HAL that does not answer shows what the row holds
    obtain ⟨hrate,-⟩ := h { allDone with getPortCfg := false }
    cases hport : e.port with
    | switch p => simpa [hport,Port.answers] using hrate
    | linux up => simp [hport,Port.isSwitch] at hswitch
  · rintro ⟨halias,hduplex,hupstream,hrate⟩ a
    refine ⟨?_,hduplex,halias,hupstream⟩
    cases hport : e.port with
    | switch p => rw [hrate (by rw [hport]; rfl)]
    | linux up => rfl

/-- The row restored, whatever the HAL answers to the Rollback. -/
theorem restore_alike_iff (b : InterfaceBuild) (e : PortEntry) (row row' : PortFull) :
    (∀ a, Alike e row (e.restore b a row')) ↔ InSync b row e ∧ Kept e row row' := by
  constructor
  · intro h
    have hdone := h allDone
    have hfailed := h { allDone with getPortCfg := false }
    have hanswers : e.port.answers allDone = true := by cases e.port <;> rfl
    simp only [PortEntry.restore,e.getCfg_eq] at hdone hfailed
    refine ⟨⟨hdone.ifAlias.symm,?_,fun hswitch => ?_⟩,hdone.upstream,fun hswitch => ?_,
      fun hswitch => ?_⟩
    · simpa [hanswers] using hdone.duplexMode.symm
    · simpa [hanswers] using (hdone.maxBitRate hswitch).symm
    all_goals
      have hfails : e.port.answers { allDone with getPortCfg := false } = false := by
        cases hport : e.port with
        | switch p => rfl
        | linux up => simp [hport,Port.isSwitch] at hswitch
    · simpa [hfails] using hfailed.maxBitRate hswitch
    · simpa [hfails] using hfailed.duplexMode
  · rintro ⟨hsync,hkept⟩ a
    simp only [PortEntry.restore,e.getCfg_eq]
    cases hanswers : e.port.answers a with
    | true =>
      exact ⟨hsync.ifAlias.symm,by simpa using hsync.duplexMode.symm,hkept.upstream,
        fun hswitch => by simpa using (hsync.maxBitRate hswitch).symm⟩
    | false =>
      have hswitch : e.port.isSwitch = true := by
        cases hport : e.port with
        | switch p => rfl
        | linux up => simp [hport,Port.answers] at hanswers
      exact ⟨hsync.ifAlias.symm,by simpa using hkept.duplexMode hswitch,hkept.upstream,
        fun _ => by simpa using hkept.maxBitRate hswitch⟩

/-- The rule for one row: `row` is the row before the transaction, `row'` and `row''`
before and after a Set of it. -/
theorem restore_step_iff {b : InterfaceBuild} {e : PortEntry} {row row' row'' : PortFull}
    {touched : Prop} [Decidable touched]
    (h : ∀ a, Alike e row (if touched then e.restore b a row' else row')) :
    (∀ a, Alike e row (e.restore b a row'')) ↔
      (¬ touched → InSync b row' e) ∧ Kept e row' row'' := by
  rw [restore_alike_iff]
  by_cases ht : touched
  · simp only [if_pos ht] at h
    obtain ⟨hsync,hkept⟩ := (restore_alike_iff b e row row').mp h
    constructor
    · rintro ⟨-,hkept'⟩
      exact ⟨fun hno => absurd ht hno,hkept'.upstream.trans hkept.upstream.symm,
        fun hs => (hkept'.maxBitRate hs).trans (hkept.maxBitRate hs).symm,
        fun hs => (hkept'.duplexMode hs).trans (hkept.duplexMode hs).symm⟩
    · rintro ⟨-,hkept'⟩
      exact ⟨hsync,hkept'.upstream.trans hkept.upstream,
        fun hs => (hkept'.maxBitRate hs).trans (hkept.maxBitRate hs),
        fun hs => (hkept'.duplexMode hs).trans (hkept.duplexMode hs)⟩
  · simp only [if_neg ht] at h
    have halike := h allDone
    constructor
    · rintro ⟨hsync,hkept'⟩
      exact ⟨fun _ => ⟨halike.ifAlias.trans hsync.ifAlias,
          halike.duplexMode.trans hsync.duplexMode,
          fun hs => (halike.maxBitRate hs).trans (hsync.maxBitRate hs)⟩,
        hkept'.upstream.trans halike.upstream.symm,
        fun hs => (hkept'.maxBitRate hs).trans (halike.maxBitRate hs).symm,
        fun hs => (hkept'.duplexMode hs).trans halike.duplexMode.symm⟩
    · rintro ⟨hsync,hkept'⟩
      have hsync := hsync ht
      exact ⟨⟨halike.ifAlias.symm.trans hsync.ifAlias,
          halike.duplexMode.symm.trans hsync.duplexMode,
          fun hs => (halike.maxBitRate hs).symm.trans (hsync.maxBitRate hs)⟩,
        hkept'.upstream.trans halike.upstream,
        fun hs => (hkept'.maxBitRate hs).trans (halike.maxBitRate hs),
        fun hs => (hkept'.duplexMode hs).trans halike.duplexMode⟩

theorem keeps_iff (b : InterfaceBuild) (e : PortEntry) (row : PortFull) (w : InterfaceSet) :
    w.Keeps b e row ↔ Kept e row (interfaceSetParamValue b row w).2 := by
  cases w with
  | enable bValue => exact ⟨fun _ => ⟨rfl,fun _ => rfl,fun _ => rfl⟩,fun _ => trivial⟩
  | upstream bValue =>
    unfold interfaceSetParamValue InterfaceSet.Keeps
    by_cases hb : b.wanUpstream
    · simp only [hb,if_true,true_implies]
      exact ⟨fun h => ⟨h,fun _ => rfl,fun _ => rfl⟩,fun h => h.upstream⟩
    · simp only [hb]
      exact ⟨fun _ => ⟨rfl,fun _ => rfl,fun _ => rfl⟩,fun _ h => absurd h (by simp)⟩
  | maxBitRate iValue => exact ⟨fun h => ⟨rfl,h,fun _ => rfl⟩,fun h => h.maxBitRate⟩
  | duplexMode uValue => exact ⟨fun h => ⟨rfl,fun _ => rfl,h⟩,fun h => h.duplexMode⟩
  | ifAlias pString =>
    refine ⟨fun _ => ?_,fun _ => trivial⟩
    simp only [interfaceSetParamValue]
    split <;> exact ⟨rfl,fun _ => rfl,fun _ => rfl⟩

theorem findsValue_iff (p : Platform) (b : InterfaceBuild) (m : DataModel) (v : ParamSet) :
    FindsValue p m v ↔
      SameEthernet (setParam p b m v).agent.ethernet m.agent.ethernet ∧
        (setParam p b m v).addToLanBridge = m.addToLanBridge := by
  cases v with
  | interface i w => exact ⟨fun _ => ⟨SameEthernet.refl _,rfl⟩,fun _ => trivial⟩
  | rdkBool ins paramName bValue start =>
    exact (setBool_same_iff p m.agent ins paramName bValue start).symm.trans
      (and_iff_left rfl).symm
  | rdkAddToLanBridge ins bValue added =>
    simp only [FindsValue,setParam,ethRdkInterfaceSetAddToLanBridge]
    cases hrow : m.agent.ethernet.row ins with
    | none => exact ⟨fun _ => ⟨SameEthernet.refl _,rfl⟩,fun _ _ h => absurd h (by simp)⟩
    | some row =>
      cases added with
      | false =>
        exact ⟨fun _ => ⟨SameEthernet.refl _,rfl⟩,fun _ _ _ h => absurd h (by simp)⟩
      | true =>
        simp only [if_true,Function.update_eq_self_iff]
        exact ⟨fun h => ⟨SameEthernet.refl _,(h row rfl trivial).symm⟩,fun h _ _ _ => h.2.symm⟩
  | rdkUlong ins uValue =>
    exact (setUlong_same_iff m.agent ins uValue).symm.trans (and_iff_left rfl).symm
  | rdkString ins paramName pString =>
    cases paramName with
    | name =>
      exact (setName_same_iff p m.agent.ethernet ins pString).symm.trans (and_iff_left rfl).symm
    | lowerLayers =>
      exact (setLowerLayers_same_iff p m.agent.ethernet ins pString).symm.trans
        (and_iff_left rfl).symm

structure Recoverable (b : InterfaceBuild) (m : DataModel) (q : Transaction) : Prop where
  ethernet : SameEthernet q.model.agent.ethernet m.agent.ethernet
  addToLanBridge : q.model.addToLanBridge = m.addToLanBridge
  entries : q.model.interfaces.entries = m.interfaces.entries
  rows : ∀ i row row' e, m.interfaces.rows[i]? = some row →
    q.model.interfaces.rows[i]? = some row' → m.interfaces.entries[i]? = some e →
      ∀ a, Alike e row (if .interface i ∈ q.touched then e.restore b a row' else row')

/-- A row has an entry, and a row of the same number in any table over the entries. -/
theorem exists_row_of_entries {s s' : EthInterfaces} (h : s'.entries = s.entries) {i : Nat}
    {row : PortFull} (hrow : s.rows[i]? = some row) :
    (∃ e, s.entries[i]? = some e) ∧ ∃ row', s'.rows[i]? = some row' := by
  obtain ⟨hi,-⟩ := List.getElem?_eq_some_iff.mp hrow
  have hlen : s'.rows.length = s.rows.length := by rw [s'.length_eq,s.length_eq,h]
  exact ⟨⟨_,List.getElem?_eq_getElem (s.length_eq ▸ hi)⟩,
    ⟨_,List.getElem?_eq_getElem (hlen.symm ▸ hi)⟩⟩

theorem restored_iff_recoverable (b : InterfaceBuild) (m : DataModel) (q : Transaction) :
    Restored b m q ↔ Recoverable b m q := by
  constructor
  · intro h
    obtain ⟨hagent,hbridge,hentries⟩ := rollback_rest b (fun _ => allDone) q
    have hsame := h fun _ => allDone
    have hentries' : q.model.interfaces.entries = m.interfaces.entries :=
      hentries.symm.trans hsame.entries
    refine ⟨hagent ▸ hsame.ethernet,hbridge ▸ hsame.addToLanBridge,hentries',?_⟩
    intro i row row' e hrow hrow' he a
    have hsame := h fun _ => a
    exact (values_eq_iff_alike b hrow (rows_rollback hrow' (hentries' ▸ he)) he
      (hsame.entries ▸ he)).mp (hsame.values i)
  · intro h hal
    obtain ⟨hagent,hbridge,hentries⟩ := rollback_rest b hal q
    have hentries' := hentries.trans h.entries
    refine ⟨hagent ▸ h.ethernet,hbridge ▸ h.addToLanBridge,hentries',fun i => ?_⟩
    cases hrow : m.interfaces.rows[i]? with
    | none =>
      have hnone : (rollback b hal q).interfaces.rows[i]? = none := by
        cases hrow' : (rollback b hal q).interfaces.rows[i]? with
        | none => rfl
        | some row' =>
          obtain ⟨-,row,hsome⟩ := exists_row_of_entries hentries'.symm hrow'
          exact absurd hsome (by simp [hrow])
      intro a
      simp [EthInterfaces.values,hrow,hnone]
    | some row =>
      obtain ⟨⟨e,he⟩,row',hrow'⟩ := exists_row_of_entries h.entries hrow
      exact (values_eq_iff_alike b hrow (rows_rollback hrow' (h.entries ▸ he)) he
        (hentries' ▸ he)).mpr (h.rows i row row' e hrow hrow' he (hal i))

theorem setParam_entries (p : Platform) (b : InterfaceBuild) (m : DataModel) (v : ParamSet) :
    (setParam p b m v).interfaces.entries = m.interfaces.entries := by
  cases v with
  | rdkAddToLanBridge ins bValue added =>
    simp only [setParam,ethRdkInterfaceSetAddToLanBridge]
    repeat' split
    all_goals rfl
  | _ => rfl

/-- A Set of another row leaves a row of Interface as it is. -/
theorem setParam_rows_of_ne (p : Platform) (b : InterfaceBuild) (m : DataModel) {v : ParamSet}
    {i : Nat} (h : v.handle ≠ .interface i) :
    (setParam p b m v).interfaces.rows[i]? = m.interfaces.rows[i]? := by
  cases v with
  | interface j w =>
    have hij : j ≠ i := fun hji => h (hji ▸ rfl)
    simp [setParam,interfaceStep,EthInterfaces.modifyRow,hij]
  | rdkAddToLanBridge ins bValue added =>
    simp only [setParam,ethRdkInterfaceSetAddToLanBridge]
    repeat' split
    all_goals rfl
  | _ => rfl

/-- The step lemma: a transaction stays recoverable exactly through harmless Sets. -/
theorem recoverable_step_iff (p : Platform) (b : InterfaceBuild) {m : DataModel}
    {q : Transaction} (h : Recoverable b m q) (v : ParamSet) :
    Recoverable b m (setStep p b q v) ↔ Harmless p b q v := by
  have hrows : (∀ i row row' e, m.interfaces.rows[i]? = some row →
      (setParam p b q.model v).interfaces.rows[i]? = some row' →
      m.interfaces.entries[i]? = some e →
        ∀ a, Alike e row
          (if .interface i ∈ q.touched.insert v.handle then e.restore b a row' else row')) ↔
      ∀ i w row e, v = .interface i w → q.model.interfaces.rows[i]? = some row →
        q.model.interfaces.entries[i]? = some e →
          (RowHandle.interface i ∉ q.touched → InSync b row e) ∧ w.Keeps b e row := by
    constructor
    · rintro hall i w row' e rfl hrow' he
      obtain ⟨-,row,hrow⟩ := exists_row_of_entries h.entries.symm hrow'
      rw [h.entries] at he
      have hset : (setParam p b q.model (.interface i w)).interfaces.rows[i]? =
          some (interfaceSetParamValue b row' w).2 := by
        simp [setParam,interfaceStep,EthInterfaces.modifyRow,hrow']
      have hnew := hall i row _ e hrow hset he
      simp only [ParamSet.handle,List.mem_insert_self,if_true] at hnew
      rw [keeps_iff]
      exact (restore_step_iff (h.rows i row row' e hrow hrow' he)).mp hnew
    · intro hall i row row'' e hrow hrow'' he
      obtain ⟨-,row',hrow'⟩ := exists_row_of_entries h.entries hrow
      have hold := h.rows i row row' e hrow hrow' he
      by_cases hv : v.handle = .interface i
      · cases v with
        | interface j w =>
          obtain rfl := RowHandle.interface.inj hv
          have hset : (setParam p b q.model (.interface j w)).interfaces.rows[j]? =
              some (interfaceSetParamValue b row' w).2 := by
            simp [setParam,interfaceStep,EthInterfaces.modifyRow,hrow']
          obtain rfl := Option.some_inj.mp (hset.symm.trans hrow'')
          have hharmless := hall j w row' e rfl hrow' (h.entries ▸ he)
          rw [keeps_iff] at hharmless
          simp only [ParamSet.handle,List.mem_insert_self,if_true]
          exact (restore_step_iff hold).mpr hharmless
        | _ => exact absurd hv (by simp [ParamSet.handle])
      · rw [setParam_rows_of_ne p b q.model hv,hrow',Option.some_inj] at hrow''
        subst hrow''
        simpa [List.mem_insert_iff,Ne.symm hv] using hold
  unfold Harmless
  rw [findsValue_iff p b q.model v,← hrows]
  constructor
  · rintro ⟨hethernet,hbridge,-,hrest⟩
    exact ⟨⟨h.ethernet.congr_right.mpr hethernet,hbridge.trans h.addToLanBridge.symm⟩,hrest⟩
  · rintro ⟨⟨hethernet,hbridge⟩,hrest⟩
    exact ⟨h.ethernet.congr_right.mp hethernet,hbridge.trans h.addToLanBridge,
      (setParam_entries p b q.model v).trans h.entries,hrest⟩

/-- Whichever Validate fails, at any point of any sequence of Sets the Rollback of the
rows set so far restores everything, for every answer of the HAL to it, exactly as long
as all Sets were harmless. -/
theorem rollback_restores_iff (p : Platform) (b : InterfaceBuild) (m : DataModel)
    (sets : List ParamSet) :
    Always (setStep p b) (Restored b m) ⟨m,[]⟩ sets ↔
      Meets (setStep p b) (Harmless p b) ⟨m,[]⟩ sets := by
  have hinit : Recoverable b m ⟨m,[]⟩ := by
    refine ⟨SameEthernet.refl _,rfl,rfl,fun i row row' e hrow hrow' _ a => ?_⟩
    obtain rfl := Option.some_inj.mp (hrow.symm.trans hrow')
    simpa using (⟨rfl,rfl,rfl,fun _ => rfl⟩ : Alike e row row)
  exact always_iff_meets (J := Recoverable b m) hinit
    (fun q v hq hc => (recoverable_step_iff p b hq v).mpr hc)
    (fun q hq => (restored_iff_recoverable b m q).mpr hq)
    fun q v hq hnext =>
      (recoverable_step_iff p b hq v).mp ((restored_iff_recoverable b m _).mp hnext)

/-- Five ports of X_RDK_Interface, and two of Interface. -/
def fivePortsModel : DataModel := ⟨twoPorts ⟨false,false⟩,fivePortsAgent,fun _ => false⟩

/-- `Enable` of the fifth port, and an Alias that the second Interface row has. -/
def refusedSets : List ParamSet :=
  [.rdkBool 5 .enable true succeed,.interface 0 (.ifAlias "Interface2".toList)]

theorem rollback_leaves_enable :
    let q := exec (setStep fourPorts ⟨false,false⟩) ⟨fivePortsModel,[]⟩ refusedSets
    interfaceValidate q.model.interfaces 0 = false ∧
      ¬ SameData ⟨false,false⟩ (rollback ⟨false,false⟩ (fun _ => allDone) q) fivePortsModel := by
  refine ⟨by decide +kernel,fun h => ?_⟩
  have hread := congrArg (Option.map EthRow.enable) (h.ethernet.values 5)
  exact absurd hread (by decide +kernel)

end EthAgent
