import EthAgent.PortTable
import EthAgent.Lib.Runs

/-!
The rows `Q_EthList` of the data model beside the global port table:
`CosaDmlEthPortInit` fills both, `EthRdkInterface_AddEntry`, `_DelEntry` and
`_SetParamStringValue` change both, each with its own code.
-/

set_option autoImplicit false

namespace EthAgent
open CString Packed Runs

/-- `COSA_DML_ETH_PORT_CONFIG` of one row, with the instance number of its link. -/
structure EthRow where
  ulInstanceNumber : Nat
  name : Buf 64
  enable : Bool
  linkStatus : LinkStatus
  wanStatus : WanStatus
  upstream : Bool
  wanValidated : Bool
  lowerLayers : Buf 128
  deriving DecidableEq

/-- `DML_ETHIF_INIT`, with the texts that follow it. -/
def dmlEthifInit (ulInstanceNumber : Nat) (name : Buf 64) (lowerLayers : Buf 128) : EthRow where
  ulInstanceNumber := ulInstanceNumber
  name := name
  enable := false
  upstream := false
  wanStatus := .down
  linkStatus := .down
  wanValidated := false
  lowerLayers := lowerLayers

/-- The port data of `COSA_DATAMODEL_ETHERNET` and of the file-scope variables. -/
structure Ethernet where
  ports : PortTable
  ulPtNextInstanceNumber : Nat
  qEthList : List EthRow

/-- What `CosaDmlEthPortInit` meets: the answers of PSM and of
`GetEthPhyInterfaceName`, the same each time, and which allocations succeed. -/
structure PortConfig where
  cfgCount : Option Nat
  cfgName : Nat → Option (Buf 64)
  ethPhyInterfaceName : Nat → Option (Buf 64)
  rowAllocated : Nat → Bool
  tableAllocated : Bool

/-- The name of a port that PSM does not name. -/
def fallbackName (p : Platform) (c : PortConfig) (i : Nat) : Buf 64 :=
  match p.naming with
  | .intelPuma7 =>
    (c.ethPhyInterfaceName (i+1)).getD (Buf.store ("sw_".toList ++ intDecimal (i+1)))
  | _ => p.ifName i

def configuredName (p : Platform) (c : PortConfig) (i : Nat) : Buf 64 :=
  (c.cfgName (i+1)).getD (fallbackName p c i)

def initRow (p : Platform) (c : PortConfig) (i : Nat) : EthRow :=
  dmlEthifInit (i+1) (configuredName p c i)
    (Buf.store (ethernetIfLowerLayers ++ decimal (i+1)))

/-- The loop body of `CosDmlEthPortPrepareGlobalInfo`, over memory which
`AnscAllocateMemory` has cleared. -/
def initRecord (p : Platform) (c : PortConfig) (i : Nat) : PortRecord where
  upstream := false
  wanStatus := .down
  linkStatus := .down
  wanValidated := true
  name := (Chars.cleared 64).snprintf
    (match c.cfgName (i+1) with
      | some acPSMValue => p.format acPSMValue.text
      | none => (fallbackName p c i).text)
  path := (Chars.cleared 128).snprintf (ethernetIfPath ++ intDecimal (i+1))
  enable := false
  lowerLayers := (Chars.cleared 128).snprintf (ethernetIfLowerLayers ++ intDecimal (i+1))

def cosDmlEthPortPrepareGlobalInfo (p : Platform) (c : PortConfig) (t : PortTable) : PortTable :=
  if c.tableAllocated then
    { t with gpstEthGInfo := some ((List.range t.gTotal).map (initRecord p c)) }
  else { t with gpstEthGInfo := none }

def cosaSListPushEntryByInsNum (row : EthRow) : List EthRow → List EthRow
  | [] => [row]
  | r :: rows =>
    if row.ulInstanceNumber < r.ulInstanceNumber then row :: r :: rows
    else r :: cosaSListPushEntryByInsNum row rows

def pushInitRow (p : Platform) (c : PortConfig) (e : Ethernet) (i : Nat) : Ethernet :=
  { e with
    ulPtNextInstanceNumber := (i+1)+1
    qEthList := cosaSListPushEntryByInsNum (initRow p c i) e.qEthList }

/-- The number of ports: from PSM, else the initial value of `gTotal`. -/
def PortConfig.total (p : Platform) (c : PortConfig) : Nat :=
  c.cfgCount.getD p.totalNumberOfInternalInterfaces

def cosaDmlEthPortInit (p : Platform) (c : PortConfig) : Ethernet :=
  let iTotalInterfaces := c.total p
  let allocated := (List.range iTotalInterfaces).takeWhile c.rowAllocated
  let e := exec (pushInitRow p c) ⟨⟨none,iTotalInterfaces,iTotalInterfaces⟩,1,[]⟩ allocated
  if allocated.length = iTotalInterfaces then
    { e with ports := cosDmlEthPortPrepareGlobalInfo p c e.ports }
  else e

/-- The loop of `InitEthIfaceEntry` from a number on. More iterations than there
are rows are not made, unless all numbers of a `ULONG` are taken. -/
def freeInstance (p : Platform) (rows : List EthRow) : Nat → Nat → Option Nat
  | 0, _ => none
  | fuel+1, ulPtNextInstanceNumber =>
    let n := if ulPtNextInstanceNumber = 0 then 1 else ulPtNextInstanceNumber
    if rows.any fun r => r.ulInstanceNumber = n then
      freeInstance p rows fuel ((n+1)%2^p.ulongBits)
    else some n

def newRow (ulInstanceNumber : Nat) : EthRow :=
  dmlEthifInit ulInstanceNumber (Buf.store ("eth".toList ++ decimal (ulInstanceNumber-1)))
    (Buf.store (ethernetIfLowerLayers ++ decimal ulInstanceNumber))

def initEthIfaceEntry (p : Platform) (e : Ethernet) : Option (EthRow × Nat) :=
  (freeInstance p e.qEthList (e.qEthList.length+1) e.ulPtNextInstanceNumber).map fun n =>
    (newRow n,(n+1)%2^p.ulongBits)

/-- `EthRdkInterface_AddEntry`, which ignores the status of the update of the
global table. -/
def ethRdkInterfaceAddEntry (p : Platform) (allocated reallocated : Bool) (e : Ethernet) :
    Option Nat × Ethernet :=
  if allocated then
    match initEthIfaceEntry p e with
    | none => (none,e)
    | some (row,next) =>
      (some row.ulInstanceNumber,
        { ports := (cosDmlEthPortUpdateGlobalInfo p reallocated e.ports (some row.name.text)
            .ethAddTable).2
          ulPtNextInstanceNumber := next
          qEthList := cosaSListPushEntryByInsNum row e.qEthList })
  else (none,e)

def Ethernet.row (e : Ethernet) (ins : Nat) : Option EthRow :=
  e.qEthList.find? fun r => r.ulInstanceNumber = ins

def modifyRow (ins : Nat) (f : EthRow → EthRow) : List EthRow → List EthRow
  | [] => []
  | r :: rows => if r.ulInstanceNumber = ins then f r :: rows else r :: modifyRow ins f rows

def eraseRow (ins : Nat) (rows : List EthRow) : List EthRow :=
  rows.eraseP fun r => r.ulInstanceNumber = ins

def ethRdkInterfaceDelEntry (p : Platform) (reallocated : Bool) (e : Ethernet) (ins : Nat) :
    Bool × Ethernet :=
  match e.row ins with
  | none => (false,e)
  | some row =>
    if row.enable then (false,e)
    else
      let updated := cosDmlEthPortUpdateGlobalInfo p reallocated e.ports (some row.name.text)
        .ethDelTable
      if updated.1 then
        (true,{ e with ports := updated.2, qEthList := eraseRow ins e.qEthList })
      else (false,{ e with ports := updated.2 })

inductive StringParam where
  | name
  | lowerLayers

def ethRdkInterfaceSetParamStringValue (p : Platform) (e : Ethernet) (ins : Nat)
    (paramName : StringParam) (pString : Text) : Bool × Ethernet :=
  match e.row ins with
  | none => (false,e)
  | some row =>
    match paramName with
    | .name =>
      let set := cosaDmlEthPortSetName e.ports (some row.name.text) (some pString)
      if set.1 then
        if pString.length ≤ 63 then
          (true,{ e with
            ports := set.2
            qEthList := modifyRow ins (fun r => { r with name := Buf.store pString }) e.qEthList })
        else (false,{ e with ports := set.2 })
      else (false,e)
    | .lowerLayers =>
      let set := cosaDmlEthPortSetLowerLayers p e.ports (some row.name.text) (some pString)
      if set.1 then
        if pString.length < 127 then
          (true,{ e with
            ports := set.2
            qEthList :=
              modifyRow ins (fun r => { r with lowerLayers := Buf.store pString }) e.qEthList })
        else (false,{ e with ports := set.2 })
      else (false,e)

/-- The operations on the rows that reach the global table. -/
inductive RowOp where
  | addEntry (allocated reallocated : Bool)
  | delEntry (ins : Nat) (reallocated : Bool)
  | setString (ins : Nat) (paramName : StringParam) (pString : Text)

def rowOp (p : Platform) (e : Ethernet) : RowOp → Ethernet
  | .addEntry allocated reallocated => (ethRdkInterfaceAddEntry p allocated reallocated e).2
  | .delEntry ins reallocated => (ethRdkInterfaceDelEntry p reallocated e ins).2
  | .setString ins paramName pString =>
    (ethRdkInterfaceSetParamStringValue p e ins paramName pString).2

/-- A string parameter leaves the global table to one of its setters, at most. -/
theorem setString_ports (p : Platform) (e : Ethernet) (ins : Nat) (paramName : StringParam)
    (pString : Text) :
    let ports := (ethRdkInterfaceSetParamStringValue p e ins paramName pString).2.ports
    ports = e.ports ∨ ∃ ifname,
      ports = (cosaDmlEthPortSetName e.ports ifname (some pString)).2 ∨
        ports = (cosaDmlEthPortSetLowerLayers p e.ports ifname (some pString)).2 := by
  unfold ethRdkInterfaceSetParamStringValue
  cases e.row ins with
  | none => exact .inl rfl
  | some row =>
    cases paramName with
    | name =>
      dsimp only
      split
      · refine .inr ⟨some row.name.text,.inl ?_⟩
        split <;> rfl
      · exact .inl rfl
    | lowerLayers =>
      dsimp only
      split
      · refine .inr ⟨some row.name.text,.inr ?_⟩
        split <;> rfl
      · exact .inl rfl

/-- The new row comes to stand among the others, which keep their order. -/
theorem exists_pushEntry (row : EthRow) (rows : List EthRow) :
    ∃ l r, rows = l ++ r ∧ cosaSListPushEntryByInsNum row rows = l ++ row :: r := by
  induction rows with
  | nil => exact ⟨[],[],rfl,rfl⟩
  | cons r rows ih =>
    unfold cosaSListPushEntryByInsNum
    split
    · exact ⟨[],r :: rows,rfl,rfl⟩
    · obtain ⟨l,after,hrows,hpush⟩ := ih
      exact ⟨r :: l,after,by rw [hrows,List.cons_append],by rw [hpush,List.cons_append]⟩

theorem perm_pushEntry (row : EthRow) (rows : List EthRow) :
    (cosaSListPushEntryByInsNum row rows).Perm (row :: rows) := by
  obtain ⟨l,r,hrows,hpush⟩ := exists_pushEntry row rows
  rw [hpush,hrows]
  exact List.perm_middle

theorem freeInstance_fresh {p : Platform} {rows : List EthRow} {fuel start n : Nat}
    (h : freeInstance p rows fuel start = some n) :
    ∀ r ∈ rows, r.ulInstanceNumber ≠ n := by
  induction fuel generalizing start with
  | zero => simp [freeInstance] at h
  | succ fuel ih =>
    rw [freeInstance] at h
    generalize (if start = 0 then 1 else start) = number at h
    split at h
    · exact ih h
    · next hfree =>
      rw [Option.some_inj] at h
      rw [← h]
      simpa using hfree

/-- A row found by its instance number, with what changing and removing it make
of the list. -/
theorem row_split {e : Ethernet} {ins : Nat} {row : EthRow} (h : e.row ins = some row) :
    ∃ l r, e.qEthList = l ++ row :: r ∧ row.ulInstanceNumber = ins ∧
      (∀ f, modifyRow ins f e.qEthList = l ++ f row :: r) ∧ eraseRow ins e.qEthList = l ++ r := by
  obtain ⟨hrow,l,r,hsplit,hl⟩ := List.find?_eq_some_iff_append.mp h
  have hins : row.ulInstanceNumber = ins := by simpa using hrow
  have hl' : ∀ x ∈ l, x.ulInstanceNumber ≠ ins := by
    intro x hx
    simpa using hl x hx
  refine ⟨l,r,hsplit,hins,fun f => ?_,?_⟩
  · rw [hsplit]
    clear hsplit hl
    induction l with
    | nil => simp [modifyRow,hins]
    | cons x l ih =>
      have hx := hl' x (List.mem_cons_self)
      simp only [List.cons_append,modifyRow,hx,if_false]
      rw [ih fun y hy => hl' y (List.mem_cons_of_mem x hy)]
  · rw [hsplit,eraseRow,List.eraseP_append_right _ (by simpa using hl'),
      List.eraseP_cons_of_pos (by simpa using hins)]

theorem find_modifyRow {f : EthRow → EthRow}
    (hf : ∀ r, (f r).ulInstanceNumber = r.ulInstanceNumber) (rows : List EthRow)
    (ins ins' : Nat) :
    (modifyRow ins f rows).find? (fun r => r.ulInstanceNumber = ins') =
      if ins' = ins then (rows.find? fun r => r.ulInstanceNumber = ins').map f
      else rows.find? fun r => r.ulInstanceNumber = ins' := by
  induction rows with
  | nil => simp [modifyRow]
  | cons r rows ih =>
    by_cases hr : r.ulInstanceNumber = ins
    · by_cases hins : ins' = ins
      · simp [modifyRow,hr,hf,hins]
      · simp [modifyRow,hr,hf,hins,Ne.symm hins]
    · by_cases hr' : r.ulInstanceNumber = ins'
      · have hins : ins' ≠ ins := fun h => hr (hr'.trans h)
        simp [modifyRow,hr',hins]
      · simpa [modifyRow,hr,hr'] using ih

def rowNames (rows : List EthRow) : List Text := rows.map fun r => r.name.text

def recordNames (recs : List PortRecord) : List Text := recs.map fun r => r.name.text

theorem names_of_counted {t : PortTable} {recs : List PortRecord} (h : t = .ofRecords recs) :
    t.names = recordNames recs := by
  rw [h,PortTable.names_ofRecords]; rfl

theorem total_of_counted {t : PortTable} {recs : List PortRecord} (h : t = .ofRecords recs) :
    t.ulTotalNoofEthInterfaces = recs.length := by
  rw [h]; rfl

/-- The rows and the records name the same ports, each once. -/
structure SamePorts (e : Ethernet) (recs : List PortRecord) : Prop where
  counted : e.ports = .ofRecords recs
  perm : (rowNames e.qEthList).Perm (recordNames recs)
  nodup : (recordNames recs).Nodup

theorem SamePorts.names {e : Ethernet} {recs : List PortRecord} (h : SamePorts e recs) :
    e.ports.names = recordNames recs := names_of_counted h.counted

theorem SamePorts.copy_of_firstAt {e : Ethernet} {recs : List PortRecord} (h : SamePorts e recs)
    {x : Text} {i : Nat} (hfirst : FirstAt (recordNames recs) x i) {r : PortRecord}
    (hr : recs[i]? = some r) :
    cosaDmlEthPortGetCopyOfGlobalInfoForGivenIfName e.ports (some x) = some r := by
  rw [getCopy_of_index ((getIndexFromIfName_eq_some_iff _ _ _).mpr (h.names ▸ hfirst)),h.counted]
  exact hr

theorem recordNames_modify {recs : List PortRecord} {i : Nat} {f : PortRecord → PortRecord}
    (hf : ∀ r, (f r).name = r.name) : recordNames (recs.modify i f) = recordNames recs :=
  map_modify_of_eq (g := fun r : PortRecord => r.name.text)
    (fun r => congrArg Chars.text (hf r)) recs i

theorem recordNames_strncpy {recs : List PortRecord} {i : Nat} {r : PortRecord}
    (hr : recs[i]? = some r) (pString : Text) :
    recordNames (recs.modify i fun r => { r with name := r.name.strncpy pString }) =
      (recordNames recs).set i (r.name.strncpy pString).text :=
  map_modify_of_getElem? (g := fun r : PortRecord => r.name.text) hr

theorem recordNames_addedRecord (p : Platform) (recs : List PortRecord) :
    recordNames (recs ++ [addedRecord p recs]) =
      recordNames recs ++ [(p.ifName recs.length).text] := by
  have hfits : (p.ifName recs.length).text.length ≤ 63 :=
    Nat.le_of_lt_succ (p.ifName recs.length).fits
  have hname : (addedRecord p recs).name.text = (p.ifName recs.length).text :=
    (Chars.text_snprintf _ _).trans (List.take_of_length_le hfits)
  simp [recordNames,hname]

theorem recordNames_moved {recs : List PortRecord} {r memory : PortRecord} {i : Nat}
    (hm : recs[i]? = some memory) :
    recordNames (swapRemoveBy copyRecord (recs ++ [r]) i) =
      (recordNames recs).set i (memory.name.strncpy r.name.text).text := by
  rw [swapRemoveBy_concat]
  exact map_modify_of_getElem? (g := fun r : PortRecord => r.name.text) hm

theorem recordNames_swapRemoveBy {recs : List PortRecord} {i : Nat}
    (h : ∀ r ∈ recs.getLast?, ∀ memory ∈ recs[i]?, i+1 < recs.length →
      memory.name.Takes r.name.text) :
    recordNames (swapRemoveBy copyRecord recs i) = swapRemove (recordNames recs) i :=
  map_swapRemoveBy fun r hr memory hm hi => Chars.takes_iff.mpr (h r hr memory hm hi)

theorem getElem?_of_firstAt {recs : List PortRecord} {x : Text} {i : Nat}
    (h : FirstAt (recordNames recs) x i) : ∃ r, recs[i]? = some r ∧ r.name.text = x := by
  have hget := h.1
  rwa [recordNames,List.getElem?_map,Option.map_eq_some_iff] at hget

/-- What a rename that the table accepts does to a counted table. -/
theorem setName_cases (recs : List PortRecord) (ifname newIfname : Text) :
    (cosaDmlEthPortSetName (.ofRecords recs) (some ifname) (some newIfname) =
        (false,.ofRecords recs) ∧ (newIfname ∈ recordNames recs ∨ ifname ∉ recordNames recs)) ∨
      ∃ i, FirstAt (recordNames recs) ifname i ∧ newIfname ∉ recordNames recs ∧
        cosaDmlEthPortSetName (.ofRecords recs) (some ifname) (some newIfname) =
          (true,.ofRecords (recs.modify i fun r =>
            { r with name := r.name.strncpy newIfname })) := by
  have hnames := PortTable.names_ofRecords recs
  unfold cosaDmlEthPortSetName
  cases hnew : cosaDmlEthPortGetIndexFromIfName (.ofRecords recs) (some newIfname) with
  | some j =>
    have hj := (getIndexFromIfName_eq_some_iff _ _ _).mp hnew
    rw [hnames] at hj
    exact .inl ⟨by simp [hnew],.inl hj.mem⟩
  | none =>
    have hnot := (getIndexFromIfName_eq_none_iff _ _).mp hnew
    rw [hnames] at hnot
    cases hold : cosaDmlEthPortGetIndexFromIfName (.ofRecords recs) (some ifname) with
    | none =>
      have hno := (getIndexFromIfName_eq_none_iff _ _).mp hold
      rw [hnames] at hno
      exact .inl ⟨by simp [hnew],.inr hno⟩
    | some i =>
      have hi := (getIndexFromIfName_eq_some_iff _ _ _).mp hold
      rw [hnames] at hi
      have hlt : ¬ (PortTable.ofRecords recs).gTotal ≤ i := by
        have := hi.lt
        simp only [List.length_map] at this
        exact Nat.not_le.mpr this
      exact .inr ⟨i,hi,hnot,by simp [hnew,hlt,PortTable.modifyRecord_ofRecords]⟩

theorem setLowerLayers_cases (p : Platform) (recs : List PortRecord) (ifname lowerLayers : Text) :
    ∃ ok recs', cosaDmlEthPortSetLowerLayers p (.ofRecords recs) (some ifname)
        (some lowerLayers) = (ok,.ofRecords recs') ∧ recordNames recs' = recordNames recs := by
  unfold cosaDmlEthPortSetLowerLayers
  cases hi : cosaDmlEthPortGetIndexFromIfName (.ofRecords recs) (some ifname) with
  | none => exact ⟨false,recs,rfl,rfl⟩
  | some i =>
    by_cases hp : i < p.totalNumberOfInternalInterfaces
    · exact ⟨false,recs,by simp [hp],rfl⟩
    · exact ⟨true,recs.modify i fun r =>
          { r with lowerLayers := r.lowerLayers.strncpy lowerLayers },
        by simp [hp,PortTable.modifyRecord_ofRecords],recordNames_modify fun _ => rfl⟩

/-- The Names of the rows are those of `gpstEthGInfo[0..gTotal)`: each row's
occurs there exactly once, they are distinct, and none is without a row. -/
structure Correspond (e : Ethernet) : Prop where
  rows : ∀ r ∈ e.qEthList, e.ports.names.count r.name.text = 1
  distinct : e.ports.names.Nodup
  records : ∀ x ∈ e.ports.names, ∃ r ∈ e.qEthList, r.name.text = x

theorem SamePorts.correspond {e : Ethernet} {recs : List PortRecord} (h : SamePorts e recs) :
    Correspond e where
  rows := by
    intro r hr
    rw [h.names]
    have hmem : r.name.text ∈ rowNames e.qEthList := List.mem_map_of_mem hr
    exact List.count_eq_one_of_mem h.nodup (h.perm.mem_iff.mp hmem)
  distinct := by rw [h.names]; exact h.nodup
  records := by
    intro x hx
    rw [h.names] at hx
    exact List.mem_map.mp (h.perm.mem_iff.mpr hx)

theorem not_correspond_of_row {e : Ethernet} {r : EthRow} (hr : r ∈ e.qEthList)
    (hno : r.name.text ∉ e.ports.names) : ¬ Correspond e := by
  intro h
  have hone := h.rows r hr
  rw [List.count_eq_zero.mpr hno] at hone
  exact absurd hone (by decide)

/-- The step keeps the two lists of names together. -/
def KeepsNames (p : Platform) (e : Ethernet) : RowOp → Prop
  | .addEntry allocated reallocated =>
    allocated = true → ∀ row next, initEthIfaceEntry p e = some (row,next) →
      reallocated = true ∧ row.name = p.ifName e.ports.ulTotalNoofEthInterfaces ∧
        row.name.text ∉ e.ports.names
  | .delEntry ins reallocated =>
    ∀ row, e.row ins = some row → row.enable = false →
      ∀ i, cosaDmlEthPortGetIndexFromIfName e.ports (some row.name.text) = some i →
        p.totalNumberOfInternalInterfaces ≤ i → reallocated = true ∧
          ∀ r ∈ e.ports.records.getLast?, ∀ memory ∈ e.ports.records[i]?,
            i+1 < e.ports.records.length → memory.name.Takes r.name.text
  | .setString ins .name pString =>
    ∀ row, e.row ins = some row → pString ∉ e.ports.names →
      ∀ r ∈ cosaDmlEthPortGetCopyOfGlobalInfoForGivenIfName e.ports (some row.name.text),
        if pString.length ≤ 63 then r.name.Takes pString else pString.take 63 = row.name.text
  | .setString _ .lowerLayers _ => True

theorem SamePorts.addEntry {p : Platform} {e : Ethernet} {recs : List PortRecord}
    (h : SamePorts e recs) {allocated reallocated : Bool}
    (hc : KeepsNames p e (.addEntry allocated reallocated)) :
    ∃ recs', SamePorts (ethRdkInterfaceAddEntry p allocated reallocated e).2 recs' := by
  unfold ethRdkInterfaceAddEntry
  cases allocated with
  | false => exact ⟨recs,h⟩
  | true =>
    cases hinit : initEthIfaceEntry p e with
    | none => exact ⟨recs,by simpa [hinit] using h⟩
    | some q =>
      obtain ⟨row,next⟩ := q
      obtain ⟨rfl,hname,hnew⟩ := hc rfl row next hinit
      rw [h.names] at hnew
      rw [total_of_counted h.counted] at hname
      have hrec := recordNames_addedRecord p recs
      rw [← hname] at hrec
      refine ⟨recs ++ [addedRecord p recs],?_,?_,?_⟩
      · simp [h.counted,update_add]
      · have hpush : (rowNames (cosaSListPushEntryByInsNum row e.qEthList)).Perm
            (row.name.text :: rowNames e.qEthList) := (perm_pushEntry row _).map _
        rw [hrec]
        exact hpush.trans ((h.perm.cons _).trans (List.perm_append_singleton _ _).symm)
      · rw [hrec]
        exact List.nodup_append.mpr ⟨h.nodup,List.nodup_singleton _,
          fun x hx y hy hxy => hnew (by simp_all)⟩

theorem SamePorts.delEntry {p : Platform} {e : Ethernet} {recs : List PortRecord}
    (h : SamePorts e recs) {ins : Nat} {reallocated : Bool}
    (hc : KeepsNames p e (.delEntry ins reallocated)) :
    ∃ recs', SamePorts (ethRdkInterfaceDelEntry p reallocated e ins).2 recs' := by
  unfold ethRdkInterfaceDelEntry
  cases hrow : e.row ins with
  | none => exact ⟨recs,h⟩
  | some row =>
    cases hen : row.enable with
    | true => exact ⟨recs,by simpa [hen] using h⟩
    | false =>
      by_cases href : ∀ i, cosaDmlEthPortGetIndexFromIfName e.ports (some row.name.text) =
          some i → i < p.totalNumberOfInternalInterfaces
      · have heq := update_del_refused p reallocated href
        exact ⟨recs,by simpa [hen,heq] using h⟩
      · simp only [not_forall,Nat.not_lt] at href
        obtain ⟨i,hi,hp⟩ := href
        obtain ⟨hre,htakes⟩ := hc row hrow hen i hi hp
        subst hre
        rw [h.counted] at htakes
        have hmoved :
            recordNames (swapRemoveBy copyRecord recs i) = swapRemove (recordNames recs) i :=
          recordNames_swapRemoveBy htakes
        have hfirst := (getIndexFromIfName_eq_some_iff _ _ _).mp hi
        rw [h.names] at hfirst
        rw [h.counted] at hi
        obtain ⟨l,r,hsplit,-,-,herase⟩ := row_split hrow
        simp only [hen,h.counted,update_del p hi hp,herase]
        refine ⟨swapRemoveBy copyRecord recs i,rfl,?_,?_⟩
        · have hperm := h.perm.trans hfirst.perm_swapRemove
          have hrows : (rowNames e.qEthList).Perm (row.name.text :: rowNames (l ++ r)) := by
            rw [hsplit]
            exact List.perm_middle.map _
          rw [hmoved]
          exact (List.perm_cons _).mp (hrows.symm.trans hperm)
        · rw [hmoved]
          exact (List.nodup_cons.mp (hfirst.perm_swapRemove.nodup_iff.mp h.nodup)).2

theorem SamePorts.setName {p : Platform} {e : Ethernet} {recs : List PortRecord}
    (h : SamePorts e recs) {ins : Nat} {pString : Text}
    (hc : KeepsNames p e (.setString ins .name pString)) :
    ∃ recs', SamePorts (ethRdkInterfaceSetParamStringValue p e ins .name pString).2 recs' := by
  unfold ethRdkInterfaceSetParamStringValue
  cases hrow : e.row ins with
  | none => exact ⟨recs,h⟩
  | some row =>
    rcases setName_cases recs row.name.text pString with ⟨heq,-⟩ | ⟨i,hfirst,hnew,heq⟩
    · exact ⟨recs,by simpa [h.counted,heq] using h⟩
    · obtain ⟨l,r,hsplit,-,hmod,-⟩ := row_split hrow
      have hrows : (rowNames e.qEthList).Perm (row.name.text :: rowNames (l ++ r)) := by
        rw [hsplit]
        exact List.perm_middle.map _
      obtain ⟨record,hrecord,hname⟩ := getElem?_of_firstAt hfirst
      have hcopy := hc row hrow (h.names ▸ hnew) record (h.copy_of_firstAt hfirst hrecord)
      simp only [h.counted,heq]
      by_cases hlen : pString.length ≤ 63
      · rw [if_pos hlen] at hcopy
        obtain ⟨rest,hold,hset⟩ := exists_perm_set hfirst.1 pString
        have hstore : (Buf.store pString : Buf 64).text = pString :=
          Buf.store_text_of_lt (by omega)
        have hrest : (rowNames (l ++ r)).Perm rest :=
          (List.perm_cons _).mp (hrows.symm.trans (h.perm.trans hold))
        have hnames := recordNames_strncpy hrecord pString
        rw [Chars.takes_iff.mpr hcopy] at hnames
        simp only [hlen,if_true]
        refine ⟨_,rfl,?_,?_⟩
        · rw [hnames,hmod]
          have hmid : (rowNames (l ++ { row with name := Buf.store pString } :: r)).Perm
              (pString :: rowNames (l ++ r)) := by
            have hm : (rowNames (l ++ { row with name := Buf.store pString } :: r)).Perm
                (rowNames ({ row with name := Buf.store pString } :: (l ++ r))) :=
              List.perm_middle.map _
            rwa [rowNames,rowNames,List.map_cons,hstore] at hm
          exact hmid.trans ((hrest.cons _).trans hset.symm)
        · rw [hnames,hset.nodup_iff,List.nodup_cons]
          have hcons := List.nodup_cons.mp (hold.nodup_iff.mp h.nodup)
          exact ⟨fun hm => hnew (hold.mem_iff.mpr (List.mem_cons_of_mem _ hm)),hcons.2⟩
      · rw [if_neg hlen,← hname] at hcopy
        have hsame : recs.modify i (fun r => { r with name := r.name.strncpy pString }) = recs := by
          refine modify_eq_self_iff.mpr fun a ha => ?_
          obtain rfl := Option.some_inj.mp (hrecord.symm.trans ha)
          rw [Chars.strncpy_of_take hcopy]
        simp only [hlen,if_false,hsame]
        exact ⟨recs,rfl,h.perm,h.nodup⟩

theorem SamePorts.setLowerLayers {p : Platform} {e : Ethernet} {recs : List PortRecord}
    (h : SamePorts e recs) (ins : Nat) (pString : Text) :
    ∃ recs', SamePorts
      (ethRdkInterfaceSetParamStringValue p e ins .lowerLayers pString).2 recs' := by
  unfold ethRdkInterfaceSetParamStringValue
  cases hrow : e.row ins with
  | none => exact ⟨recs,h⟩
  | some row =>
    obtain ⟨ok,recs',heq,hnames⟩ := setLowerLayers_cases p recs row.name.text pString
    obtain ⟨l,r,hsplit,-,hmod,-⟩ := row_split hrow
    have hrows : rowNames (l ++ { row with lowerLayers := Buf.store pString } :: r) =
        rowNames e.qEthList := by
      rw [hsplit]; simp [rowNames]
    simp only [h.counted,heq]
    cases ok with
    | false => exact ⟨recs,by simpa using h⟩
    | true =>
      by_cases hlen : pString.length < 127
      · refine ⟨recs',?_,?_,?_⟩
        · simp [hlen]
        · simp only [hlen,if_true,hmod,hrows,hnames]; exact h.perm
        · rw [hnames]; exact h.nodup
      · refine ⟨recs',?_,?_,?_⟩
        · simp [hlen]
        · simp only [hlen,if_false,if_true,hnames]; exact h.perm
        · rw [hnames]; exact h.nodup

theorem exec_pushInitRow (p : Platform) (c : PortConfig) (e : Ethernet) (is : List Nat) :
    (exec (pushInitRow p c) e is).ports = e.ports ∧
      (exec (pushInitRow p c) e is).qEthList.Perm (is.map (initRow p c) ++ e.qEthList) := by
  induction is generalizing e with
  | nil => exact ⟨rfl,List.Perm.refl _⟩
  | cons i is ih =>
    obtain ⟨hports,hrows⟩ := ih (pushInitRow p c e i)
    refine ⟨hports,hrows.trans ?_⟩
    have hpush := (perm_pushEntry (initRow p c i) e.qEthList).append_left (is.map (initRow p c))
    exact hpush.trans List.perm_middle

/-- `CosaDmlEthPortInit` with every allocation made. -/
structure PortConfig.Allocates (p : Platform) (c : PortConfig) : Prop where
  rows : ∀ i, i < c.total p → c.rowAllocated i = true
  table : c.tableAllocated = true

theorem init_of_allocates {p : Platform} {c : PortConfig} (h : c.Allocates p) :
    (cosaDmlEthPortInit p c).ports =
        .ofRecords ((List.range (c.total p)).map (initRecord p c)) ∧
      (cosaDmlEthPortInit p c).qEthList.Perm
        ((List.range (c.total p)).map (initRow p c)) := by
  have hall : (List.range (c.total p)).takeWhile c.rowAllocated = List.range (c.total p) :=
    List.takeWhile_eq_self_iff.mpr fun i hi => h.rows i (List.mem_range.mp hi)
  obtain ⟨hports,hrows⟩ := exec_pushInitRow p c ⟨⟨none,c.total p,c.total p⟩,1,[]⟩
    (List.range (c.total p))
  simp only [cosaDmlEthPortInit,hall,List.length_range,if_true]
  refine ⟨?_,by simpa using hrows⟩
  rw [hports]
  simp [cosDmlEthPortPrepareGlobalInfo,h.table,PortTable.ofRecords]

/-- A configuration whose names are distinct and hold no conversion. -/
structure PortConfig.Named (p : Platform) (c : PortConfig) : Prop where
  distinct : ∀ i, i < c.total p → ∀ j, j < c.total p →
    configuredName p c i = configuredName p c j → i = j
  plain : ∀ i, i < c.total p → ∀ t ∈ c.cfgName (i+1), '%' ∉ t.text

theorem initRecord_name {p : Platform} {c : PortConfig} {i : Nat}
    (h : ∀ t ∈ c.cfgName (i+1), '%' ∉ t.text) :
    (initRecord p c i).name.text = (configuredName p c i).text := by
  rw [initRecord,Chars.text_snprintf,configuredName]
  cases hc : c.cfgName (i+1) with
  | none => exact List.take_of_length_le (Nat.le_of_lt_succ (fallbackName p c i).fits)
  | some t =>
    have hformat : p.format t.text = t.text := if_neg (h t hc)
    simp only [hformat]
    exact List.take_of_length_le (Nat.le_of_lt_succ t.fits)

theorem samePorts_init {p : Platform} {c : PortConfig} (ha : c.Allocates p) (hn : c.Named p) :
    SamePorts (cosaDmlEthPortInit p c) ((List.range (c.total p)).map (initRecord p c)) := by
  obtain ⟨hports,hrows⟩ := init_of_allocates ha
  have hnames : recordNames ((List.range (c.total p)).map (initRecord p c)) =
      (List.range (c.total p)).map fun i => (configuredName p c i).text := by
    rw [recordNames,List.map_map]
    refine List.map_congr_left fun i hi => ?_
    exact initRecord_name (hn.plain i (List.mem_range.mp hi))
  refine ⟨hports,?_,?_⟩
  · rw [hnames]
    have hmap := hrows.map fun r : EthRow => r.name.text
    rwa [List.map_map] at hmap
  · rw [hnames]
    refine List.Nodup.map_on (fun i hi j hj hij => ?_) List.nodup_range
    exact hn.distinct i (List.mem_range.mp hi) j (List.mem_range.mp hj) (Buf.ext_text hij)

theorem SamePorts.rowOp {p : Platform} {e : Ethernet} {recs : List PortRecord}
    (h : SamePorts e recs) {op : RowOp} (hc : KeepsNames p e op) :
    ∃ recs', SamePorts (rowOp p e op) recs' := by
  cases op with
  | addEntry allocated reallocated => exact h.addEntry hc
  | delEntry ins reallocated => exact h.delEntry hc
  | setString ins paramName pString =>
    cases paramName with
    | name => exact h.setName hc
    | lowerLayers => exact h.setLowerLayers ins pString

theorem SamePorts.keeps_of_addEntry {p : Platform} {e : Ethernet} {recs : List PortRecord}
    (h : SamePorts e recs) {allocated reallocated : Bool}
    (hafter : Correspond (ethRdkInterfaceAddEntry p allocated reallocated e).2) :
    KeepsNames p e (.addEntry allocated reallocated) := by
  intro ha row next hinit
  subst ha
  have hul := total_of_counted h.counted
  have hrow : row ∈ cosaSListPushEntryByInsNum row e.qEthList :=
    (perm_pushEntry row e.qEthList).mem_iff.mpr List.mem_cons_self
  simp only [ethRdkInterfaceAddEntry,hinit,if_true] at hafter
  cases reallocated with
  | false =>
    exact absurd hafter (not_correspond_of_row hrow (by
      simp [cosDmlEthPortUpdateGlobalInfo,PortTable.names,PortTable.records]))
  | true =>
    rw [h.counted,update_add] at hafter
    have hnames := (names_of_counted rfl).trans (recordNames_addedRecord p recs)
    have hdistinct := hafter.distinct
    rw [hnames] at hdistinct
    have hnot : (p.ifName recs.length).text ∉ recordNames recs := fun hm =>
      (List.nodup_append.mp hdistinct).2.2 _ hm _ (List.mem_singleton_self _) rfl
    obtain ⟨r,hr,hrx⟩ := hafter.records (p.ifName recs.length).text (by
      rw [hnames]; exact List.mem_append_right _ (List.mem_singleton_self _))
    rcases List.mem_cons.mp ((perm_pushEntry row e.qEthList).mem_iff.mp hr) with rfl | hold
    · rw [hul,h.names,hrx]
      exact ⟨rfl,Buf.ext_text hrx,hnot⟩
    · have hmem : r.name.text ∈ rowNames e.qEthList := List.mem_map_of_mem hold
      rw [hrx] at hmem
      exact absurd (h.perm.mem_iff.mp hmem) hnot

theorem SamePorts.takes_of_delEntry {e : Ethernet} {recs : List PortRecord}
    (h : SamePorts e recs) {ins : Nat} {row : EthRow} (hrow : e.row ins = some row) {i : Nat}
    (hfirst : FirstAt (recordNames recs) row.name.text i) {e' : Ethernet}
    (hports : e'.ports = .ofRecords (swapRemoveBy copyRecord recs i))
    (hrows : e'.qEthList = eraseRow ins e.qEthList) (hafter : Correspond e')
    {r memory : PortRecord} (hr : r ∈ recs.getLast?) (hm : memory ∈ recs[i]?)
    (hlt : i+1 < recs.length) : memory.name.Takes r.name.text := by
  by_contra hnot
  obtain ⟨before,rfl⟩ := List.getLast?_eq_some_iff.mp hr
  rw [List.length_append,List.length_singleton] at hlt
  rw [Option.mem_def,List.getElem?_append_left (by omega)] at hm
  have hnames : recordNames (before ++ [r]) = recordNames before ++ [r.name.text] := by
    simp [recordNames]
  have hlast : r.name.text ∉ recordNames before := by
    have hnodup := h.nodup
    rw [hnames] at hnodup
    exact fun hmem => (List.nodup_append.mp hnodup).2.2 _ hmem _ (List.mem_singleton_self _) rfl
  have hmemory : row.name.text ∈ recordNames before := by
    have hget := hfirst.1
    rw [hnames,List.getElem?_append_left (by simp [recordNames]; omega)] at hget
    exact List.mem_of_getElem? hget
  obtain ⟨r',hr',hname⟩ : ∃ r' ∈ e.qEthList, r'.name.text = r.name.text := by
    refine List.mem_map.mp (h.perm.mem_iff.mpr ?_)
    rw [hnames]
    exact List.mem_append_right _ (List.mem_singleton_self _)
  have hkept : r' ∈ e'.qEthList := by
    obtain ⟨l,after,hsplit,-,-,herase⟩ := row_split hrow
    rw [hrows,herase]
    rw [hsplit,List.mem_append,List.mem_cons] at hr'
    rcases hr' with hl | rfl | hl
    · exact List.mem_append_left _ hl
    · exact absurd (hname ▸ hmemory) hlast
    · exact List.mem_append_right _ hl
  refine not_correspond_of_row hkept ?_ hafter
  rw [names_of_counted hports,recordNames_moved hm,hname]
  intro hmem
  rcases List.mem_or_eq_of_mem_set hmem with hold | heq
  · exact hlast hold
  · exact hnot (Chars.takes_iff.mp heq.symm)

theorem SamePorts.keeps_of_delEntry {p : Platform} {e : Ethernet} {recs : List PortRecord}
    (h : SamePorts e recs) {ins : Nat} {reallocated : Bool}
    (hafter : Correspond (ethRdkInterfaceDelEntry p reallocated e ins).2) :
    KeepsNames p e (.delEntry ins reallocated) := by
  intro row hrow hen i hi hp
  cases reallocated with
  | true =>
    have hfirst := (getIndexFromIfName_eq_some_iff _ _ _).mp hi
    rw [h.names] at hfirst
    rw [h.counted] at hi ⊢
    have hdel : ethRdkInterfaceDelEntry p true e ins =
        (true,{ e with
          ports := .ofRecords (swapRemoveBy copyRecord recs i)
          qEthList := eraseRow ins e.qEthList }) := by
      simp [ethRdkInterfaceDelEntry,hrow,hen,h.counted,update_del p hi hp]
    rw [hdel] at hafter
    exact ⟨rfl,fun r hr memory hm hlt =>
      h.takes_of_delEntry hrow hfirst rfl rfl hafter hr hm hlt⟩
  | false =>
    have hmem : row ∈ e.qEthList := List.mem_of_find?_eq_some hrow
    have hlt : ¬ i < p.totalNumberOfInternalInterfaces := by omega
    have hfail : ∃ t, cosDmlEthPortUpdateGlobalInfo p false e.ports (some row.name.text)
        .ethDelTable = (false,t) ∧ t.names = [] := by
      simp only [cosDmlEthPortUpdateGlobalInfo,hi,hlt,if_false,Bool.false_eq_true]
      split <;> exact ⟨_,rfl,by simp [PortTable.names,PortTable.records]⟩
    obtain ⟨t,heq,hno⟩ := hfail
    simp only [ethRdkInterfaceDelEntry,hrow,hen,heq,Bool.false_eq_true,if_false] at hafter
    exact absurd hafter (not_correspond_of_row hmem (by simp [hno]))

theorem SamePorts.keeps_of_setName {p : Platform} {e : Ethernet} {recs : List PortRecord}
    (h : SamePorts e recs) {ins : Nat} {pString : Text}
    (hafter : Correspond (ethRdkInterfaceSetParamStringValue p e ins .name pString).2) :
    KeepsNames p e (.setString ins .name pString) := by
  intro row hrow hnew record hcopy
  rw [h.names] at hnew
  have hmem : row ∈ e.qEthList := List.mem_of_find?_eq_some hrow
  have hin : row.name.text ∈ recordNames recs :=
    h.perm.mem_iff.mp (List.mem_map_of_mem hmem)
  rcases setName_cases recs row.name.text pString with ⟨-,hno | hno⟩ | ⟨i,hfirst,-,heq⟩
  · exact absurd hno hnew
  · exact absurd hin hno
  · obtain ⟨r,hrecord,-⟩ := getElem?_of_firstAt hfirst
    obtain rfl := Option.some_inj.mp ((h.copy_of_firstAt hfirst hrecord).symm.trans hcopy)
    have hset := (names_of_counted rfl).trans (recordNames_strncpy hrecord pString)
    obtain ⟨rest,hold,hperm⟩ := exists_perm_set hfirst.1 (r.name.strncpy pString).text
    simp only [ethRdkInterfaceSetParamStringValue,hrow,h.counted,heq,if_true] at hafter
    by_contra hcond
    by_cases hlen : pString.length ≤ 63
    · rw [if_pos hlen,← Chars.takes_iff] at hcond
      rw [if_pos hlen] at hafter
      obtain ⟨l,after,-,-,hmod,-⟩ := row_split hrow
      have hstore : (Buf.store pString : Buf 64).text = pString :=
        Buf.store_text_of_lt (by omega)
      refine not_correspond_of_row (r := { row with name := Buf.store pString }) ?_ ?_ hafter
      · rw [hmod]
        exact List.mem_append_right _ List.mem_cons_self
      · rw [hset,hperm.mem_iff,List.mem_cons,not_or,hstore]
        exact ⟨Ne.symm hcond,fun hm => hnew (hold.mem_iff.mpr (List.mem_cons_of_mem _ hm))⟩
    · rw [if_neg hlen] at hcond
      rw [if_neg hlen] at hafter
      refine absurd hafter (not_correspond_of_row hmem ?_)
      rw [hset,hperm.mem_iff,List.mem_cons,not_or]
      refine ⟨fun hsame => hcond ?_,(List.nodup_cons.mp (hold.nodup_iff.mp h.nodup)).1⟩
      have htake := (r.name.strncpy pString).take_text
      rw [← hsame,List.take_of_length_le (Nat.le_of_lt_succ row.name.fits)] at htake
      exact htake.symm

theorem SamePorts.keeps_of_correspond {p : Platform} {e : Ethernet} {recs : List PortRecord}
    (h : SamePorts e recs) {op : RowOp} (hafter : Correspond (EthAgent.rowOp p e op)) :
    KeepsNames p e op := by
  cases op with
  | addEntry allocated reallocated => exact h.keeps_of_addEntry hafter
  | delEntry ins reallocated => exact h.keeps_of_delEntry hafter
  | setString ins paramName pString =>
    cases paramName with
    | name => exact h.keeps_of_setName hafter
    | lowerLayers => trivial

/-- Along a run, rows and records name the same ports exactly as long as every
step names alike what it adds, frees or renames. -/
theorem rows_correspond_iff {p : Platform} {c : PortConfig} (ha : c.Allocates p)
    (hn : c.Named p) (ops : List RowOp) :
    Always (rowOp p) Correspond (cosaDmlEthPortInit p c) ops ↔
      Meets (rowOp p) (KeepsNames p) (cosaDmlEthPortInit p c) ops :=
  always_iff_meets (J := fun e => ∃ recs, SamePorts e recs) ⟨_,samePorts_init ha hn⟩
    (fun _ _ ⟨_,h⟩ hc => h.rowOp hc) (fun _ ⟨_,h⟩ => h.correspond)
    (fun _ _ ⟨_,h⟩ hafter => h.keeps_of_correspond hafter)

/-- Memory that was in use before: the last bytes of its texts are not NUL. -/
def usedMemory : PortRecord :=
  ⟨false,⟨[],'~',by decide⟩,false,.down,.down,false,⟨[],'~',by decide⟩,⟨[],'~',by decide⟩⟩

/-- Four internal ports on a platform of 32 bits, and no answer from PSM. -/
def fourPorts : Platform := ⟨4,.other,32,fun _ _ => usedMemory,usedMemory,id⟩
def unconfigured : PortConfig := ⟨none,fun _ => none,fun _ => none,fun _ => true,true⟩

theorem unconfigured_allocates : unconfigured.Allocates fourPorts := ⟨fun _ _ => rfl,rfl⟩

theorem unconfigured_named : unconfigured.Named fourPorts :=
  ⟨by decide,fun _ _ t ht => absurd ht (by simp [unconfigured])⟩

theorem rows_correspond_iff_four_ports :
    Always (rowOp fourPorts) Correspond (cosaDmlEthPortInit fourPorts unconfigured)
        [.addEntry true true,.setString 5 .name "wan0".toList,.delEntry 5 true] ↔
      Meets (rowOp fourPorts) (KeepsNames fourPorts)
        (cosaDmlEthPortInit fourPorts unconfigured)
        [.addEntry true true,.setString 5 .name "wan0".toList,.delEntry 5 true] :=
  rows_correspond_iff unconfigured_allocates unconfigured_named _

/-- The row that follows a deletion in the middle is `eth6`, its record a second
`eth5`. -/
theorem added_record_repeats_name :
    ¬ Correspond (exec (rowOp fourPorts) (cosaDmlEthPortInit fourPorts unconfigured)
      [.addEntry true true,.addEntry true true,.delEntry 5 true,.addEntry true true]) := by
  intro h
  exact absurd h.distinct (by decide +kernel)

theorem lastBytes_init (p : Platform) (c : PortConfig) :
    LastBytes (c.total p) ((List.range (c.total p)).map (initRecord p c)) := by
  refine ⟨by simp,fun i r _ hr => ?_,fun i r hi hr => ?_⟩
  · obtain ⟨j,-,rfl⟩ := List.mem_map.mp (List.mem_of_getElem? hr)
    exact ⟨Chars.last_snprintf rfl,Chars.last_snprintf rfl,Chars.last_snprintf rfl⟩
  · rw [List.getElem?_eq_none (by simpa using hi)] at hr
    exact absurd hr (by simp)

/-- The states of the port table reachable by additions and deletions alone,
from `CosaDmlEthPortInit` on. -/
theorem port_table_reachable {p : Platform} {c : PortConfig} (ha : c.Allocates p)
    (ops : List (Option Text × TableOper)) :
    KeepsRecords p (exec (updatePorts p) (cosaDmlEthPortInit p c).ports ops) := by
  obtain ⟨recs,hrecs,-⟩ := exec_updatePorts p ((List.range (c.total p)).map (initRecord p c)) ops
  obtain ⟨n,hlast⟩ := exec_lastBytes p (lastBytes_init p c) hrecs
  rw [(init_of_allocates ha).1,hrecs]
  exact keepsRecords_ofRecords p hlast

theorem port_table_reachable_four_ports :
    KeepsRecords fourPorts (exec (updatePorts fourPorts)
      (cosaDmlEthPortInit fourPorts unconfigured).ports
      [(some "usb0".toList,.ethAddTable),(some "eth4".toList,.ethDelTable),
        (none,.ethDelTable)]) :=
  port_table_reachable unconfigured_allocates _

end EthAgent
