import EthAgent.Lib.CString
import EthAgent.Lib.Packed
import EthAgent.Lib.Runs

/-!
The table `gpstEthGInfo` of Ethernet ports with its two counters, as the
WAN_MANAGER build of cosa_ethernet_apis.c keeps it. Ports are found by name;
a deleted record in the middle gives its place to the last one.
-/

set_option autoImplicit false

namespace EthAgent
open CString Packed Runs

/-- `COSA_DML_ETH_LINK_STATUS`. -/
inductive LinkStatus where
  | up
  | down
  deriving DecidableEq, Repr

/-- `COSA_DML_ETH_WAN_STATUS`. -/
inductive WanStatus where
  | up
  | down
  deriving DecidableEq, Repr

instance nameSize : NeZero 64 := ⟨by decide⟩
instance pathSize : NeZero 128 := ⟨by decide⟩

/-- `COSA_DML_ETH_PORT_GLOBAL_CONFIG`. Behind `Name` stands `Enable`, which nothing
sets: a Name without a NUL ends there. -/
structure PortRecord where
  upstream : Bool
  name : Chars 64
  enable : Bool
  linkStatus : LinkStatus
  wanStatus : WanStatus
  wanValidated : Bool
  path : Chars 128
  lowerLayers : Chars 128
  deriving DecidableEq

/-- The values of the fields, the texts without the bytes behind them. -/
structure PortFields where
  upstream : Bool
  name : Text
  enable : Bool
  linkStatus : LinkStatus
  wanStatus : WanStatus
  wanValidated : Bool
  path : Text
  lowerLayers : Text
  deriving DecidableEq

def PortRecord.fields (r : PortRecord) : PortFields where
  upstream := r.upstream
  name := r.name.text
  enable := r.enable
  linkStatus := r.linkStatus
  wanStatus := r.wanStatus
  wanValidated := r.wanValidated
  path := r.path.text
  lowerLayers := r.lowerLayers.text

/-- The macros of the platform that choose the names of unconfigured ports. -/
inductive PortNaming where
  | intelPuma7
  | bananaPiR4
  | other
  deriving DecidableEq

/-- What the build and the C library bring along: the size of `ULONG`, what the
memory behind the old records holds when they are reallocated, and the stack, and
what `snprintf` makes of a format with conversions for which it gets no arguments. -/
structure Platform where
  totalNumberOfInternalInterfaces : Nat
  naming : PortNaming
  ulongBits : Nat
  freshMemory : List PortRecord → Nat → PortRecord
  stackMemory : PortRecord
  unmatchedFormat : Text → Text

def ethernetIfPath : Text := "Device.Ethernet.X_RDK_Interface.".toList
def ethernetIfLowerLayers : Text := "Device.Ethernet.X_RDK_Interface.".toList

def Platform.ifPrefix (p : Platform) : Text :=
  match p.naming with
  | .bananaPiR4 => "lan".toList
  | _ => "eth".toList

def Platform.ifName (p : Platform) (i : Nat) : Buf 64 :=
  Buf.store (p.ifPrefix ++ intDecimal i)

def Platform.format (p : Platform) (t : Text) : Text :=
  if '%' ∈ t then p.unmatchedFormat t else t

structure PortTable where
  gpstEthGInfo : Option (List PortRecord)
  gTotal : Nat
  ulTotalNoofEthInterfaces : Nat

def PortTable.records (t : PortTable) : List PortRecord := t.gpstEthGInfo.getD []

/-- The Names of `gpstEthGInfo[0..gTotal)`. -/
def PortTable.names (t : PortTable) : List Text :=
  (t.records.take t.gTotal).map fun r => r.name.text

def PortTable.modifyRecord (t : PortTable) (i : Nat) (f : PortRecord → PortRecord) :
    PortTable :=
  { t with gpstEthGInfo := t.gpstEthGInfo.map fun recs => recs.modify i f }

/-- `CosaDmlEthPortGetIndexFromIfName`; `none` is `ANSC_STATUS_FAILURE`. The loop goes
on to `gTotal`: what it does behind the records is left out here, see `Leaves`. -/
def cosaDmlEthPortGetIndexFromIfName (t : PortTable) : Option Text → Option Nat
  | none => none
  | some ifname =>
    match t.gpstEthGInfo with
    | none => none
    | some recs => (recs.take t.gTotal).findIdx? fun r => r.name.text = ifname

/-- The loop of the lookup comes to the end of the records before that of the count. -/
def PortTable.Leaves (t : PortTable) (ifname : Text) : Prop :=
  t.gpstEthGInfo.isSome = true ∧ t.records.length < t.gTotal ∧ ifname ∉ t.names

instance (t : PortTable) (ifname : Text) : Decidable (t.Leaves ifname) :=
  inferInstanceAs (Decidable (_ ∧ _))

theorem not_leaves_iff (t : PortTable) (x : Text) :
    ¬t.Leaves x ↔ (x ∉ t.names → ∀ recs, t.gpstEthGInfo = some recs →
      t.gTotal ≤ recs.length) := by
  unfold PortTable.Leaves PortTable.records
  cases t.gpstEthGInfo with
  | none => simp
  | some recs =>
    simp only [Option.isSome_some,Option.getD_some,Option.some_inj,true_and,not_and,not_not,
      forall_eq']
    rw [← not_imp_not,not_lt]

def cosaDmlEthPortGetCopyOfGlobalInfoForGivenIfName (t : PortTable) (ifname : Option Text) :
    Option PortRecord :=
  (cosaDmlEthPortGetIndexFromIfName t ifname).bind fun i => t.records[i]?

def cosaDmlEthPortSetWanStatus (t : PortTable) (ifname : Option Text) (wanStatus : WanStatus) :
    Bool × PortTable :=
  match cosaDmlEthPortGetIndexFromIfName t ifname with
  | none => (false,t)
  | some i => (true,t.modifyRecord i fun r => { r with wanStatus := wanStatus })

def cosaDmlEthPortSetLowerLayers (p : Platform) (t : PortTable)
    (ifname newLowerLayers : Option Text) : Bool × PortTable :=
  match newLowerLayers with
  | none => (false,t)
  | some lowerLayers =>
    match cosaDmlEthPortGetIndexFromIfName t ifname with
    | none => (false,t)
    | some i =>
      if i < p.totalNumberOfInternalInterfaces then (false,t)
      else
        (true,t.modifyRecord i fun r =>
          { r with lowerLayers := r.lowerLayers.strncpy lowerLayers })

/-- `CosaDmlEthPortSetName`: refused when the new name is in the table. -/
def cosaDmlEthPortSetName (t : PortTable) (ifname newIfname : Option Text) :
    Bool × PortTable :=
  match newIfname with
  | none => (false,t)
  | some newName =>
    if (cosaDmlEthPortGetIndexFromIfName t (some newName)).isSome then (false,t)
    else
      match cosaDmlEthPortGetIndexFromIfName t ifname with
      | none => (false,t)
      | some i =>
        if t.gTotal ≤ i then (false,t)
        else (true,t.modifyRecord i fun r => { r with name := r.name.strncpy newName })

/-- `AnscReAllocateMemory` to the size of `n` records. -/
def reallocate (p : Platform) (gpstEthGInfo : Option (List PortRecord)) (n : Nat) :
    List PortRecord :=
  let old := gpstEthGInfo.getD []
  (List.range n).map fun i => old[i]?.getD (p.freshMemory old i)

/-- What a new record makes of the memory at its index, whatever name it was asked for. -/
def newRecord (p : Platform) (newIndex : Nat) (memory : PortRecord) : PortRecord where
  upstream := false
  wanStatus := .down
  linkStatus := .down
  wanValidated := true
  enable := false
  name := memory.name.snprintf (p.ifName newIndex).text
  path := memory.path.snprintf (ethernetIfPath ++ intDecimal (newIndex+1))
  lowerLayers := memory.lowerLayers.snprintf (ethernetIfLowerLayers ++ intDecimal (newIndex+1))

def copyRecord (r memory : PortRecord) : PortRecord where
  upstream := r.upstream
  wanStatus := r.wanStatus
  linkStatus := r.linkStatus
  wanValidated := r.wanValidated
  enable := r.enable
  name := memory.name.strncpy r.name.text
  path := memory.path.strncpy r.path.text
  lowerLayers := memory.lowerLayers.strncpy r.lowerLayers.text

/-- `COSA_DML_ETH_TABLE_OPER`. -/
inductive TableOper where
  | ethAddTable
  | ethDelTable
  deriving DecidableEq

/-- `CosDmlEthPortUpdateGlobalInfo`; `reallocated` says whether the reallocation
succeeds. The first component is the status returned. -/
def cosDmlEthPortUpdateGlobalInfo (p : Platform) (reallocated : Bool) (t : PortTable)
    (ifname : Option Text) (oper : TableOper) : Bool × PortTable :=
  match ifname with
  | none => (false,t)
  | some ifname =>
    match oper with
    | .ethAddTable =>
      let iTotal := t.ulTotalNoofEthInterfaces+1
      let newIndex := iTotal-1
      if reallocated then
        (true,⟨some ((reallocate p t.gpstEthGInfo iTotal).modify newIndex
          (newRecord p newIndex)),t.gTotal+1,iTotal⟩)
      else (false,⟨none,t.gTotal,iTotal⟩)
    | .ethDelTable =>
      match cosaDmlEthPortGetIndexFromIfName t (some ifname) with
      | none => (false,t)
      | some ifIndex =>
        if ifIndex < p.totalNumberOfInternalInterfaces then (false,t)
        else
          let iTotal := t.ulTotalNoofEthInterfaces-1
          if ifIndex+1 = t.ulTotalNoofEthInterfaces then
            if reallocated then
              (true,⟨some (reallocate p t.gpstEthGInfo iTotal),t.gTotal-1,iTotal⟩)
            else (false,⟨none,t.gTotal,iTotal⟩)
          else
            let lastIndex := t.ulTotalNoofEthInterfaces-1
            let tmpEthGInfo := copyRecord
              (t.records[lastIndex]?.getD (p.freshMemory t.records lastIndex)) p.stackMemory
            if reallocated then
              (true,⟨some ((reallocate p t.gpstEthGInfo iTotal).modify ifIndex
                (copyRecord tmpEthGInfo)),t.gTotal-1,iTotal⟩)
            else (false,⟨none,t.gTotal,iTotal⟩)

/-- A table whose counters both count the allocated records. -/
def PortTable.ofRecords (recs : List PortRecord) : PortTable :=
  ⟨some recs,recs.length,recs.length⟩

@[simp] theorem PortTable.records_ofRecords (recs : List PortRecord) :
    (ofRecords recs).records = recs := rfl

@[simp] theorem PortTable.names_ofRecords (recs : List PortRecord) :
    (ofRecords recs).names = recs.map fun r => r.name.text := by
  simp [names,ofRecords,records]

theorem PortTable.modifyRecord_ofRecords (recs : List PortRecord) (i : Nat)
    (f : PortRecord → PortRecord) :
    (ofRecords recs).modifyRecord i f = ofRecords (recs.modify i f) := by
  simp [modifyRecord,ofRecords]

theorem setName_table (t : PortTable) (ifname newIfname : Option Text) :
    (cosaDmlEthPortSetName t ifname newIfname).2 = t ∨ ∃ i newName,
      (cosaDmlEthPortSetName t ifname newIfname).2 =
        t.modifyRecord i fun r => { r with name := r.name.strncpy newName } := by
  unfold cosaDmlEthPortSetName
  cases newIfname with
  | none => exact .inl rfl
  | some newName =>
    dsimp only
    split
    · exact .inl rfl
    · cases cosaDmlEthPortGetIndexFromIfName t ifname with
      | none => exact .inl rfl
      | some i =>
        dsimp only
        split
        · exact .inl rfl
        · exact .inr ⟨i,_,rfl⟩

theorem setLowerLayers_table (p : Platform) (t : PortTable)
    (ifname newLowerLayers : Option Text) :
    (cosaDmlEthPortSetLowerLayers p t ifname newLowerLayers).2 = t ∨ ∃ i lowerLayers,
      (cosaDmlEthPortSetLowerLayers p t ifname newLowerLayers).2 =
        t.modifyRecord i fun r =>
          { r with lowerLayers := r.lowerLayers.strncpy lowerLayers } := by
  unfold cosaDmlEthPortSetLowerLayers
  cases newLowerLayers with
  | none => exact .inl rfl
  | some lowerLayers =>
    dsimp only
    cases cosaDmlEthPortGetIndexFromIfName t ifname with
    | none => exact .inl rfl
    | some i =>
      dsimp only
      split
      · exact .inl rfl
      · exact .inr ⟨i,_,rfl⟩

theorem getIndexFromIfName_eq_some_iff (t : PortTable) (ifname : Text) (i : Nat) :
    cosaDmlEthPortGetIndexFromIfName t (some ifname) = some i ↔
      FirstAt t.names ifname i := by
  unfold cosaDmlEthPortGetIndexFromIfName PortTable.names PortTable.records
  cases t.gpstEthGInfo with
  | none => simp [FirstAt]
  | some recs => exact findIdx?_eq_some_iff_firstAt

theorem getIndexFromIfName_eq_none_iff (t : PortTable) (ifname : Text) :
    cosaDmlEthPortGetIndexFromIfName t (some ifname) = none ↔ ifname ∉ t.names := by
  unfold cosaDmlEthPortGetIndexFromIfName PortTable.names PortTable.records
  cases t.gpstEthGInfo with
  | none => simp
  | some recs =>
    simp only [List.findIdx?_eq_none_iff,decide_eq_false_iff_not,Option.getD_some,
      List.mem_map,not_exists,not_and]

theorem record_of_index {t : PortTable} {x : Text} {i : Nat}
    (h : cosaDmlEthPortGetIndexFromIfName t (some x) = some i) :
    ∃ r, t.records[i]? = some r ∧ r.name.text = x := by
  have hget := ((getIndexFromIfName_eq_some_iff t x i).mp h).1
  rw [PortTable.names,List.getElem?_map,Option.map_eq_some_iff] at hget
  obtain ⟨r,hr,hname⟩ := hget
  rw [List.getElem?_take] at hr
  split at hr
  · exact ⟨r,hr,hname⟩
  · exact absurd hr (by simp)

theorem getCopy_of_index {t : PortTable} {x : Text} {i : Nat}
    (hi : cosaDmlEthPortGetIndexFromIfName t (some x) = some i) :
    cosaDmlEthPortGetCopyOfGlobalInfoForGivenIfName t (some x) = t.records[i]? := by
  rw [cosaDmlEthPortGetCopyOfGlobalInfoForGivenIfName,hi,Option.bind_some]

theorem names_modifyRecord (t : PortTable) (i : Nat) {f : PortRecord → PortRecord}
    (hf : ∀ r, (f r).name = r.name) : (t.modifyRecord i f).names = t.names := by
  unfold PortTable.names PortTable.records PortTable.modifyRecord
  cases t.gpstEthGInfo with
  | none => rfl
  | some recs =>
    have hmap := map_modify_of_eq (g := fun r : PortRecord => r.name.text)
      (fun r => congrArg Chars.text (hf r)) recs i
    simp only [Option.map_some,Option.getD_some,List.map_take,hmap]

theorem getIndexFromIfName_congr {t t' : PortTable} (h : t'.names = t.names) (ifname : Text) :
    cosaDmlEthPortGetIndexFromIfName t' (some ifname) =
      cosaDmlEthPortGetIndexFromIfName t (some ifname) := by
  apply Option.ext
  intro i
  rw [getIndexFromIfName_eq_some_iff,getIndexFromIfName_eq_some_iff,h]

theorem records_modifyRecord (t : PortTable) (i : Nat) (f : PortRecord → PortRecord) :
    (t.modifyRecord i f).records = t.records.modify i f := by
  unfold PortTable.modifyRecord PortTable.records
  cases t.gpstEthGInfo <;> simp

/-- Writing a field of the record found by a name, other than the name itself. -/
theorem getCopy_modifyRecord {t : PortTable} {ifname : Text} {i : Nat}
    (hi : cosaDmlEthPortGetIndexFromIfName t (some ifname) = some i)
    {f : PortRecord → PortRecord} (hf : ∀ r, (f r).name = r.name) :
    cosaDmlEthPortGetCopyOfGlobalInfoForGivenIfName (t.modifyRecord i f) (some ifname) =
      (cosaDmlEthPortGetCopyOfGlobalInfoForGivenIfName t (some ifname)).map f := by
  have hindex := getIndexFromIfName_congr (names_modifyRecord t i hf) ifname
  unfold cosaDmlEthPortGetCopyOfGlobalInfoForGivenIfName
  rw [hindex,hi,records_modifyRecord]
  simp

theorem getCopy_modifyRecord_of_ne {t : PortTable} {ifname : Text} {i : Nat}
    (hi : cosaDmlEthPortGetIndexFromIfName t (some ifname) ≠ some i)
    {f : PortRecord → PortRecord} (hf : ∀ r, (f r).name = r.name) :
    cosaDmlEthPortGetCopyOfGlobalInfoForGivenIfName (t.modifyRecord i f) (some ifname) =
      cosaDmlEthPortGetCopyOfGlobalInfoForGivenIfName t (some ifname) := by
  have hindex := getIndexFromIfName_congr (names_modifyRecord t i hf) ifname
  unfold cosaDmlEthPortGetCopyOfGlobalInfoForGivenIfName
  rw [hindex,records_modifyRecord]
  cases hj : cosaDmlEthPortGetIndexFromIfName t (some ifname) with
  | none => rfl
  | some j =>
    have hij : i ≠ j := fun h => hi (h ▸ hj)
    simp [List.getElem?_modify,hij]

theorem reallocate_of_le (p : Platform) {recs : List PortRecord} {n : Nat}
    (hn : n ≤ recs.length) : reallocate p (some recs) n = recs.take n := by
  apply List.ext_getElem?
  intro i
  by_cases hi : i < n
  · have hlt : i < recs.length := by omega
    simp [reallocate,hi,hlt]
  · rw [List.getElem?_eq_none (by simp [reallocate]; omega),
      List.getElem?_eq_none (by simp; omega)]

def addedRecord (p : Platform) (recs : List PortRecord) : PortRecord :=
  newRecord p recs.length (p.freshMemory recs recs.length)

theorem reallocate_succ (p : Platform) (recs : List PortRecord) :
    (reallocate p (some recs) (recs.length+1)).modify recs.length (newRecord p recs.length) =
      recs ++ [addedRecord p recs] := by
  have htake : reallocate p (some recs) (recs.length+1) =
      recs ++ [p.freshMemory recs recs.length] := by
    rw [reallocate,List.range_succ,List.map_append]
    congr 1
    · have hle := reallocate_of_le p (Nat.le_refl recs.length)
      rwa [List.take_length] at hle
    · simp
  have hlt : ∀ {i : Nat}, i < recs.length → recs.length ≠ i := fun hi => by omega
  rw [htake]
  apply List.ext_getElem?
  intro i
  rcases Nat.lt_trichotomy i recs.length with hi | rfl | hi
  · simp [List.getElem?_append_left hi,hlt hi]
  · simp [addedRecord]
  · rw [List.getElem?_eq_none (by simp; omega),List.getElem?_eq_none (by simp; omega)]

@[simp] theorem copyRecord_copyRecord (r memory : PortRecord) :
    copyRecord (copyRecord r memory) = copyRecord r := by
  funext slot
  simp [copyRecord,Chars.strncpy_strncpy]

theorem update_add_of_length (p : Platform) {t : PortTable} {recs : List PortRecord}
    (hrecs : t.gpstEthGInfo = some recs) (hlen : recs.length = t.ulTotalNoofEthInterfaces)
    (ifname : Text) :
    cosDmlEthPortUpdateGlobalInfo p true t (some ifname) .ethAddTable =
      (true,⟨some (recs ++ [addedRecord p recs]),t.gTotal+1,
        t.ulTotalNoofEthInterfaces+1⟩) := by
  have happ := reallocate_succ p recs
  rw [hlen] at happ
  simp [cosDmlEthPortUpdateGlobalInfo,hrecs,happ]

theorem index_lt {t : PortTable} {recs : List PortRecord} (hrecs : t.gpstEthGInfo = some recs)
    {ifname : Text} {i : Nat}
    (hi : cosaDmlEthPortGetIndexFromIfName t (some ifname) = some i) :
    i < recs.length ∧ i < t.gTotal := by
  have hlt := ((getIndexFromIfName_eq_some_iff _ _ _).mp hi).lt
  simp only [PortTable.names,PortTable.records,hrecs,Option.getD_some,List.length_map,
    List.length_take] at hlt
  omega

theorem update_del_of_length (p : Platform) {t : PortTable} {recs : List PortRecord}
    (hrecs : t.gpstEthGInfo = some recs) (hlen : recs.length = t.ulTotalNoofEthInterfaces)
    {ifname : Text} {i : Nat}
    (hi : cosaDmlEthPortGetIndexFromIfName t (some ifname) = some i)
    (hp : p.totalNumberOfInternalInterfaces ≤ i) :
    cosDmlEthPortUpdateGlobalInfo p true t (some ifname) .ethDelTable =
      (true,⟨some (swapRemoveBy copyRecord recs i),t.gTotal-1,
        t.ulTotalNoofEthInterfaces-1⟩) := by
  have hlt := (index_lt hrecs hi).1
  rcases List.eq_nil_or_concat' recs with rfl | ⟨l,x,rfl⟩
  · exact absurd hlt (Nat.not_lt_zero i)
  · have hl : reallocate p (some (l ++ [x])) l.length = l := by
      rw [reallocate_of_le p (by simp)]
      simp
    have hlast : ¬ i < p.totalNumberOfInternalInterfaces := by omega
    rw [List.length_append,List.length_singleton] at hlt hlen
    have htotal : t.ulTotalNoofEthInterfaces-1 = l.length := by omega
    simp only [cosDmlEthPortUpdateGlobalInfo,hi,hlast,if_false,if_true,hrecs,htotal]
    by_cases he : i = l.length
    · have hkeep := List.modify_eq_self (f := copyRecord x) (Nat.le_refl l.length)
      simp [swapRemoveBy_concat,hl,he,hkeep,← hlen]
    · have hne : ¬ i+1 = t.ulTotalNoofEthInterfaces := by omega
      simp [PortTable.records,hrecs,swapRemoveBy_concat,hl,hne]

theorem update_add (p : Platform) (recs : List PortRecord) (ifname : Text) :
    cosDmlEthPortUpdateGlobalInfo p true (.ofRecords recs) (some ifname) .ethAddTable =
      (true,.ofRecords (recs ++ [addedRecord p recs])) := by
  rw [update_add_of_length p (t := .ofRecords recs) rfl rfl]
  simp [PortTable.ofRecords]

/-- Deleting from a counted table moves the last record into the hole. -/
theorem update_del (p : Platform) {recs : List PortRecord} {ifname : Text} {i : Nat}
    (hi : cosaDmlEthPortGetIndexFromIfName (.ofRecords recs) (some ifname) = some i)
    (hp : p.totalNumberOfInternalInterfaces ≤ i) :
    cosDmlEthPortUpdateGlobalInfo p true (.ofRecords recs) (some ifname) .ethDelTable =
      (true,.ofRecords (swapRemoveBy copyRecord recs i)) := by
  have hlen := length_swapRemoveBy copyRecord recs i
  rw [update_del_of_length p (t := .ofRecords recs) rfl rfl hi hp]
  simp [PortTable.ofRecords,hlen]

theorem update_del_refused (p : Platform) (reallocated : Bool) {t : PortTable} {ifname : Text}
    (h : ∀ i, cosaDmlEthPortGetIndexFromIfName t (some ifname) = some i →
      i < p.totalNumberOfInternalInterfaces) :
    cosDmlEthPortUpdateGlobalInfo p reallocated t (some ifname) .ethDelTable = (false,t) := by
  simp only [cosDmlEthPortUpdateGlobalInfo]
  cases hi : cosaDmlEthPortGetIndexFromIfName t (some ifname) with
  | none => rfl
  | some i => simp [h i hi]

def updatePorts (p : Platform) (t : PortTable) (op : Option Text × TableOper) : PortTable :=
  (cosDmlEthPortUpdateGlobalInfo p true t op.1 op.2).2

/-- What a step makes of a counted table: nothing, one record more, or one less. -/
theorem updatePorts_cases (p : Platform) (recs : List PortRecord)
    (op : Option Text × TableOper) :
    updatePorts p (.ofRecords recs) op = .ofRecords recs ∨
      updatePorts p (.ofRecords recs) op = .ofRecords (recs ++ [addedRecord p recs]) ∨
      ∃ i, p.totalNumberOfInternalInterfaces ≤ i ∧ i < recs.length ∧
        updatePorts p (.ofRecords recs) op = .ofRecords (swapRemoveBy copyRecord recs i) := by
  obtain ⟨ifname,oper⟩ := op
  cases ifname with
  | none => exact .inl rfl
  | some ifname =>
    cases oper with
    | ethAddTable => exact .inr (.inl (congrArg Prod.snd (update_add p recs ifname)))
    | ethDelTable =>
      by_cases href : ∀ i, cosaDmlEthPortGetIndexFromIfName (.ofRecords recs) (some ifname) =
          some i → i < p.totalNumberOfInternalInterfaces
      · exact .inl (congrArg Prod.snd (update_del_refused p true href))
      · simp only [not_forall,Nat.not_lt] at href
        obtain ⟨i,hi,hp⟩ := href
        exact .inr (.inr ⟨i,hp,(index_lt rfl hi).1,congrArg Prod.snd (update_del p hi hp)⟩)

theorem exec_updatePorts (p : Platform) (recs : List PortRecord)
    (ops : List (Option Text × TableOper)) :
    ∃ recs', exec (updatePorts p) (.ofRecords recs) ops = .ofRecords recs' ∧
      ∀ i x, i < p.totalNumberOfInternalInterfaces → recs[i]? = some x →
        recs'[i]? = some x := by
  induction ops generalizing recs with
  | nil => exact ⟨recs,rfl,fun _ _ _ hx => hx⟩
  | cons op ops ih =>
    rw [exec_cons]
    rcases updatePorts_cases p recs op with heq | heq | ⟨j,hp,hj,heq⟩
    · rw [heq]
      exact ih recs
    · obtain ⟨recs',hrun,hrest⟩ := ih (recs ++ [addedRecord p recs])
      rw [heq]
      refine ⟨recs',hrun,fun i x hi hx => hrest i x hi ?_⟩
      rwa [List.getElem?_append_left (List.getElem?_eq_some_iff.mp hx).1]
    · obtain ⟨recs',hrun,hrest⟩ := ih (swapRemoveBy copyRecord recs j)
      rw [heq]
      refine ⟨recs',hrun,fun i x hi hx => hrest i x hi ?_⟩
      rwa [getElem?_swapRemoveBy_of_lt (by omega) hj]

section LastBytes

structure PortRecord.Ended (r : PortRecord) : Prop where
  name : r.name.last = nul
  path : r.path.last = nul
  lowerLayers : r.lowerLayers.last = nul

/-- The texts do not come to the last bytes. -/
structure PortRecord.Short (r : PortRecord) : Prop where
  name : r.name.text.length+1 < 64
  path : r.path.text.length+1 < 128
  lowerLayers : r.lowerLayers.text.length+1 < 128

structure PortRecord.Takes (memory r : PortRecord) : Prop where
  name : memory.name.Takes r.name.text
  path : memory.path.Takes r.path.text
  lowerLayers : memory.lowerLayers.Takes r.lowerLayers.text

variable {r memory : PortRecord}

theorem fields_copyRecord_iff : (copyRecord r memory).fields = r.fields ↔ memory.Takes r := by
  simp only [PortRecord.fields,copyRecord,PortFields.mk.injEq,Chars.takes_iff,true_and]
  exact ⟨fun ⟨hname,hpath,hlower⟩ => ⟨hname,hpath,hlower⟩,
    fun h => ⟨h.name,h.path,h.lowerLayers⟩⟩

theorem PortRecord.Short.takes (h : r.Short) (memory : PortRecord) : memory.Takes r :=
  ⟨.inl h.name,.inl h.path,.inl h.lowerLayers⟩

theorem PortRecord.Ended.length_lt (h : r.Ended) :
    r.name.text.length < 64 ∧ r.path.text.length < 128 ∧ r.lowerLayers.text.length < 128 := by
  have htext : ∀ {cap : Nat} {s : Chars cap}, s.last = nul → s.text.length < cap := by
    intro cap s hs
    have hfits := s.fits
    simpa [Chars.text,Chars.tail,hs] using hfits
  exact ⟨htext h.name,htext h.path,htext h.lowerLayers⟩

theorem PortRecord.Ended.takes (hm : memory.Ended) (h : r.Ended) : memory.Takes r :=
  ⟨Chars.takes_of_cleared h.length_lt.1 hm.name,Chars.takes_of_cleared h.length_lt.2.1 hm.path,
    Chars.takes_of_cleared h.length_lt.2.2 hm.lowerLayers⟩

theorem PortRecord.Short.of_fields (h : r.Short) {r' : PortRecord} (heq : r'.fields = r.fields) :
    r'.Short := by
  simp only [PortRecord.fields,PortFields.mk.injEq] at heq
  obtain ⟨-,hname,-,-,-,-,hpath,hlower⟩ := heq
  exact ⟨hname ▸ h.name,hpath ▸ h.path,hlower ▸ h.lowerLayers⟩

theorem short_newRecord (p : Platform) (i : Nat) (memory : PortRecord) :
    (newRecord p i memory).Short := by
  have hdigits := length_intDecimal_le
  have hthree : p.ifPrefix.length = 3 := by
    unfold Platform.ifPrefix
    split <;> rfl
  have hpath : ethernetIfPath.length = 32 := by decide
  have hlower : ethernetIfLowerLayers.length = 32 := by decide
  have hname : (p.ifName i).text.length ≤ 3+11 := by
    refine Nat.le_trans (List.length_take_le' _ _) ?_
    rw [List.length_append,hthree]
    exact Nat.add_le_add_left (hdigits i) 3
  refine ⟨?_,?_,?_⟩
  · have hlen := Chars.length_snprintf_le memory.name (p.ifName i).text
    exact Nat.lt_of_le_of_lt (Nat.succ_le_succ (Nat.le_trans hlen hname)) (by decide)
  · have hlen := Chars.length_snprintf_le memory.path (ethernetIfPath ++ intDecimal (i+1))
    rw [List.length_append,hpath] at hlen
    have hi := hdigits (i+1)
    exact Nat.lt_of_le_of_lt (Nat.succ_le_succ hlen) (by omega)
  · have hlen := Chars.length_snprintf_le memory.lowerLayers
      (ethernetIfLowerLayers ++ intDecimal (i+1))
    rw [List.length_append,hlower] at hlen
    have hi := hdigits (i+1)
    exact Nat.lt_of_le_of_lt (Nat.succ_le_succ hlen) (by omega)

structure LastBytes (n : Nat) (recs : List PortRecord) : Prop where
  le : n ≤ recs.length
  ended : ∀ i r, i < n → recs[i]? = some r → r.Ended
  short : ∀ i r, n ≤ i → recs[i]? = some r → r.Short

variable {n : Nat} {recs : List PortRecord}

theorem LastBytes.add (h : LastBytes n recs) (p : Platform) :
    LastBytes n (recs ++ [addedRecord p recs]) := by
  refine ⟨?_,fun i r hi hr => ?_,fun i r hi hr => ?_⟩
  · rw [List.length_append]
    exact Nat.le_add_right_of_le h.le
  · rw [List.getElem?_append_left (Nat.lt_of_lt_of_le hi h.le)] at hr
    exact h.ended i r hi hr
  · rw [List.getElem?_append] at hr
    split at hr
    · exact h.short i r hi hr
    · obtain rfl := List.mem_singleton.mp (List.mem_of_getElem? hr)
      exact short_newRecord p _ _

theorem LastBytes.takes (h : LastBytes n recs) {r memory : PortRecord} {i : Nat}
    (hr : r ∈ recs.getLast?) (hm : memory ∈ recs[i]?) : memory.Takes r := by
  rw [List.getLast?_eq_getElem?] at hr
  by_cases hn : n ≤ recs.length-1
  · exact (h.short _ r hn hr).takes memory
  · have hi := (List.getElem?_eq_some_iff.mp hm).1
    exact (h.ended i memory (by omega) hm).takes (h.ended _ r (by omega) hr)

theorem ended_copyRecord {memory : PortRecord} (h : memory.Ended) (r : PortRecord) :
    (copyRecord r memory).Ended := ⟨h.name,h.path,h.lowerLayers⟩

theorem LastBytes.remove (h : LastBytes n recs) {i : Nat} (hi : i < recs.length) :
    LastBytes (min n (recs.length-1)) (swapRemoveBy copyRecord recs i) := by
  rcases List.eq_nil_or_concat' recs with rfl | ⟨l,x,rfl⟩
  · exact absurd hi (Nat.not_lt_zero i)
  · have hx : x ∈ (l ++ [x]).getLast? := by simp
    have hlen : (l ++ [x]).length-1 = l.length := by simp
    have hold : ∀ {j r}, l[j]? = some r → (l ++ [x])[j]? = some r := fun hr => by
      rwa [List.getElem?_append_left (List.getElem?_eq_some_iff.mp hr).1]
    rw [hlen,swapRemoveBy_concat]
    refine ⟨?_,fun j r hj hr => ?_,fun j r hj hr => ?_⟩
    · rw [List.length_modify]
      exact Nat.min_le_right _ _
    · by_cases hij : i = j
      · subst hij
        rw [List.getElem?_modify_eq,Option.map_eq_map,Option.map_eq_some_iff] at hr
        obtain ⟨memory,hmemory,rfl⟩ := hr
        exact ended_copyRecord (h.ended i memory (by omega) (hold hmemory)) x
      · rw [List.getElem?_modify_ne _ _ hij] at hr
        exact h.ended j r (by omega) (hold hr)
    · have hlt := (List.getElem?_eq_some_iff.mp hr).1
      rw [List.length_modify] at hlt
      by_cases hij : i = j
      · subst hij
        rw [List.getElem?_modify_eq,Option.map_eq_map,Option.map_eq_some_iff] at hr
        obtain ⟨memory,hmemory,rfl⟩ := hr
        have hlast : (l ++ [x])[l.length]? = some x := by simp
        have hshort := h.short l.length x (by omega) hlast
        exact hshort.of_fields (fields_copyRecord_iff.mpr (hshort.takes memory))
      · rw [List.getElem?_modify_ne _ _ hij] at hr
        exact h.short j r (by omega) (hold hr)

end LastBytes

theorem exec_lastBytes (p : Platform) {n : Nat} {recs recs' : List PortRecord}
    (h : LastBytes n recs) {ops : List (Option Text × TableOper)}
    (hrun : exec (updatePorts p) (.ofRecords recs) ops = .ofRecords recs') :
    ∃ n', LastBytes n' recs' := by
  induction ops generalizing n recs with
  | nil =>
    obtain rfl := Option.some_inj.mp (congrArg PortTable.gpstEthGInfo hrun)
    exact ⟨n,h⟩
  | cons op ops ih =>
    rw [exec_cons] at hrun
    rcases updatePorts_cases p recs op with heq | heq | ⟨i,-,hi,heq⟩
    · exact ih h (heq ▸ hrun)
    · exact ih (h.add p) (heq ▸ hrun)
    · exact ih (h.remove hi) (heq ▸ hrun)

/-- The counters count the records, so no index found lies outside; no further
run touches an internal port; a deletion takes one record of the given name and
no other. -/
structure KeepsRecords (p : Platform) (t : PortTable) : Prop where
  counters : t.gpstEthGInfo.map List.length = some t.gTotal ∧
    t.ulTotalNoofEthInterfaces = t.gTotal
  inside : ∀ ifname i, cosaDmlEthPortGetIndexFromIfName t ifname = some i →
    i < t.records.length
  stays : ∀ ifname, ¬t.Leaves ifname
  internal : ∀ ops i x, i < p.totalNumberOfInternalInterfaces → t.records[i]? = some x →
    (exec (updatePorts p) t ops).records[i]? = some x
  delete : ∀ ifname t', cosDmlEthPortUpdateGlobalInfo p true t (some ifname) .ethDelTable =
    (true,t') → ∃ removed ∈ t.records, removed.name.text = ifname ∧
      (t.records.map PortRecord.fields).Perm
        (removed.fields :: t'.records.map PortRecord.fields)

theorem perm_swapRemoveBy {recs : List PortRecord} {i : Nat} (hi : i < recs.length)
    (h : ∀ r ∈ recs.getLast?, ∀ memory ∈ recs[i]?, i+1 < recs.length → memory.Takes r) :
    (recs.map PortRecord.fields).Perm
      (recs[i].fields :: (swapRemoveBy copyRecord recs i).map PortRecord.fields) := by
  have hmap := map_swapRemoveBy (f := copyRecord) (g := PortRecord.fields) (l := recs) (i := i)
    fun r hr memory hm hlt => fields_copyRecord_iff.mpr (h r hr memory hm hlt)
  have hperm := perm_swapRemove (l := recs.map PortRecord.fields) (i := i)
    (by rwa [List.length_map])
  rw [hmap]
  rwa [List.getElem_map] at hperm

theorem keepsRecords_ofRecords (p : Platform) {n : Nat} {recs : List PortRecord}
    (h : LastBytes n recs) : KeepsRecords p (.ofRecords recs) where
  counters := ⟨rfl,rfl⟩
  inside := by
    intro ifname i hi
    cases ifname with
    | none => simp [cosaDmlEthPortGetIndexFromIfName] at hi
    | some ifname => exact (index_lt rfl hi).1
  stays _ h := Nat.lt_irrefl _ h.2.1
  internal := by
    intro ops i x hi hx
    obtain ⟨recs',hrun,hkeep⟩ := exec_updatePorts p recs ops
    rw [hrun]
    exact hkeep i x hi hx
  delete := by
    intro ifname t' hdel
    by_cases href : ∀ i, cosaDmlEthPortGetIndexFromIfName (.ofRecords recs) (some ifname) =
        some i → i < p.totalNumberOfInternalInterfaces
    · rw [update_del_refused p true href] at hdel
      exact absurd (congrArg Prod.fst hdel) (by simp)
    · simp only [not_forall,Nat.not_lt] at href
      obtain ⟨i,hi,hp⟩ := href
      obtain ⟨removed,hremoved,hname⟩ := record_of_index hi
      obtain ⟨hlt,rfl⟩ := List.getElem?_eq_some_iff.mp hremoved
      rw [update_del p hi hp] at hdel
      obtain rfl := congrArg Prod.snd hdel
      exact ⟨_,List.getElem_mem hlt,hname,
        perm_swapRemoveBy hlt fun r hr memory hm _ => h.takes hr hm⟩

end EthAgent
